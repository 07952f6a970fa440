import Idpf.Tx.Basic
import Idpf.Vport.Queues
import Mathlib.Algebra.BigOperators.Group.List.Basic

/-! Messages that carry a list in chunks: the configuration of the queues, the mapping of queues to
vectors, and MAC filters. -/
namespace Idpf

/-- The part of `struct idpf_q_vector` that a mapping tells. -/
structure MsgVector where
  vIdx : Nat
  txItrIdx : Nat
  rxItrIdx : Nat
  deriving DecidableEq, Repr

/-- The part of `struct idpf_queue` that the messages tell. -/
structure MsgQueue where
  qId : Nat
  qType : Nat
  descCount : Nat
  dma : Nat
  flowSchEn : Bool := false
  relQid : Nat := 0
  rxMaxPktSize : Nat := 0
  rxBufSize : Nat := 0
  rxHsplitEn : Bool := false
  rxHbufSize : Nat := 0
  rxBufferLowWatermark : Nat := 0
  rscEn : Bool := false
  rxdids : Nat := 0
  rxBufStride : Nat := 0
  qVector : MsgVector := ⟨0, 0, 0⟩
  deriving DecidableEq, Repr

/-- `struct idpf_txq_group`. -/
structure MsgTxqGroup where
  txqs : List MsgQueue
  complq : MsgQueue

/-- `struct idpf_rxq_group`: its buffer queues, and the Rx queues of its model. -/
structure MsgRxqGroup where
  bufqs : Nat → MsgQueue
  rxqs : List MsgQueue

/-- An entry of a message, as `struct virtchnl2_txq_info`, `virtchnl2_rxq_info`,
`virtchnl2_queue_vector` or `virtchnl2_mac_addr` has it. -/
inductive MsgEntry where
  | txq (dmaRingAddr type queueId relativeQueueId : Nat) (splitModel : Bool)
      (schedMode qflags ringLen txComplQueueId : Nat)
  | rxq (descIds dmaRingAddr type queueId : Nat) (splitModel : Bool)
      (hdrBufferSize dataBufferSize maxPktSize ringLen bufferNotifStride qflags
        rxBufferLowWatermark rxBufq1Id rxBufq2Id : Nat) (bufq2Ena : Bool)
  | vector (queueId vectorId itrIdx queueType : Nat)
  | mac (addr : Mac) (type : Nat)
  deriving DecidableEq, Repr

/-- `idpf_set_txq_info`. -/
def txqInfo (split : Bool) (grp : MsgTxqGroup) (q : MsgQueue) : MsgEntry :=
  .txq q.dma q.qType q.qId (if split then u16 q.relQid else 0) split (q.flowSchEn && split).toNat 0
    (u16 q.descCount) (if split then u16 grp.complq.qId else 0)

/-- The entry of a completion queue, with `VIRTCHNL2_TXQ_ENABLE_MISS_COMPL`. -/
def complqInfo (split : Bool) (q : MsgQueue) : MsgEntry :=
  .txq q.dma q.qType q.qId 0 split (q.flowSchEn && split).toNat 1 (u16 q.descCount) 0

/-- `VIRTCHNL2_RXQ_HDR_SPLIT` and `VIRTCHNL2_RXQ_RSC` as `__idpf_set_rxq_info` sets them. -/
def rxqFlags (split : Bool) (q : MsgQueue) : Nat :=
  (if q.rxHsplitEn then 2 else 0) + if split && q.rscEn then 1 else 0

/-- `idpf_set_rxq_info`; `VIRTCHNL2_RX_DESC_SIZE_32BYTE` is set for every Rx queue. -/
def rxqInfo (split : Bool) (bufqPerRxq : Nat) (grp : MsgRxqGroup) (q : MsgQueue) : MsgEntry :=
  let two := split && decide (1 < bufqPerRxq)
  .rxq q.rxdids q.dma q.qType q.qId split (if q.rxHsplitEn then u16 q.rxHbufSize else 0) q.rxBufSize
    q.rxMaxPktSize (u16 q.descCount) 0 (rxqFlags split q + 16)
    (if split then u16 q.rxBufferLowWatermark else 0)
    (if split then u16 (grp.bufqs 0).qId else 0) (if two then u16 (grp.bufqs 1).qId else 0) two

/-- `idpf_set_bufq_info`, with `VIRTCHNL2_RXDID_2_FLEX_SPLITQ_M`. -/
def bufqInfo (split : Bool) (q : MsgQueue) : MsgEntry :=
  .rxq 4 q.dma q.qType q.qId split (if q.rxHsplitEn then u16 q.rxHbufSize else 0) q.rxBufSize
    q.rxMaxPktSize (u16 q.descCount) q.rxBufStride (rxqFlags split q)
    (if split then u16 q.rxBufferLowWatermark else 0) 0 0 false

/-- What `idpf_send_config_tx_queues_msg` gathers, group by group. -/
def txInfos (split : Bool) (grps : List MsgTxqGroup) : List MsgEntry :=
  grps.flatMap fun grp =>
    grp.txqs.map (txqInfo split grp) ++ if split then [complqInfo split grp.complq] else []

/-- What `idpf_send_config_rx_queues_msg` gathers: buffer queues come first in a group. -/
def rxInfos (split : Bool) (bufqs : Nat) (grps : List MsgRxqGroup) : List MsgEntry :=
  grps.flatMap fun grp =>
    (if split then (List.range bufqs).map fun j => bufqInfo split (grp.bufqs j) else []) ++
      grp.rxqs.map (rxqInfo split bufqs grp)

/-- What `idpf_send_map_unmap_queue_vector_msg` gathers. A Tx queue of the split model has the
vector of its completion queue. -/
def vectorMaps (txSplit : Bool) (tx : List MsgTxqGroup) (rx : List MsgRxqGroup) : List MsgEntry :=
  (tx.flatMap fun grp => grp.txqs.map fun q =>
    let vec := if txSplit then grp.complq.qVector else q.qVector
    .vector q.qId (u16 vec.vIdx) vec.txItrIdx q.qType) ++
  rx.flatMap fun grp => grp.rxqs.map fun q =>
    .vector q.qId (u16 q.qVector.vIdx) q.qVector.rxItrIdx q.qType

/-- A message: the count it declares, its entries, of which an entry nobody filled is `none`, and
its length in bytes. -/
structure ChunkMsg where
  vportId : Nat
  num : Nat
  entries : List (Option MsgEntry)
  len : Nat
  deriving DecidableEq, Repr

/-- What a call meets: its two allocations, those of a buffer for each MAC message, and what
`idpf_vc_xn_exec` returns for each message. -/
structure ChunkEnv where
  listAlloc : Bool
  bufAlloc : Bool
  chunkAlloc : Nat → Bool
  reply : Nat → Int

/-- The messages sent, and what the call returns. -/
structure ChunkSend where
  msgs : List ChunkMsg
  ret : Int
  deriving DecidableEq, Repr

/-- The size of a mailbox buffer, which fits the length in a descriptor. -/
structure MailboxBuf where
  len : Nat
  small : len < 65536

/-- `IDPF_NUM_CHUNKS_PER_MSG`, in 32 bits. -/
def numChunksPerMsg (buf : MailboxBuf) (hdr chunk : Nat) : Nat :=
  u32 (buf.len + 4294967296 - hdr) / chunk

/-- The loop over the messages: `qi` is what is left from the cursor on. -/
def chunkTurns (hdr chunk vportId : Nat) (reply : Nat → Int) :
    Nat → Nat → List (Option MsgEntry) → Nat → Nat → ChunkSend
  | 0, _, _, _, _ => ⟨[], 0⟩
  | msgs + 1, i, qi, tot, num =>
    let m : ChunkMsg := ⟨vportId, u16 num, qi.take num, hdr + chunk * num⟩
    if reply i < 0 then ⟨[m], reply i⟩
    else
      let r := chunkTurns hdr chunk vportId reply msgs (i + 1) (qi.drop num) (tot - num)
        (min num (tot - num))
      ⟨m :: r.msgs, r.ret⟩

/-- What the queue and vector messages share, with a buffer for `tot` entries. `none` is a write
behind that buffer, or a division by zero. -/
def sendChunked (buf : MailboxBuf) (hdr chunk vportId tot : Nat) (gathered : List MsgEntry)
    (env : ChunkEnv) : Option ChunkSend :=
  if !env.listAlloc then some ⟨[], -12⟩
  else if tot < gathered.length then none
  else
    let qi := gathered.map some ++ List.replicate (tot - gathered.length) none
    let num := min (numChunksPerMsg buf hdr chunk) tot
    if num = 0 then none
    else if !env.bufAlloc then some ⟨[], -12⟩
    else some (chunkTurns hdr chunk vportId env.reply ((tot + num - 1) / num) 0 qi tot num)

/-- `idpf_send_config_tx_queues_msg`. -/
def sendConfigTxQueues (buf : MailboxBuf) (r : QVecRsrc) (tx : List MsgTxqGroup) (vportId : Nat) :
    ChunkEnv → Option ChunkSend :=
  sendChunked buf 16 56 vportId (r.numTxq + r.numComplq) (txInfos r.txSplit tx)

/-- `idpf_send_config_rx_queues_msg`. -/
def sendConfigRxQueues (buf : MailboxBuf) (r : QVecRsrc) (rx : List MsgRxqGroup) (vportId : Nat) :
    ChunkEnv → Option ChunkSend :=
  sendChunked buf 24 88 vportId (r.numRxq + r.numBufq) (rxInfos r.rxSplit r.numBufqsPerQgrp rx)

/-- `idpf_send_map_unmap_queue_vector_msg`; mapping and unmapping differ in the opcode. -/
def sendMapUnmapQueueVector (buf : MailboxBuf) (r : QVecRsrc) (tx : List MsgTxqGroup)
    (rx : List MsgRxqGroup) (vportId : Nat) : ChunkEnv → Option ChunkSend :=
  sendChunked buf 16 24 vportId (r.numTxq + r.numRxq) (vectorMaps r.txSplit tx rx)

/-- `IDPF_NUM_FILTERS_PER_MSG`. -/
def numFiltersPerMsg : Nat := 20

def MacFilter.wanted (add : Bool) (f : MacFilter) : Bool := if add then f.add else f.remove

/-- The entry of a filter, with its `idpf_set_mac_type`. -/
def MacFilter.entry (dflt : Mac) (f : MacFilter) : MsgEntry :=
  .mac f.macaddr (if f.macaddr = dflt then 1 else 2)

/-- The second walk over the filters, with the entries still to fill and the list it leaves. -/
def fillMacs (add : Bool) (dflt : Mac) : Nat → List MacFilter → List MsgEntry × List MacFilter
  | _, [] => ([], [])
  | left, f :: fs =>
    if f.wanted add then
      let f' := if add then { f with add := false } else { f with remove := false }
      if left = 1 then ([f.entry dflt], f' :: fs)
      else
        let r := fillMacs add dflt (left - 1) fs
        (f.entry dflt :: r.1, f' :: r.2)
    else
      let r := fillMacs add dflt left fs
      (r.1, f :: r.2)

/-- The loop of `idpf_add_del_mac_filters`; `held` is whether it has a buffer already. -/
def macTurns (vportId : Nat) (env : ChunkEnv) :
    Nat → Nat → Bool → List (Option MsgEntry) → Nat → ChunkSend
  | 0, _, _, _, _ => ⟨[], 0⟩
  | msgs + 1, i, held, macs, total =>
    let num := min total numFiltersPerMsg
    if (!held || num != numFiltersPerMsg) && !env.chunkAlloc i then ⟨[], -12⟩
    else
      let m : ChunkMsg := ⟨vportId, u16 num, macs.take num, 8 + 8 * num⟩
      if env.reply i < 0 then ⟨[m], env.reply i⟩
      else
        let r := macTurns vportId env msgs (i + 1) true (macs.drop num) (total - num)
        ⟨m :: r.msgs, r.ret⟩

/-- `idpf_add_del_mac_filters`, and the filters it leaves. -/
def addDelMacFilters (filters : List MacFilter) (dflt : Mac) (vportId : Nat) (add : Bool)
    (env : ChunkEnv) : ChunkSend × List MacFilter :=
  let total := filters.countP (MacFilter.wanted add)
  if total = 0 then (⟨[], 0⟩, filters)
  else if !env.listAlloc then (⟨[], -12⟩, filters)
  else
    let r := fillMacs add dflt total filters
    let macs := r.1.map some ++ List.replicate (total - r.1.length) none
    (macTurns vportId env ((total + numFiltersPerMsg - 1) / numFiltersPerMsg) 0 false macs total,
      r.2)

/-- The four senders, and what they send from. -/
structure ChunkSource where
  buf : MailboxBuf
  rsrc : QVecRsrc
  tx : List MsgTxqGroup
  rx : List MsgRxqGroup
  filters : List MacFilter
  dflt : Mac
  vportId : Nat

inductive ChunkKind where
  | configTx
  | configRx
  | vectors
  | macs (add : Bool)
  deriving DecidableEq, Repr

/-- The header of a message and the size of an entry. -/
def ChunkKind.sizes : ChunkKind → Nat × Nat
  | .configTx => (16, 56)
  | .configRx => (24, 88)
  | .vectors => (16, 24)
  | .macs _ => (8, 8)

namespace ChunkSource

def list (c : ChunkSource) : ChunkKind → List MsgEntry
  | .configTx => txInfos c.rsrc.txSplit c.tx
  | .configRx => rxInfos c.rsrc.rxSplit c.rsrc.numBufqsPerQgrp c.rx
  | .vectors => vectorMaps c.rsrc.txSplit c.tx c.rx
  | .macs add => (c.filters.filter (MacFilter.wanted add)).map (MacFilter.entry c.dflt)

def send (c : ChunkSource) : ChunkKind → ChunkEnv → Option ChunkSend
  | .configTx => sendConfigTxQueues c.buf c.rsrc c.tx c.vportId
  | .configRx => sendConfigRxQueues c.buf c.rsrc c.rx c.vportId
  | .vectors => sendMapUnmapQueueVector c.buf c.rsrc c.tx c.rx c.vportId
  | .macs add => fun env => some (addDelMacFilters c.filters c.dflt c.vportId add env).1

end ChunkSource

/-- The messages carry the list in order, all of it unless the call fails, and each declares what
it carries, which is something and fits a mailbox buffer. -/
structure ChunksCover (buf : MailboxBuf) (hdr chunk : Nat) (list : List MsgEntry) (s : ChunkSend) :
    Prop where
  inOrder : s.msgs.flatMap ChunkMsg.entries <+: list.map some
  whole : s.ret = 0 → s.msgs.flatMap ChunkMsg.entries = list.map some
  declared : ∀ m ∈ s.msgs, m.num = m.entries.length
  some_ : ∀ m ∈ s.msgs, m.entries ≠ []
  length : ∀ m ∈ s.msgs, m.len = hdr + chunk * m.entries.length
  fits : ∀ m ∈ s.msgs, m.len ≤ buf.len

/-- When a list is covered: as many entries are gathered as the buffer is for, at least one, and a
message has room for one. MAC messages have room for those that they carry. -/
def ChunkSource.listOk (c : ChunkSource) (k : ChunkKind) : Bool :=
  match k with
  | .configTx => decide ((c.list k).length = c.rsrc.numTxq + c.rsrc.numComplq) &&
      c.list k != [] && decide (16 + 56 ≤ c.buf.len)
  | .configRx => decide ((c.list k).length = c.rsrc.numRxq + c.rsrc.numBufq) &&
      c.list k != [] && decide (24 + 88 ≤ c.buf.len)
  | .vectors => decide ((c.list k).length = c.rsrc.numTxq + c.rsrc.numRxq) &&
      c.list k != [] && decide (16 + 24 ≤ c.buf.len)
  | .macs _ => c.list k == [] ||
      decide (8 + 8 * min (c.list k).length numFiltersPerMsg ≤ c.buf.len)

/-! Both loops send a list in chunks of at most `p` entries. -/

/-- What a loop over `qi` sends and returns. -/
structure TurnsCover (hdr chunk p : Nat) (qi : List (Option MsgEntry)) (s : ChunkSend) : Prop where
  inOrder : s.msgs.flatMap ChunkMsg.entries <+: qi
  whole : s.ret = 0 → s.msgs.flatMap ChunkMsg.entries = qi
  declared : ∀ m ∈ s.msgs, m.num = u16 m.entries.length
  some_ : ∀ m ∈ s.msgs, m.entries ≠ []
  length : ∀ m ∈ s.msgs, m.len = hdr + chunk * m.entries.length
  atMost : ∀ m ∈ s.msgs, m.entries.length ≤ p

namespace TurnsCover

variable {hdr chunk p num vportId : Nat} {qi : List (Option MsgEntry)}

theorem nil : TurnsCover hdr chunk p [] ⟨[], 0⟩ :=
  ⟨List.prefix_refl _, fun _ => rfl, nofun, nofun, nofun, nofun⟩

theorem failed {err : Int} (bad : err ≠ 0) : TurnsCover hdr chunk p qi ⟨[], err⟩ :=
  ⟨List.nil_prefix, fun good => absurd good bad, nofun, nofun, nofun, nofun⟩

/-- One message more in front of what the rest of the loop sends. -/
theorem cons {r : ChunkSend} (pos : 0 < num) (short : num ≤ p) (inside : num ≤ qi.length)
    (rest : TurnsCover hdr chunk p (qi.drop num) r) :
    TurnsCover hdr chunk p qi
      ⟨⟨vportId, u16 num, qi.take num, hdr + chunk * num⟩ :: r.msgs, r.ret⟩ := by
  have length : (qi.take num).length = num := by
    rw [List.length_take]
    exact Nat.min_eq_left inside
  have split : qi.take num ++ qi.drop num = qi := List.take_append_drop num qi
  constructor
  · rw [List.flatMap_cons]
    conv_rhs => rw [← split]
    exact (List.prefix_append_right_inj _).mpr rest.inOrder
  · intro good
    rw [List.flatMap_cons, rest.whole good]
    exact split
  · intro m member
    rcases List.mem_cons.mp member with rfl | later
    · rw [length]
    · exact rest.declared m later
  · intro m member
    rcases List.mem_cons.mp member with rfl | later
    · intro empty
      change qi.take num = [] at empty
      rw [empty, List.length_nil] at length
      omega
    · exact rest.some_ m later
  · intro m member
    rcases List.mem_cons.mp member with rfl | later
    · rw [length]
    · exact rest.length m later
  · intro m member
    rcases List.mem_cons.mp member with rfl | later
    · rw [length]
      exact short
    · exact rest.atMost m later

/-- A message that is not answered well ends the loop. -/
theorem last {err : Int} (bad : err ≠ 0) (pos : 0 < num) (short : num ≤ p)
    (inside : num ≤ qi.length) :
    TurnsCover hdr chunk p qi
      ⟨[⟨vportId, u16 num, qi.take num, hdr + chunk * num⟩], err⟩ :=
  cons (r := ⟨[], err⟩) pos short inside (failed bad)

end TurnsCover

/-- The loop of the queue and vector messages with enough turns, and none too many. -/
theorem chunkTurns_cover {hdr chunk vportId p msgs i tot num : Nat} {reply : Nat → Int}
    {qi : List (Option MsgEntry)} (pos : 0 < p) (length : qi.length = tot) (size : num = min p tot)
    (enough : tot ≤ msgs * p) (tight : msgs = 0 ∨ (msgs - 1) * p < tot) :
    TurnsCover hdr chunk p qi (chunkTurns hdr chunk vportId reply msgs i qi tot num) := by
  induction msgs generalizing i tot num qi with
  | zero =>
      have none : qi = [] := List.eq_nil_of_length_eq_zero (by omega)
      rw [chunkTurns, none]
      exact .nil
  | succ msgs ih =>
      have more : msgs * p < tot := by
        rcases tight with none | tight
        · exact absurd none (Nat.succ_ne_zero _)
        · exact tight
      have some : 0 < num := by omega
      have inside : num ≤ qi.length := by omega
      rw [chunkTurns]
      dsimp only
      split
      · next bad => exact .last (Int.ne_of_lt bad) some (by omega) inside
      · apply TurnsCover.cons some (by omega) inside
        apply ih
        · rw [List.length_drop, length]
        · omega
        · rw [Nat.succ_mul] at enough
          omega
        · by_cases done : msgs = 0
          · exact .inl done
          · obtain ⟨k, rfl⟩ := Nat.exists_eq_succ_of_ne_zero done
            rw [Nat.succ_mul] at more
            right
            rw [Nat.succ_sub_one]
            omega

/-- The loop of the MAC messages. -/
theorem macTurns_cover {vportId p msgs i total : Nat} {env : ChunkEnv} {held : Bool}
    {macs : List (Option MsgEntry)} (most : min total numFiltersPerMsg ≤ p)
    (length : macs.length = total) (enough : total ≤ msgs * numFiltersPerMsg)
    (tight : msgs = 0 ∨ (msgs - 1) * numFiltersPerMsg < total) :
    TurnsCover 8 8 p macs (macTurns vportId env msgs i held macs total) := by
  induction msgs generalizing i total macs held with
  | zero =>
      have none : macs = [] := List.eq_nil_of_length_eq_zero (by omega)
      rw [macTurns, none]
      exact .nil
  | succ msgs ih =>
      have more : msgs * numFiltersPerMsg < total := by
        rcases tight with none | tight
        · exact absurd none (Nat.succ_ne_zero _)
        · exact tight
      unfold numFiltersPerMsg at most enough more ih
      have some : 0 < min total 20 := by omega
      have inside : min total 20 ≤ macs.length := by omega
      rw [macTurns]
      unfold numFiltersPerMsg
      dsimp only
      split
      · exact .failed (by decide)
      · split
        · next bad => exact .last (Int.ne_of_lt bad) some most inside
        · apply TurnsCover.cons some most inside
          apply ih
          · omega
          · rw [List.length_drop, length]
          · omega
          · omega

theorem roundUp_turns (tot : Nat) {p : Nat} (pos : 0 < p) :
    tot ≤ (tot + p - 1) / p * p ∧
      ((tot + p - 1) / p = 0 ∨ ((tot + p - 1) / p - 1) * p < tot) := by
  have whole := Nat.div_add_mod (tot + p - 1) p
  have rest := Nat.mod_lt (tot + p - 1) pos
  rw [Nat.mul_comm] at whole
  constructor
  · omega
  · by_cases none : (tot + p - 1) / p = 0
    · exact .inl none
    · obtain ⟨k, turns⟩ := Nat.exists_eq_succ_of_ne_zero none
      rw [turns, Nat.succ_mul] at whole
      right
      rw [turns, Nat.succ_sub_one]
      omega

theorem TurnsCover.covers {hdr chunk p : Nat} {list : List MsgEntry} {s : ChunkSend}
    {buf : MailboxBuf} (v : TurnsCover hdr chunk p (list.map some) s) (some : 0 < chunk)
    (fits : hdr + chunk * p ≤ buf.len) : ChunksCover buf hdr chunk list s := by
  have small := buf.small
  constructor
  · exact v.inOrder
  · exact v.whole
  · intro m member
    have most := v.atMost m member
    have scaled : chunk * m.entries.length ≤ chunk * p := Nat.mul_le_mul_left chunk most
    have grows : m.entries.length ≤ chunk * m.entries.length := Nat.le_mul_of_pos_left _ some
    rw [v.declared m member]
    exact Nat.mod_eq_of_lt (by omega)
  · exact v.some_
  · exact v.length
  · intro m member
    have scaled : chunk * m.entries.length ≤ chunk * p :=
      Nat.mul_le_mul_left chunk (v.atMost m member)
    rw [v.length m member]
    omega

def goodEnv : ChunkEnv := ⟨true, true, fun _ => true, fun _ => 0⟩

theorem chunkTurns_goodEnv (hdr chunk vportId msgs i : Nat) (qi : List (Option MsgEntry))
    (tot num : Nat) : (chunkTurns hdr chunk vportId goodEnv.reply msgs i qi tot num).ret = 0 := by
  induction msgs generalizing i qi tot num with
  | zero => rfl
  | succ msgs ih =>
      rw [chunkTurns]
      exact ih _ _ _ _

theorem numChunksPerMsg_eq {buf : MailboxBuf} {hdr : Nat} (room : hdr ≤ buf.len) (chunk : Nat) :
    numChunksPerMsg buf hdr chunk = (buf.len - hdr) / chunk := by
  have small := buf.small
  unfold numChunksPerMsg u32
  congr 1
  omega

def msgBuffer (tot : Nat) (gathered : List MsgEntry) : List (Option MsgEntry) :=
  gathered.map some ++ List.replicate (tot - gathered.length) none

theorem sendChunked_goodEnv (buf : MailboxBuf) (hdr chunk vportId tot : Nat)
    (gathered : List MsgEntry) :
    sendChunked buf hdr chunk vportId tot gathered goodEnv =
      if tot < gathered.length then none
      else
        let num := min (numChunksPerMsg buf hdr chunk) tot
        if num = 0 then none
        else some (chunkTurns hdr chunk vportId goodEnv.reply ((tot + num - 1) / num) 0
          (msgBuffer tot gathered) tot num) := by
  unfold sendChunked
  simp only [goodEnv, Bool.not_true, Bool.false_eq_true, if_false, msgBuffer]

/-- What the loop of a call covers is its whole buffer. -/
theorem chunkTurns_buffer {tot num : Nat} {gathered : List MsgEntry} (some : num ≠ 0)
    (within : ¬ tot < gathered.length) (few : num ≤ tot) (hdr chunk vportId : Nat)
    (reply : Nat → Int) :
    TurnsCover hdr chunk num (msgBuffer tot gathered)
      (chunkTurns hdr chunk vportId reply ((tot + num - 1) / num) 0 (msgBuffer tot gathered) tot
        num) := by
  have pos := Nat.pos_of_ne_zero some
  obtain ⟨enough, tight⟩ := roundUp_turns tot pos
  apply chunkTurns_cover pos _ (Nat.min_eq_left few).symm enough tight
  rw [msgBuffer, List.length_append, List.length_map, List.length_replicate]
  omega

/-- When the queue and vector messages cover what has been gathered. -/
theorem sendChunked_covers_iff (buf : MailboxBuf) {hdr chunk : Nat} (some_ : 0 < chunk)
    (vportId tot : Nat) (gathered : List MsgEntry) :
    (∀ env, ∃ s, sendChunked buf hdr chunk vportId tot gathered env = some s ∧
        ChunksCover buf hdr chunk gathered s) ↔
      gathered.length = tot ∧ gathered ≠ [] ∧ hdr + chunk ≤ buf.len := by
  have refused : ChunksCover buf hdr chunk gathered ⟨[], -12⟩ :=
    ⟨List.nil_prefix, nofun, nofun, nofun, nofun, nofun⟩
  constructor
  · intro covers
    obtain ⟨s, sent, cover⟩ := covers goodEnv
    rw [sendChunked_goodEnv] at sent
    split at sent
    · exact absurd sent nofun
    · next within =>
        dsimp only at sent
        split at sent
        · exact absurd sent nofun
        · next some =>
            obtain rfl := Option.some.inj sent
            have few : min (numChunksPerMsg buf hdr chunk) tot ≤ tot := Nat.min_le_right _ _
            have turns := chunkTurns_buffer some within few hdr chunk vportId goodEnv.reply
            have done := chunkTurns_goodEnv hdr chunk vportId
              ((tot + min (numChunksPerMsg buf hdr chunk) tot - 1) /
                min (numChunksPerMsg buf hdr chunk) tot) 0 (msgBuffer tot gathered) tot
              (min (numChunksPerMsg buf hdr chunk) tot)
            have payload := (turns.whole done).symm.trans (cover.whole done)
            have length : gathered.length = tot := by
              have length := congrArg List.length payload
              rw [msgBuffer, List.length_append, List.length_map, List.length_replicate] at length
              omega
            have filled : gathered ≠ [] := by
              rintro rfl
              exact some (by rw [← length]; exact Nat.min_zero _)
            refine ⟨length, filled, ?_⟩
            -- an empty list of messages would carry nothing
            cases sent : (chunkTurns hdr chunk vportId goodEnv.reply
              ((tot + min (numChunksPerMsg buf hdr chunk) tot - 1) /
                min (numChunksPerMsg buf hdr chunk) tot) 0 (msgBuffer tot gathered) tot
              (min (numChunksPerMsg buf hdr chunk) tot)).msgs with
            | nil =>
                have nothing := cover.whole done
                rw [sent, List.flatMap_nil] at nothing
                exact absurd (List.map_eq_nil_iff.mp nothing.symm) filled
            | cons m msgs =>
                have member := sent ▸ List.mem_cons_self (a := m) (l := msgs)
                have one := List.length_pos_iff.mpr (cover.some_ m member)
                have fits := cover.fits m member
                have scaled : chunk * 1 ≤ chunk * m.entries.length := Nat.mul_le_mul_left chunk one
                rw [cover.length m member] at fits
                omega
  · rintro ⟨length, filled, room⟩ env
    have tot_pos : 0 < gathered.length := List.length_pos_iff.mpr filled
    have per := numChunksPerMsg_eq (Nat.le_of_add_right_le room) chunk
    have one : 0 < (buf.len - hdr) / chunk := Nat.div_pos (by omega) some_
    have within : ¬ tot < gathered.length := by omega
    have some : min (numChunksPerMsg buf hdr chunk) tot ≠ 0 := by
      rw [per]
      omega
    have buffer : msgBuffer tot gathered = gathered.map Option.some := by
      rw [msgBuffer, length, Nat.sub_self, List.replicate_zero, List.append_nil]
    have turns := chunkTurns_buffer some within (Nat.min_le_right _ _) hdr chunk vportId env.reply
    unfold sendChunked
    rw [if_neg within]
    split
    · exact ⟨_, rfl, refused⟩
    · dsimp only
      rw [if_neg some]
      split
      · exact ⟨_, rfl, refused⟩
      · refine ⟨_, rfl, ?_⟩
        change ChunksCover buf hdr chunk gathered (chunkTurns hdr chunk vportId env.reply _ 0
          (msgBuffer tot gathered) tot _)
        rw [buffer] at turns ⊢
        apply turns.covers some_
        have most : min (numChunksPerMsg buf hdr chunk) tot ≤ (buf.len - hdr) / chunk := by
          rw [per]
          exact Nat.min_le_left _ _
        have scaled := Nat.mul_le_mul_left chunk most
        have whole := Nat.mul_div_le (buf.len - hdr) chunk
        omega

/-- The same as a test of what has been gathered. -/
theorem sendChunked_gathered_iff (buf : MailboxBuf) {hdr chunk : Nat} (some_ : 0 < chunk)
    (vportId tot : Nat) (gathered : List MsgEntry) :
    (∀ env, ∃ s, sendChunked buf hdr chunk vportId tot gathered env = some s ∧
        ChunksCover buf hdr chunk gathered s) ↔
      (decide (gathered.length = tot) && gathered != [] && decide (hdr + chunk ≤ buf.len)) =
        true := by
  rw [sendChunked_covers_iff buf some_]
  simp only [Bool.and_eq_true, decide_eq_true_eq, bne_iff_ne, and_assoc]

/-- The flag of a filter that a message has been sent for. -/
def MacFilter.cleared (add : Bool) (f : MacFilter) : MacFilter :=
  if f.wanted add then if add then { f with add := false } else { f with remove := false } else f

/-- The second walk finds as many filters as the first has counted. -/
theorem fillMacs_eq (add : Bool) (dflt : Mac) (filters : List MacFilter) :
    fillMacs add dflt (filters.countP (MacFilter.wanted add)) filters =
      ((filters.filter (MacFilter.wanted add)).map (MacFilter.entry dflt),
        filters.map (MacFilter.cleared add)) := by
  induction filters with
  | nil => rfl
  | cons f fs ih =>
      cases wanted : f.wanted add with
      | false =>
          have off : ¬ f.wanted add = true := Bool.eq_false_iff.mp wanted
          rw [List.countP_cons_of_neg off, List.filter_cons_of_neg off, List.map_cons, fillMacs, ih,
            if_neg off, MacFilter.cleared, if_neg off]
      | true =>
          rw [List.countP_cons_of_pos wanted, List.filter_cons_of_pos wanted, List.map_cons,
            List.map_cons, fillMacs, if_pos wanted, MacFilter.cleared, if_pos wanted]
          dsimp only
          split
          · next last =>
              -- no filter behind the last one counted is wanted, so the rest stays as it is
              have none : fs.countP (MacFilter.wanted add) = 0 := by omega
              have off := List.countP_eq_zero.mp none
              have empty : fs.filter (MacFilter.wanted add) = [] :=
                List.filter_eq_nil_iff.mpr off
              have same : fs.map (MacFilter.cleared add) = fs := by
                conv_rhs => rw [← List.map_id fs]
                apply List.map_congr_left
                intro g member
                rw [MacFilter.cleared, if_neg (off g member)]
                rfl
              rw [empty, same, List.map_nil]
          · rw [Nat.add_sub_cancel, ih]

theorem chunkSource_macs_length (c : ChunkSource) (add : Bool) :
    (c.list (.macs add)).length = c.filters.countP (MacFilter.wanted add) := by
  change ((c.filters.filter (MacFilter.wanted add)).map (MacFilter.entry c.dflt)).length = _
  rw [List.length_map, List.countP_eq_length_filter]

/-- The MAC messages of a list that is not empty. -/
theorem addDelMacFilters_some (c : ChunkSource) (add : Bool) {env : ChunkEnv}
    (some : c.list (.macs add) ≠ []) (alloc : env.listAlloc = true) :
    (addDelMacFilters c.filters c.dflt c.vportId add env).1 =
      macTurns c.vportId env
        (((c.list (.macs add)).length + numFiltersPerMsg - 1) / numFiltersPerMsg) 0 false
        ((c.list (.macs add)).map Option.some) (c.list (.macs add)).length := by
  have count := chunkSource_macs_length c add
  have pos := List.length_pos_iff.mpr some
  have more : ¬ c.filters.countP (MacFilter.wanted add) = 0 := by omega
  rw [addDelMacFilters, if_neg more, alloc, fillMacs_eq]
  change macTurns _ _ _ _ _ ((c.list (.macs add)).map Option.some ++
    List.replicate (_ - (c.list (.macs add)).length) none) _ = _
  rw [count, Nat.sub_self, List.replicate_zero, List.append_nil]

theorem addDelMacFilters_covers_iff (c : ChunkSource) (add : Bool) :
    (∀ env, ∃ s, c.send (.macs add) env = some s ∧
        ChunksCover c.buf 8 8 (c.list (.macs add)) s) ↔
      c.list (.macs add) = [] ∨
        8 + 8 * min (c.list (.macs add)).length numFiltersPerMsg ≤ c.buf.len := by
  have count := chunkSource_macs_length c add
  by_cases none : c.list (.macs add) = []
  · refine ⟨fun _ => .inl none, fun _ env => ⟨⟨[], 0⟩, ?_, ?_⟩⟩
    · rw [none, List.length_nil] at count
      change some (addDelMacFilters c.filters c.dflt c.vportId add env).1 = _
      rw [addDelMacFilters, if_pos count.symm]
    · rw [none]
      exact ⟨List.prefix_refl _, fun _ => rfl, nofun, nofun, nofun, nofun⟩
  · have pos := List.length_pos_iff.mpr none
    have turned (env : ChunkEnv) (alloc : env.listAlloc = true) :
        c.send (.macs add) env = some (macTurns c.vportId env
          (((c.list (.macs add)).length + numFiltersPerMsg - 1) / numFiltersPerMsg) 0 false
          ((c.list (.macs add)).map Option.some) (c.list (.macs add)).length) := by
      change some (addDelMacFilters c.filters c.dflt c.vportId add env).1 = _
      rw [addDelMacFilters_some c add none alloc]
    obtain ⟨enough, tight⟩ :=
      roundUp_turns (c.list (.macs add)).length (p := numFiltersPerMsg) (by decide)
    constructor
    · intro covers
      right
      obtain ⟨s, sent, cover⟩ := covers goodEnv
      rw [turned goodEnv rfl] at sent
      obtain rfl := Option.some.inj sent
      have turns : ((c.list (.macs add)).length + numFiltersPerMsg - 1) / numFiltersPerMsg ≠ 0 := by
        intro zero
        rw [zero] at enough
        omega
      obtain ⟨k, turns⟩ := Nat.exists_eq_succ_of_ne_zero turns
      rw [turns, macTurns] at cover
      exact cover.fits _ List.mem_cons_self
    · rintro (empty | fits) env
      · exact absurd empty none
      · cases alloc : env.listAlloc with
        | false =>
            have more : ¬ c.filters.countP (MacFilter.wanted add) = 0 := by omega
            refine ⟨⟨[], -12⟩, ?_, List.nil_prefix, nofun, nofun, nofun, nofun, nofun⟩
            change some (addDelMacFilters c.filters c.dflt c.vportId add env).1 = _
            rw [addDelMacFilters, if_neg more, alloc]
            rfl
        | true =>
            refine ⟨_, turned env alloc, ?_⟩
            exact (macTurns_cover (Nat.le_refl _) (List.length_map _) enough tight).covers
              (by decide) fits

/-! How many entries are gathered from the groups that the driver makes. -/

/-- The groups of `idpf_vport_calc_num_q_groups`, with the queues that
`idpf_vport_calc_numq_per_grp` gives each. -/
structure Allocated (r : QVecRsrc) (tx : List MsgTxqGroup) (rx : List MsgRxqGroup) : Prop where
  tx : tx.map (fun grp => grp.txqs.length) =
    List.replicate r.calcNumQGroups.numTxqGrp (if r.txSplit then 1 else r.numTxq)
  rx : rx.map (fun grp => grp.rxqs.length) =
    List.replicate r.calcNumQGroups.numRxqGrp (if r.rxSplit then 1 else r.numRxq)

namespace Allocated

variable {r : QVecRsrc} {tx : List MsgTxqGroup} {rx : List MsgRxqGroup}

theorem txqs (v : Allocated r tx rx) : (tx.map fun grp => grp.txqs.length).sum =
    if r.txSplit then r.numComplq else r.numTxq := by
  rw [v.tx, List.sum_replicate, QVecRsrc.calcNumQGroups]
  cases r.txSplit <;> simp

theorem rxqs (v : Allocated r tx rx) : (rx.map fun grp => grp.rxqs.length).sum = r.numRxq := by
  rw [v.rx, List.sum_replicate, QVecRsrc.calcNumQGroups]
  cases r.rxSplit <;> simp

/-- In the split model there is one Tx queue for each completion queue. -/
theorem txInfos_length (v : Allocated r tx rx) : (txInfos r.txSplit tx).length =
    if r.txSplit then r.numComplq + r.numComplq else r.numTxq := by
  have queues := v.txqs
  have groups := congrArg List.length v.tx
  rw [List.length_map, List.length_replicate, QVecRsrc.calcNumQGroups] at groups
  cases split : r.txSplit with
  | false =>
      rw [split] at queues
      simpa [txInfos, List.length_flatMap] using queues
  | true =>
      rw [split] at queues groups
      simp only [if_true] at queues groups ⊢
      simp [txInfos, List.length_flatMap, List.sum_map_add, queues, groups]

theorem rxInfos_length (v : Allocated r tx rx) :
    (rxInfos r.rxSplit r.numBufqsPerQgrp rx).length =
      if r.rxSplit then r.numRxq * r.numBufqsPerQgrp + r.numRxq else r.numRxq := by
  have queues := v.rxqs
  have groups := congrArg List.length v.rx
  rw [List.length_map, List.length_replicate, QVecRsrc.calcNumQGroups] at groups
  cases split : r.rxSplit with
  | false => simpa [rxInfos, List.length_flatMap] using queues
  | true =>
      rw [split] at groups
      simp only [if_true] at groups ⊢
      simp [rxInfos, List.length_flatMap, List.sum_map_add, queues, groups]

theorem vectorMaps_length (v : Allocated r tx rx) : (vectorMaps r.txSplit tx rx).length =
    (if r.txSplit then r.numComplq else r.numTxq) + r.numRxq := by
  simp [vectorMaps, List.length_flatMap, v.txqs, v.rxqs]

end Allocated

/-- A list is covered in every case if and only if `listOk` holds of it. -/
theorem chunks_cover_iff (c : ChunkSource) (k : ChunkKind) :
    (∀ env, ∃ s, c.send k env = some s ∧
        ChunksCover c.buf k.sizes.1 k.sizes.2 (c.list k) s) ↔ c.listOk k = true := by
  cases k with
  | configTx => exact sendChunked_gathered_iff c.buf (by decide) c.vportId _ _
  | configRx => exact sendChunked_gathered_iff c.buf (by decide) c.vportId _ _
  | vectors => exact sendChunked_gathered_iff c.buf (by decide) c.vportId _ _
  | macs add =>
      refine (addDelMacFilters_covers_iff c add).trans ?_
      simp only [ChunkSource.listOk, Bool.or_eq_true, beq_iff_eq, decide_eq_true_eq]

/-- A reply with three Tx queues for two completion queues, in the split model. -/
def threeOnTwo : ChunkSource where
  buf := ⟨4096, by decide⟩
  rsrc := { QVecRsrc.zero true true with numTxq := 3, numComplq := 2, numTxqGrp := 2 }
  tx := [⟨[⟨0, 0, 512, 4096, true, 0, 0, 0, false, 0, 0, false, 0, 0, ⟨1, 0, 0⟩⟩],
      ⟨8, 2, 512, 8192, true, 0, 0, 0, false, 0, 0, false, 0, 0, ⟨1, 0, 0⟩⟩⟩,
    ⟨[⟨1, 0, 512, 12288, true, 0, 0, 0, false, 0, 0, false, 0, 0, ⟨2, 0, 0⟩⟩],
      ⟨9, 2, 512, 16384, true, 0, 0, 0, false, 0, 0, false, 0, 0, ⟨2, 0, 0⟩⟩⟩]
  rx := []
  filters := []
  dflt := 0
  vportId := 0

/-- Its message declares five entries, of which the last has not been filled; and the message about
its Rx queues, of which there are none, divides by zero. -/
theorem threeOnTwo_not_covered :
    ((threeOnTwo.send .configTx goodEnv).map fun s => s.msgs.map fun m =>
      (m.num, m.entries.map Option.isSome)) = some [(5, [true, true, true, true, false])] ∧
    (threeOnTwo.send .configRx goodEnv).isNone = true ∧
    ¬ (∀ env, ∃ s, threeOnTwo.send .configTx env = some s ∧
      ChunksCover threeOnTwo.buf 16 56 (threeOnTwo.list .configTx) s) := by
  refine ⟨by decide +kernel, by decide +kernel, ?_⟩
  intro covers
  obtain ⟨s, sent, cover⟩ := covers goodEnv
  have unfilled : none ∈ s.msgs.flatMap ChunkMsg.entries := by
    have filled : ((threeOnTwo.send .configTx goodEnv).map fun s =>
        decide (none ∈ s.msgs.flatMap ChunkMsg.entries)) = some true := by
      decide +kernel
    rw [sent, Option.map_some, Option.some.injEq, decide_eq_true_eq] at filled
    exact filled
  obtain ⟨e, -, eq⟩ := List.mem_map.mp (cover.inOrder.subset unfilled)
  exact absurd eq nofun

end Idpf
