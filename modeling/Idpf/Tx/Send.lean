import Idpf.Tx.Buffer

/-! The transmit path: resource counting, the room check, context descriptors,
`idpf_tx_splitq_map` with its unwinding, and `idpf_tx_splitq_frame`. What the
function asks of its surroundings is passed in: DMA mapping results, a free
timestamp latch, `__skb_linearize` and `skb_cow_head`. -/
namespace Idpf
open General

/-- The parts of `skb_shared_info` that `idpf_tso` reads. -/
structure Gso where
  segs : Nat
  hdrLen : Nat
  supported : Bool
  deriving DecidableEq, Repr

/-- The parts of an skb the transmit path reads; `frags` are fragment sizes. -/
structure Skb where
  headlen : Nat
  frags : List Nat := []
  gso : Option Gso := none
  vlanTag : Bool := false
  hwTstamp : Bool := false
  deriving DecidableEq, Repr

def Skb.dataLen (skb : Skb) : Nat := skb.frags.sum
def Skb.len (skb : Skb) : Nat := skb.headlen + skb.dataLen

/-- A successful `__skb_linearize`. -/
def Skb.linearized (skb : Skb) : Skb := { skb with headlen := skb.len, frags := [] }

/-- Results of the calls a transmission makes; `dma k` is the address of the
`k`-th buffer of the packet or a mapping error. -/
structure SendEnv where
  linearize : Bool := true
  cowHead : Bool := true
  latch : Option Nat := none
  dma : Nat → Option Nat := fun _ => some 0

/-- `idpf_size_to_txd_count`. -/
def sizeToTxdCount (size : Nat) : Nat := (size + (txMaxDescDataAligned - 1)) / txMaxDescDataAligned

/-- `idpf_chk_linearize`. -/
def chkLinearize (skb : Skb) (maxBufs count : Nat) : Bool :=
  if count ≤ maxBufs then false
  else if skb.gso.isSome then false
  else true

def fragTxdCount (size : Nat) : Nat := if size ≥ 16384 then sizeToTxdCount size else 1

structure ResCount where
  count : Nat
  bufs : Nat
  skb : Skb
  deriving DecidableEq, Repr

/-- `idpf_tx_res_count_required`, with `*bufs_needed` started at one as its
caller does and the skb it may have linearized. -/
def txResCountRequired (txMaxBufs : Nat) (linearize : Bool) (skb : Skb) : ResCount :=
  let count := if skb.headlen = 0 then 0 else 1
  if skb.dataLen = 0 then ⟨count, 1, skb⟩
  else
    let bufs := 1 + skb.frags.length
    let count := count + (skb.frags.map fragTxdCount).sum
    if chkLinearize skb txMaxBufs count then
      if linearize then ⟨sizeToTxdCount skb.len, bufs, skb.linearized⟩ else ⟨0, bufs, skb⟩
    else ⟨count, bufs, skb⟩

/-- The three outcomes of `idpf_tso`: 0, a negative error, or 1. -/
inductive Tso where
  | off | error | on (g : Gso)
  deriving DecidableEq, Repr

def txTso (cowHead : Bool) (skb : Skb) : Tso :=
  match skb.gso with
  | none => .off
  | some g => if cowHead && g.supported then .on g else .error

/-- `IDPF_TX_COMPLQ_PENDING`. -/
def txComplqPending (pending completions : Nat) : Nat := u32Sub pending completions

/-- `IDPF_TX_COMPLQ_OVERFLOW_THRESH`. -/
def txComplqOverflowThresh (descCount : Nat) : Nat := descCount / 2

/-- `idpf_txq_has_room`; `unused` is `IDPF_DESC_UNUSED` of the queue. -/
def txqHasRoom (unused pending thresh : Nat) (refillq : SwQueue) (descsNeeded bufsNeeded : Nat) :
    Bool :=
  !(unused < descsNeeded || pending > thresh || txSplitqGetFreeBufs refillq < bufsNeeded)

/-- `idpf_tx_splitq_need_re`. -/
def txSplitqNeedRe (descCount nextToUse lastRe : Nat) : Bool :=
  let gap : Int := (nextToUse : Int) - lastRe
  let gap := gap + if gap < 0 then (descCount : Int) else 0
  gap ≥ (txSplitqReMinGap : Int)

/-- A position in the descriptor ring being written, and the slots written. -/
structure Cursor where
  ring : Nat → TxDesc
  i : Nat
  slots : List Nat

def Cursor.put (n : Nat) (c : Cursor) (d : TxDesc) : Cursor :=
  ⟨Function.update c.ring c.i d, bump n c.i, c.slots ++ [c.i]⟩

def Cursor.putAll (n : Nat) (c : Cursor) (ds : List TxDesc) : Cursor := ds.foldl (Cursor.put n) c

/-- `idpf_tx_tstamp`: a latch is taken only for a packet that asks for a
timestamp and is not segmented. -/
def txTstamp (latch : Option Nat) (skb : Skb) (tso : Tso) : Option Nat :=
  match tso with
  | .on _ => none
  | _ => if skb.hwTstamp then latch else none

def Tso.count : Tso → Nat
  | .on _ => 1
  | _ => 0

/-- The context descriptors of a packet in the order the hardware wants. -/
def ctxDescs (tso : Tso) (vlanTag : Bool) (latch : Option Nat) : List TxDesc :=
  (match tso with | .on _ => [TxDesc.ctx .tso] | _ => []) ++
    (if vlanTag then [TxDesc.ctx .l2tag1] else []) ++
    (match latch with | some idx => [TxDesc.ctx (.tsyn idx)] | none => [])

/-- `max_data` of a buffer's first descriptor: 12K up to a 4K boundary. -/
def firstMaxData (addr : Nat) : Nat :=
  txMaxDescDataAligned + (txMaxReadReqSize - addr % txMaxReadReqSize) % txMaxReadReqSize

/-- The `while (size > IDPF_TX_MAX_DESC_DATA)` loop of `idpf_tx_splitq_map`: the
descriptors it fills and the rest left for the last one. Every turn takes off
at least 12K, so a fuel of `size` is never used up. -/
def bufChunks : Nat → Nat → Nat → Nat → List (Nat × Nat) × (Nat × Nat)
  | 0, _, addr, size => ([], addr, size)
  | fuel + 1, maxData, addr, size =>
    if size > txMaxDescData then
      let rest := bufChunks fuel txMaxDescDataAligned (addr + maxData) (size - maxData)
      ((addr, maxData) :: rest.1, rest.2)
    else ([], addr, size)

/-- Local state of `idpf_tx_splitq_map`. `mapped` lists the buffers mapped so
far in chain order. -/
structure MapState where
  q : TxQueue
  cur : Cursor
  buf : Nat
  mapped : List (Nat × DmaMap)

inductive MapResult where
  | failed (st : MapState)
  | mapped (st : MapState) (last : Nat × Nat)

/-- Record a successful mapping in `tx_buf` and fill all its descriptors but
the last, which the caller completes. -/
def mapBuf (tag addr size : Nat) (st : MapState) : MapState × (Nat × Nat) :=
  let m : DmaMap := ⟨addr, st.q.mem.nextMap⟩
  let q := st.q.modBuf st.buf fun e => { e with type := .frag, dma := m, len := size }
  let chunks := bufChunks size (firstMaxData addr) addr size
  ({ q := { q with mem := { q.mem with nextMap := q.mem.nextMap + 1 } }
     cur := st.cur.putAll q.descCount (chunks.1.map fun c => .data c.1 c.2 tag false false)
     buf := st.buf
     mapped := st.mapped ++ [(st.buf, m)] }, chunks.2)

section mapBuf

variable (tag addr size : Nat) (st : MapState)

@[simp] theorem mapBuf_buf : (mapBuf tag addr size st).1.buf = st.buf := rfl
@[simp] theorem mapBuf_mapped : (mapBuf tag addr size st).1.mapped =
    st.mapped ++ [(st.buf, ⟨addr, st.q.mem.nextMap⟩)] := rfl
@[simp] theorem mapBuf_refillq : (mapBuf tag addr size st).1.q.refillq = st.q.refillq := rfl
@[simp] theorem mapBuf_flowSchEn :
    (mapBuf tag addr size st).1.q.flowSchEn = st.q.flowSchEn := rfl
@[simp] theorem mapBuf_bufPoolSize :
    (mapBuf tag addr size st).1.q.bufPoolSize = st.q.bufPoolSize := rfl

theorem mapBuf_same : (mapBuf tag addr size st).1.q.bufs st.buf =
    { st.q.bufs st.buf with
      type := .frag, dma := ⟨addr, st.q.mem.nextMap⟩, len := size } := by
  simp [mapBuf]

theorem mapBuf_other {x : Nat} (ne : x ≠ st.buf) :
    (mapBuf tag addr size st).1.q.bufs x = st.q.bufs x := by
  simp [mapBuf, TxQueue.modBuf_other _ _ ne]

end mapBuf

/-- The ID of the next buffer: from the refill queue when the queue is flow
scheduled, else the ring index itself. -/
def nextBufId (q : TxQueue) (i : Nat) : Option (Nat × TxQueue) :=
  if q.flowSchEn then (txGetFreeBufId q.refillq).map fun r => (r.1, { q with refillq := r.2 })
  else some (i, q)

/-- The fragment loop of `idpf_tx_splitq_map`, entered with the `k`-th buffer of
`size` bytes. `data_len` is the sum of the fragments still to map. -/
def txSplitqMapLoop (dma : Nat → Option Nat) (tag : Nat) :
    List Nat → Nat → Nat → MapState → MapResult
  | frags, k, size, st =>
    match dma k with
    | none => .failed { st with q := st.q.setNext st.buf none }
    | some addr =>
      let r := mapBuf tag addr size st
      match frags with
      | [] => .mapped r.1 r.2
      | f :: fs =>
        if (f :: fs).sum = 0 then .mapped r.1 r.2
        else
          let cur := r.1.cur.put r.1.q.descCount (.data r.2.1 r.2.2 tag false false)
          match nextBufId r.1.q cur.i with
          | none => .failed { r.1 with q := r.1.q.setNext r.1.buf none, cur }
          | some (id, q) =>
            txSplitqMapLoop dma tag fs (k + 1) f
              { q := q.setNext r.1.buf (some id), cur, buf := id, mapped := r.1.mapped }

/-- `idpf_tx_splitq_pkt_err_unmap`. The refill queue is rewound only if there
is one, that is on a flow-scheduled queue. -/
def txSplitqPktErrUnmap (q : TxQueue) (prevNtu prevRefillNtc : Nat) (prevRefillGen : Bool)
    (first : Nat) : TxQueue :=
  let skb := (q.bufs first).skb
  let q := (walkChain libethTxComplete q.bufPoolSize ⟨q, {}⟩ first).q
  let q := (q.modBuf first fun e => { e with skb := 0 }).record (.consumeSkb skb)
  { q with
    nextToUse := prevNtu
    refillq := if q.flowSchEn then rflRestore q.refillq prevRefillNtc prevRefillGen else q.refillq }

inductive Verdict where
  | dropped | busy | rolledBack | sent
  deriving DecidableEq, Repr

/-- Result of `idpf_tx_splitq_frame`: the queue, how often it incremented
`num_completions_pending`, the ring slots it wrote, the buffers it handed to the
device and whether the last descriptor asks for an RE completion. -/
structure FrameResult where
  q : TxQueue
  verdict : Verdict
  charged : Nat
  slots : List Nat
  mapped : List (Nat × DmaMap)
  re : Bool

/-- `idpf_tx_drop_skb`. -/
def txDropSkb (q : TxQueue) (skbId : Nat) (slots : List Nat) : FrameResult :=
  ⟨q.record (.consumeSkb skbId), .dropped, 0, slots, [], false⟩

/-- `first->packets` and `first->bytes`. -/
def txPktStats (tso : Tso) (skb : Skb) : NapiStats :=
  match tso with
  | .on g => ⟨g.segs, u32 (skb.len + u32Sub g.segs 1 * g.hdrLen)⟩
  | _ => ⟨1, max skb.len 60⟩

/-- The fields of `idpf_tx_splitq_params` the map function uses, with what
`offload` and `eop_cmd` say about the timestamp and the RE bit. -/
structure TxParams where
  complTag : Nat
  tsyn : Bool
  re : Bool
  prevNtu : Nat
  prevRefillNtc : Nat
  prevRefillGen : Bool

/-- The two ends of `idpf_tx_splitq_map` after its loop. -/
def mapEnd (p : TxParams) : MapResult → FrameResult
  | .failed st =>
    ⟨txSplitqPktErrUnmap { st.q with ring := st.cur.ring } p.prevNtu p.prevRefillNtc
        p.prevRefillGen p.complTag, .rolledBack, p.re.toNat, st.cur.slots, [], p.re⟩
  | .mapped st last =>
    let q := st.q.modBuf p.complTag fun e =>
      { e with type := if p.tsyn then .skbTstamp else .skb, rsIdx := st.cur.i }
    let q := q.setNext st.buf none
    let cur := st.cur.put q.descCount (.data last.1 last.2 p.complTag true p.re)
    ⟨{ q with ring := cur.ring, nextToUse := cur.i }, .sent, p.re.toNat + 1, cur.slots,
      st.mapped, p.re⟩

/-- `idpf_tx_splitq_map`. -/
def txSplitqMap (p : TxParams) (skb : Skb) (dma : Nat → Option Nat) (st : MapState) :
    FrameResult :=
  mapEnd p (txSplitqMapLoop dma p.complTag skb.frags 0 skb.headlen st)

/-- What the checks at the head of `idpf_tx_splitq_frame` decide. -/
inductive Admission where
  | drop | busy
  | accept (skb : Skb) (tso : Tso)

/-- `pending` and `thresh` are the completion counts the room check compares. -/
def txSplitqAdmit (q : TxQueue) (pending thresh : Nat) (skb : Skb) (env : SendEnv) : Admission :=
  let rc := txResCountRequired q.txMaxBufs env.linearize skb
  if rc.count = 0 then .drop
  else
    let tso := txTso env.cowHead rc.skb
    if tso = .error then .drop
    else if !txqHasRoom q.descUnused pending thresh q.refillq
        (rc.count + tso.count + skb.vlanTag.toNat) rc.bufs then .busy
    else .accept rc.skb tso

def ctxCursor (q : TxQueue) (tso : Tso) (vlanTag : Bool) (latch : Option Nat) : Cursor :=
  Cursor.putAll q.descCount ⟨q.ring, q.nextToUse, []⟩ (ctxDescs tso vlanTag latch)

/-- From the context descriptors to the call of `idpf_tx_splitq_map`; `none` if
there is no buffer ID. -/
def txSplitqBegin (q : TxQueue) (skbId : Nat) (skb : Skb) (tso : Tso) (latch : Option Nat) :
    Option (TxParams × MapState) :=
  let cur := ctxCursor q tso skb.vlanTag latch
  (nextBufId q cur.i).map fun r =>
    let re := q.flowSchEn && txSplitqNeedRe q.descCount cur.i q.lastRe
    let stats := txPktStats tso skb
    let q' := { r.2 with lastRe := if re then cur.i else q.lastRe }
    (⟨r.1, latch.isSome, re, q.nextToUse, q.refillq.nextToClean, q.refillq.rflGenChk⟩,
     ⟨q'.modBuf r.1 fun e =>
        { e with skb := skbId, packets := stats.packets, bytes := stats.bytes }, cur, r.1, []⟩)

/-- `idpf_tx_splitq_frame`; `skbId` identifies the skb. -/
def txSplitqFrame (q : TxQueue) (pending thresh skbId : Nat) (skb : Skb) (env : SendEnv) :
    FrameResult :=
  match txSplitqAdmit q pending thresh skb env with
  | .drop => txDropSkb q skbId []
  | .busy => ⟨{ q with stopped := true }, .busy, 0, [], [], false⟩
  | .accept skb tso =>
    let latch := txTstamp env.latch skb tso
    match txSplitqBegin q skbId skb tso latch with
    | none =>
      let cur := ctxCursor q tso skb.vlanTag latch
      txDropSkb { q with ring := cur.ring } skbId cur.slots
    | some (p, st) => txSplitqMap p skb env.dma st

/-- What the room check asks for on behalf of a packet. -/
def txNeeds (q : TxQueue) (skb : Skb) (env : SendEnv) : Nat × Nat :=
  let rc := txResCountRequired q.txMaxBufs env.linearize skb
  (rc.count + (txTso env.cowHead rc.skb).count + skb.vlanTag.toNat, rc.bufs)

theorem txqHasRoom_iff {unused pending thresh descs bufs : Nat} {r : SwQueue} :
    txqHasRoom unused pending thresh r descs bufs = true ↔
      descs ≤ unused ∧ pending ≤ thresh ∧ bufs ≤ txSplitqGetFreeBufs r := by
  simp only [txqHasRoom, Bool.not_eq_true', Bool.or_eq_false_iff, decide_eq_false_iff_not,
    not_lt, gt_iff_lt, and_assoc]

theorem admit_accept {q : TxQueue} {pending thresh : Nat} {skb skb' : Skb} {env : SendEnv}
    {tso : Tso} (accepted : txSplitqAdmit q pending thresh skb env = .accept skb' tso) :
    let rc := txResCountRequired q.txMaxBufs env.linearize skb
    rc.count ≠ 0 ∧ skb' = rc.skb ∧ tso = txTso env.cowHead rc.skb ∧
      rc.count + tso.count + skb.vlanTag.toNat ≤ q.descUnused ∧ pending ≤ thresh ∧
      rc.bufs ≤ txSplitqGetFreeBufs q.refillq := by
  unfold txSplitqAdmit at accepted
  dsimp only at accepted ⊢
  split at accepted
  · cases accepted
  · next counted =>
    split at accepted
    · cases accepted
    · split at accepted
      · cases accepted
      · next room =>
        obtain ⟨rfl, rfl⟩ := Admission.accept.inj accepted
        rw [Bool.not_eq_true', Bool.not_eq_false, txqHasRoom_iff] at room
        exact ⟨counted, rfl, rfl, room⟩

def fragBufs (frags : List Nat) : Nat := if frags.sum = 0 then 0 else frags.length

theorem fragBufs_le (frags : List Nat) : fragBufs frags ≤ frags.length := by
  unfold fragBufs
  split <;> omega

theorem txResCountRequired_bufs (txMaxBufs : Nat) (linearize : Bool) (skb : Skb) :
    fragBufs (txResCountRequired txMaxBufs linearize skb).skb.frags + 1 ≤
      (txResCountRequired txMaxBufs linearize skb).bufs := by
  have most := fragBufs_le skb.frags
  have linear : fragBufs [] = 0 := rfl
  by_cases none : skb.dataLen = 0
  · have spare : fragBufs skb.frags = 0 := if_pos none
    simp only [txResCountRequired, none, if_true, spare, le_refl]
  · simp only [txResCountRequired, none, if_false]
    generalize (if skb.headlen = 0 then 0 else 1) + (skb.frags.map fragTxdCount).sum = count
    cases chkLinearize skb txMaxBufs count <;> cases linearize <;>
      simp only [Skb.linearized, linear, if_true, if_false, Bool.false_eq_true] <;> omega

end Idpf
