import Idpf.Tx.System
import Mathlib.Data.List.Perm.Basic

/-! A split Tx queue with an AF_XDP pool: frames of user space and `XDP_TX` frames
share the descriptor ring and the buffer IDs, and completions are reported to the
pool. -/
namespace Idpf
open General

/-- `struct xdp_desc` with the address `xsk_buff_raw_get_dma` finds for it. -/
structure XskDesc where
  addr : Nat
  len : Nat
  deriving DecidableEq, Repr

/-- A zero-copy Tx queue: `active` is `xdp_tx_active`, `pool` the frames waiting in
the pool's Tx ring, `completed` what `xsk_tx_completed` has been told in total and
`returned` the frames given back by `xdp_return_frame`. -/
structure XskTxq where
  q : TxQueue
  active : Nat
  pool : List XskDesc
  frameLen : Nat
  completed : Nat
  returned : List Nat

/-- A batch of `idpf_xmit_splitq_zc` under way, with the buffer IDs it has used. -/
structure XskBatch where
  q : TxQueue
  pool : List XskDesc
  ntu : Nat
  sent : List Nat
  charged : Nat

/-- How the loop of a batch ends; `dry` carries the budget left. -/
inductive XskEnd where
  | spent | dry (left : Nat) | noBuf
  deriving DecidableEq, Repr

/-- One frame is put into a buffer and a descriptor. The gap is measured from
`next_to_use`, which stays where the batch began. -/
def xskPut (s : XskBatch) (d : XskDesc) (pool : List XskDesc) (buf : Nat) (q : TxQueue) : XskBatch :=
  let re := txSplitqNeedRe q.descCount q.nextToUse q.lastRe
  let tag := if q.flowSchEn then buf else 0
  { q := { q.modBuf buf fun e => { e with bytes := d.len, rsIdx := s.ntu } with
      ring := Function.update q.ring s.ntu (.data d.addr d.len tag true re)
      lastRe := if re then q.nextToUse else q.lastRe }
    pool
    ntu := bump q.descCount s.ntu
    sent := s.sent ++ [buf]
    charged := s.charged + re.toNat }

/-- The loop of `idpf_xmit_splitq_zc`. A frame is taken from the pool before a
buffer ID is asked for. -/
def xskTurns : Nat → XskBatch → XskBatch × XskEnd
  | 0, s => (s, .spent)
  | budget + 1, s =>
    match s.pool with
    | [] => (s, .dry budget)
    | d :: pool =>
      match nextBufId s.q s.ntu with
      | none => ({ s with pool }, .noBuf)
      | some (buf, q) => xskTurns budget (xskPut s d pool buf q)

/-- Result of `idpf_xmit_splitq_zc`, with the IDs of the frames the tail covers. -/
structure XskXmit where
  x : XskTxq
  done : Bool
  sent : List Nat
  charged : Nat

/-- `idpf_xmit_splitq_zc`. Without a buffer ID it leaves before it moves
`next_to_use` and the tail. -/
def xmitSplitqZc (x : XskTxq) (budget : Nat) : XskXmit :=
  let r := xskTurns (min budget x.q.descUnused) ⟨x.q, x.pool, x.q.nextToUse, [], 0⟩
  let put := { x with q := { r.1.q with nextToUse := r.1.ntu }, pool := r.1.pool }
  match r.2 with
  | .noBuf => ⟨{ x with q := r.1.q, pool := r.1.pool }, true, [], r.1.charged⟩
  | .dry left => ⟨put, decide (0 < left), r.1.sent, r.1.charged⟩
  | .spent => ⟨put, false, r.1.sent, r.1.charged⟩

/-- `idpf_clean_xdp_tx_buf`, and the cleared pointer. -/
def cleanXdpTxBuf (x : XskTxq) (b : Nat) : XskTxq :=
  { x with
    q := (x.q.record (.unmap (x.q.bufs b).dma)).modBuf b fun e => { e with len := 0, skb := 0 }
    active := u16 (x.active + 65535)
    returned := x.returned ++ [(x.q.bufs b).skb] }

/-- The state of the loop in `idpf_tx_clean_zc`. -/
structure XskClean where
  x : XskTxq
  ss : NapiStats
  xskFrames : Nat

/-- One turn of that loop: a buffer with a frame pointer is an `XDP_TX` frame. -/
def txCleanZcTurn (bufId b : Nat) (s : XskClean) : XskClean :=
  let e := s.x.q.bufs b
  let s := if e.skb ≠ 0 then
      ⟨cleanXdpTxBuf s.x b, { s.ss with bytes := u32 (s.ss.bytes + e.bytes) }, s.xskFrames⟩
    else { s with xskFrames := s.xskFrames + 1 }
  if s.x.q.flowSchEn then { s with x := { s.x with q := s.x.q.postBuf bufId } } else s

def txCleanZcTurns (bufId : Nat) : Nat → Nat → Nat → XskClean → XskClean
  | 0, _, _, s => s
  | n + 1, ntc, b, s =>
    let ntc := bump s.x.q.descCount ntc
    txCleanZcTurns bufId n ntc ntc (txCleanZcTurn bufId b s)

/-- What `idpf_tx_clean_zc` does behind its loop. -/
def txCleanZcEnd (s : XskClean) (cleanCount : Nat) : XskClean :=
  let n := s.x.q.nextToClean + cleanCount
  { s with
    x := { s.x with
      q := { s.x.q with
        nextToClean := if n ≥ s.x.q.descCount then n - s.x.q.descCount else n }
      completed := s.x.completed + s.xskFrames }
    ss := ⟨u32 (s.ss.packets + cleanCount), u32 (s.ss.bytes + s.xskFrames * s.x.frameLen)⟩ }

/-- `idpf_tx_clean_zc`. With no `XDP_TX` frame active the whole count is reported and
no buffer is looked at. -/
def txCleanZc (x : XskTxq) (ntc cleanCount bufId : Nat) (ss : NapiStats) : XskClean :=
  if cleanCount = 0 then ⟨x, ss, 0⟩
  else if x.active = 0 then txCleanZcEnd ⟨x, ss, cleanCount⟩ cleanCount
  else if x.q.flowSchEn then
    txCleanZcEnd (txCleanZcTurns bufId 1 ntc bufId ⟨x, ss, 0⟩) 1
  else txCleanZcEnd (txCleanZcTurns bufId cleanCount ntc ntc ⟨x, ss, 0⟩) cleanCount

/-- `idpf_tx_splitq_clean_zc`. -/
def txSplitqCleanZc (x : XskTxq) (complTag : Nat) (ss : NapiStats) : XskClean :=
  let ntc := x.q.nextToClean
  let last := u16 ((x.q.bufs complTag).rsIdx + 1)
  let framesReady := if last ≥ ntc then last - ntc else last + x.q.descCount - ntc
  txCleanZc x ntc framesReady complTag ss

/-- The queue with the device: the buffer IDs it holds and those it has completed, each
with whether it carries a frame of user space, and the number of those taken from
the pool. -/
structure XskSystem where
  x : XskTxq
  taken : Nat
  inflight : List (Nat × Bool)
  finished : List (Nat × Bool)
  nextFrame : Nat

inductive XskEvent where
  | supply (descs : List XskDesc)
  | xmit (budget : Nat)
  | xdpTx (size : Nat) (dma : Option Nat)
  | re (head : Nat)
  | complete (i : Nat)

namespace XskSystem

def xmit (s : XskSystem) (budget : Nat) : XskSystem :=
  let r := xmitSplitqZc s.x budget
  { s with
    x := r.x
    taken := s.taken + (s.x.pool.length - r.x.pool.length)
    inflight := s.inflight ++ r.sent.map fun b => (b, true) }

/-- `idpf_xmit_xdpq` on a zero-copy queue. -/
def xdpTx (s : XskSystem) (size : Nat) (dma : Option Nat) : XskSystem :=
  let r := txXmitXdpq s.x.q s.nextFrame size dma
  { s with
    x := { s.x with q := r.q, active := if r.sent then u16 (s.x.active + 1) else s.x.active }
    inflight := s.inflight ++ r.mapped.map fun m => (m.1, false)
    nextFrame := s.nextFrame + 1 }

/-- The device completes a buffer ID, and its RS completion is handled. -/
def complete (s : XskSystem) (i : Nat) (b : Nat × Bool) : XskSystem :=
  { s with
    x := (txSplitqCleanZc s.x b.1 {}).x
    inflight := s.inflight.eraseIdx i
    finished := s.finished ++ [b] }

/-- The device completes the IDs it holds in any order; an RE completion tells a
head of the ring. -/
def step (s : XskSystem) : XskEvent → Option XskSystem
  | .supply descs => some { s with x := { s.x with pool := s.x.pool ++ descs } }
  | .xmit budget => some (s.xmit budget)
  | .xdpTx size dma => some (s.xdpTx size dma)
  | .re head =>
    if head < s.x.q.descCount then
      some { s with x := { s.x with q := (txSplitqCleanDescs s.x.q head).q } }
    else none
  | .complete i => s.inflight[i]?.map (s.complete i)

end XskSystem

def TxConfig.xskInit (c : TxConfig) (frameLen : Nat) : XskSystem where
  x := ⟨txQueueAlloc c.descCount c.poolSize c.txMaxBufs true, 0, [], frameLen, 0, []⟩
  taken := 0
  inflight := []
  finished := []
  nextFrame := 1

def XskStart (s : XskSystem) : Prop := ∃ (c : TxConfig) (frameLen : Nat), s = c.xskInit frameLen

def XskSystem.free (s : XskSystem) : List Nat := rflValid s.x.q.bufPoolSize s.x.q.refillq

/-- Steps that go well: a batch finds an ID for every frame it takes, and a completion
finds an `XDP_TX` frame active and `next_to_clean` elsewhere than right behind the
descriptor of its buffer. -/
def xskOk (s : XskSystem) : XskEvent → Bool
  | .xmit budget =>
    let frames := min (min budget s.x.q.descUnused) s.x.pool.length
    (rflValid frames s.x.q.refillq).length == frames
  | .complete i =>
    match s.inflight[i]? with
    | some b =>
      s.x.active != 0 && u16 ((s.x.q.bufs b.1).rsIdx + 1) != s.x.q.nextToClean
    | none => true
  | _ => true

/-- A batch that finds a buffer ID for every frame it takes. -/
theorem xmitSplitqZc_put {x : XskTxq} {budget : Nat}
    (fine : (xskTurns (min budget x.q.descUnused) ⟨x.q, x.pool, x.q.nextToUse, [], 0⟩).2 ≠ .noBuf) :
    ∃ done, xmitSplitqZc x budget =
      let b := (xskTurns (min budget x.q.descUnused) ⟨x.q, x.pool, x.q.nextToUse, [], 0⟩).1
      ⟨{ x with q := { b.q with nextToUse := b.ntu }, pool := b.pool }, done, b.sent, b.charged⟩ := by
  unfold xmitSplitqZc
  dsimp only
  split
  · next stuck => exact absurd stuck fine
  · exact ⟨_, rfl⟩
  · exact ⟨_, rfl⟩

/-- A batch that runs out of buffer IDs. -/
theorem xmitSplitqZc_short {x : XskTxq} {budget : Nat}
    (short : (xskTurns (min budget x.q.descUnused) ⟨x.q, x.pool, x.q.nextToUse, [], 0⟩).2 = .noBuf) :
    xmitSplitqZc x budget =
      let b := (xskTurns (min budget x.q.descUnused) ⟨x.q, x.pool, x.q.nextToUse, [], 0⟩).1
      ⟨{ x with q := b.q, pool := b.pool }, true, [], b.charged⟩ := by
  unfold xmitSplitqZc
  dsimp only
  rw [short]

theorem xskPut_skb (s : XskBatch) (d : XskDesc) (pool : List XskDesc) (b : Nat) (q : TxQueue)
    (c : Nat) : ((xskPut s d pool b q).q.bufs c).skb = (q.bufs c).skb := by
  change ((q.modBuf b fun e => { e with bytes := d.len, rsIdx := s.ntu }).bufs c).skb = _
  by_cases own : c = b
  · subst own
    rw [TxQueue.modBuf_same]
  · rw [TxQueue.modBuf_other _ _ own]

/-- What a batch that takes the IDs `l` and leaves `free` does to its queue. -/
structure XskSent (s : XskBatch) (r : XskBatch × XskEnd) (l free : List Nat) : Prop where
  sent : r.1.sent = s.sent ++ l
  fine : r.2 ≠ .noBuf
  refill : RflFree r.1.q.refillq free
  took : r.1.pool.length + l.length = s.pool.length
  skb : ∀ b, (r.1.q.bufs b).skb = (s.q.bufs b).skb
  cap : r.1.q.refillq.descCount = s.q.refillq.descCount
  mem : r.1.q.mem = s.q.mem
  flow : r.1.q.flowSchEn = s.q.flowSchEn
  clean : r.1.q.nextToClean = s.q.nextToClean
  count : r.1.q.descCount = s.q.descCount
  size : r.1.q.bufPoolSize = s.q.bufPoolSize

theorem XskSent.nil {s : XskBatch} {e : XskEnd} {free : List Nat} (fine : e ≠ .noBuf)
    (refill : RflFree s.q.refillq free) : XskSent s (s, e) [] free :=
  ⟨(List.append_nil _).symm, fine, refill, rfl, fun _ => rfl, rfl, rfl, rfl, rfl, rfl, rfl⟩

theorem xskTurns_enough {k : Nat} {s : XskBatch} {free : List Nat} (flow : s.q.flowSchEn = true)
    (refill : RflFree s.q.refillq free) (enough : min k s.pool.length ≤ free.length) :
    ∃ l free', free = l ++ free' ∧ XskSent s (xskTurns k s) l free' := by
  induction k generalizing s free with
  | zero => exact ⟨[], free, rfl, .nil nofun refill⟩
  | succ k ih =>
      cases more : s.pool with
      | nil =>
          have stop : xskTurns (k + 1) s = (s, .dry k) := by rw [xskTurns, more]
          rw [stop]
          exact ⟨[], free, rfl, .nil nofun refill⟩
      | cons d pool =>
          rw [more, List.length_cons] at enough
          cases free with
          | nil =>
              rw [List.length_nil] at enough
              omega
          | cons b free =>
              obtain ⟨r, got, rest, size⟩ := refill.get
              have next : nextBufId s.q s.ntu = some (b, { s.q with refillq := r }) := by
                rw [nextBufId, if_pos flow, got]
                rfl
              have go : xskTurns (k + 1) s =
                  xskTurns k (xskPut s d pool b { s.q with refillq := r }) := by
                rw [xskTurns, more]
                dsimp only
                rw [next]
              have fewer : min k pool.length ≤ free.length := by
                rw [List.length_cons] at enough
                omega
              obtain ⟨l, free', split, v⟩ := ih
                (s := xskPut s d pool b { s.q with refillq := r }) flow rest fewer
              rw [go]
              refine ⟨b :: l, free', by rw [split]; rfl, ?_, v.fine, v.refill, ?_, fun c => ?_, ?_,
                v.mem, v.flow, v.clean, v.count, v.size⟩
              · rw [v.sent]
                exact List.append_assoc s.sent [b] l
              · have took := v.took
                change _ = pool.length at took
                rw [more, List.length_cons, List.length_cons, ← took, Nat.add_assoc]
              · rw [v.skb, xskPut_skb]
              · rw [v.cap]
                exact size

/-- What holds between steps; `free` are the IDs in the refill queue. -/
structure XskInv (n : Nat) (s : XskSystem) (free : List Nat) : Prop where
  flow : s.x.q.flowSchEn = true
  pool : s.x.q.bufPoolSize = n
  cap : s.x.q.refillq.descCount = n
  small : n ≤ 65535
  clean : s.x.q.nextToClean < s.x.q.descCount
  refill : RflFree s.x.q.refillq free
  places : (free ++ s.inflight.map Prod.fst).Perm (List.range n)
  idle : ∀ b ∈ free, (s.x.q.bufs b).skb = 0
  kinds : ∀ b ∈ s.inflight, (s.x.q.bufs b.1).skb = 0 ↔ b.2 = true
  active : s.x.active = s.inflight.countP (fun b => !b.2)
  posted : s.x.q.postedIds = s.finished.map Prod.fst
  completed : s.x.completed = s.finished.countP (fun b => b.2)
  taken : s.taken = s.x.completed + s.inflight.countP (fun b => b.2)
  frame : s.nextFrame ≠ 0

namespace XskInv

variable {n : Nat} {s s' : XskSystem} {free : List Nat}

theorem free_eq (v : XskInv n s free) : s.free = free := by
  refine rflValid_eq v.refill ?_
  rw [v.pool]
  have length := v.places.length_eq
  rw [List.length_append, List.length_range] at length
  omega

theorem xmit (v : XskInv n s free) {budget : Nat} (ok : xskOk s (.xmit budget) = true) :
    ∃ free', XskInv n (s.xmit budget) free' := by
  have enough : min (min budget s.x.q.descUnused) s.x.pool.length ≤ free.length := by
    rw [xskOk, beq_iff_eq, rflValid_take v.refill, List.length_take] at ok
    omega
  obtain ⟨l, free', split, r⟩ :=
    xskTurns_enough (s := ⟨s.x.q, s.x.pool, s.x.q.nextToUse, [], 0⟩) v.flow v.refill enough
  obtain ⟨done, result⟩ := xmitSplitqZc_put r.fine
  generalize xskTurns (min budget s.x.q.descUnused) ⟨s.x.q, s.x.pool, s.x.q.nextToUse, [], 0⟩ = e
    at r result
  have next : s.xmit budget = { s with
      x := { s.x with q := { e.1.q with nextToUse := e.1.ntu }, pool := e.1.pool }
      taken := s.taken + (s.x.pool.length - e.1.pool.length)
      inflight := s.inflight ++ l.map fun b => (b, true) } := by
    have sent : e.1.sent = l := r.sent.trans (List.nil_append l)
    rw [XskSystem.xmit, result, ← sent]
  have took : e.1.pool.length + l.length = s.x.pool.length := r.took
  rw [next]
  have fresh : ∀ b ∈ l, (s.x.q.bufs b).skb = 0 := fun b member =>
    v.idle b (split ▸ List.mem_append_left _ member)
  refine ⟨free', r.flow.trans v.flow, r.size.trans v.pool, r.cap.trans v.cap, v.small, ?_, r.refill,
    ?_, fun b member => ?_, fun b member => ?_, ?_, ?_, v.completed, ?_, v.frame⟩
  · rw [r.clean, r.count]
    exact v.clean
  · refine List.Perm.trans ?_ v.places
    rw [split, List.map_append, List.map_map]
    simp only [Function.comp_def, List.map_id', List.append_assoc]
    exact (List.perm_append_comm.trans (by rw [List.append_assoc])).symm
  · rw [r.skb]
    exact v.idle b (split ▸ List.mem_append_right _ member)
  · rw [r.skb]
    rcases List.mem_append.mp member with old | new
    · exact v.kinds b old
    · obtain ⟨c, mine, rfl⟩ := List.mem_map.mp new
      exact ⟨fun _ => rfl, fun _ => fresh c mine⟩
  · rw [v.active, List.countP_append, List.countP_map]
    simp [Function.comp_def]
  · change TxQueue.postedIds { e.1.q with nextToUse := e.1.ntu } = _
    rw [← v.posted, TxQueue.postedIds, TxQueue.postedIds, ← r.mem]
  · rw [v.taken, List.countP_append, List.countP_map]
    simp only [Function.comp_def, List.countP_true]
    omega

theorem xdpTx (v : XskInv n s free) (size : Nat) (dma : Option Nat) :
    ∃ free', XskInv n (s.xdpTx size dma) free' := by
  rcases txXmitXdpq_flow v.flow v.refill s.nextFrame size dma with
    ⟨sent, mapped, q⟩ | ⟨addr, b, rest, -, split, r, refill, cap⟩
  · have next : s.xdpTx size dma = { s with
        x := { s.x with q := (txXmitXdpq s.x.q s.nextFrame size dma).q }
        nextFrame := s.nextFrame + 1 } := by
      rw [XskSystem.xdpTx]
      dsimp only
      rw [sent, mapped, List.map_nil, List.append_nil]
      rfl
    rw [next, q]
    refine ⟨free, v.flow, v.pool, v.cap, v.small, v.clean, v.refill, v.places, v.idle, v.kinds,
      v.active, ?_, v.completed, v.taken, Nat.succ_ne_zero _⟩
    rw [← v.posted, TxQueue.postedIds, TxQueue.postedIds]
    cases dma <;> simp
  · have next : s.xdpTx size dma = { s with
        x := { s.x with
          q := (txXmitXdpq s.x.q s.nextFrame size dma).q
          active := u16 (s.x.active + 1) }
        inflight := s.inflight ++ [(b, false)]
        nextFrame := s.nextFrame + 1 } := by
      rw [XskSystem.xdpTx]
      dsimp only
      rw [r.sent, r.mapped, if_pos rfl]
      rfl
    have unheld : ∀ p ∈ s.inflight, p.1 ≠ b := by
      intro p member same
      have nodup : (free ++ s.inflight.map Prod.fst).Nodup :=
        v.places.nodup_iff.mpr List.nodup_range
      have apart := List.disjoint_of_nodup_append nodup
      exact apart (split ▸ List.mem_cons_self) (same ▸ List.mem_map_of_mem member)
    have few : s.inflight.length + 1 ≤ n := by
      have length := v.places.length_eq
      rw [split, List.length_append, List.length_cons, List.length_map, List.length_range] at length
      omega
    have bufs : ∀ c, c ≠ b → ((txXmitXdpq s.x.q s.nextFrame size dma).q.bufs c) = s.x.q.bufs c :=
      fun c ne => by rw [r.bufs, Function.update_of_ne ne]
    rw [next]
    refine ⟨rest, r.flow.trans v.flow, r.size.trans v.pool, cap.trans v.cap, v.small, ?_, refill,
      ?_, fun c member => ?_, fun p member => ?_, ?_, ?_, v.completed, ?_, Nat.succ_ne_zero _⟩
    · rw [r.clean, r.count]
      exact v.clean
    · refine List.Perm.trans ?_ v.places
      rw [split, List.map_append, List.map_singleton, List.cons_append, ← List.append_assoc]
      exact List.perm_append_singleton b _
    · have nodup : (b :: rest).Nodup :=
        split ▸ (v.places.nodup_iff.mpr List.nodup_range).of_append_left
      have other : c ≠ b := fun same => (List.nodup_cons.mp nodup).1 (same ▸ member)
      rw [bufs c other]
      exact v.idle c (split ▸ List.mem_cons_of_mem b member)
    · rcases List.mem_append.mp member with old | new
      · rw [bufs p.1 (unheld p old)]
        exact v.kinds p old
      · rw [List.mem_singleton.mp new]
        dsimp only
        rw [r.bufs, Function.update_self]
        exact ⟨fun h => absurd h v.frame, nofun⟩
    · have count : s.inflight.countP (fun b => !b.2) ≤ s.inflight.length := List.countP_le_length
      have small := v.small
      change u16 (s.x.active + 1) = (s.inflight ++ [(b, false)]).countP _
      rw [List.countP_append, v.active, u16, Nat.mod_eq_of_lt (by omega)]
      rfl
    · change TxQueue.postedIds (txXmitXdpq s.x.q s.nextFrame size dma).q = _
      rw [← v.posted, TxQueue.postedIds, TxQueue.postedIds, r.mem]
    · rw [v.taken, List.countP_append]
      rfl

/-- A completion that finds its condition met cleans the one buffer it names. -/
theorem txSplitqCleanZc_one {x : XskTxq} {b : Nat} (flow : x.q.flowSchEn = true)
    (clean : x.q.nextToClean < x.q.descCount) (busy : x.active ≠ 0)
    (behind : u16 ((x.q.bufs b).rsIdx + 1) ≠ x.q.nextToClean) :
    (txSplitqCleanZc x b {}).x = (txCleanZcEnd (txCleanZcTurn b b ⟨x, {}, 0⟩) 1).x := by
  have ready : (if u16 ((x.q.bufs b).rsIdx + 1) ≥ x.q.nextToClean then
      u16 ((x.q.bufs b).rsIdx + 1) - x.q.nextToClean
      else u16 ((x.q.bufs b).rsIdx + 1) + x.q.descCount - x.q.nextToClean) ≠ 0 := by
    split <;> omega
  rw [txSplitqCleanZc, txCleanZc, if_neg ready, if_neg busy, if_pos flow]
  rfl

theorem txCleanZcTurn_xsk {x : XskTxq} {b : Nat} (flow : x.q.flowSchEn = true)
    (xsk : (x.q.bufs b).skb = 0) :
    txCleanZcTurn b b ⟨x, {}, 0⟩ = ⟨{ x with q := x.q.postBuf b }, {}, 1⟩ := by
  have kind : ¬ (x.q.bufs b).skb ≠ 0 := not_not.mpr xsk
  rw [txCleanZcTurn]
  simp only [if_neg kind, if_pos flow]

/-- A buffer with a frame pointer is unmapped and its frame given back. -/
theorem txCleanZcTurn_xdp {x : XskTxq} {b : Nat} (flow : x.q.flowSchEn = true)
    (xdp : (x.q.bufs b).skb ≠ 0) :
    txCleanZcTurn b b ⟨x, {}, 0⟩ =
      ⟨{ cleanXdpTxBuf x b with q := (cleanXdpTxBuf x b).q.postBuf b },
        { bytes := u32 (0 + (x.q.bufs b).bytes) }, 0⟩ := by
  have flow' : (cleanXdpTxBuf x b).q.flowSchEn = true := flow
  rw [txCleanZcTurn]
  simp only [if_pos xdp, if_pos flow']

theorem ofComplete (v : XskInv n s free) {i : Nat} {b : Nat × Bool} (held : s.inflight[i]? = some b)
    {x : XskTxq} {q : TxQueue}
    (queue : x.q = { q.postBuf b.1 with nextToClean := x.q.nextToClean })
    (clean : x.q.nextToClean < s.x.q.descCount) (count : q.descCount = s.x.q.descCount)
    (refillq : q.refillq = s.x.q.refillq) (flow : q.flowSchEn = s.x.q.flowSchEn)
    (size : q.bufPoolSize = s.x.q.bufPoolSize) (posted : q.postedIds = s.x.q.postedIds)
    (bufs : ∀ c, c ≠ b.1 → (q.bufs c).skb = (s.x.q.bufs c).skb) (emptied : (q.bufs b.1).skb = 0)
    (active : x.active + (!b.2).toNat = s.x.active)
    (completed : x.completed = s.x.completed + b.2.toNat) :
    ∃ free', XskInv n
      { s with x, inflight := s.inflight.eraseIdx i, finished := s.finished ++ [b] } free' := by
  obtain ⟨inside, at_⟩ := List.getElem?_eq_some_iff.mp held
  have perm : (b :: s.inflight.eraseIdx i).Perm s.inflight :=
    at_ ▸ List.getElem_cons_eraseIdx_perm inside
  have places : (free ++ (b.1 :: (s.inflight.eraseIdx i).map Prod.fst)).Perm (List.range n) :=
    ((perm.map Prod.fst).append_left free).trans v.places
  have below : b.1 < n := List.mem_range.mp (places.subset
    (List.mem_append_right _ List.mem_cons_self))
  have small := v.small
  have id : u16 b.1 = b.1 := Nat.mod_eq_of_lt (by omega)
  have room : free.length < s.x.q.refillq.descCount := by
    have length := places.length_eq
    rw [List.length_append, List.length_cons, List.length_range] at length
    rw [v.cap]
    omega
  have nodup : (free ++ (b.1 :: (s.inflight.eraseIdx i).map Prod.fst)).Nodup :=
    places.nodup_iff.mpr List.nodup_range
  have others : ∀ p ∈ s.inflight.eraseIdx i, p.1 ≠ b.1 := fun p member same =>
    (List.nodup_cons.mp nodup.of_append_right).1 (same ▸ List.mem_map_of_mem member)
  have unheld : ∀ c ∈ free, c ≠ b.1 := fun c member same =>
    List.disjoint_of_nodup_append nodup member (same ▸ List.mem_cons_self)
  have after : ∀ c, (x.q.bufs c).skb = (q.bufs c).skb := fun c => by rw [queue]; rfl
  refine ⟨free ++ [b.1], ?_, ?_, ?_, v.small, ?_, ?_, ?_, fun c member => ?_, fun p member => ?_, ?_,
    ?_, ?_, ?_, v.frame⟩
  · change x.q.flowSchEn = true
    rw [queue]
    exact flow.trans v.flow
  · change x.q.bufPoolSize = n
    rw [queue]
    exact size.trans v.pool
  · change x.q.refillq.descCount = n
    rw [queue]
    change q.refillq.descCount = n
    rw [refillq, v.cap]
  · change x.q.nextToClean < x.q.descCount
    have same : x.q.descCount = q.descCount := by rw [queue]; rfl
    rw [same, count]
    exact clean
  · change RflFree x.q.refillq _
    rw [queue]
    change RflFree (postBufRefill q.refillq (u16 b.1)) _
    rw [refillq, id]
    exact v.refill.post room (by omega)
  · refine List.Perm.trans ?_ places
    rw [List.append_assoc]
    rfl
  · change (x.q.bufs c).skb = 0
    rw [after]
    rcases List.mem_append.mp member with old | new
    · rw [bufs c (unheld c old)]
      exact v.idle c old
    · rw [List.mem_singleton.mp new]
      exact emptied
  · change (x.q.bufs p.1).skb = 0 ↔ _
    rw [after, bufs p.1 (others p member)]
    exact v.kinds p (perm.subset (List.mem_cons_of_mem b member))
  · have total := v.active
    rw [← perm.countP_eq, List.countP_cons] at total
    change x.active = (s.inflight.eraseIdx i).countP fun b => !b.2
    cases kind : b.2 <;> rw [kind] at total active <;> simp at total active <;> omega
  · change x.q.postedIds = _
    have log : x.q.postedIds = q.postedIds ++ [b.1] := by
      rw [queue, TxQueue.postedIds, TxQueue.postedIds]
      change (q.mem.log ++ [Effect.postBuf (q.bufs b.1).dma b.1]).filterMap _ = _
      rw [List.filterMap_append]
      rfl
    rw [log, posted, v.posted, List.map_append]
    rfl
  · change x.completed = _
    rw [completed, v.completed, List.countP_append]
    cases kind : b.2 <;> simp [kind]
  · have total := v.taken
    rw [← perm.countP_eq, List.countP_cons] at total
    change s.taken = x.completed + (s.inflight.eraseIdx i).countP fun b => b.2
    cases kind : b.2 <;> rw [kind] at total completed <;> simp at total completed <;> omega

theorem complete (v : XskInv n s free) {i : Nat} {b : Nat × Bool} (held : s.inflight[i]? = some b)
    (ok : xskOk s (.complete i) = true) : ∃ free', XskInv n (s.complete i b) free' := by
  simp only [xskOk, held, Bool.and_eq_true, bne_iff_ne] at ok
  obtain ⟨busy, behind⟩ := ok
  have one := txSplitqCleanZc_one v.flow v.clean busy behind
  have member : b ∈ s.inflight := List.mem_of_getElem? held
  have wrapped : (if s.x.q.nextToClean + 1 ≥ s.x.q.descCount then
      s.x.q.nextToClean + 1 - s.x.q.descCount else s.x.q.nextToClean + 1) < s.x.q.descCount := by
    have := v.clean
    split <;> omega
  rw [XskSystem.complete, one]
  by_cases xsk : (s.x.q.bufs b.1).skb = 0
  · have kind := (v.kinds b member).mp xsk
    rw [txCleanZcTurn_xsk v.flow xsk]
    refine v.ofComplete held (q := s.x.q) rfl wrapped rfl rfl rfl rfl rfl (fun _ _ => rfl) xsk ?_ ?_
    · rw [kind]
      rfl
    · rw [kind]
      rfl
  · have kind : b.2 = false := by
      rw [← Bool.not_eq_true]
      exact mt (v.kinds b member).mpr xsk
    rw [txCleanZcTurn_xdp v.flow xsk]
    refine v.ofComplete held (q := (cleanXdpTxBuf s.x b.1).q) rfl wrapped rfl rfl rfl rfl ?_
      (fun c ne => ?_) ?_ ?_ ?_
    · rw [TxQueue.postedIds, TxQueue.postedIds]
      change (s.x.q.mem.log ++ [Effect.unmap (s.x.q.bufs b.1).dma]).filterMap _ = _
      rw [List.filterMap_append]
      exact List.append_nil _
    · rw [cleanXdpTxBuf]
      dsimp only
      rw [TxQueue.modBuf_other _ _ ne]
      rfl
    · rw [cleanXdpTxBuf]
      dsimp only
      rw [TxQueue.modBuf_same]
    · have count : s.inflight.countP (fun b => !b.2) ≤ s.inflight.length := List.countP_le_length
      have length := v.places.length_eq
      rw [List.length_append, List.length_map, List.length_range] at length
      have small := v.small
      have active := v.active
      change u16 (s.x.active + 65535) + (!b.2).toNat = s.x.active
      rw [kind, u16, Bool.not_false, Bool.toNat_true]
      omega
    · rw [kind]
      rfl

theorem start (h : XskStart s) : ∃ n free, XskInv n s free := by
  obtain ⟨c, frameLen, rfl⟩ := h
  have pos : 0 < c.poolSize := by unfold TxConfig.poolSize; split <;> decide
  have small : c.poolSize ≤ 65535 := by unfold TxConfig.poolSize; split <;> decide
  refine ⟨c.poolSize, List.range c.poolSize, rfl, rfl, rfl, small, ?_, rflAlloc_free pos (by omega),
    ?_, fun _ _ => rfl, nofun, rfl, rfl, rfl, rfl, Nat.one_ne_zero⟩
  · exact Nat.lt_of_lt_of_le (by decide : 0 < minTxqDesc) c.descMin
  · rw [TxConfig.xskInit, List.map_nil, List.append_nil]

theorem step {a : XskEvent} (v : XskInv n s free) (ok : xskOk s a = true)
    (go : s.step a = some s') : ∃ free', XskInv n s' free' := by
  cases a with
  | supply descs =>
      obtain rfl := Option.some.inj go
      exact ⟨free, v.flow, v.pool, v.cap, v.small, v.clean, v.refill, v.places, v.idle, v.kinds,
        v.active, v.posted, v.completed, v.taken, v.frame⟩
  | xmit budget =>
      obtain rfl := Option.some.inj go
      exact v.xmit ok
  | xdpTx size dma =>
      obtain rfl := Option.some.inj go
      exact v.xdpTx size dma
  | re head =>
      rw [XskSystem.step] at go
      split at go
      · next inside =>
        obtain rfl := Option.some.inj go
        exact ⟨free, v.flow, v.pool, v.cap, v.small, inside, v.refill, v.places, v.idle, v.kinds,
          v.active, v.posted, v.completed, v.taken, v.frame⟩
      · exact absurd go nofun
  | complete i =>
      obtain ⟨b, held, rfl⟩ := Option.map_eq_some_iff.mp go
      exact v.complete held ok

end XskInv

/-- Every buffer ID waits in the refill queue or is with the device, the IDs returned
are those completed, and the pool has been told of the completed frames of user space,
the others being with the device. -/
structure XskConserved (s : XskSystem) : Prop where
  places : (s.free ++ s.inflight.map Prod.fst).Perm (List.range s.x.q.bufPoolSize)
  returned : s.x.q.postedIds = s.finished.map Prod.fst
  reported : s.x.completed = s.finished.countP fun b => b.2
  kept : s.taken = s.x.completed + s.inflight.countP fun b => b.2

/-- As long as every batch finds its buffer IDs and every completion finds an `XDP_TX`
frame active, IDs and frames are conserved. -/
theorem xsk_tx_conserved {s : XskSystem}
    (h : Reachable XskSystem.step (fun s a => xskOk s a = true) XskStart s) : XskConserved s := by
  obtain ⟨n, free, v⟩ := h.invariant (I := fun s => ∃ n free, XskInv n s free)
    (fun _ hs => XskInv.start hs) fun _ _ _ ⟨n, _, v⟩ ok go => ⟨n, v.step ok go⟩
  refine ⟨?_, v.posted, v.completed, v.taken⟩
  rw [v.free_eq, v.pool]
  exact v.places

def xskSmall : TxConfig where
  numTxq := 1
  descCount := 128
  complqDescCount := 512
  txMaxBufs := 10
  missCap := false
  xdp := fun _ => true
  descMin := minTxqDesc_le
  descMax := le_maxDescs
  complqMin := minTxqComplqDesc_le_dflt
  complqMax := dflt_le_maxDescs

/-- An `XDP_TX` frame is active when a frame of user space completes before it. -/
theorem xsk_tx_conserved_mixed : ∃ s : XskSystem,
    s.finished = [(1, true)] ∧ s.inflight = [(0, false)] ∧ XskConserved s := by
  have run : (execIf XskSystem.step xskOk (xskSmall.xskInit 2048)
      [.xdpTx 60 (some 4096), .supply [⟨8192, 60⟩], .xmit 16, .complete 1]).map
        (fun s => (s.finished, s.inflight)) = some ([(1, true)], [(0, false)]) := by
    decide +kernel
  obtain ⟨s, done, eq⟩ := Option.map_eq_some_iff.mp run
  have start : XskStart (xskSmall.xskInit 2048) := ⟨xskSmall, 2048, rfl⟩
  exact ⟨s, congrArg Prod.fst eq, congrArg Prod.snd eq,
    xsk_tx_conserved (Reachable.execIf (.start start) done)⟩

/-- The second of two frames completes first: the pool is told of both, and no buffer
ID goes back. -/
theorem xsk_tx_out_of_order : ∃ s : XskSystem, Reachable XskSystem.step anyStep XskStart s ∧
    s.finished = [(1, true)] ∧ s.inflight = [(0, true)] ∧ s.x.completed = 2 ∧
      s.x.q.postedIds = [] ∧ ¬ XskConserved s := by
  have run : (exec XskSystem.step (xskSmall.xskInit 2048)
      [.supply [⟨8192, 60⟩, ⟨16384, 60⟩], .xmit 16, .complete 1]).map
        (fun s => (s.finished, s.inflight, s.x.completed, s.x.q.postedIds)) =
      some ([(1, true)], [(0, true)], 2, []) := by
    decide +kernel
  obtain ⟨s, done, eq⟩ := Option.map_eq_some_iff.mp run
  simp only [Prod.mk.injEq] at eq
  obtain ⟨finished, inflight, completed, posted⟩ := eq
  have start : XskStart (xskSmall.xskInit 2048) := ⟨xskSmall, 2048, rfl⟩
  refine ⟨s, Reachable.exec (.start start) done, finished, inflight, completed, posted, fun fine => ?_⟩
  have reported := fine.reported
  rw [completed, finished] at reported
  exact absurd reported (by decide)

end Idpf
