import Idpf.Tx.Xdp
import Idpf.Tx.System
import Mathlib.Data.List.Perm.Basic

/-! Frames on a copy-mode XDP Tx queue, from `idpf_xmit_xdpq` to the completion of
their buffers or the release of the queue, in both scheduling modes. -/
namespace Idpf
open General

/-- The inner loop of `idpf_tx_splitq_clean`, over the buffers behind the first of a
packet. -/
def splitqCleanRest (eop : Nat) : Nat → Cleaning → Nat → Cleaning × Nat
  | 0, s, ntc => (s, ntc)
  | fuel + 1, s, ntc =>
    if ntc = eop then (s, ntc)
    else
      let ntc := bump s.q.descCount ntc
      splitqCleanRest eop fuel (libethTxComplete s ntc) ntc

/-- The outer loop of `idpf_tx_splitq_clean`. -/
def splitqCleanTurns (end_ : Nat) : Nat → Cleaning → Nat → Cleaning × Nat
  | 0, s, ntc => (s, ntc)
  | fuel + 1, s, ntc =>
    if ntc = end_ then (s, ntc)
    else
      let e := s.q.bufs ntc
      let r := if e.type = .ctx then (s, ntc)
        else splitqCleanRest e.rsIdx s.q.descCount (libethTxComplete s ntc) ntc
      splitqCleanTurns end_ fuel r.1 (bump r.1.q.descCount r.2)

/-- `idpf_tx_splitq_clean` without `descs_only`. The fuel is the ring size;
`splitqCleanTurns_window` shows that it reaches `end_`. -/
def txSplitqClean (q : TxQueue) (end_ : Nat) : Cleaning :=
  let r := splitqCleanTurns end_ q.descCount ⟨q, {}⟩ q.nextToClean
  { r.1 with q := { r.1.q with nextToClean := r.2 } }

/-- `idpf_tx_handle_rs_completion` of a queue without an AF_XDP pool: the value is a
queue head or a completion tag. -/
def handleRsCompletion (q : TxQueue) (val : Nat) : Cleaning :=
  if q.flowSchEn then txHandleRsCompletion q val {} else txSplitqClean q val

/-- `idpf_tx_buf_rel_all` of such a queue. -/
def txBufRelAll (q : TxQueue) : TxQueue :=
  ((List.range q.bufPoolSize).foldl libethTxComplete ⟨q, {}⟩).q

/-- A frame put on the ring, with the mapping made for it and its buffer. -/
structure XdpFrame where
  frame : Nat
  map : DmaMap
  buf : Nat
  deriving DecidableEq, Repr

/-- The queue with the device. `done` are the frames completed or on the ring when the
queue was released, `completed` the buffer IDs of RS completions, `refused` the mappings
made for frames not sent, and `returned` the frames `idpf_xdp_xmit` has given back. -/
structure XdpSystem where
  q : TxQueue
  up : Bool
  inflight : List XdpFrame
  done : List XdpFrame
  completed : List Nat
  refused : List DmaMap
  returned : List Nat
  nextFrame : Nat

inductive XdpEvent where
  | xdpTx (size : Nat) (dma : Option Nat)
  | xdpXmit (frames : List (Nat × Option Nat))
  | complete (i : Nat)
  | head (k : Nat)
  | re (head : Nat)
  | release

namespace XdpSystem

/-- `idpf_xmit_xdpq` for a new frame, and whether it was sent. -/
def tx (s : XdpSystem) (size : Nat) (dma : Option Nat) : XdpSystem × Bool :=
  let r := txXmitXdpq s.q s.nextFrame size dma
  ({ s with
      q := r.q
      inflight := s.inflight ++ r.mapped.map fun m => ⟨s.nextFrame, m.2, m.1⟩
      refused := if r.sent then s.refused
        else s.refused ++ dma.toList.map fun addr => ⟨addr, s.q.mem.nextMap⟩
      nextFrame := s.nextFrame + 1 },
    r.sent)

/-- The loop of `idpf_xdp_xmit`, which gives back the first frame not sent and stops. -/
def xdpXmit : List (Nat × Option Nat) → XdpSystem → XdpSystem
  | [], s => s
  | f :: rest, s =>
    let r := s.tx f.1 f.2
    if r.2 then xdpXmit rest r.1 else { r.1 with returned := r.1.returned ++ [s.nextFrame] }

def complete (s : XdpSystem) (i : Nat) (x : XdpFrame) : XdpSystem :=
  { s with
    q := (handleRsCompletion s.q x.buf).q
    inflight := s.inflight.eraseIdx i
    done := s.done ++ [x]
    completed := s.completed ++ [x.buf] }

/-- The RS completion of the first `k` frames in queue scheduling mode. -/
def completeTo (s : XdpSystem) (k : Nat) : XdpSystem :=
  { s with
    q := (handleRsCompletion s.q ((s.q.nextToClean + k) % s.q.descCount)).q
    inflight := s.inflight.drop k
    done := s.done ++ s.inflight.take k }

def release (s : XdpSystem) : XdpSystem :=
  { s with q := txBufRelAll s.q, up := false, inflight := [], done := s.done ++ s.inflight }

/-- The device completes frames in any order with flow scheduling and in ring order
without. -/
def step (s : XdpSystem) (e : XdpEvent) : Option XdpSystem :=
  if s.up then
    match e with
    | .xdpTx size dma => some (s.tx size dma).1
    | .xdpXmit frames => some (xdpXmit frames s)
    | .complete i => if s.q.flowSchEn then s.inflight[i]?.map (s.complete i) else none
    | .head k =>
      if s.q.flowSchEn = false ∧ k ≤ s.inflight.length then some (s.completeTo k) else none
    | .re head =>
      if s.q.flowSchEn = true ∧ head < s.q.descCount then
        some { s with q := (txSplitqCleanDescs s.q head).q }
      else none
    | .release => some s.release
  else none

end XdpSystem

/-- An XDP Tx queue that has just been set up. -/
def TxConfig.xdpInit (c : TxConfig) (flow : Bool) : XdpSystem where
  q := { txQueueAlloc c.descCount (if flow then c.poolSize else c.descCount) c.txMaxBufs true with
    flowSchEn := flow }
  up := true
  inflight := []
  done := []
  completed := []
  refused := []
  returned := []
  nextFrame := 1

def XdpStart (s : XdpSystem) : Prop := ∃ (c : TxConfig) (flow : Bool), s = c.xdpInit flow

def unmappedIn (log : List Effect) : List DmaMap :=
  log.filterMap fun e => match e with
    | .unmap m => some m
    | _ => none

def releasedIn (log : List Effect) : List Nat :=
  log.filterMap fun e => match e with
    | .consumeSkb f | .kfree f => some f
    | _ => none

namespace XdpSystem

def unmaps (s : XdpSystem) (m : DmaMap) : Nat := (unmappedIn s.q.mem.log).count m

def releases (s : XdpSystem) (f : Nat) : Nat := (releasedIn s.q.mem.log ++ s.returned).count f

def held (s : XdpSystem) : List Nat := s.inflight.map XdpFrame.buf

end XdpSystem

/-- The buffers of `l` are those of the descriptors from `next_to_clean` on. -/
def OnRing (q : TxQueue) (l : List Nat) : Prop :=
  l = ringSlots q.descCount q.nextToClean l.length

/-- Every mapping is undone and every frame released once and not before it is done, and
the buffer IDs completed go back once each. -/
structure XdpConserved (s : XdpSystem) : Prop where
  refused : ∀ m ∈ s.refused, s.unmaps m = 1
  held : ∀ x ∈ s.inflight, s.unmaps x.map = 0 ∧ s.releases x.frame = 0
  done : ∀ x ∈ s.done, s.unmaps x.map = 1 ∧ s.releases x.frame = 1
  posted : s.q.postedIds = s.completed
  places : s.up = true → s.q.flowSchEn = true →
    (rflValid s.q.bufPoolSize s.q.refillq ++ s.held).Perm (List.range s.q.bufPoolSize)
  ring : s.up = true → s.q.flowSchEn = false → OnRing s.q s.held

/-- A buffer that `libeth_tx_complete` drops silently. -/
def Quiet (e : TxBuf) : Prop := e.type = .empty ∨ e.type = .xdpTx

/-- `libeth_tx_complete` has no case for frames of `XDP_TX`. -/
theorem libethTxComplete_quiet {s : Cleaning} {b : Nat} (quiet : Quiet (s.q.bufs b)) :
    (libethTxComplete s b).q = s.q.emptied [b] s.q.mem.log := by
  have spread : s.q.emptied [b] s.q.mem.log = s.q.modBuf b fun e => { e with type := .empty } := by
    have bufs : (s.q.emptied [b] s.q.mem.log).bufs =
        Function.update s.q.bufs b { s.q.bufs b with type := .empty } := by
      funext x
      by_cases same : x = b
      · subst x
        simp [TxQueue.emptied]
      · simp [TxQueue.emptied, same]
    exact congrArg (fun bufs => { s.q with bufs }) bufs
  rw [spread]
  rcases quiet with idle | frame
  · rw [libethTxComplete_empty idle, TxQueue.modBuf, ← idle, Function.update_eq_self]
  · unfold libethTxComplete
    simp only [frame, TxBuf.mapped]
    rfl

theorem Quiet.emptied {q : TxQueue} (quiet : ∀ b, Quiet (q.bufs b)) (l : List Nat)
    (log : List Effect) (b : Nat) : Quiet ((q.emptied l log).bufs b) := by
  unfold TxQueue.emptied
  dsimp only
  split
  · exact .inl rfl
  · exact quiet b

/-- Releasing the buffers of a queue that only ever carried `XDP_TX` frames. -/
theorem foldl_libethTxComplete_quiet (l : List Nat) {s : Cleaning}
    (quiet : ∀ b, Quiet (s.q.bufs b)) :
    (l.foldl libethTxComplete s).q = s.q.emptied l s.q.mem.log := by
  induction l generalizing s with
  | nil => simp [TxQueue.emptied]
  | cons b l ih =>
      have one := libethTxComplete_quiet (s := s) (quiet b)
      have next : ∀ c, Quiet ((libethTxComplete s b).q.bufs c) := by
        rw [one]
        exact Quiet.emptied quiet [b] _
      rw [List.foldl_cons, ih next, one]
      exact s.q.emptied_emptied [b] l _ _

theorem txCleanBufs_xdpTx {q : TxQueue} {b : Nat} (frame : (q.bufs b).type = .xdpTx)
    (last : (q.bufs b).next = none) (pos : 0 < q.bufPoolSize) :
    (txCleanBufs q b).q = (q.emptied [b] q.mem.log).postBuf b := by
  have cleanable : txCleanable q b = some q := by
    rw [txCleanable, frame]
  obtain ⟨fuel, size⟩ := Nat.exists_eq_succ_of_ne_zero pos.ne'
  have one := libethTxComplete_quiet (s := ⟨q, {}⟩) (.inr frame)
  have stop : ((completeAndPost ⟨q, {}⟩ b).q.bufs b).next = none := by
    rw [completeAndPost, one]
    exact (q.emptied_next [b] q.mem.log b).trans last
  rw [txCleanBufs, cleanable]
  dsimp only
  rw [size, walkChain]
  simp only [stop]
  rw [completeAndPost, one]

/-- The books of a queue: mappings and frames are told apart, the log undoes the mappings
of refused frames, and no frame is released in it. -/
structure XdpBook (mem : Mem) (nextFrame : Nat) (refused : List DmaMap) (returned : List Nat)
    (placed : List XdpFrame) : Prop where
  unmapped : unmappedIn mem.log = refused
  released : releasedIn mem.log = []
  maps : (refused ++ placed.map XdpFrame.map).Nodup
  serials : ∀ m ∈ refused ++ placed.map XdpFrame.map, m.serial < mem.nextMap
  frames : (returned ++ placed.map XdpFrame.frame).Nodup
  below : ∀ f ∈ returned ++ placed.map XdpFrame.frame, f < nextFrame

namespace XdpBook

variable {mem : Mem} {nextFrame : Nat} {refused : List DmaMap} {returned : List Nat}
  {placed placed' : List XdpFrame}

theorem perm (v : XdpBook mem nextFrame refused returned placed) (same : placed'.Perm placed) :
    XdpBook mem nextFrame refused returned placed' := by
  have maps := (same.map XdpFrame.map).append_left refused
  have frames := (same.map XdpFrame.frame).append_left returned
  exact ⟨v.unmapped, v.released, maps.nodup_iff.mpr v.maps,
    fun m member => v.serials m (maps.subset member), frames.nodup_iff.mpr v.frames,
    fun f member => v.below f (frames.subset member)⟩

theorem post (v : XdpBook mem nextFrame refused returned placed) (m : DmaMap) (b : Nat) :
    XdpBook { mem with log := mem.log ++ [.postBuf m b] } nextFrame refused returned placed := by
  refine ⟨?_, ?_, v.maps, v.serials, v.frames, v.below⟩
  · rw [unmappedIn, List.filterMap_append]
    exact (List.append_nil _).trans v.unmapped
  · rw [releasedIn, List.filterMap_append]
    exact (List.append_nil _).trans v.released

theorem place (v : XdpBook mem nextFrame refused returned placed) (addr b : Nat) :
    XdpBook { mem with nextMap := mem.nextMap + 1 } (nextFrame + 1) refused returned
      (placed ++ [⟨nextFrame, ⟨addr, mem.nextMap⟩, b⟩]) := by
  have map : (⟨addr, mem.nextMap⟩ : DmaMap) ∉ refused ++ placed.map XdpFrame.map :=
    fun old => absurd (v.serials _ old) (Nat.lt_irrefl _)
  have frame : nextFrame ∉ returned ++ placed.map XdpFrame.frame :=
    fun old => absurd (v.below _ old) (Nat.lt_irrefl _)
  refine ⟨v.unmapped, v.released, ?_, fun m member => ?_, ?_, fun f member => ?_⟩
  · rw [List.map_append, ← List.append_assoc]
    exact List.nodup_append_comm.mp (List.nodup_cons.mpr ⟨map, v.maps⟩)
  · rw [List.map_append, ← List.append_assoc] at member
    rcases List.mem_append.mp member with old | new
    · exact Nat.lt_succ_of_lt (v.serials m old)
    · rw [List.mem_singleton.mp new]
      exact Nat.lt_succ_self _
  · rw [List.map_append, ← List.append_assoc]
    exact List.nodup_append_comm.mp (List.nodup_cons.mpr ⟨frame, v.frames⟩)
  · rw [List.map_append, ← List.append_assoc] at member
    rcases List.mem_append.mp member with old | new
    · exact Nat.lt_succ_of_lt (v.below f old)
    · rw [List.mem_singleton.mp new]
      exact Nat.lt_succ_self _

theorem refuse (v : XdpBook mem nextFrame refused returned placed) (dma : Option Nat) :
    XdpBook { mem with
        nextMap := mem.nextMap + dma.isSome.toNat
        log := mem.log ++ dma.toList.map fun addr => .unmap ⟨addr, mem.nextMap⟩ }
      (nextFrame + 1) (refused ++ dma.toList.map fun addr => ⟨addr, mem.nextMap⟩) returned
      placed := by
  cases dma with
  | none =>
      simp only [Option.toList_none, List.map_nil, List.append_nil]
      exact ⟨v.unmapped, v.released, v.maps, v.serials, v.frames,
        fun f member => Nat.lt_succ_of_lt (v.below f member)⟩
  | some addr =>
      have map : (⟨addr, mem.nextMap⟩ : DmaMap) ∉ refused ++ placed.map XdpFrame.map :=
        fun old => absurd (v.serials _ old) (Nat.lt_irrefl _)
      have order : (refused ++ [(⟨addr, mem.nextMap⟩ : DmaMap)] ++ placed.map XdpFrame.map).Perm
          ((⟨addr, mem.nextMap⟩ : DmaMap) :: (refused ++ placed.map XdpFrame.map)) := by
        rw [List.append_assoc]
        exact List.perm_middle
      simp only [Option.toList_some, List.map_cons, List.map_nil]
      refine ⟨?_, ?_, order.nodup_iff.mpr (List.nodup_cons.mpr ⟨map, v.maps⟩),
        fun m member => ?_, v.frames, fun f member => Nat.lt_succ_of_lt (v.below f member)⟩
      · rw [unmappedIn, List.filterMap_append]
        exact congrArg (· ++ [_]) v.unmapped
      · rw [releasedIn, List.filterMap_append]
        exact (List.append_nil _).trans v.released
      · rcases List.mem_cons.mp (order.subset member) with new | old
        · rw [new]
          exact Nat.lt_succ_self _
        · exact Nat.lt_succ_of_lt (v.serials m old)

theorem giveBack (v : XdpBook mem (nextFrame + 1) refused returned placed)
    (new : nextFrame ∉ returned ++ placed.map XdpFrame.frame) :
    XdpBook mem (nextFrame + 1) refused (returned ++ [nextFrame]) placed := by
  have order : (returned ++ [nextFrame] ++ placed.map XdpFrame.frame).Perm
      (nextFrame :: (returned ++ placed.map XdpFrame.frame)) := by
    rw [List.append_assoc]
    exact List.perm_middle
  refine ⟨v.unmapped, v.released, v.maps, v.serials,
    order.nodup_iff.mpr (List.nodup_cons.mpr ⟨new, v.frames⟩), fun f member => ?_⟩
  rcases List.mem_cons.mp (order.subset member) with own | old
  · rw [own]
    exact Nat.lt_succ_self _
  · exact v.below f old

end XdpBook

/-- Buffer IDs in flow scheduling mode: each is free or held by a frame. -/
structure FlowIds (q : TxQueue) (held free : List Nat) : Prop where
  refill : RflFree q.refillq free
  cap : q.refillq.descCount = q.bufPoolSize
  small : q.bufPoolSize ≤ 65535
  places : (free ++ held).Perm (List.range q.bufPoolSize)
  live : ∀ b ∈ held, (q.bufs b).type = .xdpTx ∧ (q.bufs b).next = none

namespace FlowIds

variable {q q' : TxQueue} {held free : List Nat}

theorem rflValid_eq (v : FlowIds q held free) : rflValid q.bufPoolSize q.refillq = free := by
  refine Idpf.rflValid_eq v.refill ?_
  have length := v.places.length_eq
  rw [List.length_append, List.length_range] at length
  omega

theorem withMem (v : FlowIds q held free) (mem : Mem) : FlowIds { q with mem } held free :=
  ⟨v.refill, v.cap, v.small, v.places, v.live⟩

theorem send {b frame size addr : Nat} {r : XdpResult} (v : FlowIds q held (b :: free))
    (sent : XdpSent q frame size addr b r) (refill : RflFree r.q.refillq free)
    (cap : r.q.refillq.descCount = q.refillq.descCount) : FlowIds r.q (held ++ [b]) free := by
  have nodup : ((b :: free) ++ held).Nodup := v.places.nodup_iff.mpr List.nodup_range
  refine ⟨refill, ?_, ?_, ?_, fun c member => ?_⟩
  · rw [cap, v.cap, sent.size]
  · rw [sent.size]
    exact v.small
  · rw [sent.size]
    refine List.Perm.trans ?_ v.places
    rw [← List.append_assoc]
    exact List.perm_append_singleton b _
  · rw [sent.bufs]
    by_cases own : c = b
    · subst own
      rw [Function.update_self]
      exact ⟨rfl, rfl⟩
    · rw [Function.update_of_ne own]
      rcases List.mem_append.mp member with old | new
      · exact v.live c old
      · exact absurd (List.mem_singleton.mp new) own

theorem complete {b : Nat} {rest : List Nat} (v : FlowIds q held free)
    (split : (b :: rest).Perm held) :
    FlowIds ((q.emptied [b] q.mem.log).postBuf b) rest (free ++ [b]) := by
  have places : (free ++ b :: rest).Perm (List.range q.bufPoolSize) :=
    (split.append_left free).trans v.places
  have below : b < q.bufPoolSize := List.mem_range.mp (places.subset
    (List.mem_append_right _ List.mem_cons_self))
  have small := v.small
  have id : u16 b = b := Nat.mod_eq_of_lt (by omega)
  have room : free.length < q.refillq.descCount := by
    have length := places.length_eq
    rw [List.length_append, List.length_cons, List.length_range] at length
    rw [v.cap]
    omega
  have nodup : (free ++ b :: rest).Nodup := places.nodup_iff.mpr List.nodup_range
  refine ⟨?_, v.cap, v.small, ?_, fun c member => ?_⟩
  · change RflFree (postBufRefill q.refillq (u16 b)) _
    rw [id]
    exact v.refill.post room (by omega)
  · rw [List.append_assoc]
    exact places
  · have other : c ∉ [b] := fun same =>
      (List.nodup_cons.mp nodup.of_append_right).1 (List.mem_singleton.mp same ▸ member)
    have kept : ((q.emptied [b] q.mem.log).postBuf b).bufs c = q.bufs c :=
      q.emptied_other q.mem.log other
    rw [kept]
    exact v.live c (split.subset (List.mem_cons_of_mem b member))

end FlowIds

/-- Buffers in queue scheduling mode: those of the descriptors between `next_to_clean` and
`next_to_use`. -/
structure RingIds (q : TxQueue) (held : List Nat) : Prop where
  clean : q.nextToClean < q.descCount
  room : held.length < q.descCount
  window : OnRing q held
  use : q.nextToUse = (q.nextToClean + held.length) % q.descCount
  live : ∀ b ∈ held, (q.bufs b).type = .xdpTx ∧ (q.bufs b).rsIdx = b

/-- Cleaning `k` frames from `ntc` on. -/
theorem splitqCleanTurns_window {k fuel ntc : Nat} {s : Cleaning} (start : ntc < s.q.descCount)
    (short : k < s.q.descCount) (enough : k < fuel)
    (live : ∀ b ∈ ringSlots s.q.descCount ntc k,
      (s.q.bufs b).type = .xdpTx ∧ (s.q.bufs b).rsIdx = b) :
    let r := splitqCleanTurns ((ntc + k) % s.q.descCount) fuel s ntc
    r.2 = (ntc + k) % s.q.descCount ∧
      r.1.q = s.q.emptied (ringSlots s.q.descCount ntc k) s.q.mem.log := by
  obtain ⟨fuel, rfl⟩ := Nat.exists_eq_succ_of_ne_zero (Nat.ne_of_gt (Nat.zero_lt_of_lt enough))
  have here : ntc % s.q.descCount = ntc := Nat.mod_eq_of_lt start
  induction k generalizing fuel s ntc with
  | zero =>
      rw [Nat.add_zero, here, splitqCleanTurns, if_pos rfl]
      refine ⟨rfl, ?_⟩
      simp [ringSlots, TxQueue.emptied]
  | succ k ih =>
      obtain ⟨fuel, rfl⟩ := Nat.exists_eq_succ_of_ne_zero (n := fuel) (by omega)
      have nodup := ringSlots_nodup (n := s.q.descCount) ntc (Nat.le_of_lt short)
      rw [ringSlots_cons, here] at live nodup
      obtain ⟨frame, own⟩ := live ntc List.mem_cons_self
      have one := libethTxComplete_quiet (s := s) (.inr frame)
      have count : (libethTxComplete s ntc).q.descCount = s.q.descCount := by
        rw [one]
        rfl
      have next : bump s.q.descCount ntc = (ntc + 1) % s.q.descCount := by
        have next := bump_mod (Nat.zero_lt_of_lt start) ntc
        rwa [here] at next
      have further : ntc ≠ (ntc + (k + 1)) % s.q.descCount := by
        have apart := mod_ne_of_near (n := s.q.descCount) (a := ntc) (b := ntc + (k + 1))
          (by omega) (by omega)
        rwa [here] at apart
      have rest : (ntc + (k + 1)) % s.q.descCount =
          ((ntc + 1) % s.q.descCount + k) % s.q.descCount := by
        rw [Nat.mod_add_mod, Nat.add_assoc, Nat.add_comm 1 k]
      have go : splitqCleanTurns ((ntc + (k + 1)) % s.q.descCount) (fuel + 1 + 1) s ntc =
          splitqCleanTurns (((ntc + 1) % s.q.descCount + k) % s.q.descCount) (fuel + 1)
            (libethTxComplete s ntc) ((ntc + 1) % s.q.descCount) := by
        obtain ⟨m, size⟩ := Nat.exists_eq_succ_of_ne_zero (Nat.zero_lt_of_lt start).ne'
        have alone : splitqCleanRest ntc s.q.descCount (libethTxComplete s ntc) ntc =
            (libethTxComplete s ntc, ntc) := by
          rw [size, splitqCleanRest, if_pos rfl]
        have data : ¬ (s.q.bufs ntc).type = .ctx := by rw [frame]; decide
        rw [splitqCleanTurns, if_neg further]
        dsimp only
        rw [if_neg data, own, alone]
        dsimp only
        rw [count, next, rest]
      have left := @ih ((ntc + 1) % s.q.descCount) (libethTxComplete s ntc)
        (by rw [count]; exact Nat.mod_lt _ (by omega)) (by omega)
        (fun b member => by
          rw [count, ringSlots_mod] at member
          have other : b ∉ [ntc] := fun same =>
            (List.nodup_cons.mp nodup).1 (List.mem_singleton.mp same ▸ member)
          rw [one, s.q.emptied_other _ other]
          exact live b (List.mem_cons_of_mem ntc member))
        fuel (by omega) (by rw [count, Nat.mod_mod])
      rw [count, ringSlots_mod] at left
      rw [go, ringSlots_cons, here]
      refine ⟨left.1.trans rest.symm, left.2.trans ?_⟩
      rw [one]
      exact s.q.emptied_emptied [ntc] _ _ _

namespace RingIds

variable {q : TxQueue} {held : List Nat}

theorem withMem (v : RingIds q held) (mem : Mem) : RingIds { q with mem } held :=
  ⟨v.clean, v.room, v.window, v.use, v.live⟩

theorem send {frame size addr : Nat} {r : XdpResult} (v : RingIds q held)
    (sent : XdpSent q frame size addr q.nextToUse r) : RingIds r.q (held ++ [q.nextToUse]) := by
  have inside : q.nextToUse < q.descCount := by
    rw [v.use]
    exact Nat.mod_lt _ (Nat.zero_lt_of_lt v.clean)
  have far : ringDist q.descCount q.nextToClean q.nextToUse = held.length := by
    have far := ringDist_mod (n := q.descCount) (c := q.nextToClean)
      (p := q.nextToClean + held.length) (by omega) (by have := v.room; omega)
    rw [Nat.mod_eq_of_lt v.clean, ← v.use] at far
    omega
  have room := descUnused_dist q v.clean inside
  have some_ := sent.room
  refine ⟨?_, ?_, ?_, ?_, fun c member => ?_⟩
  · rw [sent.clean, sent.count]
    exact v.clean
  · rw [sent.count, List.length_append, List.length_singleton]
    omega
  · rw [OnRing, sent.clean, sent.count, List.length_append, List.length_singleton, ringSlots_snoc,
      ← v.use, ← v.window]
  · rw [sent.use, sent.count, sent.clean, List.length_append, List.length_singleton, v.use,
      bump_mod (Nat.zero_lt_of_lt v.clean), Nat.add_assoc]
  · rw [sent.bufs]
    by_cases own : c = q.nextToUse
    · subst own
      rw [Function.update_self]
      exact ⟨rfl, rfl⟩
    · rw [Function.update_of_ne own]
      rcases List.mem_append.mp member with old | new
      · exact v.live c old
      · exact absurd (List.mem_singleton.mp new) own

/-- A head completes the first `k` frames. -/
theorem complete {k : Nat} (v : RingIds q held) (flow : q.flowSchEn = false)
    (inside : k ≤ held.length) :
    let end_ := (q.nextToClean + k) % q.descCount
    (handleRsCompletion q end_).q =
        { q.emptied (held.take k) q.mem.log with nextToClean := end_ } ∧
      RingIds (handleRsCompletion q end_).q (held.drop k) := by
  have room := v.room
  have cut : held = ringSlots q.descCount q.nextToClean k ++
      ringSlots q.descCount (q.nextToClean + k) (held.length - k) := by
    rw [← ringSlots_append, Nat.add_sub_cancel' inside]
    exact v.window
  have took : held.take k = ringSlots q.descCount q.nextToClean k := by
    rw [cut, List.take_left' (ringSlots_length ..)]
  have left : held.drop k = ringSlots q.descCount (q.nextToClean + k) (held.length - k) := by
    conv_lhs => rw [cut]
    rw [List.drop_left' (ringSlots_length ..)]
  have nodup : held.Nodup := by
    rw [v.window]
    exact ringSlots_nodup _ (Nat.le_of_lt room)
  obtain ⟨stop, cleaned⟩ := splitqCleanTurns_window (k := k) (s := ⟨q, {}⟩) v.clean
    (show k < q.descCount by omega) (show k < q.descCount by omega) (fun b member =>
      v.live b (List.mem_of_mem_take (i := k) (by rw [took]; exact member)))
  have after : (handleRsCompletion q ((q.nextToClean + k) % q.descCount)).q =
      { q.emptied (held.take k) q.mem.log with
        nextToClean := (q.nextToClean + k) % q.descCount } := by
    have ring : ¬ q.flowSchEn = true := by rw [flow]; exact Bool.false_ne_true
    rw [handleRsCompletion, if_neg ring, txSplitqClean]
    dsimp only
    rw [stop, cleaned, took]
  refine ⟨after, ?_⟩
  rw [after]
  refine ⟨Nat.mod_lt _ (Nat.zero_lt_of_lt v.clean), ?_, ?_, ?_, fun b member => ?_⟩
  · change (held.drop k).length < q.descCount
    rw [List.length_drop]
    omega
  · change held.drop k = ringSlots q.descCount ((q.nextToClean + k) % q.descCount) _
    rw [ringSlots_mod, List.length_drop, left]
  · change q.nextToUse = ((q.nextToClean + k) % q.descCount + (held.drop k).length) % q.descCount
    rw [Nat.mod_add_mod, List.length_drop, Nat.add_assoc, Nat.add_sub_cancel' inside]
    exact v.use
  · have other : b ∉ held.take k := fun first =>
      List.disjoint_take_drop nodup (Nat.le_refl k) first member
    change ((q.emptied (held.take k) q.mem.log).bufs b).type = _ ∧ _
    rw [q.emptied_other _ other]
    exact v.live b (List.mem_of_mem_drop member)

end RingIds

structure XdpInv (s : XdpSystem) : Prop where
  book : XdpBook s.q.mem s.nextFrame s.refused s.returned (s.inflight ++ s.done)
  quiet : ∀ b, Quiet (s.q.bufs b)
  missTag : s.q.missTagEn = false
  posted : s.q.postedIds = s.completed
  flow : s.up = true → s.q.flowSchEn = true → ∃ free, FlowIds s.q s.held free
  ring : s.up = true → s.q.flowSchEn = false → RingIds s.q s.held

theorem XdpSent.quiet {q : TxQueue} {frame size addr b : Nat} {r : XdpResult}
    (sent : XdpSent q frame size addr b r) (quiet : ∀ c, Quiet (q.bufs c)) (c : Nat) :
    Quiet (r.q.bufs c) := by
  rw [sent.bufs]
  by_cases own : c = b
  · subst own
    rw [Function.update_self]
    exact .inr rfl
  · rw [Function.update_of_ne own]
    exact quiet c

theorem XdpSent.posted {q : TxQueue} {frame size addr b : Nat} {r : XdpResult}
    (sent : XdpSent q frame size addr b r) : r.q.postedIds = q.postedIds := by
  rw [TxQueue.postedIds, sent.mem, TxQueue.postedIds]

namespace XdpInv

variable {s s' : XdpSystem}

/-- A frame put on the ring, in either mode. -/
theorem sent (v : XdpInv s) {size addr b : Nat}
    (sent : XdpSent s.q s.nextFrame size addr b (txXmitXdpq s.q s.nextFrame size (some addr)))
    (flow : s.up = true → s.q.flowSchEn = true →
      ∃ free, FlowIds (txXmitXdpq s.q s.nextFrame size (some addr)).q (s.held ++ [b]) free)
    (ring : s.up = true → s.q.flowSchEn = false →
      RingIds (txXmitXdpq s.q s.nextFrame size (some addr)).q (s.held ++ [b])) :
    XdpInv (s.tx size (some addr)).1 := by
  have next : (s.tx size (some addr)).1 = { s with
      q := (txXmitXdpq s.q s.nextFrame size (some addr)).q
      inflight := s.inflight ++ [⟨s.nextFrame, ⟨addr, s.q.mem.nextMap⟩, b⟩]
      nextFrame := s.nextFrame + 1 } := by
    rw [XdpSystem.tx]
    dsimp only
    rw [sent.mapped, sent.sent, if_pos rfl]
    rfl
  have order (x : XdpFrame) : (s.inflight ++ [x] ++ s.done).Perm (s.inflight ++ s.done ++ [x]) := by
    rw [List.append_assoc, List.append_assoc]
    exact List.perm_append_comm.append_left _
  have held : XdpSystem.held { s with
      q := (txXmitXdpq s.q s.nextFrame size (some addr)).q
      inflight := s.inflight ++ [⟨s.nextFrame, ⟨addr, s.q.mem.nextMap⟩, b⟩]
      nextFrame := s.nextFrame + 1 } = s.held ++ [b] := List.map_append
  rw [next]
  refine ⟨?_, sent.quiet v.quiet, sent.missTag.trans v.missTag, sent.posted.trans v.posted, ?_, ?_⟩
  · change XdpBook (txXmitXdpq s.q s.nextFrame size (some addr)).q.mem _ _ _ _
    rw [sent.mem]
    exact (v.book.place addr b).perm (order _)
  · rw [held]
    exact fun up mode => flow up (sent.flow ▸ mode)
  · rw [held]
    exact fun up mode => ring up (sent.flow ▸ mode)

theorem refused (v : XdpInv s) {size : Nat} {dma : Option Nat}
    (refused : XdpRefused s.q dma (txXmitXdpq s.q s.nextFrame size dma)) :
    XdpInv (s.tx size dma).1 := by
  obtain ⟨sent, mapped, q⟩ := refused
  have next : (s.tx size dma).1 = { s with
      q := (txXmitXdpq s.q s.nextFrame size dma).q
      refused := s.refused ++ dma.toList.map fun addr => ⟨addr, s.q.mem.nextMap⟩
      nextFrame := s.nextFrame + 1 } := by
    rw [XdpSystem.tx]
    dsimp only
    rw [mapped, sent, List.map_nil, List.append_nil]
    rfl
  rw [next, q]
  refine ⟨v.book.refuse dma, v.quiet, v.missTag, ?_, fun up mode => ?_, fun up mode => ?_⟩
  · rw [← v.posted, TxQueue.postedIds, TxQueue.postedIds]
    cases dma <;> simp
  · obtain ⟨free, ids⟩ := v.flow up mode
    exact ⟨free, ids.withMem _⟩
  · exact (v.ring up mode).withMem _

theorem tx (v : XdpInv s) (up : s.up = true) (size : Nat) (dma : Option Nat) :
    XdpInv (s.tx size dma).1 := by
  cases mode : s.q.flowSchEn with
  | true =>
      obtain ⟨free, ids⟩ := v.flow up mode
      obtain out | ⟨addr, b, rest, rfl, rfl, put, refill, cap⟩ :=
        txXmitXdpq_flow mode ids.refill s.nextFrame size dma
      · exact v.refused out
      · refine v.sent put (fun _ _ => ⟨rest, ids.send put refill cap⟩) fun _ ring => ?_
        rw [mode] at ring
        exact absurd ring nofun
  | false =>
      have ids := v.ring up mode
      obtain out | ⟨addr, rfl, put⟩ := txXmitXdpq_ring mode s.nextFrame size dma
      · exact v.refused out
      · refine v.sent put (fun _ flow => ?_) fun _ _ => ids.send put
        rw [mode] at flow
        exact absurd flow nofun

theorem unsent (v : XdpInv s) {size : Nat} {dma : Option Nat} (out : (s.tx size dma).2 = false)
    (up : s.up = true) : s.nextFrame ∉ (s.tx size dma).1.returned ++
      ((s.tx size dma).1.inflight ++ (s.tx size dma).1.done).map XdpFrame.frame := by
  have mapped : (txXmitXdpq s.q s.nextFrame size dma).mapped = [] := by
    cases mode : s.q.flowSchEn with
    | true =>
        obtain ⟨free, ids⟩ := v.flow up mode
        obtain refused | ⟨_, _, _, -, -, put, -⟩ :=
          txXmitXdpq_flow mode ids.refill s.nextFrame size dma
        · exact refused.2.1
        · exact absurd (put.sent.symm.trans out) nofun
    | false =>
        obtain refused | ⟨_, -, put⟩ := txXmitXdpq_ring mode s.nextFrame size dma
        · exact refused.2.1
        · exact absurd (put.sent.symm.trans out) nofun
  have same : (s.tx size dma).1.inflight = s.inflight := by
    rw [XdpSystem.tx]
    dsimp only
    rw [mapped, List.map_nil, List.append_nil]
  rw [same]
  exact fun old => absurd (v.book.below _ old) (Nat.lt_irrefl _)

theorem xdpXmit (v : XdpInv s) (up : s.up = true) (frames : List (Nat × Option Nat)) :
    XdpInv (XdpSystem.xdpXmit frames s) := by
  induction frames generalizing s with
  | nil => exact v
  | cons f rest ih =>
      have next := v.tx up f.1 f.2
      rw [XdpSystem.xdpXmit]
      dsimp only
      split
      · exact ih next up
      · next out =>
        have new := v.unsent (Bool.eq_false_iff.mpr out) up
        exact ⟨next.book.giveBack new, next.quiet, next.missTag, next.posted, next.flow, next.ring⟩

theorem complete (v : XdpInv s) (up : s.up = true) (mode : s.q.flowSchEn = true) {i : Nat}
    {x : XdpFrame} (held : s.inflight[i]? = some x) : XdpInv (s.complete i x) := by
  obtain ⟨free, ids⟩ := v.flow up mode
  obtain ⟨inside, at_⟩ := List.getElem?_eq_some_iff.mp held
  have split : (x :: s.inflight.eraseIdx i).Perm s.inflight :=
    at_ ▸ List.getElem_cons_eraseIdx_perm inside
  have mine : x.buf ∈ s.held := List.mem_map_of_mem (split.subset List.mem_cons_self)
  obtain ⟨frame, last⟩ := ids.live x.buf mine
  have pos : 0 < s.q.bufPoolSize := by
    have member := ids.places.subset (List.mem_append_right _ mine)
    exact Nat.zero_lt_of_lt (List.mem_range.mp member)
  have after : (handleRsCompletion s.q x.buf).q =
      (s.q.emptied [x.buf] s.q.mem.log).postBuf x.buf := by
    have plain : ¬ (s.q.missTagEn && x.buf / txSplitqMissComplTag % 2 == 1) = true := by
      rw [v.missTag, Bool.false_and]
      exact Bool.false_ne_true
    rw [handleRsCompletion, if_pos mode, txHandleRsCompletion, if_neg plain]
    exact txCleanBufs_xdpTx frame last pos
  have order : (s.inflight.eraseIdx i ++ (s.done ++ [x])).Perm (s.inflight ++ s.done) := by
    rw [← List.append_assoc]
    exact (List.perm_append_singleton x _).trans (split.append_right s.done)
  have next : XdpInv { s with
      q := (s.q.emptied [x.buf] s.q.mem.log).postBuf x.buf
      inflight := s.inflight.eraseIdx i
      done := s.done ++ [x]
      completed := s.completed ++ [x.buf] } := by
    refine ⟨(v.book.post _ x.buf).perm order, Quiet.emptied v.quiet [x.buf] s.q.mem.log, v.missTag,
      ?_, fun _ _ => ⟨_, ids.complete (split.map XdpFrame.buf)⟩, fun _ ring => ?_⟩
    · rw [← v.posted, TxQueue.postedIds, TxQueue.postedIds]
      exact List.filterMap_append
    · exact absurd (mode.symm.trans ring) nofun
  rw [XdpSystem.complete, after]
  exact next

theorem completeTo (v : XdpInv s) (up : s.up = true) (mode : s.q.flowSchEn = false) {k : Nat}
    (inside : k ≤ s.inflight.length) : XdpInv (s.completeTo k) := by
  have length : s.held.length = s.inflight.length := List.length_map ..
  obtain ⟨after, ids⟩ := (v.ring up mode).complete mode (k := k) (by omega)
  have order : (s.inflight.drop k ++ (s.done ++ s.inflight.take k)).Perm (s.inflight ++ s.done) := by
    rw [← List.append_assoc]
    refine List.perm_append_comm.trans ?_
    rw [← List.append_assoc, List.take_append_drop]
  rw [XdpSystem.completeTo, after]
  rw [after] at ids
  refine ⟨v.book.perm order, Quiet.emptied v.quiet _ s.q.mem.log, v.missTag, v.posted,
    fun _ flow => ?_, fun _ _ => ?_⟩
  · exact absurd (mode.symm.trans flow) nofun
  · have left : (s.inflight.drop k).map XdpFrame.buf = s.held.drop k := List.map_drop
    change RingIds _ ((s.inflight.drop k).map XdpFrame.buf)
    rw [left]
    exact ids

theorem release (v : XdpInv s) : XdpInv s.release := by
  have after : txBufRelAll s.q = s.q.emptied (List.range s.q.bufPoolSize) s.q.mem.log :=
    foldl_libethTxComplete_quiet _ (s := ⟨s.q, {}⟩) v.quiet
  have order : (s.done ++ s.inflight).Perm (s.inflight ++ s.done) := List.perm_append_comm
  rw [XdpSystem.release, after]
  exact ⟨v.book.perm order, Quiet.emptied v.quiet _ s.q.mem.log, v.missTag, v.posted,
    nofun, nofun⟩

theorem start (h : XdpStart s) : XdpInv s := by
  obtain ⟨c, flow, rfl⟩ := h
  refine ⟨⟨rfl, rfl, List.nodup_nil, nofun, List.nodup_nil, nofun⟩, fun _ => .inl rfl, rfl, rfl,
    fun _ mode => ?_, fun _ mode => ?_⟩
  · obtain rfl : flow = true := mode
    have pos : 0 < c.poolSize := by unfold TxConfig.poolSize; split <;> decide
    have small : c.poolSize ≤ 65535 := by unfold TxConfig.poolSize; split <;> decide
    have refill : RflFree (rflAlloc c.poolSize) (List.range c.poolSize) :=
      rflAlloc_free pos (by omega)
    exact ⟨List.range c.poolSize, refill, rfl, small, List.Perm.of_eq (List.append_nil _), nofun⟩
  · obtain rfl : flow = false := mode
    have pos : 0 < c.descCount := Nat.lt_of_lt_of_le (by decide : 0 < minTxqDesc) c.descMin
    exact ⟨pos, pos, rfl, (Nat.zero_mod _).symm, nofun⟩

theorem step {e : XdpEvent} (v : XdpInv s) (go : s.step e = some s') : XdpInv s' := by
  unfold XdpSystem.step at go
  split at go
  case isFalse => exact absurd go nofun
  case isTrue up =>
    cases e with
    | xdpTx size dma =>
        obtain rfl := Option.some.inj go
        exact v.tx up size dma
    | xdpXmit frames =>
        obtain rfl := Option.some.inj go
        exact v.xdpXmit up frames
    | complete i =>
        dsimp only at go
        split at go
        case isFalse => exact absurd go nofun
        case isTrue mode =>
          obtain ⟨x, held, rfl⟩ := Option.map_eq_some_iff.mp go
          exact v.complete up mode held
    | head k =>
        dsimp only at go
        split at go
        case isFalse => exact absurd go nofun
        case isTrue ok =>
          obtain rfl := Option.some.inj go
          exact v.completeTo up ok.1 ok.2
    | re head =>
        dsimp only at go
        split at go
        case isFalse => exact absurd go nofun
        case isTrue ok =>
          obtain rfl := Option.some.inj go
          refine ⟨v.book, v.quiet, v.missTag, v.posted, fun _ mode => ?_, fun _ ring => ?_⟩
          · obtain ⟨free, ids⟩ := v.flow up mode
            exact ⟨free, ids.refill, ids.cap, ids.small, ids.places, ids.live⟩
          · exact absurd (ok.1.symm.trans ring) nofun
    | release =>
        obtain rfl := Option.some.inj go
        exact v.release

end XdpInv

/-- Frames and mappings are conserved as long as no frame that was put on the ring is done:
no path unmaps or releases one. -/
theorem xdp_conserved_iff {s : XdpSystem} (h : Reachable XdpSystem.step anyStep XdpStart s) :
    XdpConserved s ↔ s.done = [] := by
  have v := h.invariant (I := XdpInv) (fun _ hs => XdpInv.start hs) fun _ _ _ v _ go => v.step go
  have maps := v.book.maps
  have frames := v.book.frames
  have none_ : ∀ x ∈ s.inflight ++ s.done, s.unmaps x.map = 0 ∧ s.releases x.frame = 0 := by
    intro x member
    refine ⟨List.count_eq_zero.mpr ?_, List.count_eq_zero.mpr ?_⟩
    · rw [v.book.unmapped]
      exact fun both => List.disjoint_of_nodup_append maps both (List.mem_map_of_mem member)
    · rw [v.book.released]
      exact fun both => List.disjoint_of_nodup_append frames both (List.mem_map_of_mem member)
  constructor
  · intro fine
    by_contra some_
    obtain ⟨x, member⟩ := List.exists_mem_of_ne_nil _ some_
    have never := (none_ x (List.mem_append_right _ member)).1
    rw [(fine.done x member).1] at never
    exact absurd never nofun
  · intro empty
    refine ⟨fun m member => ?_, fun x member => none_ x (List.mem_append_left _ member), ?_, v.posted,
      fun up mode => ?_, fun up mode => (v.ring up mode).window⟩
    · rw [XdpSystem.unmaps, v.book.unmapped]
      exact List.count_eq_one_of_mem (maps.of_append_left) member
    · rw [empty]
      exact nofun
    · obtain ⟨free, ids⟩ := v.flow up mode
      rw [ids.rflValid_eq]
      exact ids.places

def xdpSmall : XdpSystem :=
  TxConfig.xdpInit ⟨1, 128, 256, 8, false, fun _ => true, minTxqDesc_le, le_maxDescs, by decide,
    by decide⟩ true

/-- One frame is on the ring; the second of a batch of two has no mapping. -/
theorem xdp_conserved_on_ring : ∃ s : XdpSystem,
    s.inflight.length = 2 ∧ s.returned = [3] ∧ XdpConserved s := by
  have run : (exec XdpSystem.step xdpSmall
      [.xdpTx 60 (some 4096), .xdpXmit [(60, some 8192), (60, none)]]).map
        (fun s => (s.inflight.length, s.returned, s.done)) = some (2, [3], []) := by
    decide +kernel
  obtain ⟨s, done, eq⟩ := Option.map_eq_some_iff.mp run
  simp only [Prod.mk.injEq] at eq
  have start : XdpStart xdpSmall := ⟨_, _, rfl⟩
  exact ⟨s, eq.1, eq.2.1, (xdp_conserved_iff (Reachable.exec (.start start) done)).mpr eq.2.2⟩

/-- A frame of `XDP_TX` is completed: its buffer ID goes back, its mapping stays and its
memory is not released. -/
theorem xdp_frame_leaked : ∃ s : XdpSystem, Reachable XdpSystem.step anyStep XdpStart s ∧
    s.done = [⟨1, ⟨4096, 0⟩, 0⟩] ∧ s.q.postedIds = [0] ∧ s.unmaps ⟨4096, 0⟩ = 0 ∧
      s.releases 1 = 0 ∧ ¬ XdpConserved s := by
  have run : (exec XdpSystem.step xdpSmall [.xdpTx 60 (some 4096), .complete 0]).map
      (fun s => (s.done, s.q.postedIds, s.unmaps ⟨4096, 0⟩, s.releases 1)) =
        some ([⟨1, ⟨4096, 0⟩, 0⟩], [0], 0, 0) := by
    decide +kernel
  obtain ⟨s, steps, eq⟩ := Option.map_eq_some_iff.mp run
  simp only [Prod.mk.injEq] at eq
  obtain ⟨done, posted, unmaps, releases⟩ := eq
  have start : XdpStart xdpSmall := ⟨_, _, rfl⟩
  refine ⟨s, Reachable.exec (.start start) steps, done, posted, unmaps, releases, fun fine => ?_⟩
  have once := (fine.done ⟨1, ⟨4096, 0⟩, 0⟩ (done ▸ List.mem_singleton_self _)).1
  rw [unmaps] at once
  exact absurd once nofun

end Idpf
