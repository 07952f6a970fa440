import Idpf.Rx.Conservation

/-! One buffer queue and its tail register: the first fill, the write when the vport is opened, the
fill from an AF_XDP pool and the passes that refill the queue, beside the device. -/
namespace Idpf
open General

/-- A buffer queue. `stride` is `rx_buf_stride`, and `zc` says that its buffers come from an AF_XDP
pool. -/
structure RxPostCfg where
  descCount : Nat
  stride : Nat
  numRxq : Nat
  zc : Bool
  two : 1 < descCount
  max : descCount ≤ 65536
  wide : 0 < stride
  aligned : stride % rxBufPostStride = 0
  rxqs : 0 < numRxq

/-- A write to the tail register: what it replaces, `next_to_alloc` at that time, and whether each
descriptor it hands over holds the address of a buffer. -/
structure TailWrite where
  prev : Nat
  val : Nat
  nta : Nat
  covered : Bool
  deriving DecidableEq, Repr

/-- What a write has to be: a multiple of the stride, between the tail so far and `next_to_alloc`, with
nothing handed over but descriptors that hold an address. -/
def TailWrite.Good (n : Nat) (w : TailWrite) : Prop :=
  w.val % rxBufPostStride = 0 ∧ ringDist n w.prev w.val ≤ ringDist n w.prev w.nta ∧ w.covered = true

/-- How far `idpf_vport_open` has come. -/
inductive PostStage where
  | new | filled | opened | enabled
  deriving DecidableEq, Repr

/-- `filled` are the descriptors that have been given the address of a buffer since the device last
consumed them, and `held` the buffers of those it has consumed. -/
structure RxPosting where
  stage : PostStage
  bufq : RxBufq
  refillq : Nat → SwQueue
  pass : Option (Nat × RefillPass)
  filled : Nat → Bool
  tail : Nat
  head : Nat
  held : List Nat
  writes : List TailWrite

/-- The first fill, with whether all buffers could be allocated; the write when the vport is opened;
`idpf_vport_xdp_init`, with the buffers the pool has to give; and what the queue is used for. -/
inductive PostOp where
  | fill (ok : Bool)
  | initTail
  | xdpInit (count : Nat) (supply : Nat → Bool)
  | fetch
  | give (j bufId : Nat)
  | passBegin (j : Nat)
  | passTurn (ok : Bool)

namespace RxPosting

/-- `writel(val, rxq->tail)`. -/
def writeTail (s : RxPosting) (val nta : Nat) : RxPosting :=
  let span := ringSlots s.bufq.descCount s.tail (ringDist s.bufq.descCount s.tail val)
  { s with tail := val, writes := s.writes ++ [⟨s.tail, val, nta, span.all s.filled⟩] }

/-- `idpf_rx_buf_hw_update`. -/
def bufHwUpdate (s : RxPosting) (val : Nat) : RxPosting :=
  { s with bufq := { s.bufq with nextToUse := val } }.writeTail val s.bufq.nextToAlloc

/-- `idpf_rx_post_buf_desc`; `address` says that the buffer has an address. -/
def postBufDesc (address : Bool) (s : RxPosting) (bufId : Nat) : RxPosting :=
  let nta := s.bufq.nextToAlloc
  { s with
    bufq := { s.bufq with
      ring := Function.update s.bufq.ring nta bufId
      nextToAlloc := bump s.bufq.descCount nta }
    filled := Function.update s.filled nta address }

/-- `idpf_rx_post_init_bufs`. -/
def postInitBufs (c : RxPostCfg) (address : Bool) (s : RxPosting) (workingSet : Nat) : RxPosting :=
  let s := (List.range workingSet).foldl (postBufDesc address) s
  s.bufHwUpdate (s.bufq.nextToAlloc / c.stride * c.stride)

/-- `idpf_rx_bufs_init`. A queue of an AF_XDP pool has no buffers yet. -/
def bufsInit (c : RxPostCfg) (s : RxPosting) (ok : Bool) : RxPosting :=
  if c.zc then { s.postInitBufs c false (c.descCount - 1) with stage := .filled }
  else if ok then { s.postInitBufs c true (c.descCount - 1) with stage := .filled }
  else s

/-- The first loop of `idpf_rx_splitq_buf_hw_alloc_zc_all`, over `k` more buffers: the slot it stops
at and the descriptors that hold a buffer. -/
def zcAllocLoop (n : Nat) (supply : Nat → Bool) : Nat → Nat → Nat → (Nat → Bool) → Nat × (Nat → Bool)
  | 0, _, nta, filled => (nta, filled)
  | k + 1, i, nta, filled =>
    if supply i then zcAllocLoop n supply k (i + 1) (bump n nta) (Function.update filled nta true)
    else (nta, filled)

/-- `idpf_rx_splitq_buf_hw_alloc_zc_all`. A count of 0 wraps before it is tested. -/
def bufHwAllocZcAll (c : RxPostCfg) (s : RxPosting) (count : Nat) (supply : Nat → Bool) : RxPosting :=
  let n := c.descCount
  let r := zcAllocLoop n supply (if count = 0 then 65536 else count) 0 0 s.filled
  let rest := List.range' r.1 (n - 1 - r.1)
  { s with
    filled := r.2
    refillq := Function.update s.refillq 0
      (rest.foldl (fun q b => postBufRefill q (u16 b)) (s.refillq 0))
    bufq := { s.bufq with nextToAlloc := r.1 + (n - 1 - r.1) } }.bufHwUpdate
      ((r.1 + (n - 1 - r.1)) / c.stride * c.stride)

/-- `idpf_vport_xdp_init`, and the messages that enable the queue. -/
def xdpInit (c : RxPostCfg) (s : RxPosting) (count : Nat) (supply : Nat → Bool) : RxPosting :=
  { (if c.zc then s.bufHwAllocZcAll c count supply else s) with stage := .enabled }

def fetch (s : RxPosting) : RxPosting :=
  { s with
    held := s.held ++ [s.bufq.ring s.head]
    filled := Function.update s.filled s.head false
    head := bump s.bufq.descCount s.head }

/-- A buffer the device has completed goes back by the refill queue of queue `j`. -/
def give (s : RxPosting) (j bufId : Nat) : RxPosting :=
  { s with
    held := s.held.erase bufId
    refillq := Function.update s.refillq j (postBufRefill (s.refillq j) (u16 bufId)) }

/-- A turn of the pass `p` over the refill queue of queue `j`; `ok` is whether
`idpf_rx_update_bufq_desc` succeeds. -/
def passTurn (s : RxPosting) (j : Nat) (p : RefillPass) (ok : Bool) : RxPosting :=
  match rxRefillTurn (s.refillq j) s.bufq p ok with
  | some (r, bufq, p') =>
    { s with
      refillq := Function.update s.refillq j r
      bufq, pass := some (j, p')
      filled := Function.update s.filled p.bufqNta true }
  | none =>
    let left := rxRefillEnd (s.refillq j) s.bufq p
    let t := { s with refillq := Function.update s.refillq j left.1, bufq := left.2, pass := none }
    if p.cleaned ≠ 0 ∧ rxRefillFilled s.bufq p.bufqNta ≥ rxBufPostStride then
      t.writeTail left.2.nextToUse p.bufqNta
    else t

def step (c : RxPostCfg) (s : RxPosting) : PostOp → Option RxPosting
  | .fill ok => if s.stage = .new then some (s.bufsInit c ok) else none
  | .initTail =>
    if s.stage = .filled then
      some { s.writeTail s.bufq.nextToAlloc s.bufq.nextToAlloc with stage := .opened }
    else none
  | .xdpInit count supply =>
    if s.stage = .opened ∧ count < 65536 then some (s.xdpInit c count supply) else none
  | .fetch => if s.stage = .enabled ∧ s.head ≠ s.tail then some s.fetch else none
  | .give j bufId =>
    if s.stage = .enabled ∧ j < c.numRxq ∧ bufId ∈ s.held then some (s.give j bufId) else none
  | .passBegin j =>
    if s.stage = .enabled ∧ j < c.numRxq ∧ s.pass = none then
      some { s with pass := some (j, rxRefillBegin (s.refillq j) s.bufq) }
    else none
  | .passTurn ok =>
    if s.stage = .enabled then s.pass.map fun jp => s.passTurn jp.1 jp.2 ok else none

def nta (s : RxPosting) : Nat := s.pass.elim s.bufq.nextToAlloc fun jp => jp.2.bufqNta

/-- The refill queue of queue `j` as its consumer sees it. -/
def refillView (s : RxPosting) (j : Nat) : SwQueue := passView s.pass j (s.refillq j)

/-- The buffers that are posted: in the ring or consumed by the device. -/
def posted (s : RxPosting) : List Nat :=
  ringSeg s.bufq.descCount s.bufq.ring s.head s.nta ++ s.held

def waiting (s : RxPosting) (j : Nat) : List Nat := rflValid (s.refillq j).descCount (s.refillView j)

/-- In how many places buffer `b` is. -/
def places (s : RxPosting) (numRxq b : Nat) : Nat :=
  s.posted.count b + ∑ j ∈ Finset.range numRxq, (s.waiting j).count b

end RxPosting

def RxPostCfg.init (c : RxPostCfg) : RxPosting where
  stage := .new
  bufq := ⟨c.descCount, 0, 0, fun _ => 0⟩
  refillq _ := rxRflAlloc c.descCount
  pass := none
  filled _ := false
  tail := 0
  head := 0
  held := []
  writes := []

namespace RxPosting

variable {c : RxPostCfg} {s : RxPosting} {d t a j : Nat}

/-- The device has consumed the descriptors before `d`, the tail covers those before `t`, and those
before `a` are written: all from `d` on hold an address. -/
structure RingSpan (c : RxPostCfg) (s : RxPosting) (d t a : Nat) : Prop where
  desc : s.bufq.descCount = c.descCount
  covered : d ≤ t
  written : t ≤ a
  room : a - d < c.descCount
  head : s.head = d % c.descCount
  tail : s.tail = t % c.descCount
  nta : s.nta = a % c.descCount
  lap : c.descCount ≤ a + 1
  more : ∀ j p, s.pass = some (j, p) → p.cleaned ≠ 0 → c.descCount ≤ a
  filled : ∀ x, d ≤ x → x < a → s.filled (x % c.descCount) = true

/-- What the tail is compared with is the tail itself, or the tail still is where it was when the
vport was opened. -/
structure RingAt (c : RxPostCfg) (s : RxPosting) (d t a : Nat) : Prop extends
    RingSpan c s d t a where
  use : s.bufq.nextToUse = s.tail ∨ t + 1 = c.descCount

/-- Each of the buffers is in one place: posted or waiting in a refill queue. -/
structure IdsKept (c : RxPostCfg) (s : RxPosting) : Prop where
  desc : ∀ j < c.numRxq, (s.refillq j).descCount = c.descCount
  refill : ∀ j < c.numRxq, RflFree (s.refillView j) (s.waiting j)
  pass : ∀ j p, s.pass = some (j, p) → j < c.numRxq ∧ (p.cleaned = 0 →
    p.ntc = (s.refillq j).nextToClean ∧ p.bufqNta = s.bufq.nextToAlloc)
  places : ∀ b, s.places c.numRxq b = if b < c.descCount - 1 then 1 else 0

theorem waiting_eq {free : List Nat} (f : RflFree (s.refillView j) free) : s.waiting j = free := by
  refine rflValid_eq f (f.length_le.trans_eq ?_)
  rw [refillView, passView_descCount]

theorem place_le (v : IdsKept c s) (inside : j < c.numRxq) (b : Nat) :
    s.posted.count b + (s.waiting j).count b ≤ if b < c.descCount - 1 then 1 else 0 := by
  rw [← v.places b]
  have one := Finset.single_le_sum (f := fun j => (s.waiting j).count b)
    (fun _ _ => Nat.zero_le _) (Finset.mem_range.mpr inside)
  exact Nat.add_le_add_left one _

/-- A step that concerns one refill queue keeps the number of places if it keeps it among the posted
buffers and those of that queue. -/
theorem places_move {s' : RxPosting} {m : Nat} (inside : j < m)
    (others : ∀ i, i ≠ j → s'.waiting i = s.waiting i) {b : Nat}
    (balance : s'.posted.count b + (s'.waiting j).count b =
      s.posted.count b + (s.waiting j).count b) : s'.places m b = s.places m b := by
  have moved := sum_range_move (f := fun i => (s.waiting i).count b)
    (g := fun i => (s'.waiting i).count b) inside fun i ne => by rw [others i ne]
  unfold places
  omega

theorem posted_eq (v : RingSpan c s d t a) :
    s.posted = ringSeg c.descCount s.bufq.ring (d % c.descCount) (a % c.descCount) ++ s.held := by
  rw [posted, v.desc, v.head, v.nta]

theorem posted_length (v : RingSpan c s d t a) : s.posted.length = a - d + s.held.length := by
  rw [posted_eq v, List.length_append, ringSeg_length _ (v.covered.trans v.written) v.room]

theorem RingAt.fetch (v : RingAt c s d t a) (behind : s.head ≠ s.tail) :
    RingAt c s.fetch (d + 1) t a ∧ ∀ b, s.fetch.posted.count b = s.posted.count b := by
  have ahead : d ≠ t := fun same => behind (by rw [v.head, v.tail, same])
  have covered := v.covered
  have written := v.written
  have room := v.room
  have two := c.two
  have next : bump c.descCount s.head = (d + 1) % c.descCount := by
    rw [v.head, bump_mod (by omega)]
  have w : RingAt c s.fetch (d + 1) t a := by
    refine ⟨⟨v.desc, by omega, written, by omega, ?_, v.tail, v.nta, v.lap, v.more, ?_⟩, v.use⟩
    · change bump s.bufq.descCount s.head = _
      rw [v.desc, next]
    · intro x later before
      change Function.update s.filled s.head false (x % c.descCount) = true
      rw [v.head, update_mod_ne s.filled false (by omega) (by omega) (by omega)]
      exact v.filled x (by omega) before
  refine ⟨w, fun b => ?_⟩
  rw [posted_eq w.toRingSpan, posted_eq v.toRingSpan, ringSeg_cons _ (by omega) room]
  change List.count b (_ ++ (s.held ++ [s.bufq.ring s.head])) = _
  rw [v.head]
  simp only [List.count_append, List.count_cons, List.count_nil, List.cons_append]
  change List.count b (ringSeg c.descCount s.bufq.ring _ _) + _ = _
  omega

theorem IdsKept.fetch (v : IdsKept c s) (same : ∀ b, s.fetch.posted.count b = s.posted.count b) :
    IdsKept c s.fetch := by
  refine ⟨v.desc, v.refill, v.pass, fun b => ?_⟩
  rw [← v.places b, RxPosting.places, RxPosting.places, same b]
  rfl

theorem give_kept (r : RingAt c s d t a) (v : IdsKept c s) (inside : j < c.numRxq) {b : Nat}
    (held : b ∈ s.held) : RingAt c (s.give j b) d t a ∧ IdsKept c (s.give j b) := by
  have w : RingAt c (s.give j b) d t a :=
    ⟨⟨r.desc, r.covered, r.written, r.room, r.head, r.tail, r.nta, r.lap, r.more, r.filled⟩, r.use⟩
  have some : 0 < s.posted.count b := by
    rw [List.count_pos_iff, posted]
    exact List.mem_append_right _ held
  have small : b < c.descCount - 1 := by
    have le := place_le v inside b
    split at le <;> omega
  have max := c.max
  have u : u16 b = b := Nat.mod_eq_of_lt (by omega)
  have few : (s.waiting j).length ≤ c.descCount - 1 := length_le_of_count fun b' => by
    have le := place_le v inside b'
    omega
  have two := c.two
  have posted : RflFree (postBufRefill (s.refillView j) b) (s.waiting j ++ [b]) :=
    (v.refill j inside).post (by
      rw [refillView, passView_descCount, v.desc j inside]
      omega) (by omega)
  have view : (s.give j b).refillView j = postBufRefill (s.refillView j) b := by
    change passView s.pass j (Function.update s.refillq j _ j) = _
    rw [Function.update_self, u, passView_post]
    rfl
  have others : ∀ i, i ≠ j → (s.give j b).refillView i = s.refillView i := by
    intro i ne
    change passView s.pass i (Function.update s.refillq j _ i) = _
    rw [Function.update_of_ne ne]
    rfl
  have waiting : (s.give j b).waiting j = s.waiting j ++ [b] := waiting_eq (view ▸ posted)
  have waitingOther : ∀ i, i ≠ j → (s.give j b).waiting i = s.waiting i := by
    intro i ne
    rw [RxPosting.waiting, others i ne]
    change rflValid (Function.update s.refillq j _ i).descCount _ = _
    rw [Function.update_of_ne ne]
    rfl
  refine ⟨w, fun i hi => ?_, fun i hi => ?_, fun i p eq => ?_, fun b' => ?_⟩
  · change (Function.update s.refillq j _ i).descCount = _
    by_cases own : i = j
    · rw [own, Function.update_self]
      exact v.desc j inside
    · rw [Function.update_of_ne own]
      exact v.desc i hi
  · by_cases own : i = j
    · rw [own, view, waiting]
      exact posted
    · rw [others i own, waitingOther i own]
      exact v.refill i hi
  · obtain ⟨hi, idle⟩ := v.pass i p eq
    refine ⟨hi, fun zero => ⟨?_, (idle zero).2⟩⟩
    change p.ntc = (Function.update s.refillq j _ i).nextToClean
    by_cases own : i = j
    · rw [own, Function.update_self]
      exact own ▸ (idle zero).1
    · rw [Function.update_of_ne own]
      exact (idle zero).1
  · rw [← v.places b']
    refine places_move inside waitingOther ?_
    rw [posted_eq w.toRingSpan, posted_eq r.toRingSpan, waiting]
    change List.count b' (_ ++ s.held.erase b) + _ = _
    have split := (List.perm_cons_erase held).count_eq b'
    simp only [List.count_append, List.count_cons, List.count_nil] at split ⊢
    rw [split]
    change List.count b' (ringSeg c.descCount s.bufq.ring _ _) + _ + _ = _
    omega

/-- The tail moves on to a position that is written. -/
theorem RingSpan.writeTail (v : RingSpan c s d t a) {t' : Nat} (further : t ≤ t') (written : t' ≤ a)
    (use : s.bufq.nextToUse = t' % c.descCount) :
    RingAt c (s.writeTail (t' % c.descCount) (a % c.descCount)) d t' a ∧
      ∃ w, (s.writeTail (t' % c.descCount) (a % c.descCount)).writes = s.writes ++ [w] ∧
        w.val = t' % c.descCount ∧ w.covered = true ∧
        ringDist c.descCount w.prev w.val ≤ ringDist c.descCount w.prev w.nta := by
  have covered := v.covered
  have room := v.room
  have steps : ringDist c.descCount (t % c.descCount) (t' % c.descCount) = t' - t :=
    ringDist_mod further (by omega)
  have all : ringDist c.descCount (t % c.descCount) (a % c.descCount) = a - t :=
    ringDist_mod (further.trans written) (by omega)
  refine ⟨⟨⟨v.desc, covered.trans further, written, room, v.head, rfl, v.nta, v.lap, v.more,
    v.filled⟩, Or.inl use⟩, _, rfl, rfl, ?_, ?_⟩
  · rw [v.desc, v.tail, steps, ringSlots_mod]
    apply List.all_eq_true.mpr
    intro i member
    obtain ⟨k, before, rfl⟩ := mem_ringSlots.mp member
    exact v.filled (t + k) (by omega) (by omega)
  · change ringDist c.descCount s.tail _ ≤ ringDist c.descCount s.tail _
    rw [v.tail, steps, all]
    omega

theorem passBegin_kept (r : RingAt c s d t a) (v : IdsKept c s) (inside : j < c.numRxq)
    (idle : s.pass = none) :
    RingAt c { s with pass := some (j, rxRefillBegin (s.refillq j) s.bufq) } d t a ∧
      IdsKept c { s with pass := some (j, rxRefillBegin (s.refillq j) s.bufq) } := by
  have nta : ({ s with pass := some (j, rxRefillBegin (s.refillq j) s.bufq) } : RxPosting).nta =
      s.nta := by
    rw [RxPosting.nta, RxPosting.nta, idle]
    rfl
  have view : ({ s with pass := some (j, rxRefillBegin (s.refillq j) s.bufq) } : RxPosting).refillView =
      s.refillView := by
    funext i
    rw [refillView, refillView, idle]
    simp only [passView]
    split
    · next same => rw [← same]; rfl
    · rfl
  have waiting : ({ s with pass := some (j, rxRefillBegin (s.refillq j) s.bufq) } : RxPosting).waiting =
      s.waiting := by
    funext i
    rw [RxPosting.waiting, RxPosting.waiting, view]
  refine ⟨⟨⟨r.desc, r.covered, r.written, r.room, r.head, r.tail, nta.trans r.nta, r.lap, ?_,
    r.filled⟩, r.use⟩, v.desc, ?_, ?_, fun b => ?_⟩
  · intro i p eq used
    obtain ⟨-, rfl⟩ := Prod.mk.inj (Option.some.inj eq)
    exact absurd rfl used
  · rw [view, waiting]
    exact v.refill
  · intro i p eq
    obtain ⟨rfl, rfl⟩ := Prod.mk.inj (Option.some.inj eq)
    exact ⟨inside, fun _ => ⟨rfl, rfl⟩⟩
  · rw [← v.places b, RxPosting.places, RxPosting.places, waiting, posted, posted, nta]

/-- A buffer moves from the refill queue into the ring. -/
theorem passMove_kept (r : RingAt c s d t a) (v : IdsKept c s) {p p' : RefillPass} {ok : Bool}
    {q : SwQueue} {bufq : RxBufq} (pass : s.pass = some (j, p))
    (moved : rxRefillTurn (s.refillq j) s.bufq p ok = some (q, bufq, p')) :
    RingAt c (s.passTurn j p ok) d t (a + 1) ∧ IdsKept c (s.passTurn j p ok) ∧
      (s.passTurn j p ok).writes = s.writes := by
  obtain ⟨inside, -⟩ := v.pass j p pass
  have at_ : s.nta = p.bufqNta := by rw [RxPosting.nta, pass]; rfl
  have viewed : s.refillView j = p.view (s.refillq j) := by
    simp only [refillView, pass, passView, if_true]
  obtain ⟨b, rest, taken, own, left, desc⟩ := (viewed ▸ v.refill j inside).turn moved
  have covered := r.covered
  have written := r.written
  have two := c.two
  have few : (s.posted ++ [b]).length ≤ c.descCount - 1 := length_le_of_count fun b' => by
    have le := place_le v inside b'
    rw [List.count_append, List.count_singleton]
    split
    · next same =>
      rw [beq_iff_eq] at same
      subst same
      have waits : 0 < (s.waiting j).count b := List.count_pos_iff.mpr (taken ▸ List.mem_cons_self)
      omega
    · omega
  have space : a + 1 - d < c.descCount := by
    rw [List.length_append, posted_length r.toRingSpan, List.length_singleton] at few
    omega
  have parts := moved
  simp only [rxRefillTurn, Option.ite_none_left_eq_some, Option.some.injEq, Prod.mk.injEq] at parts
  obtain ⟨-, -, -, -, stored, next⟩ := parts
  rw [← own] at stored
  obtain ⟨s', eq⟩ : ∃ s', s' = s.passTurn j p ok := ⟨_, rfl⟩
  rw [← eq]
  simp only [RxPosting.passTurn, moved] at eq
  have spot : p.bufqNta = a % c.descCount := at_.symm.trans r.nta
  have step : bump c.descCount p.bufqNta = (a + 1) % c.descCount := by
    rw [spot, bump_mod (by omega)]
  have nta : s'.nta = (a + 1) % c.descCount := by
    rw [eq, ← step, ← r.desc, ← next]
    rfl
  have ring : RingAt c s' d t (a + 1) := by
    rw [eq] at nta ⊢
    refine ⟨⟨?_, covered, by omega, space, r.head, r.tail, nta, ?_, fun i p₀ same used => ?_,
      fun x later before => ?_⟩, ?_⟩
    · rw [← stored]
      exact r.desc
    · have lap := r.lap
      omega
    · have lap := r.lap
      omega
    · change Function.update s.filled p.bufqNta true (x % c.descCount) = true
      rw [spot]
      by_cases last : x = a
      · rw [last, Function.update_self]
      · rw [update_mod_ne s.filled true last (by omega) (by omega)]
        exact r.filled x later (by omega)
    · rcases r.use with same | first
      · refine Or.inl ?_
        rw [← stored]
        exact same
      · exact Or.inr first
  have refillq : s'.refillq j = q ∧ ∀ i, i ≠ j → s'.refillq i = s.refillq i := by
    rw [eq]
    exact ⟨Function.update_self .., fun i ne => Function.update_of_ne ne ..⟩
  have view : s'.refillView j = p'.view q := by
    rw [refillView, refillq.1, eq]
    simp only [passView, if_true]
  have viewOther : ∀ i, i ≠ j → s'.refillView i = s.refillView i := by
    intro i ne
    rw [refillView, refillq.2 i ne, refillView, eq, pass]
    simp only [passView, if_neg (Ne.symm ne)]
  have waiting : s'.waiting j = rest := waiting_eq (view ▸ left)
  have waitingOther : ∀ i, i ≠ j → s'.waiting i = s.waiting i := by
    intro i ne
    rw [RxPosting.waiting, viewOther i ne, refillq.2 i ne]
    rfl
  refine ⟨ring, ⟨fun i hi => ?_, fun i hi => ?_, fun i p₀ same => ?_, fun b' => ?_⟩, ?_⟩
  · by_cases same : i = j
    · rw [same, refillq.1, desc]
      exact v.desc j inside
    · rw [refillq.2 i same]
      exact v.desc i hi
  · by_cases same : i = j
    · rw [same, view, waiting]
      exact left
    · rw [viewOther i same, waitingOther i same]
      exact v.refill i hi
  · rw [eq] at same
    obtain ⟨rfl, rfl⟩ := Prod.mk.inj (Option.some.inj same)
    refine ⟨inside, fun zero => ?_⟩
    rw [← next] at zero
    exact absurd zero (Nat.succ_ne_zero _)
  · rw [← v.places b']
    refine places_move inside waitingOther ?_
    have held : s'.held = s.held := by rw [eq]
    have ring' : s'.bufq.ring = Function.update s.bufq.ring (a % c.descCount) b := by
      rw [eq, ← spot, ← stored]
    rw [posted_eq ring.toRingSpan, posted_eq r.toRingSpan, waiting, taken, held, ring',
      ringSeg_push s.bufq.ring (covered.trans written) space b]
    simp only [List.count_append, List.count_cons, List.count_nil]
    omega
  · rw [eq]

/-- The last multiple of the stride that is written, where a pass moves the tail. -/
theorem RingAt.rounded (v : RingAt c s d t a) (used : t + 1 = c.descCount → c.descCount ≤ a)
    (enough : rxRefillFilled s.bufq (a % c.descCount) ≥ rxBufPostStride) :
    t ≤ a - a % c.descCount % rxBufPostStride ∧
      (a - a % c.descCount % rxBufPostStride) % c.descCount =
        a % c.descCount / rxBufPostStride * rxBufPostStride := by
  have covered := v.covered
  have written := v.written
  have room := v.room
  have two := c.two
  have lap := Nat.mod_add_div a c.descCount
  have inside := Nat.mod_lt a (show 0 < c.descCount by omega)
  have stride : rxBufPostStride = 16 := rfl
  rw [stride] at enough ⊢
  have split : a - a % c.descCount % 16 =
      a % c.descCount / 16 * 16 + c.descCount * (a / c.descCount) := by omega
  refine ⟨?_, ?_⟩
  · rcases v.use with same | first
    · have steps : ringDist c.descCount (t % c.descCount) (a % c.descCount) = a - t :=
        ringDist_mod written (by omega)
      rw [rxRefillFilled, same, v.desc, v.tail] at enough
      unfold ringDist at steps
      split at steps <;> split at enough <;> omega
    · -- the lap in which the vport was opened is over
      have over_ := used first
      have laps : 0 < a / c.descCount := Nat.div_pos over_ (by omega)
      have more : c.descCount * 1 ≤ c.descCount * (a / c.descCount) := Nat.mul_le_mul_left _ laps
      omega
  · rw [split, Nat.add_mul_mod_self_left, Nat.mod_eq_of_lt]
    omega

/-- A pass ends, and may move the tail. -/
theorem passStop_kept (r : RingAt c s d t a) (v : IdsKept c s) {p : RefillPass} {ok : Bool}
    (pass : s.pass = some (j, p)) (stop : rxRefillTurn (s.refillq j) s.bufq p ok = none) :
    (∃ t', RingAt c (s.passTurn j p ok) d t' a) ∧ IdsKept c (s.passTurn j p ok) ∧
      ((s.passTurn j p ok).writes = s.writes ∨
        ∃ w, (s.passTurn j p ok).writes = s.writes ++ [w] ∧ w.Good c.descCount) := by
  obtain ⟨inside, idle⟩ := v.pass j p pass
  have at_ : s.nta = p.bufqNta := by rw [RxPosting.nta, pass]; rfl
  have spot : p.bufqNta = a % c.descCount := at_.symm.trans r.nta
  obtain ⟨left, eq⟩ : ∃ left, left = rxRefillEnd (s.refillq j) s.bufq p := ⟨_, rfl⟩
  have refill : left.1 = p.view (s.refillq j) := by
    by_cases zero : p.cleaned = 0
    · rw [eq, rxRefillEnd_idle zero, RefillPass.view, (idle zero).1]
    · rw [eq, rxRefillEnd_used zero]
  have bufq : left.2.nextToAlloc = p.bufqNta ∧ left.2.ring = s.bufq.ring ∧
      left.2.descCount = s.bufq.descCount := by
    by_cases zero : p.cleaned = 0
    · rw [eq, rxRefillEnd_idle zero]
      exact ⟨(idle zero).2.symm, rfl, rfl⟩
    · rw [eq, rxRefillEnd_used zero]
      exact ⟨rfl, rfl, rfl⟩
  obtain ⟨e, fix⟩ : ∃ e : RxPosting, e =
    { s with refillq := Function.update s.refillq j left.1, bufq := left.2, pass := none } := ⟨_, rfl⟩
  have nta : e.nta = s.nta := by
    rw [at_, ← bufq.1, fix]
    rfl
  have view : e.refillView = s.refillView := by
    funext i
    rw [refillView, refillView, pass, fix]
    simp only [passView]
    by_cases own : i = j
    · rw [own, Function.update_self, if_pos rfl, refill]
    · rw [Function.update_of_ne own, if_neg (Ne.symm own)]
  have desc : ∀ i, (e.refillq i).descCount = (s.refillq i).descCount := by
    intro i
    rw [fix]
    by_cases own : i = j
    · rw [own]
      dsimp only
      rw [Function.update_self, refill]
      rfl
    · dsimp only
      rw [Function.update_of_ne own]
  have waiting : e.waiting = s.waiting := by
    funext i
    rw [RxPosting.waiting, RxPosting.waiting, view, desc]
  have posted : e.posted = s.posted := by
    rw [RxPosting.posted, RxPosting.posted, nta, fix, bufq.2.1, bufq.2.2]
  have ids : IdsKept c e := by
    refine ⟨fun i hi => (desc i).trans (v.desc i hi), ?_, ?_, fun b => ?_⟩
    · rw [view, waiting]
      exact v.refill
    · rw [fix]
      exact fun _ _ running => absurd running.symm (Option.some_ne_none _)
    · rw [← v.places b, RxPosting.places, RxPosting.places, waiting, posted]
  have span : RingSpan c e d t a := by
    rw [fix] at nta ⊢
    exact ⟨bufq.2.2.trans r.desc, r.covered, r.written, r.room, r.head, r.tail, nta.trans r.nta,
      r.lap, fun _ _ running => absurd running.symm (Option.some_ne_none _), r.filled⟩
  have turn : s.passTurn j p ok =
      if p.cleaned ≠ 0 ∧ rxRefillFilled s.bufq p.bufqNta ≥ rxBufPostStride then
        e.writeTail left.2.nextToUse p.bufqNta
      else e := by
    simp only [RxPosting.passTurn, stop]
    rw [← eq, ← fix]
  have log : e.writes = s.writes ∧ e.tail = s.tail ∧ e.bufq = left.2 := by
    rw [fix]
    exact ⟨rfl, rfl, rfl⟩
  by_cases moves : p.cleaned ≠ 0 ∧ rxRefillFilled s.bufq p.bufqNta ≥ rxBufPostStride
  · rw [turn, if_pos moves]
    obtain ⟨used, enough⟩ := moves
    have val : left.2.nextToUse = p.bufqNta / rxBufPostStride * rxBufPostStride := by
      rw [eq, rxRefillEnd_used used]
      exact if_pos enough
    rw [spot] at enough val ⊢
    obtain ⟨further, place⟩ := r.rounded (fun _ => r.more j p pass used) enough
    rw [val, ← place]
    obtain ⟨moved, w, written, at', covered, between⟩ := span.writeTail further (Nat.sub_le _ _)
      (by rw [log.2.2, val, place])
    refine ⟨⟨_, moved⟩, ⟨ids.desc, ids.refill, ids.pass, ids.places⟩, Or.inr ⟨w, ?_, ?_, between,
      covered⟩⟩
    · rw [written, log.1]
    · rw [at', place]
      exact Nat.mul_mod_left ..
  · rw [turn, if_neg moves]
    have kept : e.bufq.nextToUse = s.bufq.nextToUse := by
      rw [log.2.2, eq]
      by_cases zero : p.cleaned = 0
      · rw [rxRefillEnd_idle zero]
      · rw [rxRefillEnd_used zero]
        exact if_neg fun enough => moves ⟨zero, enough⟩
    refine ⟨⟨t, span, ?_⟩, ids, Or.inl log.1⟩
    rw [kept, log.2.1]
    exact r.use

/-- The first `k` descriptors are posted, in the order of the buffers. -/
theorem foldl_postBufDesc (c : RxPostCfg) (address : Bool) {k : Nat} (inside : k < c.descCount) :
    (List.range k).foldl (postBufDesc address) c.init =
      { c.init with
        bufq := ⟨c.descCount, 0, k, fun i => if i < k then i else 0⟩
        filled := fun i => decide (i < k) && address } := by
  induction k with
  | zero =>
      simp only [List.range_zero, List.foldl_nil, RxPostCfg.init, Nat.not_lt_zero, if_false,
        decide_false, Bool.false_and]
  | succ k ih =>
      have next : bump c.descCount k = k + 1 := if_neg (by omega)
      rw [List.range_succ, List.foldl_append, ih (by omega), List.foldl_cons, List.foldl_nil,
        postBufDesc]
      dsimp only
      rw [next]
      congr 2
      · funext i
        by_cases last : i = k
        · rw [last, Function.update_self, if_pos (Nat.lt_succ_self k)]
        · rw [Function.update_of_ne last]
          by_cases before : i < k
          · rw [if_pos before, if_pos (by omega)]
          · rw [if_neg before, if_neg (by omega)]
      · funext i
        by_cases last : i = k
        · rw [last, Function.update_self, decide_eq_true (Nat.lt_succ_self k), Bool.true_and]
        · rw [Function.update_of_ne last]
          by_cases before : i < k
          · rw [decide_eq_true before, decide_eq_true (show i < k + 1 by omega)]
          · rw [decide_eq_false before, decide_eq_false (show ¬ i < k + 1 by omega)]

theorem writeTail_of {val : Nat} {covered : Bool} (nta : Nat)
    (span : (ringSlots s.bufq.descCount s.tail (ringDist s.bufq.descCount s.tail val)).all s.filled =
      covered) :
    s.writeTail val nta =
      { s with tail := val, writes := s.writes ++ [⟨s.tail, val, nta, covered⟩] } := by
  rw [← span]
  rfl

end RxPosting

namespace RxPostCfg

/-- `next_to_alloc` of a full queue, rounded down. -/
def rounded (c : RxPostCfg) : Nat := (c.descCount - 1) / c.stride * c.stride

def posted (c : RxPostCfg) : RxPosting :=
  { c.init with
    stage := .filled
    bufq := ⟨c.descCount, c.rounded, c.descCount - 1, fun i => if i < c.descCount - 1 then i else 0⟩
    filled := fun i => decide (i < c.descCount - 1) && !c.zc
    tail := c.rounded
    writes := [⟨0, c.rounded, c.descCount - 1, c.rounded == 0 || !c.zc⟩] }

/-- The write of `idpf_rx_init_buf_tail`. -/
def openWrite (c : RxPostCfg) : TailWrite :=
  ⟨c.rounded, c.descCount - 1, c.descCount - 1, c.rounded == c.descCount - 1 || !c.zc⟩

def opened (c : RxPostCfg) : RxPosting :=
  { c.posted with
    stage := .opened
    tail := c.descCount - 1
    writes := c.posted.writes ++ [c.openWrite] }

variable (c : RxPostCfg)

theorem rounded_le : c.rounded ≤ c.descCount - 1 := Nat.div_mul_le_self ..

theorem rounded_mod : c.rounded % rxBufPostStride = 0 := by
  rw [rounded, Nat.mul_mod, c.aligned, Nat.mul_zero, Nat.zero_mod]

/-- Whether a stretch of the first fill holds addresses. -/
theorem span_all {i k : Nat} (inside : i + k ≤ c.descCount - 1) :
    (ringSlots c.descCount i k).all (fun j => decide (j < c.descCount - 1) && !c.zc) =
      (k == 0 || !c.zc) := by
  have two := c.two
  have each : ∀ j ∈ ringSlots c.descCount i k, (decide (j < c.descCount - 1) && !c.zc) = !c.zc := by
    intro j member
    obtain ⟨x, before, rfl⟩ := mem_ringSlots.mp member
    rw [Nat.mod_eq_of_lt (by omega), decide_eq_true (show i + x < c.descCount - 1 by omega),
      Bool.true_and]
  cases k with
  | zero => rfl
  | succ k =>
      cases zc : c.zc with
      | false =>
          refine List.all_eq_true.mpr fun j member => ?_
          rw [← zc, each j member, zc]
          rfl
      | true =>
          refine Bool.eq_false_iff.mpr fun all => ?_
          have first : i % c.descCount ∈ ringSlots c.descCount i (k + 1) := by
            rw [ringSlots_cons]
            exact List.mem_cons_self
          have wrong := List.all_eq_true.mp all _ first
          rw [Bool.not_true, Bool.and_false] at wrong
          exact absurd wrong nofun

theorem rounded_span :
    (ringSlots c.descCount 0 (ringDist c.descCount 0 c.rounded)).all
      (fun j => decide (j < c.descCount - 1) && !c.zc) = (c.rounded == 0 || !c.zc) := by
  have le := c.rounded_le
  rw [ringDist, if_pos (Nat.zero_le _), Nat.sub_zero, c.span_all (by omega)]

theorem open_span :
    (ringSlots c.descCount c.rounded (ringDist c.descCount c.rounded (c.descCount - 1))).all
      (fun j => decide (j < c.descCount - 1) && !c.zc) =
        (c.rounded == c.descCount - 1 || !c.zc) := by
  have le := c.rounded_le
  have same : (c.descCount - 1 - c.rounded == 0) = (c.rounded == c.descCount - 1) := by
    rw [Bool.eq_iff_iff, beq_iff_eq, beq_iff_eq]
    omega
  rw [ringDist, if_pos le, c.span_all (by omega), same]

theorem bufsInit_init (ok : Bool) :
    c.init.bufsInit c ok = if c.zc || ok then c.posted else c.init := by
  have two := c.two
  have posted : ∀ address, address = !c.zc →
      ({ c.init.postInitBufs c address (c.descCount - 1) with stage := .filled } : RxPosting) =
        c.posted := by
    rintro address rfl
    rw [RxPosting.postInitBufs]
    dsimp only
    rw [RxPosting.foldl_postBufDesc c _ (by omega), RxPosting.bufHwUpdate]
    dsimp only
    rw [RxPosting.writeTail_of _ c.rounded_span]
    rfl
  unfold RxPosting.bufsInit
  by_cases zc : c.zc = true
  · rw [if_pos zc, zc, Bool.true_or, if_pos rfl]
    exact posted false (by rw [zc]; rfl)
  · have copy : c.zc = false := by simpa using zc
    rw [if_neg zc, copy, Bool.false_or]
    split
    · exact posted true (by rw [copy]; rfl)
    · rfl

theorem initTail_posted :
    ({ c.posted.writeTail c.posted.bufq.nextToAlloc c.posted.bufq.nextToAlloc with
      stage := .opened } : RxPosting) = c.opened := by
  have wrote : c.posted.writeTail (c.descCount - 1) (c.descCount - 1) =
      { c.posted with tail := c.descCount - 1, writes := c.posted.writes ++ [c.openWrite] } :=
    RxPosting.writeTail_of _ c.open_span
  show ({ c.posted.writeTail (c.descCount - 1) (c.descCount - 1) with stage := .opened } : RxPosting) =
    c.opened
  rw [wrote]
  rfl

end RxPostCfg

namespace RxPosting

variable {c : RxPostCfg} {s s' : RxPosting}

structure Live (c : RxPostCfg) (s : RxPosting) : Prop where
  stage : s.stage = .enabled
  ring : ∃ d t a, RingAt c s d t a
  ids : IdsKept c s

theorem passTurn_stage (s : RxPosting) (j : Nat) (p : RefillPass) (ok : Bool) :
    (s.passTurn j p ok).stage = s.stage := by
  unfold RxPosting.passTurn
  split
  · rfl
  · dsimp only
    split <;> rfl

inductive Moved (c : RxPostCfg) (s : RxPosting) : PostOp → RxPosting → Prop
  | fill (ok : Bool) : s.stage = .new → Moved c s (.fill ok) (s.bufsInit c ok)
  | initTail : s.stage = .filled → Moved c s .initTail
      { s.writeTail s.bufq.nextToAlloc s.bufq.nextToAlloc with stage := .opened }
  | xdpInit (count : Nat) (supply : Nat → Bool) : s.stage = .opened →
      Moved c s (.xdpInit count supply) (s.xdpInit c count supply)
  | fetch : s.stage = .enabled → s.head ≠ s.tail → Moved c s .fetch s.fetch
  | give (j b : Nat) : s.stage = .enabled → j < c.numRxq → b ∈ s.held →
      Moved c s (.give j b) (s.give j b)
  | passBegin (j : Nat) : s.stage = .enabled → j < c.numRxq → s.pass = none →
      Moved c s (.passBegin j) { s with pass := some (j, rxRefillBegin (s.refillq j) s.bufq) }
  | passTurn (ok : Bool) {j : Nat} {p : RefillPass} : s.stage = .enabled → s.pass = some (j, p) →
      Moved c s (.passTurn ok) (s.passTurn j p ok)

theorem step_moved {op : PostOp} (taken : s.step c op = some s') : Moved c s op s' := by
  cases op with
  | fill ok =>
      simp only [RxPosting.step, Option.ite_none_right_eq_some, Option.some.injEq] at taken
      exact taken.2 ▸ .fill ok taken.1
  | initTail =>
      simp only [RxPosting.step, Option.ite_none_right_eq_some, Option.some.injEq] at taken
      exact taken.2 ▸ .initTail taken.1
  | xdpInit count supply =>
      simp only [RxPosting.step, Option.ite_none_right_eq_some, Option.some.injEq] at taken
      exact taken.2 ▸ .xdpInit count supply taken.1.1
  | fetch =>
      simp only [RxPosting.step, Option.ite_none_right_eq_some, Option.some.injEq] at taken
      exact taken.2 ▸ .fetch taken.1.1 taken.1.2
  | give j b =>
      simp only [RxPosting.step, Option.ite_none_right_eq_some, Option.some.injEq] at taken
      obtain ⟨⟨stage, inside, held⟩, rfl⟩ := taken
      exact .give j b stage inside held
  | passBegin j =>
      simp only [RxPosting.step, Option.ite_none_right_eq_some, Option.some.injEq] at taken
      obtain ⟨⟨stage, inside, idle⟩, rfl⟩ := taken
      exact .passBegin j stage inside idle
  | passTurn ok =>
      simp only [RxPosting.step, Option.ite_none_right_eq_some, Option.map_eq_some_iff] at taken
      obtain ⟨stage, ⟨j, p⟩, pass, rfl⟩ := taken
      exact .passTurn ok stage pass

theorem step_enabled (stage : s.stage = .enabled) {op : PostOp} (taken : s.step c op = some s') :
    s'.stage = .enabled := by
  cases step_moved taken with
  | fill ok at_ => exact absurd (stage.symm.trans at_) (by decide)
  | initTail at_ => exact absurd (stage.symm.trans at_) (by decide)
  | xdpInit count supply at_ => exact absurd (stage.symm.trans at_) (by decide)
  | fetch | give | passBegin => exact stage
  | passTurn ok _ pass => exact (passTurn_stage s _ _ ok).trans stage

theorem Live.step (v : Live c s) {op : PostOp} (taken : s.step c op = some s') :
    Live c s' ∧ (s'.writes = s.writes ∨ ∃ w, s'.writes = s.writes ++ [w] ∧ w.Good c.descCount) := by
  obtain ⟨d, t, a, ring⟩ := v.ring
  have stage := v.stage
  have still := step_enabled stage taken
  cases step_moved taken with
  | fill ok at_ => exact absurd (stage.symm.trans at_) (by decide)
  | initTail at_ => exact absurd (stage.symm.trans at_) (by decide)
  | xdpInit count supply at_ => exact absurd (stage.symm.trans at_) (by decide)
  | fetch _ behind =>
      obtain ⟨ring', same⟩ := ring.fetch behind
      exact ⟨⟨still, ⟨_, _, _, ring'⟩, v.ids.fetch same⟩, Or.inl rfl⟩
  | give j b _ inside held =>
      obtain ⟨ring', ids⟩ := give_kept ring v.ids inside held
      exact ⟨⟨still, ⟨_, _, _, ring'⟩, ids⟩, Or.inl rfl⟩
  | passBegin j _ inside idle =>
      obtain ⟨ring', ids⟩ := passBegin_kept ring v.ids inside idle
      exact ⟨⟨still, ⟨_, _, _, ring'⟩, ids⟩, Or.inl rfl⟩
  | @passTurn ok j p _ pass =>
      cases through : rxRefillTurn (s.refillq j) s.bufq p ok with
      | some next =>
          obtain ⟨q, bufq, p'⟩ := next
          obtain ⟨ring', ids, writes⟩ := passMove_kept ring v.ids pass through
          exact ⟨⟨still, ⟨_, _, _, ring'⟩, ids⟩, Or.inl writes⟩
      | none =>
          obtain ⟨⟨t', ring'⟩, ids, writes⟩ := passStop_kept ring v.ids pass through
          exact ⟨⟨still, ⟨_, _, _, ring'⟩, ids⟩, writes⟩

/-- A queue whose buffers are posted in their order, with nothing waiting in its refill queues. -/
theorem Live.start {filled : Nat → Bool} {use tail : Nat} {writes : List TailWrite}
    (all : ∀ i < c.descCount - 1, filled i = true) (inside : tail ≤ c.descCount - 1)
    (compared : use = tail ∨ tail + 1 = c.descCount) :
    Live c { c.opened with
      stage := .enabled
      bufq := { c.opened.bufq with nextToUse := use }
      filled, tail, writes } := by
  have two := c.two
  have last : (c.descCount - 1) % c.descCount = c.descCount - 1 := Nat.mod_eq_of_lt (by omega)
  refine ⟨rfl, ⟨0, tail, c.descCount - 1, ⟨rfl, Nat.zero_le _, inside, by omega,
    (Nat.zero_mod _).symm, (Nat.mod_eq_of_lt (show tail < c.descCount by omega)).symm, last.symm,
    by omega, nofun, ?_⟩, compared⟩, fun _ _ => rfl, fun j _ => ?_, nofun, fun b => ?_⟩
  · intro x _ before
    rw [Nat.mod_eq_of_lt (by omega)]
    exact all x before
  · have free : RflFree (rxRflAlloc c.descCount) [] := rxRflAlloc_free (by omega)
    have none_ : rflValid c.descCount (rxRflAlloc c.descCount) = [] := waiting_eq (s := c.init)
      (j := j) free
    change RflFree (rxRflAlloc c.descCount) (rflValid c.descCount (rxRflAlloc c.descCount))
    rw [none_]
    exact free
  · have none_ : rflValid c.descCount (rxRflAlloc c.descCount) = [] := waiting_eq (s := c.init)
      (j := 0) (rxRflAlloc_free (by omega))
    have ring : ringSeg c.descCount (fun i => if i < c.descCount - 1 then i else 0) 0
        (c.descCount - 1) = List.range (c.descCount - 1) := by
      rw [ringSeg, ringDist, if_pos (Nat.zero_le _), Nat.sub_zero]
      refine (List.map_congr_left fun i member => ?_).trans (List.map_id _)
      have below := List.mem_range.mp member
      rw [Nat.zero_add, Nat.mod_eq_of_lt (by omega), if_pos below]
      rfl
    change List.count b (ringSeg c.descCount (fun i => if i < c.descCount - 1 then i else 0) 0
      (c.descCount - 1) ++ []) + ∑ _ ∈ Finset.range c.numRxq,
        (rflValid c.descCount (rxRflAlloc c.descCount)).count b = _
    rw [none_, ring, List.append_nil]
    simp only [List.count_nil, Finset.sum_const_zero, Nat.add_zero]
    by_cases below : b < c.descCount - 1
    · rw [if_pos below]
      exact List.count_eq_one_of_mem List.nodup_range (List.mem_range.mpr below)
    · rw [if_neg below]
      exact List.count_eq_zero.mpr fun member => below (List.mem_range.mp member)

/-- How a queue looks before it is in use, and when it is if its buffers are not those of a pool. -/
structure Opening (c : RxPostCfg) (s : RxPosting) : Prop where
  new : s.stage = .new → s = c.init
  filled : s.stage = .filled → s = c.posted
  opened : s.stage = .opened → s = c.opened
  live : s.stage = .enabled → c.zc = false → Live c s

theorem Opening.start (c : RxPostCfg) : Opening c c.init :=
  ⟨fun _ => rfl, nofun, nofun, nofun⟩

theorem xdpInit_copy (copy : c.zc = false) (count : Nat) (supply : Nat → Bool) :
    c.opened.xdpInit c count supply = { c.opened with stage := .enabled } := by
  rw [RxPosting.xdpInit, if_neg (by rw [copy]; nofun)]

theorem Opening.step (v : Opening c s) {op : PostOp} (taken : s.step c op = some s') :
    Opening c s' := by
  have two := c.two
  have running (stage : s.stage = .enabled) : Opening c s' := by
    have enabled := step_enabled stage taken
    refine ⟨fun h => ?_, fun h => ?_, fun h => ?_, fun _ copy => ((v.live stage copy).step taken).1⟩
    · exact nomatch h.symm.trans enabled
    · exact nomatch h.symm.trans enabled
    · exact nomatch h.symm.trans enabled
  cases step_moved taken with
  | fill ok stage =>
      rw [v.new stage, c.bufsInit_init]
      split
      · exact ⟨nofun, fun _ => rfl, nofun, nofun⟩
      · exact .start c
  | initTail stage =>
      rw [v.filled stage, c.initTail_posted]
      exact ⟨nofun, nofun, fun _ => rfl, nofun⟩
  | xdpInit count supply stage =>
      rw [v.opened stage]
      refine ⟨nofun, nofun, nofun, fun _ copy => ?_⟩
      rw [xdpInit_copy copy]
      refine Live.start (fun i below => ?_) le_rfl (Or.inr (show c.descCount - 1 + 1 = _ by omega))
      change (decide (i < c.descCount - 1) && !c.zc) = true
      rw [copy, decide_eq_true below]
      rfl
  | fetch stage | give _ _ stage | passBegin _ stage | passTurn _ stage => exact running stage

theorem step_writes {op : PostOp} (taken : s.step c op = some s') : s.writes <+: s'.writes := by
  have wrote : ∀ (u : RxPosting) (val nta : Nat), u.writes <+: (u.writeTail val nta).writes :=
    fun u _ _ => List.prefix_append u.writes _
  have posted : ∀ (address : Bool) (l : List Nat) (u : RxPosting),
      (l.foldl (postBufDesc address) u).writes = u.writes := by
    intro address l
    induction l with
    | nil => exact fun _ => rfl
    | cons b l ih => exact fun u => ih (u.postBufDesc address b)
  cases step_moved taken with
  | fill ok =>
      have filled : ∀ address, s.writes <+: (s.postInitBufs c address (c.descCount - 1)).writes := by
        intro address
        have base := posted address (List.range (c.descCount - 1)) s
        exact base ▸ wrote _ _ _
      unfold RxPosting.bufsInit
      split
      · exact filled false
      · split
        · exact filled true
        · exact List.prefix_rfl
  | initTail => exact wrote s _ _
  | xdpInit count supply =>
      unfold RxPosting.xdpInit
      dsimp only
      split
      · exact List.prefix_append s.writes _
      · exact List.prefix_rfl
  | fetch | give | passBegin => exact List.prefix_rfl
  | passTurn ok =>
      unfold RxPosting.passTurn
      split
      · exact List.prefix_rfl
      · dsimp only
        split
        · exact List.prefix_append s.writes _
        · exact List.prefix_rfl

/-- The tail written so far: where the buffers are not those of a pool, all writes are good but the
one at the opening. -/
structure Logged (c : RxPostCfg) (s : RxPosting) : Prop extends Opening c s where
  once : s.stage = .opened ∨ s.stage = .enabled → c.opened.writes <+: s.writes
  good : c.zc = false → ∀ w ∈ s.writes, w.Good c.descCount ∨ w = c.openWrite

/-- The write of the first fill is good if it covers no descriptor, or the buffers are the queue's
own. -/
theorem posted_good_iff : (∀ w ∈ c.posted.writes, w.Good c.descCount) ↔
    c.zc = false ∨ c.rounded = 0 := by
  have two := c.two
  have le := c.rounded_le
  constructor
  · intro all
    have covers := (all _ (List.mem_singleton_self _)).2.2
    simpa [or_comm] using covers
  · intro fine w member
    obtain rfl := List.mem_singleton.mp member
    refine ⟨c.rounded_mod, ?_, ?_⟩
    · dsimp only
      rw [ringDist, ringDist, if_pos (Nat.zero_le _), if_pos (Nat.zero_le _)]
      omega
    · simpa [or_comm] using fine

theorem Logged.start (c : RxPostCfg) : Logged c c.init :=
  ⟨.start c, fun h => h.elim nofun nofun, fun _ _ member => nomatch member⟩

theorem Logged.step (v : Logged c s) {op : PostOp} (taken : s.step c op = some s') :
    Logged c s' := by
  have next := v.toOpening.step taken
  have still : s'.stage = s.stage → s'.stage = .opened ∨ s'.stage = .enabled →
      c.opened.writes <+: s'.writes := by
    intro same at_
    rw [same] at at_
    exact (v.once at_).trans (step_writes taken)
  have grown := step_writes taken
  have running (stage : s.stage = .enabled) : Logged c s' := by
    refine ⟨next, still ((step_enabled stage taken).trans stage.symm), fun copy w member => ?_⟩
    obtain ⟨-, same | ⟨w', more, good⟩⟩ := (v.live stage copy).step taken
    · exact v.good copy w (same ▸ member)
    · rw [more] at member
      rcases List.mem_append.mp member with old | new
      · exact v.good copy w old
      · exact Or.inl (List.mem_singleton.mp new ▸ good)
  cases step_moved taken with
  | fill ok stage =>
      rw [v.new stage, c.bufsInit_init] at next ⊢
      split at next
      · next done =>
        rw [if_pos done]
        refine ⟨next, fun h => h.elim nofun nofun, fun copy w member => Or.inl ?_⟩
        exact posted_good_iff.mpr (.inl copy) w member
      · next failed =>
        rw [if_neg failed]
        exact .start c
  | initTail stage =>
      rw [v.filled stage, c.initTail_posted] at next ⊢
      refine ⟨next, fun _ => List.prefix_rfl, fun copy w member => ?_⟩
      rcases List.mem_append.mp member with old | new
      · exact Or.inl (posted_good_iff.mpr (.inl copy) w old)
      · exact Or.inr (List.mem_singleton.mp new)
  | xdpInit count supply stage =>
      refine ⟨next, fun _ => (v.once (Or.inl stage)).trans grown, fun copy w member => ?_⟩
      rw [v.opened stage, xdpInit_copy copy] at member
      exact v.good copy w (v.opened stage ▸ member)
  | fetch stage | give _ _ stage | passBegin _ stage | passTurn _ stage => exact running stage

end RxPosting

/-- When every write to the tail so far has been good: before the first fill always; after it unless
the descriptors of a pool without buffers are handed over; and once the vport is opened only for a
queue of other sizes than the driver gives it. -/
def tailOk (c : RxPostCfg) : PostStage → Bool
  | .new => true
  | .filled => !c.zc || decide (c.descCount ≤ c.stride)
  | _ => !c.zc && decide ((c.descCount - 1) % rxBufPostStride = 0)

/-- Every write to the tail is a multiple of the stride, between the tail before it and
`next_to_alloc`, and hands over descriptors with addresses only, if and only if `tailOk` holds: but
for queues of an AF_XDP pool, the write of `idpf_rx_init_buf_tail` is the only one that may fail. -/
theorem bufq_tail_safe {c : RxPostCfg} {s : RxPosting}
    (run : Reachable (RxPosting.step c) anyStep (fun s => s = c.init) s) :
    (∀ w ∈ s.writes, w.Good c.descCount) ↔ tailOk c s.stage = true := by
  have v : RxPosting.Logged c s := run.invariant
    (fun s (start : s = c.init) => start ▸ RxPosting.Logged.start c)
    (fun _ _ _ v _ taken => v.step taken)
  have two := c.two
  have le := c.rounded_le
  have wide := c.wide
  have zero : c.rounded = 0 ↔ c.descCount ≤ c.stride := by
    rw [RxPostCfg.rounded, Nat.mul_eq_zero, Nat.div_eq_zero_iff]
    omega
  -- a write that covers descriptors of a pool without buffers is not good
  have opening : s.stage = .opened ∨ s.stage = .enabled →
      ((∀ w ∈ s.writes, w.Good c.descCount) ↔
        (!c.zc && decide ((c.descCount - 1) % rxBufPostStride = 0)) = true) := by
    intro at_
    have logged := (v.once at_).subset
    have second : c.openWrite ∈ s.writes := logged (List.mem_append_right _ List.mem_cons_self)
    have first := logged (List.mem_append_left _ (List.mem_singleton_self _))
    rw [Bool.and_eq_true, Bool.not_eq_true', decide_eq_true_eq]
    refine ⟨fun all => ⟨?_, (all _ second).1⟩, fun h w member => ?_⟩
    · by_contra zc
      have zc : c.zc = true := by simpa using zc
      have none_ := (all _ first).2.2
      have covers := (all _ second).2.2
      simp only [RxPostCfg.openWrite, zc, Bool.not_true, Bool.or_false, beq_iff_eq] at none_ covers
      omega
    · rcases v.good h.1 w member with good | rfl
      · exact good
      · refine ⟨h.2, le_rfl, ?_⟩
        rw [RxPostCfg.openWrite, h.1, Bool.not_false, Bool.or_true]
  cases stage : s.stage with
  | new =>
      rw [v.new stage]
      exact ⟨fun _ => rfl, fun _ _ member => nomatch member⟩
  | filled =>
      rw [v.filled stage, tailOk, Bool.or_eq_true, Bool.not_eq_true', decide_eq_true_eq, ← zero]
      exact RxPosting.posted_good_iff
  | opened => exact opening (Or.inl stage)
  | enabled => exact opening (Or.inr stage)

/-- A queue of 17 descriptors: the device takes all 16 buffers, and a pass posts them again. -/
theorem bufq_tail_safe_seventeen :
    let c : RxPostCfg :=
      ⟨17, 16, 1, false, by decide, by decide, by decide, by decide, by decide⟩
    ∃ s, exec (RxPosting.step c) c.init ([.fill true, .initTail, .xdpInit 16 fun _ => true] ++
        List.replicate 16 .fetch ++ (List.range 16).map (.give 0) ++ [.passBegin 0] ++
        List.replicate 17 (.passTurn true)) = some s ∧
      s.writes.map TailWrite.val = [16, 16, 0] ∧ ∀ w ∈ s.writes, w.Good 17 := by
  intro c
  have seen : (exec (RxPosting.step c) c.init ([.fill true, .initTail, .xdpInit 16 fun _ => true] ++
        List.replicate 16 .fetch ++ (List.range 16).map (.give 0) ++ [.passBegin 0] ++
        List.replicate 17 (.passTurn true))).map (fun s => (s.writes.map TailWrite.val, s.stage)) =
      some ([16, 16, 0], .enabled) := by decide +kernel
  obtain ⟨s, reached, eq⟩ := Option.map_eq_some_iff.mp seen
  obtain ⟨writes, stage⟩ := Prod.mk.inj eq
  refine ⟨s, reached, writes, (bufq_tail_safe (Reachable.exec (.start rfl) reached)).mpr ?_⟩
  rw [stage]
  decide

/-- In a queue of 64 descriptors the vport is opened with 63 in the tail register; and one of an
AF_XDP pool hands over 32 descriptors before it has any buffer. -/
theorem bufq_tail_unaligned :
    let c : RxPostCfg := ⟨64, 32, 1, false, by decide, by decide, by decide, by decide, by decide⟩
    let pool : RxPostCfg := { c with zc := true }
    (∃ s, exec (RxPosting.step c) c.init [.fill true, .initTail] = some s ∧
      s.tail = 63 ∧ ¬ ∀ w ∈ s.writes, w.Good 64) ∧
    ∃ s, exec (RxPosting.step pool) pool.init [.fill true] = some s ∧
      s.writes = [⟨0, 32, 63, false⟩] ∧ ¬ ∀ w ∈ s.writes, w.Good 64 := by
  intro c pool
  refine ⟨?_, ?_⟩
  · have seen : (exec (RxPosting.step c) c.init [.fill true, .initTail]).map
        (fun s => (s.tail, s.writes)) = some (63, [⟨0, 32, 63, true⟩, ⟨32, 63, 63, true⟩]) := by
      decide +kernel
    obtain ⟨s, reached, eq⟩ := Option.map_eq_some_iff.mp seen
    obtain ⟨tail, writes⟩ := Prod.mk.inj eq
    refine ⟨s, reached, tail, fun all => ?_⟩
    have aligned := (all ⟨32, 63, 63, true⟩ (by rw [writes]; decide)).1
    exact absurd aligned (by decide)
  · have seen : (exec (RxPosting.step pool) pool.init [.fill true]).map RxPosting.writes =
        some [⟨0, 32, 63, false⟩] := by decide +kernel
    obtain ⟨s, reached, writes⟩ := Option.map_eq_some_iff.mp seen
    refine ⟨s, reached, writes, fun all => ?_⟩
    have covered := (all ⟨0, 32, 63, false⟩ (by rw [writes]; decide)).2.2
    exact absurd covered (by decide)

end Idpf
