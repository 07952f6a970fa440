import Idpf.Ctlq.Queue
import Idpf.General.Transition

/-! The buffers of the mailbox's receive queue through receiving, handling and posting. Each is in
one place as long as no error-flagged message is dropped, and some are posted as long as no receive
takes all posted descriptors. -/
namespace Idpf
open General

namespace RecvQueue

def buffers (q : RecvQueue) : List DmaMem := (List.range q.ringSize).filterMap q.rxBuff

def postedSlots (q : RecvQueue) : List Nat :=
  ringSlots q.ringSize q.nextToClean (ringDist q.ringSize q.nextToClean q.nextToPost)

/-- Taking `num` messages leaves a posted descriptor. -/
def spare (q : RecvQueue) (num : Nat) : Bool :=
  decide (q.ringSize < num) || decide (num < q.postedSlots.length) ||
    q.postedSlots.any fun i => !(q.desc i).flags.dd

end RecvQueue

/-- A receive queue and the messages and buffers taken from it. `hand` is the message of the turn of
`idpf_recv_mb_msg` under way, `repost` the buffers of handled messages. -/
structure RecvSystem where
  q : RecvQueue
  held : List CtlqMsg
  hand : Option CtlqMsg
  repost : List DmaMem

/-- The device's writebacks, the calls of any user of the queue, and the two halves of a turn of
`idpf_recv_mb_msg`. -/
inductive RecvOp where
  | write (slot : Nat) (d : CtlqDesc)
  | recv (num : Nat)
  | handle (i : Nat)
  | post (count : Nat)
  | mbRecv
  | mbPost
  deriving DecidableEq, Repr

namespace RecvSystem

/-- What a turn of `idpf_recv_mb_msg` does up to the handling of its message. On an error flag the
message is dropped. -/
def mbRecv (s : RecvSystem) : RecvSystem :=
  let r := s.q.recv 1
  { s with
    q := r.1
    hand := if r.2.1 ≠ 0 then none else r.2.2.head? }

/-- What it does after the handling. The count of buffers not posted is not looked at. -/
def mbPost (s : RecvSystem) (msg : CtlqMsg) : RecvSystem :=
  { s with
    q := (s.q.postRxBuffs msg.payload.toList).1
    hand := none }

def step (s : RecvSystem) : RecvOp → Option RecvSystem
  | .write slot d =>
    if slot ∈ s.q.postedSlots then
      some { s with q := { s.q with
        desc := Function.update s.q.desc slot { d with flags := { d.flags with dd := true } } } }
    else none
  | .recv num =>
    let r := s.q.recv num
    some { s with
      q := r.1
      held := s.held ++ r.2.2 }
  | .handle i => s.held[i]?.map fun msg =>
    { s with
      held := s.held.eraseIdx i
      repost := s.repost ++ msg.payload.toList }
  | .post count =>
    let r := s.q.postRxBuffs (s.repost.take count)
    some { s with
      q := r.1
      repost := r.2.2 ++ s.repost.drop count }
  | .mbRecv => if s.hand.isNone then some s.mbRecv else none
  | .mbPost => s.hand.map s.mbPost

def start (n : Nat) (buffs : Nat → DmaMem) (s : RecvSystem) : Prop :=
  1 < n ∧ n < 65536 ∧ ((List.range (n - 1)).map buffs).Nodup ∧
    s = ⟨recvQueueAdd n buffs, [], none, []⟩

/-- A receive leaves a posted descriptor, and that of `idpf_recv_mb_msg` finds no error-flagged
message with a buffer. -/
def recvOk (s : RecvSystem) : RecvOp → Bool
  | .recv num => s.q.spare num
  | .mbRecv =>
    let d := s.q.desc s.q.nextToClean
    s.q.spare 1 && !(d.flags.dd && d.flags.err && d.datalen != 0)
  | _ => true

/-- The buffers in slots, with received messages, and waiting for a repost. -/
def places (s : RecvSystem) : List DmaMem :=
  s.q.buffers ++ s.held.filterMap CtlqMsg.payload ++ s.hand.toList.filterMap CtlqMsg.payload ++
    s.repost

end RecvSystem

def CtlqDesc.PointsTo (d : CtlqDesc) (buff : DmaMem) : Prop :=
  d.addrHigh = buff.pa / 2 ^ 32 % 2 ^ 32 ∧ d.addrLow = buff.pa % 2 ^ 32

/-- The slot has a buffer, which its descriptor points to until the device writes it back. -/
def RecvQueue.Owned (q : RecvQueue) (i : Nat) : Prop :=
  ∃ buff, q.rxBuff i = some buff ∧ ((q.desc i).flags.dd = false → (q.desc i).PointsTo buff)

/-- Each of the first buffers is in one place, and the device has some of them. -/
structure RecvBuffersOk (n : Nat) (buffs : Nat → DmaMem) (s : RecvSystem) : Prop where
  conserved : s.places.Perm ((List.range (n - 1)).map buffs)
  once : s.places.Nodup
  posted : ∀ i ∈ s.q.postedSlots, s.q.Owned i
  apart : s.q.postedSlots.Nodup
  alive : s.q.postedSlots ≠ []

namespace RecvQueue

/-- The posted descriptors are at the positions from `c` up to `p`. -/
structure Posting (q : RecvQueue) (c p : Nat) : Prop where
  clean : q.nextToClean = c % q.ringSize
  post : q.nextToPost = p % q.ringSize
  live : c < p
  lap : p < c + q.ringSize
  own : ∀ k, c ≤ k → k < p → q.Owned (k % q.ringSize)
  clear : ∀ k, p ≤ k → k < c + q.ringSize → (q.desc (k % q.ringSize)).flags.dd = false

variable {q : RecvQueue} {c p : Nat}

theorem Posting.pos (h : q.Posting c p) : 0 < q.ringSize := by
  have live := h.live
  have lap := h.lap
  omega

theorem Posting.slots (h : q.Posting c p) : q.postedSlots = ringSlots q.ringSize c (p - c) := by
  have lap := h.lap
  have live := h.live
  have near : p - c < q.ringSize := by omega
  rw [postedSlots, h.clean, h.post, ringDist_mod h.live.le near, ringSlots_mod]

theorem Posting.take (h : q.Posting c p) (more : c + 1 < p) : q.take.Posting (c + 1) p := by
  have lap := h.lap
  have other : ∀ k, c + 1 ≤ k → k < c + q.ringSize → k % q.ringSize ≠ q.nextToClean := by
    intro k le lt
    rw [h.clean]
    exact (mod_ne_of_near (Nat.lt_of_succ_le le) (by omega)).symm
  have desc : ∀ k, c + 1 ≤ k → k < c + q.ringSize →
      q.take.desc (k % q.ringSize) = q.desc (k % q.ringSize) := fun k le lt =>
    Function.update_of_ne (other k le lt) _ _
  constructor
  · change bump q.ringSize q.nextToClean = _
    rw [h.clean, bump_mod h.pos]
    rfl
  · exact h.post
  · exact more
  · change p < c + 1 + q.ringSize
    omega
  · intro k le lt
    obtain ⟨buff, full, points⟩ := h.own k (by omega) lt
    refine ⟨buff, ?_, ?_⟩
    · change (if _ then Function.update q.rxBuff q.nextToClean none else q.rxBuff) _ = _
      split
      · rw [show q.take.ringSize = q.ringSize from rfl,
          Function.update_of_ne (other k le (by omega))]
        exact full
      · exact full
    · rw [show q.take.ringSize = q.ringSize from rfl, desc k le (by omega)]
      exact points
  · intro k le lt
    have bound : k < c + 1 + q.ringSize := lt
    rw [show q.take.ringSize = q.ringSize from rfl]
    by_cases last : k < c + q.ringSize
    · rw [desc k (by omega) last]
      exact h.clear k le last
    · have same : k = c + q.ringSize := by omega
      have emptied : q.take.desc q.nextToClean = {} := Function.update_self _ _ _
      rw [same, Nat.add_mod_right, ← h.clean, emptied]

theorem Posting.take_buffers (h : q.Posting c p) :
    (((q.desc q.nextToClean).message (q.rxBuff q.nextToClean)).payload.toList ++
      q.take.buffers).Perm q.buffers := by
  obtain ⟨buff, full, -⟩ := h.own c (Nat.le_refl _) h.live
  rw [← h.clean] at full
  have inside : q.nextToClean < q.ringSize := by
    rw [h.clean]
    exact Nat.mod_lt _ h.pos
  by_cases len : (q.desc q.nextToClean).datalen ≠ 0
  · have taken : q.take.rxBuff = Function.update q.rxBuff q.nextToClean none := if_pos len
    have payload : ((q.desc q.nextToClean).message (q.rxBuff q.nextToClean)).payload =
        q.rxBuff q.nextToClean := if_pos len
    unfold buffers
    rw [taken, payload, full]
    exact filterMap_empty inside full
  · have kept : q.take.rxBuff = q.rxBuff := if_neg len
    have payload : ((q.desc q.nextToClean).message (q.rxBuff q.nextToClean)).payload = none :=
      if_neg len
    unfold buffers
    rw [kept, payload]
    exact List.Perm.refl _

/-- A receive that leaves a posted descriptor takes messages with their buffers. -/
theorem Posting.takeAll {num : Nat} (h : q.Posting c p)
    (spare : num < p - c ∨ ∃ k, c ≤ k ∧ k < p ∧ (q.desc (k % q.ringSize)).flags.dd = false) :
    ∃ c', (takeAll num q).1.Posting c' p ∧ (takeAll num q).1.ringSize = q.ringSize ∧
      ((takeAll num q).2.1.filterMap CtlqMsg.payload ++ (takeAll num q).1.buffers).Perm
        q.buffers := by
  induction num generalizing q c with
  | zero => exact ⟨c, h, rfl, List.Perm.refl _⟩
  | succ num ih =>
    rw [RecvQueue.takeAll]
    by_cases done : (q.desc q.nextToClean).flags.dd = true
    · rw [if_pos done]
      have lap := h.lap
      have more : c + 1 < p := by
        rcases spare with few | ⟨k, le, lt, dd⟩
        · omega
        · have apart : k ≠ c := by
            rintro rfl
            rw [← h.clean, done] at dd
            exact Bool.noConfusion dd
          omega
      have first := h.take more
      have rest := ih first (by
        rcases spare with few | ⟨k, le, lt, dd⟩
        · left
          omega
        · right
          have apart : k ≠ c := by
            rintro rfl
            rw [← h.clean, done] at dd
            exact Bool.noConfusion dd
          refine ⟨k, by omega, lt, ?_⟩
          have kept : q.take.desc (k % q.ringSize) = q.desc (k % q.ringSize) := by
            apply Function.update_of_ne
            rw [h.clean]
            exact (mod_ne_of_near (by omega) (by omega)).symm
          rw [show q.take.ringSize = q.ringSize from rfl, kept]
          exact dd)
      obtain ⟨c', posting, size, perm⟩ := rest
      refine ⟨c', posting, size, ?_⟩
      have one := h.take_buffers
      apply List.Perm.trans _ one
      cases payload : ((q.desc q.nextToClean).message (q.rxBuff q.nextToClean)).payload with
      | none =>
        rw [List.filterMap_cons_none payload]
        exact perm
      | some buff =>
        rw [List.filterMap_cons_some payload]
        exact perm.cons buff
    · rw [if_neg done]
      exact ⟨c, h, rfl, List.Perm.refl _⟩

/-- From `q` to `q'` the slots at the positions from `k` up to `e` of a ring of size `n` were
filled; `c` is the position of the next descriptor to clean. -/
structure Refilled (n : Nat) (q q' : RecvQueue) (c k e : Nat) : Prop where
  size : q'.ringSize = q.ringSize
  clean : q'.nextToClean = q.nextToClean
  post : q'.nextToPost = q.nextToPost
  le : k ≤ e
  last : e ≤ c + n
  own : ∀ j, k ≤ j → j < e → q'.Owned (j % n)
  desc : ∀ j, c ≤ j → j < k → q'.desc (j % n) = q.desc (j % n)
  buff : ∀ j, c ≤ j → j < k → q'.rxBuff (j % n) = q.rxBuff (j % n)
  clear : (∀ j, k ≤ j → j < c + n → (q.desc (j % n)).flags.dd = false) →
    ∀ j, k ≤ j → j < c + n → (q'.desc (j % n)).flags.dd = false

variable {n k : Nat} {b : DmaMem}

theorem Refilled.nothing (last : k ≤ c + n) : Refilled n q q c k k where
  size := rfl
  clean := rfl
  post := rfl
  le := Nat.le_refl _
  last := last
  own _ le lt := absurd lt (Nat.not_lt_of_le le)
  desc _ _ _ := rfl
  buff _ _ _ := rfl
  clear old := old

/-- Filling the slot at position `k`, perhaps with a buffer of a later slot, comes before the
rest. -/
theorem Refilled.fill {q' : RecvQueue} {e : Nat} {f : Nat → Option DmaMem}
    (keep : ∀ j, c ≤ j → j < k → f (j % n) = q.rxBuff (j % n)) (ahead : c ≤ k)
    (inside : k < c + n)
    (rest : Refilled n ({ q with rxBuff := f }.fillDesc (k % n) b) q' c (k + 1) e) :
    Refilled n q q' c k e := by
  have apart : ∀ j, c ≤ j → j < k → j % n ≠ k % n :=
    fun j le lt => mod_ne_of_near lt (by omega)
  have beyond : ∀ j, k < j → j < c + n → j % n ≠ k % n :=
    fun j lt near => (mod_ne_of_near lt (by omega)).symm
  have newDesc : q'.desc (k % n) = (q.desc (k % n)).post b :=
    (rest.desc k ahead (Nat.lt_succ_self k)).trans (Function.update_self _ _ _)
  have newBuff : q'.rxBuff (k % n) = some b :=
    (rest.buff k ahead (Nat.lt_succ_self k)).trans (Function.update_self _ _ _)
  constructor
  · exact rest.size
  · exact rest.clean
  · exact rest.post
  · exact Nat.le_of_succ_le rest.le
  · exact rest.last
  · intro j le lt
    by_cases first : j = k
    · subst first
      refine ⟨b, newBuff, ?_⟩
      intro _
      rw [newDesc]
      exact ⟨rfl, rfl⟩
    · exact rest.own j (by omega) lt
  · intro j le lt
    exact (rest.desc j le (Nat.lt_succ_of_lt lt)).trans
      (Function.update_of_ne (apart j le lt) _ _)
  · intro j le lt
    exact ((rest.buff j le (Nat.lt_succ_of_lt lt)).trans
      (Function.update_of_ne (apart j le lt) _ _)).trans (keep j le lt)
  · intro old j le lt
    by_cases first : j = k
    · subst first
      rw [newDesc]
      rfl
    · apply rest.clear _ j (by omega) lt
      intro i more near
      have same : ({ q with rxBuff := f }.fillDesc (k % n) b).desc (i % n) = q.desc (i % n) :=
        Function.update_of_ne (beyond i more near) _ _
      rw [same]
      exact old i (by omega) near

theorem search_some {fuel t tbp : Nat} (size : q.ringSize = n) (pos : 0 < n)
    (clean : q.nextToClean = c % n) (last : t ≤ c + n)
    (found : q.search fuel (t % n) = some tbp) : ∃ j, t ≤ j ∧ j < c + n ∧ tbp = j % n := by
  induction fuel generalizing t with
  | zero => exact absurd found.symm (Option.some_ne_none _)
  | succ fuel ih =>
    rw [search] at found
    by_cases stop : t % n = q.nextToClean
    · rw [if_pos stop] at found
      exact absurd found.symm (Option.some_ne_none _)
    · rw [if_neg stop] at found
      have inside : t < c + n := by
        apply Nat.lt_of_le_of_ne last
        rintro rfl
        apply stop
        rw [Nat.add_mod_right, clean]
      by_cases full : (q.rxBuff (t % n)).isSome = true
      · rw [if_pos full] at found
        exact ⟨t, Nat.le_refl _, inside, (Option.some.inj found).symm⟩
      · rw [if_neg full, size, bump_mod pos] at found
        obtain ⟨j, le, lt, eq⟩ := ih inside found
        exact ⟨j, Nat.le_of_succ_le le, lt, eq⟩

theorem fillDesc_buffers {i : Nat} (inside : i < q.ringSize) (empty : q.rxBuff i = none) :
    (q.fillDesc i b).buffers.Perm (b :: q.buffers) :=
  filterMap_fill inside empty b

theorem fillDesc_same {i : Nat} (mine : q.rxBuff i = some b) :
    (q.fillDesc i b).buffers = q.buffers := by
  have same : (q.fillDesc i b).rxBuff = q.rxBuff := by
    change Function.update q.rxBuff i (some b) = q.rxBuff
    rw [← mine, Function.update_eq_self]
  unfold buffers
  rw [same]
  rfl

theorem fillDesc_move {i j : Nat} (inside : i < q.ringSize) (source : j < q.ringSize)
    (empty : q.rxBuff i = none) (full : q.rxBuff j = some b) :
    ({ q with rxBuff := Function.update q.rxBuff j none }.fillDesc i b).buffers.Perm
      q.buffers := by
  have other : i ≠ j := by
    rintro rfl
    rw [empty] at full
    exact absurd full.symm (Option.some_ne_none _)
  have hole : Function.update q.rxBuff j none i = none := by
    rw [Function.update_of_ne other]
    exact empty
  have filled := fillDesc_buffers (q := { q with rxBuff := Function.update q.rxBuff j none })
    inside hole (b := b)
  exact filled.trans (filterMap_empty source full)

/-- The posting loop fills slots up to where it ends, with the buffers it takes from the caller or
from later slots. A buffer of the caller is left only where it ends at the next to clean. -/
theorem postAll_spec {fuel : Nat} {buffs : List DmaMem} (size : q.ringSize = n) (pos : 0 < n)
    (clean : q.nextToClean = c % n) (ahead : c < k) (last : k ≤ c + n)
    (turns : c + n ≤ fuel + k) :
    ∃ e, (postAll fuel q (k % n) buffs).2.1 = e % n ∧
      Refilled n q (postAll fuel q (k % n) buffs).1 c k e ∧
      ((postAll fuel q (k % n) buffs).1.buffers ++ (postAll fuel q (k % n) buffs).2.2).Perm
        (q.buffers ++ buffs) ∧
      ((postAll fuel q (k % n) buffs).2.2 ≠ [] → e = c + n) := by
  induction fuel generalizing q k buffs with
  | zero => exact ⟨k, rfl, Refilled.nothing last, List.Perm.refl _, fun _ => by omega⟩
  | succ fuel ih =>
    unfold postAll
    by_cases stop : k % n = q.nextToClean
    · rw [if_pos stop]
      refine ⟨k, rfl, Refilled.nothing last, List.Perm.refl _, ?_⟩
      intro _
      by_contra short
      exact mod_ne_of_near ahead (by omega) (stop.trans clean).symm
    rw [if_neg stop, size, bump_mod pos]
    have inside : k < c + n := by
      apply Nat.lt_of_le_of_ne last
      rintro rfl
      apply stop
      rw [Nat.add_mod_right, clean]
    have slot : k % n < q.ringSize := by
      rw [size]
      exact Nat.mod_lt _ pos
    cases mine : q.rxBuff (k % n) with
    | some buff =>
      obtain ⟨e, ends, filled, perm, left⟩ :=
        @ih (q.fillDesc (k % n) buff) (k + 1) buffs size clean (Nat.lt_succ_of_lt ahead) inside
            (by omega)
      refine ⟨e, ends, filled.fill (fun _ _ _ => rfl) ahead.le inside, ?_, left⟩
      rw [fillDesc_same mine] at perm
      exact perm
    | none =>
      cases buffs with
      | cons buff buffs =>
        obtain ⟨e, ends, filled, perm, left⟩ :=
          @ih (q.fillDesc (k % n) buff) (k + 1) buffs size clean (Nat.lt_succ_of_lt ahead) inside
            (by omega)
        refine ⟨e, ends, filled.fill (fun _ _ _ => rfl) ahead.le inside, perm.trans ?_, left⟩
        have more := (fillDesc_buffers slot mine (b := buff)).append_right buffs
        exact more.trans List.perm_middle.symm
      | nil =>
        cases found : q.search n ((k + 1) % n) with
        | none =>
          exact ⟨k, rfl, Refilled.nothing last, List.Perm.refl _, fun left => absurd rfl left⟩
        | some tbp =>
          obtain ⟨j, later, near, rfl⟩ := search_some size pos clean inside found
          cases other : q.rxBuff (j % n) with
          | none =>
            simp only [other]
            exact ⟨k, rfl, Refilled.nothing last, List.Perm.refl _, fun left => absurd rfl left⟩
          | some buff =>
            subst size
            have source : j % q.ringSize < q.ringSize := Nat.mod_lt _ pos
            obtain ⟨e, ends, filled, perm, left⟩ :=
              @ih ({ q with rxBuff := Function.update q.rxBuff (j % q.ringSize) none }.fillDesc
                (k % q.ringSize) buff) (k + 1) [] rfl clean (Nat.lt_succ_of_lt ahead) inside
                (by omega)
            simp only [other]
            refine ⟨e, ends, filled.fill ?_ ahead.le inside, perm.trans ?_, left⟩
            · intro i le lt
              exact Function.update_of_ne (mod_ne_of_near (by omega) (by omega)) _ _
            · exact (fillDesc_move slot source mine other).append_right []

theorem Refilled.owned {q' : RecvQueue} {e : Nat} (h : Refilled n q q' c k e) {j : Nat}
    (le : c ≤ j) (lt : j < k) (old : q.Owned (j % n)) : q'.Owned (j % n) := by
  obtain ⟨buff, full, points⟩ := old
  refine ⟨buff, (h.buff j le lt).trans full, ?_⟩
  rw [h.desc j le lt]
  exact points

theorem length_buffers
    (full : ∀ j, c ≤ j → j < c + q.ringSize → (q.rxBuff (j % q.ringSize)).isSome = true) :
    q.buffers.length = q.ringSize := by
  have whole : q.buffers.length = (List.range q.ringSize).length := by
    apply List.filterMap_length_eq_length.mpr
    intro i member
    obtain ⟨x, le, lt, rfl⟩ := exists_mod_eq c (List.mem_range.mp member)
    exact full x le lt
  rw [whole, List.length_range]

/-- With all descriptors but one posted, at most one buffer is missing. -/
theorem Posting.crowded (h : q.Posting c p) (last : p + 1 = c + q.ringSize) :
    q.ringSize ≤ q.buffers.length + 1 := by
  have owned : ∀ j, c ≤ j → j < p → (q.rxBuff (j % q.ringSize)).isSome = true := by
    intro j le lt
    obtain ⟨buff, full, -⟩ := h.own j le lt
    rw [full]
    rfl
  cases mine : q.rxBuff (p % q.ringSize) with
  | some buff =>
    have whole := length_buffers (c := c) (by
      intro j le lt
      by_cases old : j < p
      · exact owned j le old
      · obtain rfl : j = p := by omega
        rw [mine]
        rfl)
    omega
  | none =>
    have inside := Nat.mod_lt p h.pos
    have more := (fillDesc_buffers inside mine (b := ⟨0, 0⟩)).length_eq
    have whole := length_buffers (q := q.fillDesc (p % q.ringSize) ⟨0, 0⟩) (c := c) (by
      intro j le lt
      change (Function.update q.rxBuff (p % q.ringSize) _ (j % q.ringSize)).isSome = true
      by_cases same : j % q.ringSize = p % q.ringSize
      · rw [same, Function.update_self]
        rfl
      · rw [Function.update_of_ne same]
        apply owned j le
        by_contra late
        apply same
        have bound : j < c + q.ringSize := lt
        rw [show j = p by omega])
    have size : (q.fillDesc (p % q.ringSize) ⟨0, 0⟩).ringSize = q.ringSize := rfl
    rw [List.length_cons] at more
    omega

/-- Posting keeps the posted descriptors, and no buffer is lost. A buffer is left over only where
the slots have as many as fit. -/
theorem Posting.postRxBuffs (h : q.Posting c p) (buffs : List DmaMem) :
    ∃ p', (q.postRxBuffs buffs).1.Posting c p' ∧
      (q.postRxBuffs buffs).1.ringSize = q.ringSize ∧
      ((q.postRxBuffs buffs).1.buffers ++ (q.postRxBuffs buffs).2.2).Perm
        (q.buffers ++ buffs) ∧
      (buffs.length ≤ q.ringSize → (q.postRxBuffs buffs).2.2 ≠ [] →
        q.ringSize ≤ (q.postRxBuffs buffs).1.buffers.length + 1) := by
  unfold RecvQueue.postRxBuffs
  by_cases many : q.ringSize < buffs.length
  · rw [if_pos many]
    exact ⟨p, h, rfl, List.Perm.refl _, fun fit => absurd many (Nat.not_lt_of_le fit)⟩
  rw [if_neg many]
  have live := h.live
  have lap := h.lap
  by_cases full : bump q.ringSize q.nextToPost = q.nextToClean
  · rw [if_pos full]
    refine ⟨p, h, rfl, List.Perm.refl _, fun _ _ => h.crowded ?_⟩
    rw [h.post, h.clean, bump_mod h.pos] at full
    by_contra short
    exact mod_ne_of_near (Nat.lt_succ_of_lt live) (by omega) full.symm
  rw [if_neg full, h.post]
  have turns : c + q.ringSize ≤ q.ringSize + p := by omega
  obtain ⟨e, ends, filled, perm, rest⟩ :=
    @postAll_spec q c q.ringSize p q.ringSize buffs rfl h.pos h.clean live lap.le turns
  generalize postAll q.ringSize q (p % q.ringSize) buffs = r at ends filled perm rest
  obtain ⟨q', ntp, left⟩ := r
  dsimp only at ends filled perm rest ⊢
  have le := filled.le
  have last := filled.last
  have size := filled.size
  have clear := filled.clear h.clear
  have own : ∀ j, c ≤ j → j < e → q'.Owned (j % q.ringSize) := by
    intro j first lt
    by_cases old : j < p
    · exact filled.owned first old (h.own j first old)
    · exact filled.own j (by omega) lt
  have crowd : left ≠ [] → q.ringSize ≤ q'.buffers.length + 1 := by
    intro more
    have ended := rest more
    have whole := length_buffers (q := q') (c := c) (by
      intro j first lt
      rw [size] at lt ⊢
      obtain ⟨buff, has, -⟩ := own j first (by omega)
      rw [has]
      rfl)
    omega
  rw [ends]
  by_cases none : p % q.ringSize = e % q.ringSize
  · rw [if_pos none]
    obtain rfl := mod_inj_of_near le (by omega) none
    refine ⟨p, ⟨?_, ?_, live, ?_, ?_, ?_⟩, size, perm, fun _ => crowd⟩
    · rw [filled.clean, h.clean, size]
    · rw [filled.post, h.post, size]
    · rw [size]
      exact lap
    · rw [size]
      exact own
    · rw [size]
      exact clear
  · rw [if_neg none]
    have more : p ≠ e := fun same => none (congrArg (· % q.ringSize) same)
    obtain ⟨f, rfl⟩ : ∃ f, e = f + 1 := ⟨e - 1, by omega⟩
    rw [pred_mod h.pos]
    refine ⟨f, ⟨?_, ?_, ?_, ?_, ?_, ?_⟩, size, perm, fun _ => crowd⟩
    · change q'.nextToClean = c % q'.ringSize
      rw [filled.clean, h.clean, size]
    · change f % q.ringSize = f % q'.ringSize
      rw [size]
    · omega
    · change f < c + q'.ringSize
      rw [size]
      omega
    · intro j first lt
      change q'.Owned (j % q'.ringSize)
      rw [size]
      exact own j first (Nat.lt_succ_of_lt lt)
    · intro j first lt
      change (q'.desc (j % q'.ringSize)).flags.dd = false
      rw [size]
      apply clear j (by omega)
      rw [← size]
      exact lt

theorem Posting.recv {num : Nat} (h : q.Posting c p) (spare : q.spare num = true) :
    ∃ c', (q.recv num).1.Posting c' p ∧ (q.recv num).1.ringSize = q.ringSize ∧
      ((q.recv num).2.2.filterMap CtlqMsg.payload ++ (q.recv num).1.buffers).Perm q.buffers := by
  unfold RecvQueue.recv
  rw [if_neg h.pos.ne']
  by_cases none : num = 0
  · rw [if_pos none]
    exact ⟨c, h, rfl, List.Perm.refl _⟩
  rw [if_neg none]
  by_cases many : q.ringSize < num
  · rw [if_pos many]
    exact ⟨c, h, rfl, List.Perm.refl _⟩
  rw [if_neg many]
  apply h.takeAll
  rw [RecvQueue.spare, h.slots] at spare
  simp only [Bool.or_eq_true, decide_eq_true_eq, ringSlots_length, List.any_eq_true,
    Bool.not_eq_true'] at spare
  rcases spare with (beyond | few) | ⟨i, member, dd⟩
  · exact absurd beyond many
  · left
    exact few
  · right
    obtain ⟨j, lt, rfl⟩ := mem_ringSlots.mp member
    exact ⟨c + j, Nat.le_add_right _ _, by omega, dd⟩

/-- A receive of one message gives the one in the next descriptor, if any. -/
theorem recv_one (q : RecvQueue) : (q.recv 1).2.2 = [] ∨
    (q.desc q.nextToClean).flags.dd = true ∧
      (q.recv 1).2.2 = [(q.desc q.nextToClean).message (q.rxBuff q.nextToClean)] ∧
      ((q.recv 1).2.1 ≠ 0 → (q.desc q.nextToClean).flags.err = true) := by
  unfold RecvQueue.recv
  by_cases empty : q.ringSize = 0
  · rw [if_pos empty]
    exact Or.inl rfl
  rw [if_neg empty, if_neg Nat.one_ne_zero, if_neg (by omega)]
  unfold RecvQueue.takeAll
  by_cases dd : (q.desc q.nextToClean).flags.dd = true
  · rw [if_pos dd]
    refine Or.inr ⟨dd, rfl, ?_⟩
    intro failed
    by_contra clean
    apply failed
    rw [Bool.not_eq_true] at clean
    simp only [takeAll, clean]
    rfl
  · rw [if_neg dd]
    exact Or.inl rfl

theorem Posting.write {slot : Nat} (h : q.Posting c p) (member : slot ∈ q.postedSlots)
    (d : CtlqDesc) (done : d.flags.dd = true) :
    { q with desc := Function.update q.desc slot d }.Posting c p := by
  rw [h.slots] at member
  obtain ⟨i, near, rfl⟩ := mem_ringSlots.mp member
  have lap := h.lap
  refine ⟨h.clean, h.post, h.live, lap, ?_, ?_⟩
  · intro k le lt
    obtain ⟨buff, full, points⟩ := h.own k le lt
    refine ⟨buff, full, ?_⟩
    intro dd
    by_cases same : k % q.ringSize = (c + i) % q.ringSize
    · simp only [same, Function.update_self] at dd
      rw [done] at dd
      exact Bool.noConfusion dd
    · simp only [Function.update_of_ne same] at dd ⊢
      exact points dd
  · intro k le lt
    have bound : k < c + q.ringSize := lt
    have other : k % q.ringSize ≠ (c + i) % q.ringSize :=
      (mod_ne_of_near (by omega) (by omega)).symm
    simp only [Function.update_of_ne other]
    exact h.clear k le lt

end RecvQueue

/-- Some descriptors are posted, and the buffers are all there, fewer than slots. -/
structure RecvInv (all : List DmaMem) (s : RecvSystem) : Prop where
  posting : ∃ c p, s.q.Posting c p
  few : all.length < s.q.ringSize
  conserved : s.places.Perm all

variable {all : List DmaMem} {s t : RecvSystem}

theorem RecvInv.write (h : RecvInv all s) {slot : Nat} {d : CtlqDesc}
    (step : s.step (.write slot d) = some t) : RecvInv all t := by
  obtain ⟨member, eq⟩ := Option.ite_none_right_eq_some.mp step
  obtain rfl := Option.some.inj eq
  obtain ⟨c, p, posting⟩ := h.posting
  exact ⟨⟨c, p, posting.write member _ rfl⟩, h.few, h.conserved⟩

theorem RecvInv.recv (h : RecvInv all s) {num : Nat} (ok : s.recvOk (.recv num) = true)
    (step : s.step (.recv num) = some t) : RecvInv all t := by
  obtain rfl := Option.some.inj step
  obtain ⟨c, p, posting⟩ := h.posting
  obtain ⟨c', after, size, perm⟩ := posting.recv ok
  refine ⟨⟨c', p, after⟩, h.few.trans_eq size.symm, List.Perm.trans ?_ h.conserved⟩
  rw [List.perm_iff_count]
  intro b
  have moved := perm.count_eq b
  simp only [RecvSystem.places, List.filterMap_append, List.count_append] at moved ⊢
  omega

theorem RecvInv.handle (h : RecvInv all s) {i : Nat} (step : s.step (.handle i) = some t) :
    RecvInv all t := by
  obtain ⟨msg, found, rfl⟩ := Option.map_eq_some_iff.mp step
  refine ⟨h.posting, h.few, List.Perm.trans ?_ h.conserved⟩
  obtain ⟨lt, eq⟩ := List.getElem?_eq_some_iff.mp found
  have taken := (List.getElem_cons_eraseIdx_perm lt).filterMap CtlqMsg.payload
  rw [List.perm_iff_count]
  intro b
  have moved := taken.count_eq b
  rw [eq] at moved
  have one : (msg :: s.held.eraseIdx i).filterMap CtlqMsg.payload =
      msg.payload.toList ++ (s.held.eraseIdx i).filterMap CtlqMsg.payload := by
    cases payload : msg.payload with
    | none => exact List.filterMap_cons_none payload
    | some buff => exact List.filterMap_cons_some payload
  rw [one, List.count_append] at moved
  simp only [RecvSystem.places, List.count_append] at moved ⊢
  omega

theorem RecvInv.post (h : RecvInv all s) {count : Nat} (step : s.step (.post count) = some t) :
    RecvInv all t := by
  obtain rfl := Option.some.inj step
  obtain ⟨c, p, posting⟩ := h.posting
  obtain ⟨p', after, size, perm, -⟩ := posting.postRxBuffs (s.repost.take count)
  refine ⟨⟨c, p', after⟩, h.few.trans_eq size.symm, List.Perm.trans ?_ h.conserved⟩
  rw [List.perm_iff_count]
  intro b
  have moved := perm.count_eq b
  have whole := congrArg (List.count b) (List.take_append_drop count s.repost)
  simp only [RecvSystem.places, List.count_append] at moved whole ⊢
  omega

theorem RecvInv.mbRecv (h : RecvInv all s) (ok : s.recvOk .mbRecv = true)
    (step : s.step .mbRecv = some t) : RecvInv all t := by
  obtain ⟨idle, eq⟩ := Option.ite_none_right_eq_some.mp step
  obtain rfl := Option.some.inj eq
  simp only [RecvSystem.recvOk, Bool.and_eq_true] at ok
  obtain ⟨spare, kept⟩ := ok
  obtain ⟨c, p, posting⟩ := h.posting
  obtain ⟨c', after, size, perm⟩ := posting.recv spare
  refine ⟨⟨c', p, after⟩, h.few.trans_eq size.symm, List.Perm.trans ?_ h.conserved⟩
  have empty : s.hand = none := Option.isNone_iff_eq_none.mp idle
  have same : s.mbRecv.hand.toList.filterMap CtlqMsg.payload =
      (s.q.recv 1).2.2.filterMap CtlqMsg.payload := by
    have hand : s.mbRecv.hand =
        if (s.q.recv 1).2.1 ≠ 0 then none else (s.q.recv 1).2.2.head? := rfl
    rw [hand]
    rcases s.q.recv_one with nothing | ⟨dd, one, flagged⟩
    · rw [nothing]
      split <;> rfl
    · rw [one]
      by_cases failed : (s.q.recv 1).2.1 ≠ 0
      · rw [if_pos failed]
        have err := flagged failed
        rw [dd, err] at kept
        have direct : (s.q.desc s.q.nextToClean).datalen = 0 := by simpa using kept
        have payload : ((s.q.desc s.q.nextToClean).message (s.q.rxBuff s.q.nextToClean)).payload =
            none := if_neg (not_not_intro direct)
        rw [List.filterMap_cons_none payload]
        rfl
      · rw [if_neg failed]
        rfl
  rw [List.perm_iff_count]
  intro b
  have moved := perm.count_eq b
  have places : s.mbRecv.places = (s.q.recv 1).1.buffers ++ s.held.filterMap CtlqMsg.payload ++
      s.mbRecv.hand.toList.filterMap CtlqMsg.payload ++ s.repost := rfl
  rw [places, same]
  simp only [RecvSystem.places, empty, List.count_append, Option.toList_none,
    List.filterMap_nil, List.count_nil] at moved ⊢
  omega

theorem RecvInv.mbPost (h : RecvInv all s) (step : s.step .mbPost = some t) : RecvInv all t := by
  obtain ⟨msg, hand, rfl⟩ := Option.map_eq_some_iff.mp step
  obtain ⟨c, p, posting⟩ := h.posting
  obtain ⟨p', after, size, perm, crowd⟩ := posting.postRxBuffs msg.payload.toList
  refine ⟨⟨c, p', after⟩, h.few.trans_eq size.symm, List.Perm.trans ?_ h.conserved⟩
  have few := h.few
  have total := h.conserved.length_eq
  have lengths := perm.length_eq
  have mine : s.hand.toList.filterMap CtlqMsg.payload = msg.payload.toList := by
    rw [hand]
    cases payload : msg.payload with
    | none => exact List.filterMap_cons_none payload
    | some buff => exact List.filterMap_cons_some payload
  have places : s.places = s.q.buffers ++ s.held.filterMap CtlqMsg.payload ++
      msg.payload.toList ++ s.repost := by
    rw [← mine]
    rfl
  rw [places] at total ⊢
  simp only [List.length_append] at total lengths
  -- All buffers being in some place, there is an empty slot for this one.
  have none : (s.q.postRxBuffs msg.payload.toList).2.2 = [] := by
    by_contra left
    have full := crowd (by omega) left
    have more := List.length_pos_iff.mpr left
    omega
  rw [none] at perm
  rw [List.perm_iff_count]
  intro b
  have moved := perm.count_eq b
  have after : (s.mbPost msg).places = (s.q.postRxBuffs msg.payload.toList).1.buffers ++
      s.held.filterMap CtlqMsg.payload ++ [] ++ s.repost := rfl
  rw [after]
  simp only [List.count_append, List.count_nil] at moved ⊢
  omega

theorem RecvInv.step {op : RecvOp} (h : RecvInv all s) (ok : s.recvOk op = true)
    (step : s.step op = some t) : RecvInv all t := by
  cases op with
  | write slot d => exact h.write step
  | recv num => exact h.recv ok step
  | handle i => exact h.handle step
  | post count => exact h.post step
  | mbRecv => exact h.mbRecv ok step
  | mbPost => exact h.mbPost step

theorem RecvInv.start {n : Nat} {buffs : Nat → DmaMem} (h : s.start n buffs) :
    RecvInv ((List.range (n - 1)).map buffs) s := by
  obtain ⟨large, -, -, rfl⟩ := h
  constructor
  · refine ⟨0, n - 1, ?_, ?_, ?_, ?_, ?_, ?_⟩
    · exact (Nat.zero_mod n).symm
    · exact (Nat.mod_eq_of_lt (Nat.sub_lt (by omega) Nat.one_pos)).symm
    · omega
    · change n - 1 < 0 + n
      omega
    · intro k _ lt
      have inside : k + 1 < n := by omega
      change RecvQueue.Owned _ (k % n)
      rw [Nat.mod_eq_of_lt (Nat.lt_of_succ_lt inside)]
      refine ⟨buffs k, if_pos inside, ?_⟩
      intro _
      simp only [recvQueueAdd, if_pos inside]
      exact ⟨rfl, rfl⟩
    · intro k _ _
      change (if _ then CtlqDesc.post {} (buffs _) else ({} : CtlqDesc)).flags.dd = false
      split <;> rfl
  · change ((List.range (n - 1)).map buffs).length < n
    rw [List.length_map, List.length_range]
    omega
  · obtain ⟨m, rfl⟩ : ∃ m, n = m + 1 := ⟨n - 1, by omega⟩
    change ((List.range (m + 1)).filterMap _ ++ [] ++ [] ++ []).Perm ((List.range m).map buffs)
    simp only [List.append_nil, List.range_succ, List.filterMap_append]
    have last : [m].filterMap (recvQueueAdd (m + 1) buffs).rxBuff = [] :=
      List.filterMap_cons_none (if_neg (Nat.lt_irrefl _))
    have same : (List.range m).filterMap (recvQueueAdd (m + 1) buffs).rxBuff =
        (List.range m).map buffs := by
      rw [← List.filterMap_eq_map]
      apply List.filterMap_congr
      intro i member
      exact if_pos (Nat.succ_lt_succ (List.mem_range.mp member))
    rw [last, same, List.append_nil]

/-- In a run in which each receive leaves a posted descriptor and `idpf_recv_mb_msg` drops no
buffer with an error-flagged message, the buffers are all there and some are posted. -/
theorem RecvSystem.buffers_of_reachable {n : Nat} {buffs : Nat → DmaMem} {s : RecvSystem}
    (h : Reachable RecvSystem.step (fun s op => s.recvOk op = true) (RecvSystem.start n buffs) s) :
    RecvBuffersOk n buffs s := by
  have inv := h.invariant (I := RecvInv ((List.range (n - 1)).map buffs))
    (fun _ => RecvInv.start) fun _ _ _ => RecvInv.step
  have distinct : ((List.range (n - 1)).map buffs).Nodup :=
    h.invariant (I := fun _ => ((List.range (n - 1)).map buffs).Nodup)
      (fun _ init => init.2.2.1) fun _ _ _ same _ _ => same
  obtain ⟨c, p, posting⟩ := inv.posting
  have live := posting.live
  have lap := posting.lap
  constructor
  · exact inv.conserved
  · exact inv.conserved.nodup_iff.mpr distinct
  · rw [posting.slots]
    intro i member
    obtain ⟨j, lt, rfl⟩ := mem_ringSlots.mp member
    exact posting.own (c + j) (Nat.le_add_right _ _) (by omega)
  · rw [posting.slots]
    exact ringSlots_nodup c (by omega)
  · rw [posting.slots]
    apply List.ne_nil_of_length_pos
    rw [ringSlots_length]
    omega

theorem RecvSystem.buffers_of_reachable_wrap :
    ∃ s, RecvBuffersOk 4 (fun i => ⟨4096 * (i + 1), 4096⟩) s ∧ s.q.nextToClean = 1 ∧
      s.q.nextToPost = 2 ∧ s.q.postedSlots = [1] ∧
      s.repost = [] ∧ s.held.filterMap CtlqMsg.payload = [⟨8192, 4096⟩] := by
  have run : (execIf RecvSystem.step RecvSystem.recvOk
      ⟨recvQueueAdd 4 fun i => ⟨4096 * (i + 1), 4096⟩, [], none, []⟩
      [.write 0 { datalen := 8 }, .mbRecv, .mbPost, .write 1 {}, .mbRecv, .mbPost,
        .write 2 { flags := { err := true } }, .mbRecv, .post 0, .write 3 { datalen := 8 }, .recv 1,
        .handle 0, .post 1, .write 0 { datalen := 16 }, .recv 1, .post 0]).map
      (fun s => (s.q.nextToClean, s.q.nextToPost, s.q.postedSlots, s.repost,
        s.held.filterMap CtlqMsg.payload)) = some (1, 2, [1], [], [⟨8192, 4096⟩]) := by
    decide +kernel
  obtain ⟨s, steps, eq⟩ := Option.map_eq_some_iff.mp run
  have reached : Reachable RecvSystem.step (fun s op => s.recvOk op = true)
      (RecvSystem.start 4 fun i => ⟨4096 * (i + 1), 4096⟩) s :=
    Reachable.execIf (.start ⟨by decide, by decide, by decide, rfl⟩) steps
  obtain ⟨clean, post, posted, repost, held⟩ := by simpa only [Prod.mk.injEq] using eq
  exact ⟨s, RecvSystem.buffers_of_reachable reached, clean, post, posted, repost, held⟩

/-- An error-flagged message takes its buffer with it, and after a receive of all posted descriptors
nothing is posted again. -/
theorem recv_buffers_lost :
    (∃ s, Reachable RecvSystem.step anyStep
        (RecvSystem.start 4 fun i => ⟨4096 * (i + 1), 4096⟩) s ∧
      ¬ RecvBuffersOk 4 (fun i => ⟨4096 * (i + 1), 4096⟩) s ∧ s.places.length = 2) ∧
    ∃ s, Reachable RecvSystem.step anyStep
        (RecvSystem.start 4 fun i => ⟨4096 * (i + 1), 4096⟩) s ∧
      ¬ RecvBuffersOk 4 (fun i => ⟨4096 * (i + 1), 4096⟩) s ∧
      s.held = [] ∧ s.hand = none ∧ s.repost = [] ∧ s.q.postedSlots = [] := by
  have first : RecvSystem.start 4 (fun i => ⟨4096 * (i + 1), 4096⟩)
      ⟨recvQueueAdd 4 fun i => ⟨4096 * (i + 1), 4096⟩, [], none, []⟩ :=
    ⟨by decide, by decide, by decide, rfl⟩
  constructor
  · have run : (exec RecvSystem.step
        ⟨recvQueueAdd 4 fun i => ⟨4096 * (i + 1), 4096⟩, [], none, []⟩
        [.write 0 { flags := { err := true }, datalen := 8 }, .mbRecv]).map
        (fun s => s.places.length) = some 2 := by
      decide +kernel
    obtain ⟨s, steps, eq⟩ := Option.map_eq_some_iff.mp run
    refine ⟨s, Reachable.exec (.start first) steps, ?_, eq⟩
    intro ok
    have total := ok.conserved.length_eq
    rw [eq] at total
    exact absurd total (by decide)
  · have run : (exec RecvSystem.step
        ⟨recvQueueAdd 4 fun i => ⟨4096 * (i + 1), 4096⟩, [], none, []⟩
        [.write 0 {}, .write 1 {}, .write 2 {}, .recv 3, .handle 0, .handle 0, .handle 0,
          .post 0]).map
        (fun s => (s.held, s.hand, s.repost, s.q.postedSlots)) = some ([], none, [], []) := by
      decide +kernel
    obtain ⟨s, steps, eq⟩ := Option.map_eq_some_iff.mp run
    obtain ⟨held, hand, repost, posted⟩ := by simpa only [Prod.mk.injEq] using eq
    refine ⟨s, Reachable.exec (.start first) steps, ?_, held, hand, repost, posted⟩
    intro ok
    exact ok.alive posted

end Idpf
