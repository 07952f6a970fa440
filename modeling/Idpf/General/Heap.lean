import Mathlib.Algebra.BigOperators.Group.List.Basic
import Mathlib.Data.Multiset.OrderedMonoid
import Mathlib.Logic.Function.Basic

/-! Allocations by name on a heap that may refuse any of them, and the code that unwinds. A piece
of code takes all that it wants or nothing, another drops that again; loops and sequences of such
pieces do so too. -/
namespace General

/-- What has been allocated, how often an allocation was asked for, and whether something was freed
that was not there. -/
structure Heap (π : Type*) where
  live : Multiset π
  asked : Nat
  bad : Bool

/-- Which allocations are granted, by their number. -/
abbrev Grants := Nat → Bool

namespace Heap

variable {π : Type*}

def empty : Heap π := ⟨0, 0, false⟩

def alloc (g : Grants) (p : π) (h : Heap π) : Heap π × Bool :=
  if g h.asked then (⟨p ::ₘ h.live, h.asked + 1, h.bad⟩, true)
  else (⟨h.live, h.asked + 1, h.bad⟩, false)

def free [DecidableEq π] (p : π) (h : Heap π) : Heap π :=
  if p ∈ h.live then { h with live := h.live.erase p } else { h with bad := true }

/-- The loop that drops the first `n`, the last one first. -/
def dropAll (drop : Nat → Heap π → Heap π) : Nat → Heap π → Heap π
  | 0, h => h
  | n + 1, h => dropAll drop n (drop n h)

/-- The loop that takes `n` in turn and drops those before one that fails. -/
def takeAll (take : Nat → Heap π → Heap π × Bool) (drop : Nat → Heap π → Heap π) :
    Nat → Heap π → Heap π × Bool
  | 0, h => (h, true)
  | n + 1, h =>
    let r := takeAll take drop n h
    if r.2 then
      let t := take n r.1
      if t.2 then t else (dropAll drop n t.1, false)
    else r

/-- One piece, then another; where that fails the first is undone. -/
def andThen (take next : Heap π → Heap π × Bool) (undo : Heap π → Heap π) (h : Heap π) :
    Heap π × Bool :=
  let r := take h
  if r.2 then
    let t := next r.1
    if t.2 then t else (undo t.1, false)
  else r

/-- The heap `h'` has `own` on top of what `h` has. -/
structure Holds (h : Heap π) (own : Multiset π) (h' : Heap π) : Prop where
  live : h'.live = own + h.live
  bad : h'.bad = h.bad

/-- The code takes all of `own`, or nothing. -/
def Takes (own : Multiset π) (f : Heap π → Heap π × Bool) : Prop :=
  ∀ h : Heap π, h.Holds (if (f h).2 then own else 0) (f h).1

/-- The code frees `own`, where it is there, and nothing else. -/
def Drops (own : Multiset π) (f : Heap π → Heap π) : Prop :=
  ∀ (h : Heap π) (rest : Multiset π) (h' : Heap π), h.Holds (own + rest) h' → h.Holds rest (f h')

/-- What the first `n` of a loop have together. -/
def total (own : Nat → Multiset π) (n : Nat) : Multiset π := ((List.range n).map own).sum

variable {h h' h'' : Heap π} {own own' : Multiset π} {p : π}

theorem total_succ (own : Nat → Multiset π) (n : Nat) :
    total own (n + 1) = total own n + own n := by
  rw [total, List.range_succ, List.map_append, List.sum_append, List.map_singleton,
    List.sum_singleton, total]

theorem total_zero {own : Nat → Multiset π} {n : Nat} (none : ∀ i < n, own i = 0) :
    total own n = 0 := by
  induction n with
  | zero => rfl
  | succ n ih =>
      rw [total_succ, ih fun i inside => none i (Nat.lt_succ_of_lt inside),
        none n (Nat.lt_succ_self n), zero_add]

/-- One of a loop gives up what it has for something else. -/
theorem total_update (own : Nat → Multiset π) {n i : Nat} (inside : i < n) (other : Multiset π) :
    total (Function.update own i other) n + own i = total own n + other := by
  induction n with
  | zero => exact absurd inside (Nat.not_lt_zero i)
  | succ n ih =>
      rw [total_succ, total_succ]
      by_cases last : i = n
      · subst last
        have before : total (Function.update own i other) i = total own i := by
          unfold total
          congr 1
          apply List.map_congr_left
          intro k member
          exact Function.update_of_ne (Nat.ne_of_lt (List.mem_range.mp member)) _ _
        rw [before, Function.update_self, add_right_comm]
      · rw [Function.update_of_ne (Ne.symm last), add_right_comm, ih (by omega), add_right_comm]

theorem total_replace (own : Nat → Multiset π) {n i : Nat} (inside : i < n) :
    ∃ rest, total own n = own i + rest ∧
      ∀ other, total (Function.update own i other) n = other + rest := by
  have cleared := total_update own inside 0
  rw [add_zero] at cleared
  refine ⟨total (Function.update own i 0) n, ?_, fun other => ?_⟩
  · rw [← cleared, add_comm]
  · have again := total_update (Function.update own i 0) inside other
    rw [Function.update_idem, Function.update_self, add_zero] at again
    rw [again, add_comm]

theorem Holds.refl (h : Heap π) : h.Holds 0 h := ⟨(zero_add _).symm, rfl⟩

theorem Holds.trans (first : h.Holds own h') (next : h'.Holds own' h'') :
    h.Holds (own' + own) h'' := by
  refine ⟨?_, next.bad.trans first.bad⟩
  rw [next.live, first.live, add_assoc]

theorem Holds.congr (holds : h.Holds own h') (same : own = own') : h.Holds own' h' := same ▸ holds

theorem Holds.same (holds : h.Holds 0 h') : h'.live = h.live ∧ h'.bad = h.bad :=
  ⟨holds.live.trans (zero_add _), holds.bad⟩

theorem alloc_snd (g : Grants) (p : π) (h : Heap π) : (alloc g p h).2 = g h.asked := by
  unfold alloc
  split
  · next granted => exact granted.symm
  · next refused => exact (Bool.eq_false_iff.mpr refused).symm

theorem alloc_asked (g : Grants) (p : π) (h : Heap π) : (alloc g p h).1.asked = h.asked + 1 := by
  unfold alloc
  split <;> rfl

theorem free_asked [DecidableEq π] (p : π) (h : Heap π) : (free p h).asked = h.asked := by
  unfold free
  split <;> rfl

/-- Two allocations, the first of which is freed where the second is refused. -/
theorem andThen_alloc [DecidableEq π] (g : Grants) (p q r : π) (h : Heap π) :
    let t := andThen (alloc g p) (alloc g q) (free r) h
    t.2 = (g h.asked && g (h.asked + 1)) ∧ (t.2 = true → t.1.asked = h.asked + 2) := by
  unfold andThen
  dsimp only
  rw [alloc_snd, alloc_snd, alloc_asked]
  cases first : g h.asked with
  | false => exact ⟨(alloc_snd g p h).trans first, fun done => absurd done (by simp [alloc, first])⟩
  | true =>
      cases second : g (h.asked + 1) with
      | false => exact ⟨rfl, nofun⟩
      | true =>
          refine ⟨?_, fun _ => ?_⟩
          · rw [if_pos rfl, if_pos rfl, alloc_snd, alloc_asked, second]
            rfl
          · rw [if_pos rfl, if_pos rfl, alloc_asked, alloc_asked]

theorem takes_alloc (g : Grants) (p : π) : Takes {p} (alloc g p) := by
  intro h
  unfold alloc
  split
  · exact ⟨rfl, rfl⟩
  · exact ⟨(zero_add _).symm, rfl⟩

theorem drops_free [DecidableEq π] (p : π) : Drops {p} (free p) := by
  intro h rest h' holds
  have member : p ∈ h'.live := by
    rw [holds.live, Multiset.singleton_add, Multiset.cons_add]
    exact Multiset.mem_cons_self _ _
  unfold free
  rw [if_pos member]
  refine ⟨?_, holds.bad⟩
  change h'.live.erase p = rest + h.live
  rw [holds.live, Multiset.singleton_add, Multiset.cons_add, Multiset.erase_cons_head]

theorem drops_id : Drops (0 : Multiset π) id := by
  intro h rest h' holds
  rwa [zero_add] at holds

theorem Drops.comp {f f' : Heap π → Heap π} (first : Drops own f) (next : Drops own' f') :
    Drops (own + own') fun h => f' (f h) := by
  intro h rest h' holds
  rw [add_assoc] at holds
  exact next h rest _ (first h _ h' holds)

theorem drops_foldl {β : Type*} {own : β → Multiset π} {drop : β → Heap π → Heap π} (bs : List β)
    (each : ∀ b ∈ bs, Drops (own b) (drop b)) :
    Drops (bs.map own).sum fun h => bs.foldl (fun h b => drop b h) h := by
  induction bs with
  | nil => exact drops_id
  | cons b bs ih =>
      obtain ⟨first, rest⟩ := List.forall_mem_cons.mp each
      exact first.comp (ih rest)

theorem drops_dropAll {own : Nat → Multiset π} {drop : Nat → Heap π → Heap π} (n : Nat)
    (each : ∀ i < n, Drops (own i) (drop i)) : Drops (total own n) (dropAll drop n) := by
  induction n with
  | zero => exact drops_id
  | succ n ih =>
      have rest := ih fun i inside => each i (Nat.lt_succ_of_lt inside)
      rw [total_succ, add_comm]
      exact (each n (Nat.lt_succ_self n)).comp rest

theorem takes_andThen {f f' : Heap π → Heap π × Bool} {undo : Heap π → Heap π}
    (take : Takes own f) (next : Takes own' f') (drops : Drops own undo) :
    Takes (own' + own) (andThen f f' undo) := by
  intro h
  have first := take h
  have second := next (f h).1
  change h.Holds (if (if (f h).2 then _ else f h).2 then _ else 0) (if (f h).2 then _ else f h).1
  by_cases done : (f h).2 = true
  · rw [if_pos done] at first ⊢
    by_cases more : (f' (f h).1).2 = true
    · rw [if_pos more] at second ⊢
      rw [if_pos more]
      exact first.trans second
    · rw [if_neg more] at second ⊢
      have before := first.trans second
      rw [zero_add, ← add_zero own] at before
      exact drops h 0 _ before
  · rw [if_neg done] at first ⊢
    rw [if_neg done]
    exact first

theorem andThen_done {f f' : Heap π → Heap π × Bool} {undo : Heap π → Heap π}
    (done : (andThen f f' undo h).2 = true) : (f h).2 = true ∧ (f' (f h).1).2 = true := by
  unfold andThen at done
  dsimp only at done
  split at done
  · next first =>
    split at done
    · next second => exact ⟨first, second⟩
    · exact absurd done Bool.false_ne_true
  · next refused => exact absurd done refused

theorem takes_takeAll {own : Nat → Multiset π} {take : Nat → Heap π → Heap π × Bool}
    {drop : Nat → Heap π → Heap π} (n : Nat) (each : ∀ i < n, Takes (own i) (take i))
    (drops : ∀ i < n, Drops (own i) (drop i)) : Takes (total own n) (takeAll take drop n) := by
  induction n with
  | zero => exact Holds.refl
  | succ n ih =>
      have before := ih (fun i inside => each i (Nat.lt_succ_of_lt inside))
        fun i inside => drops i (Nat.lt_succ_of_lt inside)
      rw [total_succ, add_comm]
      exact takes_andThen before (each n (Nat.lt_succ_self n))
        (drops_dropAll n fun i inside => drops i (Nat.lt_succ_of_lt inside))

end Heap

end General
