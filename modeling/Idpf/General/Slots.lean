import Mathlib.Algebra.BigOperators.Group.Finset.Basic

/-! Slots that hold a value or nothing, and what the values come to together. -/
namespace General

variable {α M : Type*} [AddCommMonoid M]

/-- The sum of what `f` makes of the values in the first `n` slots. -/
def slotSum (n : Nat) (slots : Nat → Option α) (f : α → M) : M :=
  ∑ i ∈ Finset.range n, (slots i).elim 0 f

@[simp] theorem slotSum_none (n : Nat) (f : α → M) : slotSum n (fun _ => none) f = 0 := by
  simp [slotSum]

theorem slotSum_fill {n i : Nat} {slots : Nat → Option α} (inside : i < n) (empty : slots i = none)
    (a : α) (f : α → M) :
    slotSum n (Function.update slots i (some a)) f = f a + slotSum n slots f := by
  have member := Finset.mem_range.mpr inside
  have before := Finset.add_sum_erase (Finset.range n) (fun j => (slots j).elim 0 f) member
  have after := Finset.add_sum_erase (Finset.range n)
    (fun j => (Function.update slots i (some a) j).elim 0 f) member
  have rest : ∑ j ∈ (Finset.range n).erase i, (Function.update slots i (some a) j).elim 0 f =
      ∑ j ∈ (Finset.range n).erase i, (slots j).elim 0 f := by
    apply Finset.sum_congr rfl
    intro j other
    rw [Function.update_of_ne (Finset.ne_of_mem_erase other)]
  simp only [empty, Function.update_self, Option.elim_none, Option.elim_some, zero_add] at before after
  rw [slotSum, slotSum, ← after, rest, before]

theorem slotSum_empty {n i : Nat} {slots : Nat → Option α} {a : α} (inside : i < n)
    (full : slots i = some a) (f : α → M) :
    f a + slotSum n (Function.update slots i none) f = slotSum n slots f := by
  have empty : Function.update slots i none i = none := Function.update_self ..
  have filled := slotSum_fill inside empty a f
  rw [Function.update_idem, ← full, Function.update_eq_self] at filled
  exact filled.symm

/-- The first empty slot among `n`. -/
def freeSlot (n : Nat) (slots : Nat → Option α) : Option Nat :=
  (List.range n).find? fun i => (slots i).isNone

theorem freeSlot_spec {n i : Nat} {slots : Nat → Option α} (free : freeSlot n slots = some i) :
    i < n ∧ slots i = none := by
  constructor
  · exact List.mem_range.mp (List.mem_of_find?_eq_some free)
  · simpa using List.find?_some free

theorem filled_cases {ι : Type*} [DecidableEq ι] {i k : ι} {slots : ι → Option α} {a b : α}
    (full : Function.update slots i (some a) k = some b) :
    k = i ∧ b = a ∨ k ≠ i ∧ slots k = some b := by
  by_cases here : k = i
  · subst here
    rw [Function.update_self] at full
    exact .inl ⟨rfl, (Option.some.inj full).symm⟩
  · rw [Function.update_of_ne here] at full
    exact .inr ⟨here, full⟩

theorem emptied_ne {ι : Type*} [DecidableEq ι] {i k : ι} {slots : ι → Option α} {b : α}
    (full : Function.update slots i none k = some b) : k ≠ i ∧ slots k = some b := by
  by_cases here : k = i
  · subst here
    rw [Function.update_self] at full
    cases full
  · rw [Function.update_of_ne here] at full
    exact ⟨here, full⟩

/-- The sum with one full slot set apart, whatever comes to be in it. -/
theorem slotSum_split {n i : Nat} {slots : Nat → Option α} {a : α} (inside : i < n)
    (full : slots i = some a) (f : α → M) : ∃ rest, slotSum n slots f = f a + rest ∧
      slotSum n (Function.update slots i none) f = rest ∧
      ∀ b, slotSum n (Function.update slots i (some b)) f = f b + rest := by
  have emptied : Function.update slots i none i = none := Function.update_self ..
  refine ⟨_, (slotSum_empty inside full f).symm, rfl, ?_⟩
  intro b
  have filled := slotSum_fill inside emptied b f
  rwa [Function.update_idem] at filled

theorem freeSlot_le_count {n i : Nat} {slots : Nat → Option α} (free : freeSlot n slots = some i) :
    i ≤ (List.range n).countP fun j => (slots j).isSome := by
  obtain ⟨-, inside, before⟩ := List.find?_range_eq_some.mp free
  have full : (List.range i).countP (fun j => (slots j).isSome) = i := by
    rw [List.countP_eq_length.mpr, List.length_range]
    intro j member
    have taken := before j (List.mem_range.mp member)
    simpa using taken
  have shorter : (List.range i).Sublist (List.range n) :=
    List.range_sublist.mpr (List.mem_range.mp inside).le
  exact full.symm.le.trans shorter.countP_le

end General
