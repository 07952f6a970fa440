import Idpf.General.Generation
import Mathlib.Data.List.Nodup
import Mathlib.Data.List.Count
import Mathlib.Algebra.BigOperators.Group.Finset.Basic

/-! The part of a ring between two indices, and counting what a set of lists holds
together. -/
namespace General

variable {α : Type*}

/-- The entries from index `i` up to index `j`. -/
def ringSeg (n : Nat) (ring : Nat → α) (i j : Nat) : List α :=
  (List.range (ringDist n i j)).map fun t => ring ((i + t) % n)

/-- The entries at the positions from `c` up to `p`. -/
theorem ringSeg_eq {n : Nat} (ring : Nat → α) {c p : Nat} (le : c ≤ p) (lap : p - c < n) :
    ringSeg n ring (c % n) (p % n) = (List.range' c (p - c)).map fun k => ring (k % n) := by
  rw [ringSeg, ringDist_mod le lap, List.range'_eq_map_range, List.map_map]
  simp only [Nat.mod_add_mod]
  rfl

theorem ringSeg_self (n : Nat) (ring : Nat → α) (i : Nat) : ringSeg n ring i i = [] := by
  rw [ringSeg, ringDist_self]
  rfl

@[simp] theorem ringSeg_length {n : Nat} (ring : Nat → α) {c p : Nat} (le : c ≤ p)
    (lap : p - c < n) : (ringSeg n ring (c % n) (p % n)).length = p - c := by
  rw [ringSeg_eq ring le lap, List.length_map, List.length_range']

theorem ringSeg_cons {n : Nat} (ring : Nat → α) {c p : Nat} (lt : c < p) (lap : p - c < n) :
    ringSeg n ring (c % n) (p % n) = ring (c % n) :: ringSeg n ring ((c + 1) % n) (p % n) := by
  have len : p - c = (p - (c + 1)) + 1 := by omega
  rw [ringSeg_eq ring lt.le lap, ringSeg_eq ring lt (by omega), len, List.range'_succ, List.map_cons]

/-- Writing the slot behind the segment and moving its end appends. -/
theorem ringSeg_push {n : Nat} (ring : Nat → α) {c p : Nat} (le : c ≤ p) (lap : p + 1 - c < n)
    (x : α) :
    ringSeg n (Function.update ring (p % n) x) (c % n) ((p + 1) % n) =
      ringSeg n ring (c % n) (p % n) ++ [x] := by
  have len : p + 1 - c = (p - c) + 1 := by omega
  rw [ringSeg_eq _ (by omega) lap, ringSeg_eq ring le (by omega), len, List.range'_1_concat,
    List.map_append]
  congr 1
  · apply List.map_congr_left
    intro k member
    rw [List.mem_range'_1] at member
    exact Function.update_of_ne (mod_ne_of_near (by omega) (by omega)) _ _
  · simp [show c + (p - c) = p by omega]

theorem length_le_of_count {l : List Nat} {n : Nat}
    (once : ∀ b, l.count b ≤ if b < n then 1 else 0) : l.length ≤ n := by
  have nodup : l.Nodup := by
    rw [List.nodup_iff_count_le_one]
    intro b
    refine (once b).trans ?_
    split <;> omega
  have below : l ⊆ List.range n := by
    intro b member
    have some := List.count_pos_iff.mpr member
    have := once b
    rw [List.mem_range]
    split at this <;> omega
  have := (nodup.subperm below).length_le
  rwa [List.length_range] at this

theorem length_le_of_pair_count {l : List (Nat × Nat)} {m : Nat} {f : Nat → Nat}
    (once : ∀ k b, l.count (k, b) ≤ if k < m ∧ b < f k then 1 else 0) :
    l.length ≤ ∑ k ∈ Finset.range m, f k := by
  have nodup : l.Nodup := by
    rw [List.nodup_iff_count_le_one]
    intro x
    refine (once x.1 x.2).trans ?_
    split <;> omega
  have below : l ⊆ (List.range m).flatMap fun k => (List.range (f k)).map (Prod.mk k) := by
    rintro ⟨k, b⟩ member
    have some := List.count_pos_iff.mpr member
    have := once k b
    split at this
    · next bound =>
      exact List.mem_flatMap.mpr ⟨k, List.mem_range.mpr bound.1,
        List.mem_map.mpr ⟨b, List.mem_range.mpr bound.2, rfl⟩⟩
    · omega
  have few := (nodup.subperm below).length_le
  simp only [List.length_flatMap, List.length_map, List.length_range] at few
  exact few

theorem sum_range_move {m : Nat} {f g : Nat → Nat} {i : Nat} (inside : i < m)
    (same : ∀ j, j ≠ i → g j = f j) :
    (∑ j ∈ Finset.range m, g j) + f i = (∑ j ∈ Finset.range m, f j) + g i := by
  have member := Finset.mem_range.mpr inside
  have before := Finset.add_sum_erase _ f member
  have after := Finset.add_sum_erase _ g member
  have rest : ∑ j ∈ (Finset.range m).erase i, g j = ∑ j ∈ (Finset.range m).erase i, f j :=
    Finset.sum_congr rfl fun j mem => same j (Finset.ne_of_mem_erase mem)
  omega

/-- Filling an empty slot adds one to what the slots hold. -/
theorem filterMap_fill {n i : Nat} {f : Nat → Option α} (inside : i < n) (empty : f i = none)
    (b : α) :
    ((List.range n).filterMap (Function.update f i (some b))).Perm
      (b :: (List.range n).filterMap f) := by
  have split := List.perm_cons_erase (List.mem_range.mpr inside)
  have filled := split.filterMap (Function.update f i (some b))
  have before := split.filterMap f
  rw [List.filterMap_cons_some (Function.update_self _ _ _)] at filled
  rw [List.filterMap_cons_none empty] at before
  refine filled.trans (List.Perm.cons b ?_)
  have same : ((List.range n).erase i).filterMap (Function.update f i (some b)) =
      ((List.range n).erase i).filterMap f := by
    apply List.filterMap_congr
    intro j member
    have other := (List.Nodup.mem_erase_iff List.nodup_range).mp member
    exact Function.update_of_ne other.1 _ _
  rw [same]
  exact before.symm

/-- Emptying a slot takes away what it held. -/
theorem filterMap_empty {n i : Nat} {f : Nat → Option α} {b : α} (inside : i < n)
    (full : f i = some b) :
    (b :: (List.range n).filterMap (Function.update f i none)).Perm
      ((List.range n).filterMap f) := by
  have filled := filterMap_fill inside (f := Function.update f i none)
    (Function.update_self _ _ _) b
  rw [Function.update_idem, ← full, Function.update_eq_self] at filled
  exact filled.symm

end General
