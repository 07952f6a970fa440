import Mathlib.Tactic.Common
import Mathlib.Data.Nat.ModEq
import Mathlib.Data.List.Nodup

/-! Indices on a ring of `n` slots. Positions are unbounded counters; the slot
of position `k` is `k % n`. Everything a driver computes from slots alone is
expressed by the forward distance. -/
namespace General

/-- The index after `i`, wrapping by comparison instead of division. -/
def bump (n i : Nat) : Nat := if i + 1 = n then 0 else i + 1

theorem bump_lt {n i : Nat} (h : i < n) : bump n i < n := by
  unfold bump
  split <;> omega

theorem bump_mod {n : Nat} (hn : 0 < n) (k : Nat) : bump n (k % n) = (k + 1) % n := by
  have hk := Nat.mod_lt k hn
  rw [← Nat.mod_add_mod k n 1]
  unfold bump
  split
  · next last => rw [last, Nat.mod_self]
  · next inner => exact (Nat.mod_eq_of_lt (by omega)).symm

theorem pred_mod {n : Nat} (hn : 0 < n) (k : Nat) :
    (if (k + 1) % n = 0 then n - 1 else (k + 1) % n - 1) = k % n := by
  have lt := Nat.mod_lt k hn
  rw [← bump_mod hn, bump]
  by_cases last : k % n + 1 = n
  · rw [if_pos last, if_pos rfl]
    omega
  · rw [if_neg last, if_neg (Nat.succ_ne_zero _), Nat.add_sub_cancel]

/-- How many bumps lead from slot `i` to slot `j`. -/
def ringDist (n i j : Nat) : Nat := if i ≤ j then j - i else n + j - i

theorem ringDist_self (n i : Nat) : ringDist n i i = 0 := by simp [ringDist]

theorem ringDist_lt {n i j : Nat} (hj : j < n) : ringDist n i j < n := by
  unfold ringDist
  split <;> omega

theorem ringDist_mod {n c p : Nat} (le : c ≤ p) (lap : p - c < n) :
    ringDist n (c % n) (p % n) = p - c := by
  have hn : 0 < n := by omega
  have hc := Nat.mod_lt c hn
  have hp := Nat.mod_lt p hn
  have ec := Nat.div_add_mod c n
  have ep := Nat.div_add_mod p n
  have lapLe : c / n ≤ p / n := Nat.div_le_div_right le
  have lapLt : p / n < c / n + 2 := by
    by_contra far
    have grow : n * (c / n + 2) ≤ n * (p / n) := Nat.mul_le_mul_left n (by omega)
    rw [Nat.mul_add] at grow
    omega
  have laps : p / n = c / n ∨ p / n = c / n + 1 := by omega
  unfold ringDist
  rcases laps with same | other
  · rw [same] at ep
    split <;> omega
  · rw [other, Nat.mul_add, Nat.mul_one] at ep
    split <;> omega

/-- Moving on without passing `i` adds to the distance from `i`. -/
theorem ringDist_add {n i j k : Nat} (hi : i < n) (hj : j < n) (room : ringDist n i j + k < n) :
    ringDist n i ((j + k) % n) = ringDist n i j + k := by
  by_cases wrap : j + k < n
  · rw [Nat.mod_eq_of_lt wrap]
    unfold ringDist at room ⊢
    split at room <;> split <;> omega
  · have back : (j + k) % n = j + k - n := by
      rw [Nat.mod_eq_sub_mod (by omega), Nat.mod_eq_of_lt]
      unfold ringDist at room
      split at room <;> omega
    rw [back]
    unfold ringDist at room ⊢
    split at room <;> split <;> omega

theorem mod_inj_of_near {n a b : Nat} (le : a ≤ b) (lap : b - a < n) (same : a % n = b % n) :
    a = b := by
  have h := ringDist_mod le lap
  rw [same, ringDist_self] at h
  omega

theorem mod_ne_of_near {n a b : Nat} (lt : a < b) (lap : b - a < n) : a % n ≠ b % n :=
  fun same => absurd (mod_inj_of_near lt.le lap same) (by omega)

/-- The `k` slots from position `p` on. -/
def ringSlots (n p k : Nat) : List Nat := (List.range k).map fun i => (p + i) % n

@[simp] theorem ringSlots_length (n p k : Nat) : (ringSlots n p k).length = k := by
  simp [ringSlots]

@[simp] theorem ringSlots_zero (n p : Nat) : ringSlots n p 0 = [] := rfl

theorem ringSlots_mod (n p k : Nat) : ringSlots n (p % n) k = ringSlots n p k := by
  simp only [ringSlots, Nat.mod_add_mod]

theorem ringSlots_cons (n p k : Nat) :
    ringSlots n p (k + 1) = p % n :: ringSlots n (p + 1) k := by
  simp only [ringSlots, List.range_succ_eq_map, List.map_cons, List.map_map, Function.comp_def,
    Nat.add_zero, Nat.succ_eq_add_one, Nat.add_comm, Nat.add_left_comm]

theorem ringSlots_append (n p j k : Nat) :
    ringSlots n p (j + k) = ringSlots n p j ++ ringSlots n (p + j) k := by
  simp only [ringSlots, List.range_add, List.map_append, List.map_map, Function.comp_def,
    Nat.add_assoc]

theorem ringSlots_snoc (n p k : Nat) :
    ringSlots n p (k + 1) = ringSlots n p k ++ [(p + k) % n] := ringSlots_append n p k 1

theorem ringSlots_nodup {n k : Nat} (p : Nat) (lap : k ≤ n) : (ringSlots n p k).Nodup := by
  refine List.Nodup.map_on (fun i hi j hj same => ?_) List.nodup_range
  have hi := List.mem_range.mp hi
  have hj := List.mem_range.mp hj
  rcases Nat.lt_trichotomy i j with lt | eq | gt
  · exact absurd same (mod_ne_of_near (by omega) (by omega))
  · exact eq
  · exact absurd same.symm (mod_ne_of_near (by omega) (by omega))

theorem ringSlots_next {n k : Nat} (p : Nat) (short : k < n) : (p + k) % n ∉ ringSlots n p k := by
  have nodup := ringSlots_nodup p (show k + 1 ≤ n from short)
  rw [ringSlots_snoc] at nodup
  exact fun member => List.disjoint_of_nodup_append nodup member (List.mem_singleton_self _)

theorem mem_ringSlots_last (n p k : Nat) : (p + k) % n ∈ ringSlots n p (k + 1) := by
  rw [ringSlots_snoc]
  exact List.mem_append_right _ (List.mem_singleton_self _)

theorem ringSlots_subset {n p j k : Nat} (le : j ≤ k) : ringSlots n p j ⊆ ringSlots n p k := by
  obtain ⟨d, rfl⟩ := Nat.exists_eq_add_of_le le
  rw [ringSlots_append]
  exact List.subset_append_left _ _

theorem mem_ringSlots {n p k i : Nat} : i ∈ ringSlots n p k ↔ ∃ j < k, (p + j) % n = i := by
  simp [ringSlots]

theorem exists_mod_eq {n i : Nat} (a : Nat) (hi : i < n) : ∃ x, a ≤ x ∧ x < a + n ∧ x % n = i := by
  refine ⟨a + ringDist n (a % n) i, Nat.le_add_right _ _, Nat.add_lt_add_left (ringDist_lt hi) a, ?_⟩
  have ha := Nat.mod_lt a (Nat.zero_lt_of_lt hi)
  rw [← Nat.mod_add_mod]
  unfold ringDist
  split
  · rw [Nat.add_sub_cancel' ‹_›, Nat.mod_eq_of_lt hi]
  · rw [Nat.add_sub_cancel' (by omega), Nat.add_mod_left, Nat.mod_eq_of_lt hi]

theorem countP_ringSlots {n p k : Nat} (hn : 0 < n) (lap : k ≤ n) :
    (List.range n).countP (fun i => decide (i ∉ ringSlots n p k)) + k = n := by
  have inside : ((List.range n).filter fun i => decide (i ∈ ringSlots n p k)).Perm
      (ringSlots n p k) := by
    refine (List.perm_ext_iff_of_nodup (List.nodup_range.filter _) (ringSlots_nodup p lap)).mpr
      fun i => ?_
    rw [List.mem_filter, decide_eq_true_eq, List.mem_range]
    refine ⟨And.right, fun member => ⟨?_, member⟩⟩
    obtain ⟨j, -, rfl⟩ := mem_ringSlots.mp member
    exact Nat.mod_lt _ hn
  have split := List.length_eq_countP_add_countP (fun i => decide (i ∈ ringSlots n p k))
    (l := List.range n)
  rw [List.countP_eq_length_filter, inside.length_eq, List.length_range, ringSlots_length] at split
  simp only [decide_eq_true_eq, decide_not] at split ⊢
  omega

theorem update_mod_ne {β : Type*} {n x y : Nat} (f : Nat → β) (v : β) (ne : x ≠ y)
    (near : x < y + n) (near' : y < x + n) :
    Function.update f (y % n) v (x % n) = f (x % n) := by
  refine Function.update_of_ne ?_ v f
  rcases Nat.lt_or_gt_of_ne ne with lt | gt
  · exact mod_ne_of_near lt (by omega)
  · exact (mod_ne_of_near gt (by omega)).symm

end General
