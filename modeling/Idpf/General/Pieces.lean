import Mathlib.Algebra.GroupWithZero.Nat
import Mathlib.Algebra.Order.BigOperators.Group.List
import Mathlib.Algebra.Order.Group.Nat

/-! A line cut into pieces, and how many of them an interval meets. -/
namespace General

variable {k l n s w : Nat} {cs : List Nat}

/-- How many of the pieces the `n` points from `s` on lie in. -/
def touched : List Nat → Nat → Nat → Nat
  | [], _, _ => 0
  | b :: bs, s, n =>
    if b ≤ s then touched bs (s - b) n
    else if n = 0 then 0
    else 1 + touched bs 0 (n - (b - s))

theorem touched_skip {b : Nat} (bs : List Nat) (le : b ≤ s) :
    touched (b :: bs) s n = touched bs (s - b) n :=
  if_pos le

theorem touched_into {b : Nat} (bs : List Nat) (lt : s < b) (some : 0 < n) :
    touched (b :: bs) s n = 1 + touched bs 0 (n - (b - s)) :=
  (if_neg (Nat.not_le.mpr lt)).trans (if_neg some.ne')

@[simp] theorem touched_none (bs : List Nat) (s : Nat) : touched bs s 0 = 0 := by
  induction bs generalizing s with
  | nil => rfl
  | cons b bs ih =>
      unfold touched
      split
      · exact ih (s - b)
      · rfl

theorem touched_le_length (bs : List Nat) (s n : Nat) : touched bs s n ≤ bs.length := by
  induction bs generalizing s n with
  | nil => exact Nat.le_refl 0
  | cons b bs ih =>
      unfold touched
      have skipped := ih (s - b) n
      have after := ih 0 (n - (b - s))
      rw [List.length_cons]
      split
      · omega
      · split <;> omega

theorem touched_le (bs : List Nat) (s n : Nat) : touched bs s n ≤ n := by
  induction bs generalizing s n with
  | nil => exact Nat.zero_le n
  | cons b bs ih =>
      unfold touched
      have skipped := ih (s - b) n
      have after := ih 0 (n - (b - s))
      split
      · exact skipped
      · split <;> omega

theorem touched_beyond {bs : List Nat} (beyond : bs.sum ≤ s) : touched bs s n = 0 := by
  induction bs generalizing s with
  | nil => rfl
  | cons b bs ih =>
      rw [List.sum_cons] at beyond
      rw [touched_skip bs (by omega)]
      exact ih (by omega)

theorem touched_pos {bs : List Nat} (inside : s < bs.sum) (some : 0 < n) : 0 < touched bs s n := by
  induction bs generalizing s with
  | nil => exact absurd inside (Nat.not_lt_zero s)
  | cons b bs ih =>
      rw [List.sum_cons] at inside
      by_cases le : b ≤ s
      · rw [touched_skip bs le]
        exact ih (by omega)
      · rw [touched_into bs (Nat.lt_of_not_le le) some]
        omega

/-- The pieces of two lines put together. -/
theorem touched_append (xs ys : List Nat) (s n : Nat) :
    touched (xs ++ ys) s n =
      if xs.sum ≤ s then touched ys (s - xs.sum) n
      else touched xs s n + touched ys 0 (n - (xs.sum - s)) := by
  induction xs generalizing s n with
  | nil => rfl
  | cons x xs ih =>
      rw [List.cons_append, List.sum_cons]
      by_cases le : x ≤ s
      · rw [touched_skip _ le, touched_skip _ le, ih]
        by_cases beyond : xs.sum ≤ s - x
        · rw [if_pos beyond, if_pos (by omega), Nat.sub_sub]
        · rw [if_neg beyond, if_neg (by omega)]
          congr 2
          omega
      · rw [if_neg (by omega)]
        rcases Nat.eq_zero_or_pos n with zero | some
        · rw [zero, touched_none, touched_none, Nat.zero_sub, touched_none]
        · rw [touched_into _ (Nat.lt_of_not_le le) some,
            touched_into _ (Nat.lt_of_not_le le) some, ih]
          by_cases empty : xs.sum ≤ 0
          · rw [if_pos empty, touched_beyond empty, Nat.le_zero.mp empty]
            rfl
          · rw [if_neg empty, Nat.add_assoc]
            congr 3
            omega

/-- As far as the first `w` pieces go the interval meets no more of them. -/
theorem touched_window {bs : List Nat} (within : n ≤ (bs.take w).sum) : touched bs 0 n ≤ w := by
  have split := touched_append (bs.take w) (bs.drop w) 0 n
  have few : touched (bs.take w) 0 n ≤ w :=
    (touched_le_length _ 0 n).trans (List.length_take_le w bs)
  rw [List.take_append_drop] at split
  by_cases empty : (bs.take w).sum ≤ 0
  · have nothing : n = 0 := by omega
    rw [nothing, touched_none]
    exact Nat.zero_le w
  · rw [if_neg empty, Nat.sub_zero, Nat.sub_eq_zero_of_le within, touched_none] at split
    omega

theorem touched_ones (bs : List Nat) (enough : k ≤ n) :
    touched (List.replicate k 1 ++ bs) 0 n = k + touched bs 0 (n - k) := by
  induction k generalizing n with
  | zero => rw [List.replicate_zero, List.nil_append, Nat.zero_add, Nat.sub_zero]
  | succ k ih =>
      rw [List.replicate_succ, List.cons_append, touched_into _ Nat.zero_lt_one (by omega),
        ih (by omega), Nat.sub_sub, Nat.sub_zero, Nat.add_comm 1 k]
      omega

/-- Every piece but the last, which has `l` points, has `k` or more. -/
inductive Coarse (k : Nat) : List Nat → Nat → Prop where
  | last (l : Nat) : Coarse k [l] l
  | cons {c l : Nat} {cs : List Nat} : k ≤ c → Coarse k cs l → Coarse k (c :: cs) l

theorem Coarse.last_le (coarse : Coarse k cs l) : l ≤ cs.sum := by
  induction coarse with
  | last l => rw [List.sum_singleton]
  | cons _ _ ih =>
      rw [List.sum_cons]
      omega

/-- From the front of a coarse line each further piece takes `k` points. -/
theorem Coarse.enter (coarse : Coarse k cs l) (n : Nat) :
    touched cs 0 n = 0 ∨ ∃ e, touched cs 0 n = e + 1 ∧ k * e + 1 ≤ n ∧ k * e + 1 ≤ cs.sum := by
  induction coarse generalizing n with
  | last l =>
      rcases Nat.eq_zero_or_pos n with zero | some
      · exact Or.inl (zero ▸ touched_none [l] 0)
      · by_cases empty : l ≤ 0
        · exact Or.inl (touched_skip [] empty)
        · refine Or.inr ⟨0, touched_into [] (by omega) some, by omega, ?_⟩
          rw [List.sum_singleton]
          omega
  | @cons c l cs wide rest ih =>
      rcases Nat.eq_zero_or_pos n with zero | some
      · exact Or.inl (zero ▸ touched_none (c :: cs) 0)
      · rw [List.sum_cons]
        by_cases empty : c ≤ 0
        · rw [touched_skip cs empty, Nat.zero_sub]
          rcases ih n with none | ⟨e, pieces, long, room⟩
          · exact Or.inl none
          · exact Or.inr ⟨e, pieces, long, by omega⟩
        · rw [touched_into cs (by omega) some]
          right
          rcases ih (n - (c - 0)) with none | ⟨e, pieces, long, room⟩
          · exact ⟨0, by rw [none], by omega, by omega⟩
          · have step : k * (e + 1) = k * e + k := Nat.mul_succ k e
            exact ⟨e + 1, by omega, by omega, by omega⟩

/-- From within a coarse line the first piece left may take one point only. The interval that
reaches a second piece started before the last one. -/
theorem Coarse.middle (coarse : Coarse k cs l) (inside : s < cs.sum) (some : 0 < n) :
    touched cs s n = 1 ∨ ∃ e, touched cs s n = e + 2 ∧ k * e + 2 ≤ n ∧
      k * e + 2 ≤ cs.sum - s ∧ l + 1 ≤ cs.sum - s := by
  induction coarse generalizing s with
  | last l =>
      rw [List.sum_singleton] at inside
      exact Or.inl (touched_into [] inside some)
  | @cons c l cs wide rest ih =>
      rw [List.sum_cons] at inside ⊢
      by_cases le : c ≤ s
      · have left : c + cs.sum - s = cs.sum - (s - c) := by omega
        rw [touched_skip cs le, left]
        exact ih (by omega)
      · rw [touched_into cs (by omega) some]
        have short := rest.last_le
        rcases rest.enter (n - (c - s)) with none | ⟨e, pieces, long, room⟩
        · exact Or.inl (by rw [none])
        · exact Or.inr ⟨e, by omega, by omega, by omega, by omega⟩

/-- Over coarse lines put together the pieces are the lines met and one more for every `k` points. -/
theorem touched_flatten {gs : List (List Nat)} (coarse : ∀ g ∈ gs, ∃ l, Coarse k g l) (n : Nat) :
    ∃ e, touched gs.flatten 0 n = touched (gs.map List.sum) 0 n + e ∧
      touched (gs.map List.sum) 0 n + k * e ≤ n := by
  induction gs generalizing n with
  | nil => exact ⟨0, rfl, Nat.zero_le n⟩
  | cons g gs ih =>
      have rest := ih fun g' member => coarse g' (List.mem_cons_of_mem g member)
      obtain ⟨l, first⟩ := coarse g List.mem_cons_self
      rw [List.flatten_cons, List.map_cons, touched_append]
      by_cases empty : g.sum ≤ 0
      · rw [if_pos empty, touched_skip _ empty, Nat.zero_sub]
        exact rest n
      · rcases Nat.eq_zero_or_pos n with zero | some
        · refine ⟨0, ?_, ?_⟩
          · rw [zero, if_neg empty, touched_none, Nat.zero_sub, touched_none, touched_none]
          · rw [zero, touched_none]
            exact Nat.le_refl 0
        · obtain ⟨e₂, same, long⟩ := rest (n - (g.sum - 0))
          have met : 0 < touched g 0 n := touched_pos (by omega) some
          rw [if_neg empty, touched_into _ (by omega) some, same]
          rcases first.enter n with none | ⟨e₁, pieces, enough, room⟩
          · omega
          · have both : k * (e₁ + e₂) = k * e₁ + k * e₂ := Nat.mul_add k e₁ e₂
            exact ⟨e₁ + e₂, by omega, by omega⟩

end General
