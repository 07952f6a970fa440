import Mathlib.Data.List.SplitBy
import Mathlib.Data.List.Range

/-! A loop that looks for the end of a run, and the runs it finds one after the other. -/
namespace General

variable {next : Nat → Nat → Bool} {n l : Nat}

/-- The last position of the run that has `l`, of the positions below `n`. -/
def runEnd (next : Nat → Nat → Bool) (n l : Nat) : Nat :=
  if _h : l + 1 < n ∧ next l (l + 1) then runEnd next n (l + 1) else l
termination_by n - l

theorem le_runEnd : l ≤ runEnd next n l := by
  fun_induction runEnd next n l with
  | case1 l _ ih => omega
  | case2 l _ => exact Nat.le_refl l

theorem runEnd_lt (inside : l < n) : runEnd next n l < n := by
  fun_induction runEnd next n l with
  | case1 l more ih => exact ih more.1
  | case2 l _ => exact inside

theorem next_of_lt_runEnd {i : Nat} (first : l ≤ i) (last : i < runEnd next n l) :
    next i (i + 1) = true := by
  fun_induction runEnd next n l with
  | case1 l more ih =>
    rcases Nat.eq_or_lt_of_le first with rfl | later
    · exact more.2
    · exact ih later last
  | case2 l _ => omega

theorem next_runEnd (more : runEnd next n l + 1 < n) :
    next (runEnd next n l) (runEnd next n l + 1) = false := by
  fun_induction runEnd next n l with
  | case1 l _ ih => exact ih more
  | case2 l stop =>
    rw [not_and, Bool.not_eq_true] at stop
    exact stop more

/-- Positions one after the other are a chain of a relation that holds of each and the next. -/
theorem isChain_range' {m : Nat} (each : ∀ i, l ≤ i → i + 1 < l + m → next i (i + 1) = true) :
    (List.range' l m).IsChain fun i j => next i j = true := by
  induction m generalizing l with
  | zero => exact List.isChain_nil
  | succ m ih =>
    rw [List.range'_succ, List.isChain_cons]
    refine ⟨fun j head => ?_, ih fun i first last => each i (by omega) (by omega)⟩
    cases m with
    | zero => exact nomatch head
    | succ m =>
      obtain rfl : l + 1 = j := Option.some.inj head
      exact each l (Nat.le_refl l) (by omega)

/-- The positions from `l` on begin with the run of `l`. -/
theorem splitBy_range' (inside : l < n) :
    (List.range' l (n - l)).splitBy next =
      List.range' l (runEnd next n l - l + 1) ::
        (List.range' (runEnd next n l + 1) (n - (runEnd next n l + 1))).splitBy next := by
  have first : l ≤ runEnd next n l := le_runEnd
  have last : runEnd next n l < n := runEnd_lt inside
  have cut : List.range' l (n - l) = List.range' l (runEnd next n l - l + 1) ++
      List.range' (runEnd next n l + 1) (n - (runEnd next n l + 1)) := by
    rw [show runEnd next n l + 1 = l + (runEnd next n l - l + 1) by omega, List.range'_append_1]
    congr 1
    omega
  rw [cut, List.splitBy_append]
  · rw [List.splitBy_of_isChain]
    · rfl
    · exact List.ne_nil_of_length_pos (by rw [List.length_range']; omega)
    · refine isChain_range' fun i low high => ?_
      have within : i < runEnd next n l := by omega
      exact next_of_lt_runEnd low within
  · intro x xs y ys
    obtain rfl : runEnd next n l = x := by
      rw [List.range'_concat, List.getLast?_concat] at xs
      have eq := Option.some.inj xs
      omega
    have more : runEnd next n l + 1 < n := by
      by_contra none
      rw [Nat.sub_eq_zero_of_le (Nat.le_of_not_lt none)] at ys
      exact nomatch ys
    obtain rfl : runEnd next n l + 1 = y := by
      rw [List.head?_range', if_neg (by omega)] at ys
      exact Option.some.inj ys
    exact next_runEnd more

end General
