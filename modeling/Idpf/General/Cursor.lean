import Mathlib.Data.List.Nodup
import Mathlib.Data.List.TakeWhile

/-! A walk over a list of distinct entries that keeps only the next entry: others may put entries in
front meanwhile, and only the walk takes entries out. -/
namespace General

variable {α : Type*} [DecidableEq α]

/-- The list from a saved entry on; nothing is left where none is saved. -/
def cursorRest (l : List α) : Option α → List α
  | none => []
  | some c => l.dropWhile (· != c)

theorem cursorRest_suffix (l : List α) (cursor : Option α) : cursorRest l cursor <:+ l := by
  cases cursor with
  | none => exact List.nil_suffix
  | some c => exact List.dropWhile_suffix _

theorem cursorRest_cons {l : List α} {p : α} (fresh : p ∉ l) {cursor : Option α}
    (saved : ∀ c, cursor = some c → c ∈ l) : cursorRest (p :: l) cursor = cursorRest l cursor := by
  cases cursor with
  | none => rfl
  | some c =>
      have other : p ≠ c := fun same => fresh (same ▸ saved c rfl)
      simp [cursorRest, other]

omit [DecidableEq α] in
theorem dropWhile_split {l later : List α} {p : α} {skips : α → Bool}
    (split : l.dropWhile skips = p :: later) :
    ∃ skipped, l = skipped ++ p :: later ∧ (∀ q ∈ skipped, skips q) ∧ skips p = false := by
  refine ⟨l.takeWhile skips, ?_, ?_, ?_⟩
  · rw [← split, List.takeWhile_append_dropWhile]
  · exact fun q member => List.mem_takeWhile_imp member
  · have stays := List.dropWhile_get_zero_not skips l (by simp [split])
    simpa [split] using stays

theorem cursorRest_erase {l before later : List α} {p : α} (distinct : l.Nodup)
    (split : l = before ++ p :: later) :
    l.erase p = before ++ later ∧ cursorRest (l.erase p) later.head? = later := by
  subst split
  have apart := (List.nodup_append'.mp distinct).2.2
  have fresh : p ∉ before := fun member => apart member List.mem_cons_self
  have erased : (before ++ p :: later).erase p = before ++ later := by
    rw [List.erase_append_right _ fresh, List.erase_cons_head]
  refine ⟨erased, ?_⟩
  rw [erased]
  cases later with
  | nil => rfl
  | cons c rest =>
      have passed : ∀ q ∈ before, (q != c) = true := by
        rintro q member
        have other : q ≠ c := fun same => apart (same ▸ member) (by simp)
        simpa using other
      rw [List.head?_cons, cursorRest, List.dropWhile_append_of_pos passed]
      simp

end General
