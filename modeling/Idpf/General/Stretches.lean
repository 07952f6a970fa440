import Mathlib.Algebra.GroupWithZero.Nat
import Mathlib.Data.List.Range

/-! Stretches of indexes that are laid out one after the other, each with its own base. -/
namespace General

variable {α β γ : Type*}

/-- `cnt` indexes from `start` on. -/
structure Stretch (α : Type*) where
  start : Nat
  cnt : Nat
  base : α

namespace Stretch

def stop (s : Stretch α) : Nat := s.start + s.cnt

def has (index : Nat) (s : Stretch α) : Bool :=
  decide (s.cnt ≠ 0 ∧ s.start ≤ index ∧ index < s.stop)

end Stretch

def layOut : Nat → List (Nat × α) → List (Stretch α)
  | _, [] => []
  | start, (cnt, base) :: kinds =>
    let s : Stretch α := ⟨start, cnt, base⟩
    s :: layOut s.stop kinds

def layOutAll (f : α → Nat → β) (kinds : List (Nat × α)) : List β :=
  kinds.flatMap fun k => (List.range k.1).map (f k.2)

theorem layOutAll_length (f : α → Nat → β) (kinds : List (Nat × α)) :
    (layOutAll f kinds).length = (kinds.map Prod.fst).sum := by
  rw [layOutAll, List.length_flatMap]
  simp only [List.length_map, List.length_range]

theorem map_layOutAll (g : β → γ) (f : α → Nat → β) (kinds : List (Nat × α)) :
    (layOutAll f kinds).map g = layOutAll (fun base i => g (f base i)) kinds := by
  rw [layOutAll, List.map_flatMap, layOutAll]
  simp only [List.map_map]
  rfl

theorem layOutAll_map (f : γ → Nat → β) (h : α → γ) (kinds : List (Nat × α)) :
    layOutAll f (kinds.map fun k => (k.1, h k.2)) = layOutAll (fun base => f (h base)) kinds := by
  rw [layOutAll, List.flatMap_map]
  rfl

theorem mem_layOutAll {f : α → Nat → β} {kinds : List (Nat × α)} {b : β} :
    b ∈ layOutAll f kinds ↔ ∃ k ∈ kinds, ∃ i < k.1, f k.2 i = b := by
  simp only [layOutAll, List.mem_flatMap, List.mem_map, List.mem_range]

theorem pairwise_layOutAll {R : β → β → Prop} {f : α → Nat → β} {kinds : List (Nat × α)}
    (within : ∀ k ∈ kinds, ∀ i j, i < j → j < k.1 → R (f k.2 i) (f k.2 j))
    (across : kinds.Pairwise fun k k' => ∀ i < k.1, ∀ j < k'.1, R (f k.2 i) (f k'.2 j)) :
    (layOutAll f kinds).Pairwise R := by
  rw [layOutAll, List.pairwise_flatMap]
  constructor
  · intro k mem
    rw [List.pairwise_map]
    refine List.pairwise_lt_range.imp_of_mem fun _ high less => ?_
    exact within k mem _ _ less (List.mem_range.mp high)
  · refine across.imp fun apart x mem y mem' => ?_
    obtain ⟨i, low, rfl⟩ := List.mem_map.mp mem
    obtain ⟨j, high, rfl⟩ := List.mem_map.mp mem'
    exact apart i (List.mem_range.mp low) j (List.mem_range.mp high)

/-- To look an index up in the stretches is to take that element of all that is laid out. -/
theorem find?_layOut (f : α → Nat → β) {start index : Nat} (kinds : List (Nat × α))
    (first : start ≤ index) :
    ((layOut start kinds).find? (Stretch.has index)).map (fun s => f s.base (index - s.start)) =
      (layOutAll f kinds)[index - start]? := by
  induction kinds generalizing start with
  | nil => rfl
  | cons kind kinds ih =>
    obtain ⟨cnt, base⟩ := kind
    have cons : layOutAll f ((cnt, base) :: kinds) =
        (List.range cnt).map (f base) ++ layOutAll f kinds := List.flatMap_cons
    rw [layOut, cons]
    by_cases here : index < start + cnt
    · have inside : index - start < cnt := by omega
      have has : Stretch.has index ⟨start, cnt, base⟩ = true :=
        decide_eq_true ⟨Nat.ne_zero_of_lt inside, first, here⟩
      rw [List.find?_cons_of_pos has, List.getElem?_append_left (by simpa using inside),
        List.getElem?_map, List.getElem?_range inside]
      rfl
    · have has : ¬Stretch.has index ⟨start, cnt, base⟩ = true :=
        fun has => here (of_decide_eq_true has).2.2
      have behind : cnt ≤ index - start := by omega
      rw [List.find?_cons_of_neg has, List.getElem?_append_right (by simpa using behind),
        List.length_map, List.length_range, Nat.sub_sub]
      exact ih (Nat.le_of_not_lt here)

end General
