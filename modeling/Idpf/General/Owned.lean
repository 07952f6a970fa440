import Mathlib.Data.List.Basic

/-! Items that are reached through others. A list in which each item comes after its owner can be
cut off anywhere: what is there then still has the owner of each item. -/
namespace General

variable {α β : Type*} {owner : α → Option α} {seen more : α → Prop} {ps qs held : List α}

/-- Each item of the list comes after its owner, or the owner was there before. -/
def OwnersFirst (owner : α → Option α) : (α → Prop) → List α → Prop
  | _, [] => True
  | seen, p :: ps =>
    (∀ q, owner p = some q → seen q) ∧ OwnersFirst owner (fun x => seen x ∨ x = p) ps

def Closed (owner : α → Option α) (held : List α) : Prop :=
  ∀ p ∈ held, ∀ q, owner p = some q → q ∈ held

theorem OwnersFirst.mono (first : OwnersFirst owner seen ps) (wider : ∀ x, seen x → more x) :
    OwnersFirst owner more ps := by
  induction ps generalizing seen more with
  | nil => trivial
  | cons p ps ih =>
      obtain ⟨head, tail⟩ := first
      constructor
      · exact fun q same => wider q (head q same)
      · exact ih tail fun x either => either.imp_left (wider x)

theorem OwnersFirst.of_seen (owned : ∀ p ∈ ps, ∀ q, owner p = some q → seen q) :
    OwnersFirst owner seen ps := by
  induction ps generalizing seen with
  | nil => trivial
  | cons p ps ih =>
      constructor
      · exact owned p List.mem_cons_self
      · apply ih
        intro r member q same
        exact .inl (owned r (List.mem_cons_of_mem _ member) q same)

theorem OwnersFirst.append (first : OwnersFirst owner seen ps)
    (rest : OwnersFirst owner (fun x => seen x ∨ x ∈ ps) qs) :
    OwnersFirst owner seen (ps ++ qs) := by
  induction ps generalizing seen with
  | nil => exact rest.mono fun x either => either.resolve_right List.not_mem_nil
  | cons p ps ih =>
      constructor
      · exact first.1
      · apply ih first.2
        apply rest.mono
        intro x either
        cases either with
        | inl before => exact .inl (.inl before)
        | inr member =>
            cases List.mem_cons.mp member with
            | inl here => exact .inl (.inr here)
            | inr later => exact .inr later

theorem OwnersFirst.flatMap {is : List β} {f : β → List α}
    (each : ∀ i ∈ is, OwnersFirst owner seen (f i)) : OwnersFirst owner seen (is.flatMap f) := by
  induction is with
  | nil => trivial
  | cons i is ih =>
      rw [List.flatMap_cons]
      apply (each i List.mem_cons_self).append
      apply (ih fun j member => each j (List.mem_cons_of_mem _ member)).mono
      exact fun x before => .inl before

theorem OwnersFirst.of_append (first : OwnersFirst owner seen (ps ++ qs)) :
    OwnersFirst owner seen ps := by
  induction ps generalizing seen with
  | nil => trivial
  | cons p ps ih => exact ⟨first.1, ih first.2⟩

theorem OwnersFirst.takeWhile (first : OwnersFirst owner seen ps) (test : α → Bool) :
    OwnersFirst owner seen (ps.takeWhile test) := by
  rw [← List.takeWhile_append_dropWhile (p := test) (l := ps)] at first
  exact first.of_append

/-- What is held stays closed when more is taken in order. -/
theorem Closed.append (closed : Closed owner held) (first : OwnersFirst owner (· ∈ held) ps) :
    Closed owner (held ++ ps) := by
  induction ps generalizing held with
  | nil => rwa [List.append_nil]
  | cons p ps ih =>
      have grown : Closed owner (held ++ [p]) := by
        intro r member q same
        cases List.mem_append.mp member with
        | inl before => exact List.mem_append_left _ (closed r before q same)
        | inr here =>
            obtain rfl := List.mem_singleton.mp here
            exact List.mem_append_left _ (first.1 q same)
      have next := ih grown (first.2.mono fun x either => by
        cases either with
        | inl before => exact List.mem_append_left _ before
        | inr here => exact List.mem_append_right _ (List.mem_singleton.mpr here))
      rwa [List.append_assoc] at next

/-- A release that frees all of what is not kept, and nothing that is. -/
theorem filter_freed [DecidableEq α] {freed : List α} {keep : α → Bool}
    (gone : ∀ p ∈ held, keep p = false → p ∈ freed) (stays : ∀ p ∈ freed, keep p = false) :
    held.filter (fun p => p ∉ freed) = held.filter keep := by
  apply List.filter_congr
  intro p member
  cases kept : keep p with
  | true =>
      apply decide_eq_true
      exact fun lost => Bool.noConfusion (kept.symm.trans (stays p lost))
  | false => exact decide_eq_false fun outside => outside (gone p member kept)

end General
