import Mathlib.Data.List.Basic

/-! A loop over a list that stops at the first thing it is refused. -/
namespace General

variable {σ α : Type*}

/-- The loop, with whether it came to the end of the list. A visit tells whether it is accepted and
leaves a state, or is a fault. -/
def attempts (visit : α → σ → Option (Bool × σ)) : List α → σ → Option (Bool × σ)
  | [], s => some (true, s)
  | a :: as, s =>
    match visit a s with
    | some (true, t) => attempts visit as t
    | r => r

/-- Nothing is refused after a visit that does not keep the state. -/
def orderly (refused keeps : α → Bool) : List α → Bool
  | [] => true
  | a :: as =>
    refused a || if keeps a then orderly refused keeps as else as.all fun b => !refused b

variable {visit : α → σ → Option (Bool × σ)}

/-- The rule for a loop that came to the end: what holds of the part that has been visited. -/
theorem attempts_invariant {J : List α → σ → Prop} {as : List α} {s t : σ} (base : J [] s)
    (keep : ∀ done a rest s t, as = done ++ a :: rest → J done s → visit a s = some (true, t) →
      J (done ++ [a]) t)
    (run : attempts visit as s = some (true, t)) : J as t := by
  suffices h : ∀ rest done s, as = done ++ rest → J done s →
      attempts visit rest s = some (true, t) → J as t from h as [] s rfl base run
  intro rest
  induction rest with
  | nil =>
      intro done s whole before run
      obtain rfl : s = t := (Prod.mk.inj (Option.some.inj run)).2
      rw [whole, List.append_nil]
      exact before
  | cons a rest ih =>
      intro done s whole before run
      rw [attempts] at run
      split at run
      · next u step =>
        exact ih (done ++ [a]) u (by rw [whole, List.append_assoc]; rfl)
          (keep done a rest s u whole before step) run
      · next other => exact absurd run (other t)

/-- A visit is refused, and then changes nothing, exactly where a test says so; an accepted visit
keeps `I` and makes no later one refused. -/
structure Attempt (visit : α → σ → Option (Bool × σ)) (I : σ → Prop)
    (refused keeps : σ → α → Bool) : Prop where
  outcome : ∀ {a s ok t}, visit a s = some (ok, t) → ok = !refused s a
  refusal : ∀ {a s t}, visit a s = some (false, t) → t = s
  kept : ∀ {a s t}, keeps s a = true → visit a s = some (true, t) → t = s
  invariant : ∀ {a s t}, I s → visit a s = some (true, t) → I t
  later : ∀ {a b s t}, I s → visit a s = some (true, t) → refused s b = false →
    refused t b = false

namespace Attempt

variable {I : σ → Prop} {refused keeps : σ → α → Bool} {as : List α} {s t : σ}

theorem accepted (law : Attempt visit I refused keeps) {ok : Bool} (valid : I s)
    (none : ∀ a ∈ as, refused s a = false) (run : attempts visit as s = some (ok, t)) :
    ok = true := by
  induction as generalizing s with
  | nil => exact (Prod.mk.inj (Option.some.inj run)).1.symm
  | cons a as ih =>
      rw [attempts] at run
      split at run
      · next u step =>
        exact ih (law.invariant valid step)
          (fun b later => law.later valid step (none b (List.mem_cons_of_mem a later))) run
      · rw [law.outcome run, none a List.mem_cons_self]
        rfl

theorem atomic (law : Attempt visit I refused keeps) (valid : I s)
    (order : orderly (refused s) (keeps s) as = true)
    (run : attempts visit as s = some (false, t)) : t = s := by
  induction as generalizing s with
  | nil => cases run
  | cons a as ih =>
      rw [attempts] at run
      split at run
      · next u step =>
        have taken := law.outcome step
        rw [Eq.comm, Bool.not_eq_true'] at taken
        rw [orderly, taken, Bool.false_or] at order
        split at order
        · next keeping =>
          obtain rfl := law.kept keeping step
          exact ih valid order run
        · rw [List.all_eq_true] at order
          have none (b : α) (later : b ∈ as) : refused u b = false :=
            law.later valid step ((Bool.not_eq_true' _).mp (order b later))
          exact absurd (law.accepted (law.invariant valid step) none run) Bool.false_ne_true
      · exact law.refusal run

theorem none_refused (law : Attempt visit I refused keeps)
    (order : orderly (refused s) (keeps s) as = true)
    (run : attempts visit as s = some (true, t)) : ∀ a ∈ as, refused s a = false := by
  induction as generalizing s with
  | nil => exact fun a member => absurd member List.not_mem_nil
  | cons a as ih =>
      rw [attempts] at run
      split at run
      · next u step =>
        have taken := law.outcome step
        rw [Eq.comm, Bool.not_eq_true'] at taken
        rw [orderly, taken, Bool.false_or] at order
        refine List.forall_mem_cons.mpr ⟨taken, ?_⟩
        split at order
        · next keeping =>
          obtain rfl := law.kept keeping step
          exact ih order run
        · rw [List.all_eq_true] at order
          exact fun b later => (Bool.not_eq_true' _).mp (order b later)
      · next other => exact absurd run (other t)

end Attempt

end General
