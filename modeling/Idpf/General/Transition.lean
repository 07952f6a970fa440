import Mathlib.Algebra.Group.Defs

/-! Runs of a partial step function. A step is taken only where the side
condition `ok` holds of the state before it, so that one notion of reachability
serves unrestricted runs and runs whose steps all meet a condition. -/
namespace General

variable {σ α : Type*}

/-- The states reached from `init` by steps that meet `ok`. -/
inductive Reachable (step : σ → α → Option σ) (ok : σ → α → Prop) (init : σ → Prop) : σ → Prop
  | start {s} : init s → Reachable step ok init s
  | next {s a t} : Reachable step ok init s → ok s a → step s a = some t →
      Reachable step ok init t

def anyStep : σ → α → Prop := fun _ _ => True

variable {step : σ → α → Option σ} {ok : σ → α → Prop} {init : σ → Prop}

theorem Reachable.invariant {I : σ → Prop} (base : ∀ s, init s → I s)
    (keep : ∀ s a t, I s → ok s a → step s a = some t → I t) {s : σ}
    (h : Reachable step ok init s) : I s := by
  induction h with
  | start hs => exact base _ hs
  | next _ hok hstep ih => exact keep _ _ _ ih hok hstep

theorem Reachable.mono {ok' : σ → α → Prop} (weaker : ∀ s a, ok s a → ok' s a) {s : σ}
    (h : Reachable step ok init s) : Reachable step ok' init s := by
  induction h with
  | start hs => exact .start hs
  | next _ hok hstep ih => exact .next ih (weaker _ _ hok) hstep

def exec (step : σ → α → Option σ) : σ → List α → Option σ
  | s, [] => some s
  | s, a :: as => (step s a).bind fun t => exec step t as

theorem exec_cons {s t : σ} {a : α} {as : List α} (h : step s a = some t) :
    exec step s (a :: as) = exec step t as := by
  simp only [exec, h, Option.bind_some]

theorem Reachable.exec {s t : σ} {as : List α} (h : Reachable step anyStep init s)
    (run : exec step s as = some t) : Reachable step anyStep init t := by
  induction as generalizing s with
  | nil =>
      obtain rfl := Option.some.inj run
      exact h
  | cons a as ih =>
      obtain ⟨u, hu, rest⟩ := Option.bind_eq_some_iff.mp run
      exact ih (h.next trivial hu) rest

def execIf (step : σ → α → Option σ) (test : σ → α → Bool) : σ → List α → Option σ
  | s, [] => some s
  | s, a :: as => if test s a then (step s a).bind fun t => execIf step test t as else none

theorem Reachable.execIf {test : σ → α → Bool} {s t : σ} {as : List α}
    (h : Reachable step (fun s a => test s a = true) init s)
    (run : execIf step test s as = some t) :
    Reachable step (fun s a => test s a = true) init t := by
  induction as generalizing s with
  | nil =>
      obtain rfl := Option.some.inj run
      exact h
  | cons a as ih =>
      simp only [General.execIf, Option.ite_none_right_eq_some] at run
      obtain ⟨u, hu, rest⟩ := Option.bind_eq_some_iff.mp run.2
      exact ih (h.next run.1 hu) rest

theorem execIf_true (s : σ) (as : List α) :
    execIf step (fun _ _ => true) s as = exec step s as := by
  induction as generalizing s with
  | nil => rfl
  | cons a as ih =>
      rw [execIf, exec, if_pos rfl]
      exact congrArg _ (funext ih)

/-- What a step leaves clear exactly if it passes a test is clear after a replay exactly if it was
before and every step passes. -/
theorem execIf_clear {ok test : σ → α → Bool} {I clear : σ → Prop}
    (keep : ∀ s a t, I s → ok s a = true → step s a = some t →
      I t ∧ (clear t ↔ clear s ∧ test s a = true)) {s t : σ} {as : List α} (inv : I s)
    (run : execIf step ok s as = some t) :
    clear t ↔ clear s ∧ execIf step (fun s a => ok s a && test s a) s as = some t := by
  induction as generalizing s with
  | nil =>
      obtain rfl := Option.some.inj run
      exact ⟨fun still => ⟨still, rfl⟩, And.left⟩
  | cons a as ih =>
      simp only [execIf, Option.ite_none_right_eq_some] at run
      obtain ⟨fine, rest⟩ := run
      obtain ⟨u, next, rest⟩ := Option.bind_eq_some_iff.mp rest
      obtain ⟨inv', one⟩ := keep s a u inv fine next
      rw [ih inv' rest, one, execIf, fine, next, Option.bind_some, Bool.true_and, and_assoc]
      cases test s a with
      | true => simp only [true_and, if_true]
      | false => simp only [Bool.false_eq_true, false_and, if_false, reduceCtorEq]

/-- A property that a step leaves true exactly if it passes a test is true all through a replay
exactly if every step passes. -/
theorem execIf_always {test : σ → α → Bool} {I good : σ → Prop}
    (keep : ∀ s a t, I s → step s a = some t → (good t ↔ test s a = true) ∧ (good t → I t))
    {s t : σ} {as : List α} (inv : I s) (here : good s) (run : exec step s as = some t) :
    (∀ bs u, bs <+: as → exec step s bs = some u → good u) ↔ execIf step test s as = some t := by
  induction as generalizing s with
  | nil =>
      refine iff_of_true (fun bs u front first => ?_) run
      obtain rfl := List.prefix_nil.mp front
      exact Option.some.inj first ▸ here
  | cons a as ih =>
      obtain ⟨u, next, rest⟩ := Option.bind_eq_some_iff.mp run
      obtain ⟨passes, inv'⟩ := keep s a u inv next
      rw [execIf, Option.ite_none_right_eq_some, ← passes, next, Option.bind_some]
      constructor
      · intro all
        have good' : good u := all [a] u (by simp) ((exec_cons next).trans rfl)
        refine ⟨good', (ih (inv' good') good' rest).mp fun bs v front first => ?_⟩
        exact all (a :: bs) v (List.cons_prefix_cons.mpr ⟨rfl, front⟩)
          ((exec_cons next).trans first)
      · rintro ⟨good', later⟩ bs v front first
        cases bs with
        | nil => exact Option.some.inj first ▸ here
        | cons b bs =>
            obtain ⟨rfl, within⟩ := List.cons_prefix_cons.mp front
            rw [exec_cons next] at first
            exact (ih (inv' good') good' rest).mpr later bs v within first

def tally {M : Type*} [AddMonoid M] (step : σ → α → Option σ) (cost : σ → α → M) :
    σ → List α → M
  | _, [] => 0
  | s, a :: as =>
    match step s a with
    | none => 0
    | some t => cost s a + tally step cost t as

/-- A relation between the cost so far and the state, kept by each step at its
cost, relates the tally of a replay to its end. -/
theorem exec_tally {M : Type*} [AddMonoid M] {cost : σ → α → M} {I : M → σ → Prop}
    (keep : ∀ m s a t, I m s → step s a = some t → I (m + cost s a) t) {s t : σ} {as : List α}
    {m : M} (base : I m s) (run : exec step s as = some t) : I (m + tally step cost s as) t := by
  induction as generalizing s m with
  | nil =>
      obtain rfl := Option.some.inj run
      rw [tally, add_zero]
      exact base
  | cons a as ih =>
      obtain ⟨u, hu, rest⟩ := Option.bind_eq_some_iff.mp run
      have next := ih (keep m s a u base hu) rest
      rw [add_assoc] at next
      simpa only [tally, hu] using next

/-- What a machine that answers each input puts out for a list of them. -/
def outputs {β : Type*} (react : σ → α → σ × β) : σ → List α → List β
  | _, [] => []
  | s, a :: as => (react s a).2 :: outputs react (react s a).1 as

/-- States that cannot be told apart in one step cannot be told apart in any number. -/
theorem outputs_eq {β : Type*} {react : σ → α → σ × β} {Alike : σ → σ → Prop}
    (keep : ∀ s t a, Alike s t →
      (react s a).2 = (react t a).2 ∧ Alike (react s a).1 (react t a).1) {s t : σ}
    (h : Alike s t) (as : List α) : outputs react s as = outputs react t as := by
  induction as generalizing s t with
  | nil => rfl
  | cons a as ih =>
      obtain ⟨same, next⟩ := keep s t a h
      rw [outputs, outputs, same, ih next]

end General
