import Mathlib.Data.Int.CardIntervalMod

/-! Things dealt out in turn to `n` takers. -/
namespace General

variable {α : Type*}

/-- Each thing with its taker, the first of them being at turn `c`. -/
def deal (n : Nat) : Nat → List α → List (α × Nat)
  | _, [] => []
  | c, x :: xs => (x, c % n) :: deal n (c + 1) xs

variable {n : Nat}

theorem deal_append (c : Nat) (xs ys : List α) :
    deal n c (xs ++ ys) = deal n c xs ++ deal n (c + xs.length) ys := by
  induction xs generalizing c with
  | nil => rfl
  | cons x xs ih =>
      rw [List.cons_append, deal, deal, ih, List.cons_append, List.length_cons,
        Nat.add_right_comm, Nat.add_assoc]

@[simp] theorem deal_fst (c : Nat) (xs : List α) : (deal n c xs).map Prod.fst = xs := by
  induction xs generalizing c with
  | nil => rfl
  | cons x xs ih => rw [deal, List.map_cons, ih]

theorem mem_of_deal {c : Nat} {xs : List α} {e : α × Nat} (member : e ∈ deal n c xs) : e.1 ∈ xs :=
  deal_fst c xs ▸ List.mem_map_of_mem member

theorem mem_deal {c k : Nat} {xs : List α} {x : α} (entry : xs[k]? = some x) :
    (x, (c + k) % n) ∈ deal n c xs := by
  induction xs generalizing c k with
  | nil => cases entry
  | cons y xs ih =>
      cases k with
      | zero =>
          obtain rfl := Option.some.inj entry
          exact List.mem_cons_self
      | succ k =>
          rw [← Nat.add_assoc, Nat.add_right_comm]
          exact List.mem_cons_of_mem _ (ih entry)

theorem deal_snd (c : Nat) (xs : List α) :
    (deal n c xs).map Prod.snd = (List.range' c xs.length).map (· % n) := by
  induction xs generalizing c with
  | nil => rfl
  | cons x xs ih => rw [deal, List.map_cons, ih, List.length_cons, List.range'_succ, List.map_cons]

theorem deal_lt (some : 0 < n) {c : Nat} {xs : List α} {e : α × Nat} (member : e ∈ deal n c xs) :
    e.2 < n := by
  have taker : e.2 ∈ (deal n c xs).map Prod.snd := List.mem_map_of_mem member
  rw [deal_snd] at taker
  obtain ⟨k, -, same⟩ := List.mem_map.mp taker
  exact same ▸ Nat.mod_lt k some

theorem countP_range (p : Nat → Prop) [DecidablePred p] (b : Nat) :
    (List.range b).countP (fun k => p k) = b.count p := by
  induction b with
  | zero => rfl
  | succ b ih => simp [List.range_succ, Nat.count_succ, ih, List.countP_cons]

theorem deal_share (some : 0 < n) (v : Nat) (xs : List α) :
    (deal n 0 xs).countP (fun e => e.2 = v) ≤ (xs.length + n - 1) / n := by
  have taken : (deal n 0 xs).countP (fun e => e.2 = v) =
      xs.length.count fun k => k % n = v := by
    have snd : (deal n 0 xs).countP (fun e => e.2 = v) =
        ((deal n 0 xs).map Prod.snd).countP fun k => k = v := by
      rw [List.countP_map]
      rfl
    rw [snd, deal_snd, List.countP_map, ← List.range_eq_range']
    exact countP_range (fun k => k % n = v) xs.length
  rw [taken]
  by_cases inside : v < n
  · have turns : (xs.length.count fun k => k % n = v) = xs.length.count (· ≡ v [MOD n]) := by
      congr 1
      funext k
      rw [Nat.ModEq, Nat.mod_eq_of_lt inside]
    rw [turns, Nat.count_modEq_card _ some, Nat.le_div_iff_mul_le some]
    have whole := Nat.div_add_mod xs.length n
    rw [Nat.mul_comm] at whole
    split
    · rw [Nat.succ_mul]
      omega
    · rw [Nat.add_zero]
      omega
  · have none : (xs.length.count fun k => k % n = v) = 0 := by
      rw [← countP_range, List.countP_eq_zero]
      intro k _ same
      have := Nat.mod_lt k some
      rw [decide_eq_true_eq] at same
      omega
    rw [none]
    exact Nat.zero_le _

end General
