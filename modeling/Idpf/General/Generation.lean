import Idpf.General.Circular
import Mathlib.Logic.Function.Basic
import Mathlib.Data.List.Basic

/-! A ring whose slots carry a generation bit. The producer stamps the bit of
its current lap into every slot it fills; the consumer compares the stored bit
with the bit of its own lap and needs no shared index to tell a full ring from
an empty one. `p` entries have been produced and `c` consumed, and `h k` is the
`k`-th entry ever produced. -/
namespace General

variable {α : Type*}

/-- The generation bit of a lap; `g` is the bit of lap zero. -/
def lapGen (g : Bool) : Nat → Bool
  | 0 => g
  | lap + 1 => !lapGen g lap

/-- A side keeps the bit of its lap and flips it when its index wraps to zero. -/
def turn (n i : Nat) (g : Bool) : Bool := if i + 1 = n then !g else g

theorem div_succ_of_wrap {n k : Nat} (hn : 0 < n) (wrap : k % n + 1 = n) :
    (k + 1) / n = k / n + 1 := by
  have e := Nat.div_add_mod k n
  have : k + 1 = n * (k / n + 1) := by rw [Nat.mul_add, Nat.mul_one]; omega
  rw [this, Nat.mul_div_cancel_left _ hn]

theorem div_succ_of_inner {n k : Nat} (hn : 0 < n) (inner : k % n + 1 ≠ n) :
    (k + 1) / n = k / n := by
  have e := Nat.div_add_mod k n
  have hk := Nat.mod_lt k hn
  have : k + 1 = (k % n + 1) + n * (k / n) := by omega
  rw [this, Nat.add_mul_div_left _ _ hn, Nat.div_eq_of_lt (by omega), Nat.zero_add]

theorem turn_lapGen {n : Nat} (hn : 0 < n) (g : Bool) (k : Nat) :
    turn n (k % n) (lapGen g (k / n)) = lapGen g ((k + 1) / n) := by
  unfold turn
  split
  · next wrap => rw [div_succ_of_wrap hn wrap]; rfl
  · next inner => rw [div_succ_of_inner hn inner]

theorem lapGen_succ_ne (g : Bool) (lap : Nat) : lapGen g (lap + 1) ≠ lapGen g lap := by
  simp [lapGen]

/-- Every slot holds the youngest entry produced into it, stamped with its lap. -/
structure GenRing (n : Nat) (g : Bool) (slot : Nat → α × Bool) (h : Nat → α)
    (c p : Nat) : Prop where
  pos : 0 < n
  le : c ≤ p
  room : p ≤ c + n
  filled : n ≤ p
  written : ∀ k, k < p → p ≤ k + n → slot (k % n) = (h k, lapGen g (k / n))

namespace GenRing

variable {n c p : Nat} {g : Bool} {slot : Nat → α × Bool} {h : Nat → α}

/-- The slot the consumer looks at carries its bit exactly when an entry waits. -/
theorem ready_iff (r : GenRing n g slot h c p) :
    (slot (c % n)).2 = lapGen g (c / n) ↔ c < p := by
  constructor
  · intro same
    by_contra done
    have full : c = p := le_antisymm r.le (by omega)
    have last := r.written (c - n) (by have := r.pos; have := r.filled; omega) (by omega)
    have slotEq : (c - n) % n = c % n := (Nat.mod_eq_sub_mod (by have := r.filled; omega)).symm
    have lapEq : c / n = (c - n) / n + 1 :=
      Nat.div_eq_sub_div r.pos (by have := r.filled; omega)
    rw [slotEq] at last
    rw [last, lapEq] at same
    exact lapGen_succ_ne g _ same.symm
  · intro waits
    rw [r.written c waits r.room]

theorem read (r : GenRing n g slot h c p) (waits : c < p) : (slot (c % n)).1 = h c := by
  rw [r.written c waits r.room]

theorem pop (r : GenRing n g slot h c p) (waits : c < p) : GenRing n g slot h (c + 1) p :=
  ⟨r.pos, waits, by have := r.room; omega, r.filled, r.written⟩

/-- Nothing the consumer has passed is lost before the producer laps it. -/
theorem rewind (r : GenRing n g slot h c p) {c' : Nat} (back : c' ≤ c) (kept : p ≤ c' + n) :
    GenRing n g slot h c' p :=
  ⟨r.pos, back.trans r.le, kept, r.filled, r.written⟩

theorem push (r : GenRing n g slot h c p) (space : p < c + n) (x : α) :
    GenRing n g (Function.update slot (p % n) (x, lapGen g (p / n)))
      (Function.update h p x) c (p + 1) := by
  refine ⟨r.pos, by have := r.le; omega, by omega, by have := r.filled; omega, ?_⟩
  intro k lt near
  by_cases new : k = p
  · subst k
    simp
  · have slotNe : k % n ≠ p % n := mod_ne_of_near (by omega) (by omega)
    rw [Function.update_of_ne slotNe, Function.update_of_ne new]
    exact r.written k (by omega) (by omega)

end GenRing

def backlog (h : Nat → α) (c p : Nat) : List α := (List.range' c (p - c)).map h

@[simp] theorem backlog_length (h : Nat → α) (c p : Nat) : (backlog h c p).length = p - c := by
  simp [backlog]

theorem backlog_nil (h : Nat → α) (c : Nat) : backlog h c c = [] := by simp [backlog]

theorem backlog_cons (h : Nat → α) {c p : Nat} (waits : c < p) :
    backlog h c p = h c :: backlog h (c + 1) p := by
  have len : p - c = (p - (c + 1)) + 1 := by omega
  rw [backlog, len, List.range'_succ, List.map_cons, backlog]

theorem backlog_push (h : Nat → α) {c p : Nat} (le : c ≤ p) (x : α) :
    backlog (Function.update h p x) c (p + 1) = backlog h c p ++ [x] := by
  have len : p + 1 - c = (p - c) + 1 := by omega
  rw [backlog, len, List.range'_1_concat, List.map_append, backlog]
  congr 1
  · apply List.map_congr_left
    intro k member
    rw [List.mem_range'_1] at member
    exact Function.update_of_ne (by omega) _ _
  · simp [show c + (p - c) = p by omega]

theorem backlog_append (h : Nat → α) {c' c p : Nat} (first : c' ≤ c) (second : c ≤ p) :
    backlog h c' p = backlog h c' c ++ backlog h c p := by
  have split := @List.range'_append c' (c - c') (p - c) 1
  rw [Nat.one_mul, show c' + (c - c') = c by omega,
    show c - c' + (p - c) = p - c' by omega] at split
  rw [backlog, ← split, List.map_append, backlog, backlog]

end General
