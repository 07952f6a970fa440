import Idpf.Tx.Basic
import Idpf.Vport.QueueChunks
import Mathlib.Data.List.Count
import Mathlib.Logic.Function.Basic

/-! The table of Tx queues that the fast path uses in place of the groups. -/
namespace Idpf

/-- A Tx queue, by group and place in it. -/
structure TxqRef where
  grp : Nat
  place : Nat
  deriving DecidableEq, Repr

/-- The fields of a Tx queue that `idpf_fast_path_txq_init` sets. The only task there is is
`vport->tstamp_task`. -/
structure FastTxq (κ : Type) where
  idx : Nat
  cachedTstampCaps : Option κ
  tstampTask : Bool
  deriving DecidableEq, Repr

/-- `vport->txqs` and the queues, with a mark for an access that is outside of the array or through
an entry that is NULL. -/
structure FastPath (κ : Type) where
  txqs : List (Option TxqRef)
  queues : TxqRef → FastTxq κ
  fault : Bool

variable {κ : Type}

/-- A queue as kzalloc gives it. -/
def FastTxq.zero : FastTxq κ := ⟨0, none, false⟩

namespace FastPath

/-- `txqs[k] = q`. -/
def store (k : Nat) (q : TxqRef) (fp : FastPath κ) : FastPath κ :=
  if k < fp.txqs.length then { fp with txqs := fp.txqs.set k (some q) }
  else { fp with fault := true }

/-- An update of the queue at `txqs[k]`. -/
def modify (k : Nat) (f : FastTxq κ → FastTxq κ) (fp : FastPath κ) : FastPath κ :=
  match fp.txqs[k]? with
  | some (some q) => { fp with queues := Function.update fp.queues q (f (fp.queues q)) }
  | _ => { fp with fault := true }

end FastPath

/-- What the loops are about at queue `j` of group `i`. -/
def txqTurn (caps : Option κ) (i j : Nat) (s : FastPath κ × Nat) : FastPath κ × Nat :=
  let (fp, k) := s
  let fp := (fp.store k ⟨i, j⟩).modify k fun q => { q with idx := u16 k }
  match caps with
  | none => (fp, k + 1)
  | some c =>
    (fp.modify i fun q => { q with cachedTstampCaps := some c, tstampTask := true }, k + 1)

/-- The loop over the groups, given with their `num_txq`. -/
def txqGroupTurns (caps : Option κ) : List Nat → Nat → FastPath κ × Nat → FastPath κ × Nat
  | [], _, s => s
  | numTxq :: groups, i, s =>
    txqGroupTurns caps groups (i + 1)
      ((List.range numTxq).foldl (fun s j => txqTurn caps i j s) s)

/-- `idpf_fast_path_txq_init`; `mem` is whether kcalloc succeeds, and the groups and the queues
are as `idpf_txq_group_alloc` made them. -/
def fastPathTxqInit (mem : Bool) (caps : Option κ) (numTxq : UInt16) (groups : List Nat) :
    Option (FastPath κ) :=
  if mem then
    some (txqGroupTurns caps groups 0 (⟨.replicate numTxq.toNat none, fun _ => .zero, false⟩, 0)).1
  else none

/-- Each queue of `G` groups of `m` is in the table once, and nothing else; it knows its position,
and it has what timestamps need. -/
structure FastPath.Complete (fp : FastPath κ) (caps : Option κ) (G m : Nat) : Prop where
  memory : fp.fault = false
  once : ∀ i < G, ∀ j < m, fp.txqs.count (some ⟨i, j⟩) = 1
  only : ∀ q, some q ∈ fp.txqs → q.grp < G ∧ q.place < m
  position : ∀ k q, fp.txqs[k]? = some (some q) → (fp.queues q).idx = k
  tstamp : ∀ i < G, ∀ j < m, (fp.queues ⟨i, j⟩).cachedTstampCaps = caps ∧
    (fp.queues ⟨i, j⟩).tstampTask = caps.isSome

/-- The queue at position `k` where groups have `m`. -/
def txqAt (m k : Nat) : TxqRef := ⟨k / m, k % m⟩

theorem txqAt_inj {m k k' : Nat} (same : txqAt m k = txqAt m k') : k = k' := by
  injection same with grp place
  rw [← Nat.div_add_mod k m, ← Nat.div_add_mod k' m, grp, place]

theorem txqAt_mul_add {m i j : Nat} (place : j < m) : txqAt m (i * m + j) = ⟨i, j⟩ := by
  have pos : 0 < m := by omega
  have grp : (i * m + j) / m = i := by
    rw [Nat.mul_comm, Nat.mul_add_div pos, Nat.div_eq_of_lt place, Nat.add_zero]
  have rest : (i * m + j) % m = j := by rw [Nat.mul_comm, Nat.mul_add_mod, Nat.mod_eq_of_lt place]
  rw [txqAt, grp, rest]

/-- The first `n` turns where groups have `m` queues. -/
def txqTurns (caps : Option κ) (m : Nat) : Nat → FastPath κ × Nat → FastPath κ × Nat
  | 0, s => s
  | n + 1, s => txqTurn caps (txqAt m n).grp (txqAt m n).place (txqTurns caps m n s)

theorem foldl_txqTurn (caps : Option κ) {m i : Nat} (s : FastPath κ × Nat) {j : Nat}
    (places : j ≤ m) :
    (List.range j).foldl (fun s j => txqTurn caps i j s) (txqTurns caps m (i * m) s) =
      txqTurns caps m (i * m + j) s := by
  induction j with
  | zero => rfl
  | succ j ih =>
    rw [List.range_succ, List.foldl_append, ih (by omega), ← Nat.add_assoc, txqTurns,
      txqAt_mul_add places]
    rfl

theorem txqGroupTurns_eq (caps : Option κ) (G m i : Nat) (s : FastPath κ × Nat) :
    txqGroupTurns caps (.replicate G m) i (txqTurns caps m (i * m) s) =
      txqTurns caps m ((i + G) * m) s := by
  induction G generalizing i with
  | zero => rfl
  | succ G ih =>
    rw [List.replicate_succ, txqGroupTurns, foldl_txqTurn caps s (Nat.le_refl m),
      ← Nat.succ_mul, ih]
    congr 2
    omega

/-- How the table and the queues are after `n` turns. Only the queues at the positions that are
the number of a group have been given the capabilities. -/
structure Filled (caps : Option κ) (m size n : Nat) (s : FastPath κ × Nat) : Prop where
  counted : s.2 = n
  memory : s.1.fault = false
  txqs : s.1.txqs = (List.range n).map (fun k => some (txqAt m k)) ++ .replicate (size - n) none
  idx : ∀ k < n, (s.1.queues (txqAt m k)).idx = u16 k
  given : ∀ k, (s.1.queues (txqAt m k)).cachedTstampCaps = if k * m < n then caps else none
  task : ∀ k, (s.1.queues (txqAt m k)).tstampTask = if k * m < n then caps.isSome else false

namespace FastPath

variable {fp : FastPath κ} {k : Nat} {q : TxqRef} {f : FastTxq κ → FastTxq κ}

theorem modify_some (entry : fp.txqs[k]? = some (some q)) :
    fp.modify k f = { fp with queues := Function.update fp.queues q (f (fp.queues q)) } := by
  rw [modify, entry]

theorem modify_fault (bad : fp.fault = true) : (fp.modify k f).fault = true := by
  unfold modify
  split
  · exact bad
  · rfl

theorem store_fault (bad : fp.fault = true) : (fp.store k q).fault = true := by
  unfold store
  split
  · exact bad
  · rfl

end FastPath

/-- The next entry of a table that is filled from the front. -/
theorem set_filled {α : Type} (f : Nat → α) {n size : Nat} (room : n < size) :
    ((List.range n).map (fun k => some (f k)) ++ List.replicate (size - n) none).set n
        (some (f n)) =
      (List.range (n + 1)).map (fun k => some (f k)) ++ List.replicate (size - (n + 1)) none := by
  have len : ((List.range n).map fun k => some (f k)).length = n := by simp
  have one : size - n = size - (n + 1) + 1 := by omega
  rw [List.set_append_right _ _ (by omega), len, Nat.sub_self, one, List.replicate_succ,
    List.set_cons_zero, List.range_succ, List.map_append, List.append_assoc]
  rfl

theorem getElem?_filled {α : Type} (f : Nat → α) {n k : Nat} (rest : List (Option α))
    (filled : k < n) :
    ((List.range n).map (fun k => some (f k)) ++ rest)[k]? = some (some (f k)) := by
  rw [List.getElem?_append_left (by simpa using filled), List.getElem?_map,
    List.getElem?_range filled]
  rfl

section
variable {caps : Option κ} {m size n : Nat} {s : FastPath κ × Nat}

/-- What a turn does while the table has room. -/
theorem Filled.txqTurn_eq (filled : Filled caps m size n s) (room : n < size) :
    ∃ fp : FastPath κ, fp.fault = false ∧
      fp.txqs = (List.range (n + 1)).map (fun k => some (txqAt m k)) ++
        .replicate (size - (n + 1)) none ∧
      fp.queues = Function.update s.1.queues (txqAt m n)
        { s.1.queues (txqAt m n) with idx := u16 n } ∧
      txqTurn caps (txqAt m n).grp (txqAt m n).place s =
        match caps with
        | none => (fp, n + 1)
        | some c =>
          ({ fp with
            queues := Function.update fp.queues (txqAt m (n / m))
              { fp.queues (txqAt m (n / m)) with
                cachedTstampCaps := some c
                tstampTask := true } }, n + 1) := by
  obtain ⟨fp, k⟩ := s
  obtain ⟨rfl, memory, txqs, -, -, -⟩ := filled
  dsimp only at memory txqs room ⊢
  have inside : k < fp.txqs.length := by
    rw [txqs]
    simp only [List.length_append, List.length_map, List.length_range, List.length_replicate]
    omega
  have stored : fp.store k (txqAt m k) = { fp with
      txqs := (List.range (k + 1)).map (fun k => some (txqAt m k)) ++
        .replicate (size - (k + 1)) none } := by
    rw [FastPath.store, if_pos inside, txqs, set_filled (txqAt m) room]
  have here := getElem?_filled (txqAt m) (.replicate (size - (k + 1)) none) (Nat.lt_succ_self k)
  have group := getElem?_filled (txqAt m) (.replicate (size - (k + 1)) none)
    (Nat.lt_succ_of_le (Nat.div_le_self k m))
  refine ⟨{ fp with
    txqs := (List.range (k + 1)).map (fun k => some (txqAt m k)) ++
      .replicate (size - (k + 1)) none
    queues := Function.update fp.queues (txqAt m k)
      { fp.queues (txqAt m k) with idx := u16 k } }, memory, rfl, rfl, ?_⟩
  unfold txqTurn
  dsimp only
  rw [show (⟨(txqAt m k).grp, (txqAt m k).place⟩ : TxqRef) = txqAt m k from rfl, stored,
    FastPath.modify_some here]
  cases caps with
  | none => rfl
  | some c =>
    dsimp only
    rw [show (txqAt m k).grp = k / m from rfl, FastPath.modify_some group]

theorem reached_succ (pos : 0 < m) (k n : Nat) :
    k * m < n + 1 ↔ k * m < n ∨ k = n / m := by
  constructor
  · intro h
    by_cases before : k * m < n
    · exact .inl before
    · have last : k * m = n := by omega
      exact .inr (by rw [← last, Nat.mul_div_cancel k pos])
  · rintro (before | rfl)
    · omega
    · exact Nat.lt_succ_of_le (Nat.div_mul_le_self n m)

theorem Filled.turn (pos : 0 < m) (filled : Filled caps m size n s) (room : n < size) :
    Filled caps m size (n + 1) (txqTurn caps (txqAt m n).grp (txqAt m n).place s) := by
  obtain ⟨fp, memory, txqs, queues, eq⟩ := filled.txqTurn_eq room
  have idx : ∀ k < n + 1, (fp.queues (txqAt m k)).idx = u16 k := by
    intro k bound
    rw [queues]
    by_cases here : k = n
    · rw [here, Function.update_self]
    · rw [Function.update_of_ne fun same => here (txqAt_inj same)]
      exact filled.idx k (by omega)
  have kept : ∀ k, (fp.queues (txqAt m k)).cachedTstampCaps =
        (s.1.queues (txqAt m k)).cachedTstampCaps ∧
      (fp.queues (txqAt m k)).tstampTask = (s.1.queues (txqAt m k)).tstampTask := by
    intro k
    rw [queues]
    by_cases here : k = n
    · rw [here, Function.update_self]
      exact ⟨rfl, rfl⟩
    · rw [Function.update_of_ne fun same => here (txqAt_inj same)]
      exact ⟨rfl, rfl⟩
  rw [eq]
  cases caps with
  | none =>
    refine ⟨rfl, memory, txqs, idx, fun k => ?_, fun k => ?_⟩
    · rw [(kept k).1, filled.given, ite_self, ite_self]
    · rw [(kept k).2, filled.task, Option.isSome_none, ite_self, ite_self]
  | some c =>
    refine ⟨rfl, memory, txqs, fun k bound => ?_, fun k => ?_, fun k => ?_⟩
    · dsimp only
      by_cases group : k = n / m
      · rw [← group, Function.update_self]
        exact idx k bound
      · rw [Function.update_of_ne fun same => group (txqAt_inj same)]
        exact idx k bound
    · dsimp only
      by_cases group : k = n / m
      · rw [← group, Function.update_self, if_pos ((reached_succ pos k n).mpr (.inr group))]
      · rw [Function.update_of_ne fun same => group (txqAt_inj same), (kept k).1, filled.given]
        simp only [reached_succ pos, group, or_false]
    · dsimp only
      by_cases group : k = n / m
      · rw [← group, Function.update_self, if_pos ((reached_succ pos k n).mpr (.inr group))]
        rfl
      · rw [Function.update_of_ne fun same => group (txqAt_inj same), (kept k).2, filled.task]
        simp only [reached_succ pos, group, or_false]

/-- The table as kcalloc gives it, before the loops. -/
def FastPath.start (size : Nat) : FastPath κ × Nat :=
  (⟨.replicate size none, fun _ => .zero, false⟩, 0)

theorem Filled.start : Filled caps m size 0 (FastPath.start size) where
  counted := rfl
  memory := rfl
  txqs := rfl
  idx := fun k bound => absurd bound (Nat.not_lt_zero k)
  given := fun _ => (if_neg (Nat.not_lt_zero _)).symm
  task := fun _ => (if_neg (Nat.not_lt_zero _)).symm

theorem Filled.turns (pos : 0 < m) (room : n ≤ size) :
    Filled caps m size n (txqTurns caps m n (FastPath.start size)) := by
  induction n with
  | zero => exact Filled.start
  | succ n ih => exact (ih (Nat.le_of_succ_le room)).turn pos room

theorem txqTurn_fault {i j : Nat} (bad : (s.1.store s.2 ⟨i, j⟩).fault = true) :
    (txqTurn caps i j s).1.fault = true := by
  unfold txqTurn
  cases caps with
  | none => exact FastPath.modify_fault bad
  | some c => exact FastPath.modify_fault (FastPath.modify_fault bad)

theorem txqTurns_fault (pos : 0 < m) (beyond : size < n) :
    (txqTurns caps m n (FastPath.start size)).1.fault = true := by
  induction n with
  | zero => exact absurd beyond (Nat.not_lt_zero size)
  | succ n ih =>
    rw [txqTurns]
    by_cases full : size < n
    · exact txqTurn_fault (FastPath.store_fault (ih full))
    · obtain rfl : n = size := by omega
      have filled : Filled caps m n n (txqTurns caps m n (FastPath.start n)) :=
        Filled.turns pos (Nat.le_refl n)
      apply txqTurn_fault
      rw [FastPath.store, if_neg]
      rw [filled.counted, filled.txqs]
      simp
end

variable {caps : Option κ} {G m : Nat}

theorem fastPathTxqInit_eq (caps : Option κ) (numTxq : UInt16) (G m : Nat) :
    fastPathTxqInit true caps numTxq (.replicate G m) =
      some (txqTurns caps m (G * m) (FastPath.start numTxq.toNat)).1 := by
  have loops := txqGroupTurns_eq caps G m 0 (FastPath.start numTxq.toNat)
  rw [Nat.zero_mul, Nat.zero_add] at loops
  rw [fastPathTxqInit, if_pos rfl, ← loops]
  rfl

/-- All queues are entered where there is room; the capabilities are for the first `G`. -/
theorem Filled.complete_iff {size : Nat} {s : FastPath κ × Nat} (pos : 0 < m)
    (small : G * m < 65536) (filled : Filled caps m size (G * m) s) :
    s.1.Complete caps G m ↔ caps = none ∨ G * m ≤ G := by
  have entry : ∀ i < G, ∀ j < m, i * m + j < G * m := by
    intro i grp j place
    calc i * m + j < (i + 1) * m := by rw [Nat.succ_mul]; omega
      _ ≤ G * m := Nat.mul_le_mul_right m grp
  have reached : ∀ k < G, k * m < G * m := fun k grp => Nat.mul_lt_mul_of_pos_right grp pos
  constructor
  · intro complete
    by_contra neither
    simp only [not_or, Nat.not_le] at neither
    obtain ⟨c, rfl⟩ := Option.ne_none_iff_exists'.mp neither.1
    have grp : G / m < G := (Nat.div_lt_iff_lt_mul pos).mpr neither.2
    have stamped := (complete.tstamp (G / m) grp (G % m) (Nat.mod_lt G pos)).1
    have late := filled.given G
    rw [if_neg (Nat.lt_irrefl _)] at late
    rw [show (⟨G / m, G % m⟩ : TxqRef) = txqAt m G from rfl, late] at stamped
    exact nomatch stamped
  · intro either
    refine ⟨filled.memory, fun i grp j place => ?_, fun q mem => ?_, fun k q at_k => ?_,
      fun i grp j place => ?_⟩
    · have nodup : ((List.range (G * m)).map fun k => some (txqAt m k)).Nodup :=
        List.nodup_range.map fun k k' same => txqAt_inj (Option.some.inj same)
      have mem : some ⟨i, j⟩ ∈ (List.range (G * m)).map fun k => some (txqAt m k) :=
        List.mem_map.mpr
          ⟨i * m + j, List.mem_range.mpr (entry i grp j place), by rw [txqAt_mul_add place]⟩
      rw [filled.txqs, List.count_append, List.count_eq_one_of_mem nodup mem,
        List.count_eq_zero_of_not_mem]
      intro null
      exact nomatch List.eq_of_mem_replicate null
    · rw [filled.txqs, List.mem_append] at mem
      rcases mem with mem | null
      · obtain ⟨k, bound, eq⟩ := List.mem_map.mp mem
        obtain rfl := Option.some.inj eq
        exact ⟨(Nat.div_lt_iff_lt_mul pos).mpr (List.mem_range.mp bound), Nat.mod_lt k pos⟩
      · exact nomatch List.eq_of_mem_replicate null
    · rw [filled.txqs] at at_k
      by_cases bound : k < G * m
      · rw [getElem?_filled _ _ bound] at at_k
        obtain rfl := Option.some.inj (Option.some.inj at_k)
        rw [filled.idx k bound, u16, Nat.mod_eq_of_lt (bound.trans small)]
      · rw [List.getElem?_append_right (by simpa using bound)] at at_k
        exact nomatch List.eq_of_mem_replicate (List.mem_of_getElem? at_k)
    · rw [← txqAt_mul_add place, filled.given, filled.task]
      rcases either with rfl | single
      · exact ⟨ite_self _, ite_self _⟩
      · have early := reached _ ((entry i grp j place).trans_le single)
        rw [if_pos early, if_pos early]
        exact ⟨rfl, rfl⟩

theorem FastPath.start_complete (caps : Option κ) (G size : Nat) :
    (FastPath.start size).1.Complete caps G 0 where
  memory := rfl
  once := fun _ _ j place => absurd place (Nat.not_lt_zero j)
  only := fun _ mem => nomatch List.eq_of_mem_replicate mem
  position := fun _ _ at_k => nomatch List.eq_of_mem_replicate (List.mem_of_getElem? at_k)
  tstamp := fun _ _ j place => absurd place (Nat.not_lt_zero j)

/-- The table is complete where it has an entry for each queue and, with capabilities to give, no
group has more than one. -/
theorem complete_iff (caps : Option κ) (numTxq : UInt16) (G m : Nat) :
    (txqTurns caps m (G * m) (FastPath.start numTxq.toNat)).1.Complete caps G m ↔
      G * m ≤ numTxq.toNat ∧ (caps = none ∨ G * m ≤ G) := by
  rcases Nat.eq_zero_or_pos m with rfl | pos
  · simp only [Nat.mul_zero, Nat.zero_le, or_true, and_self, iff_true]
    exact FastPath.start_complete caps G numTxq.toNat
  · by_cases room : G * m ≤ numTxq.toNat
    · rw [(Filled.turns pos room).complete_iff pos (room.trans_lt numTxq.toNat_lt)]
      exact ⟨fun either => ⟨room, either⟩, And.right⟩
    · constructor
      · intro complete
        exact nomatch complete.memory.symm.trans (txqTurns_fault pos (Nat.lt_of_not_le room))
      · intro h
        exact absurd h.1 room

/-- With the layouts of the driver: in the split model there is a group for each completion queue,
otherwise all queues are in one. -/
theorem fastPathTxqInit_layout (r : QVecRsrc) (caps : Option κ) (numTxq : UInt16)
    (count : numTxq.toNat = r.numTxq) : ∃ fp,
    fastPathTxqInit true caps numTxq r.calcNumQGroups.txqGroups = some fp ∧
    if r.txSplit then fp.Complete caps r.numComplq 1 ↔ r.numComplq ≤ r.numTxq
    else fp.Complete caps 1 r.numTxq ↔ caps = none ∨ r.numTxq ≤ 1 := by
  unfold QVecRsrc.txqGroups QVecRsrc.calcNumQGroups
  dsimp only
  rw [← count, fastPathTxqInit_eq]
  refine ⟨_, rfl, ?_⟩
  cases r.txSplit with
  | true =>
    simp only [if_true]
    rw [complete_iff, Nat.mul_one, and_iff_left (.inr (Nat.le_refl _))]
  | false =>
    simp only [Bool.false_eq_true, if_false]
    rw [complete_iff, Nat.one_mul, and_iff_right (Nat.le_refl _)]

/-- For any number of groups and of queues in each. -/
theorem fastPathTxqInit_complete_iff (mem : Bool) (caps : Option κ) (numTxq : UInt16)
    (G m : Nat) :
    (∀ fp, fastPathTxqInit mem caps numTxq (.replicate G m) = some fp → fp.Complete caps G m) ↔
      mem = false ∨ G * m ≤ numTxq.toNat ∧ (caps = none ∨ m ≤ 1 ∨ G = 0) := by
  have single : G * m ≤ G ↔ m ≤ 1 ∨ G = 0 := by
    rcases Nat.eq_zero_or_pos G with rfl | pos
    · simp
    · calc G * m ≤ G ↔ G * m ≤ G * 1 := by rw [Nat.mul_one]
        _ ↔ m ≤ 1 := Nat.mul_le_mul_left_iff pos
        _ ↔ m ≤ 1 ∨ G = 0 := (or_iff_left (Nat.ne_of_gt pos)).symm
  cases mem with
  | false =>
    simp [fastPathTxqInit]
  | true =>
    simp only [fastPathTxqInit_eq, Option.some.injEq, forall_eq', complete_iff, single,
      Bool.true_eq_false, false_or]

/-- One group of two queues: the second is left without the capabilities. -/
theorem fastPathTxqInit_skips_second :
    ¬ ∀ fp, fastPathTxqInit true (some ()) 2 [2] = some fp → fp.Complete (some ()) 1 2 := by
  intro complete
  have stamped := ((complete _ rfl).tstamp 0 (by decide) 1 (by decide)).1
  exact absurd stamped (by decide)

end Idpf
