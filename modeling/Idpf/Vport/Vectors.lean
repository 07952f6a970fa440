import Mathlib.Algebra.Order.Group.Multiset
import Mathlib.Data.Multiset.Range
import Idpf.General.Slots
import Idpf.General.Transition
import Idpf.Vport.QueueRequests

/-! The interrupt vectors of the adapter: the stack that hands their indexes out, and the vports
and ADIs that hold them. -/
namespace Idpf
open General

/-- `struct idpf_vector_lifo` with `num_avail_msix`. The indexes below `base` are set aside for
the mailbox and the default vports; `full` is set where a push meets a full stack. -/
structure VecStack where
  size : Nat
  base : Nat
  top : Nat
  vecIdx : Nat → Nat
  numAvail : Nat
  full : Bool

namespace VecStack

def free (s : VecStack) : List Nat := (List.range' s.top (s.size - s.top)).map s.vecIdx

/-- `idpf_vector_lifo_push`, and the count that `idpf_vector_stash` keeps whatever it returns. -/
def push (vec : Nat) (s : VecStack) : VecStack :=
  let s := { s with numAvail := (s.numAvail + 1) % 65536 }
  if s.top = s.base then { s with full := true }
  else
    { s with
      top := s.top - 1
      vecIdx := Function.update s.vecIdx (s.top - 1) vec }

/-- `idpf_vector_stash` of the indexes that are not from the default pool, the last one first. -/
def stash (s : VecStack) (vecs : List Nat) : VecStack := vecs.foldr push s

/-- The loop around `idpf_vector_lifo_pop`; an empty stack gives -EINVAL, kept in 16 bits. -/
def pops : Nat → VecStack → List Nat × VecStack
  | 0, s => ([], s)
  | n + 1, s =>
    if s.top = s.size then
      let r := pops n s
      (65514 :: r.1, r.2)
    else
      let r := pops n { s with top := s.top + 1 }
      (s.vecIdx s.top :: r.1, r.2)

/-- What a holder has of the stack: a default vport has its first index from the default pool. -/
def pool (dflt : Bool) (vecs : List Nat) : List Nat := if dflt then vecs.drop 1 else vecs

/-- `idpf_req_rel_vector_indexes` for a holder that has `vecs`: the indexes it is given. -/
def reqRel (s : VecStack) (dflt : Bool) (index num : Nat) (vecs : List Nat) :
    List Nat × VecStack :=
  let s := s.stash (pool dflt vecs)
  if num = 0 then ([], s)
  else
    let fixed := if dflt then [s.vecIdx (index + 1)] else []
    let more := min s.numAvail (num - fixed.length)
    let r := s.pops more
    (fixed ++ r.1, { r.2 with numAvail := r.2.numAvail - more })

end VecStack

/-- A vport with its `q_vector_idxs`: those in use, and how many the array can take. -/
structure VecVport where
  dflt : Bool
  cap : Nat
  idxs : List Nat

/-- How building a vport ends: before it asks for vectors, after, or with a vport. -/
inductive VecEnd where
  | early
  | late
  | done
  deriving DecidableEq, Repr

/-- The adapter as far as it is about vectors. `adis` are the indexes of the ADIs that are open,
`numVectors` the count set for each; `overrun` is set where an array is written past its end. -/
structure VecAdapter where
  stack : VecStack
  defaultVports : Nat
  maxVports : Nat
  vports : Nat → Option VecVport
  maxAdis : Nat
  adis : Nat → Option (List Nat)
  numVectors : Nat → Nat
  overrun : Bool

/-- What happens to vectors. `cap` is the number of entries `q_vector_idxs` is allocated with, and
`req` the count that `idpf_vport_alloc_vec_indexes` asks for. -/
inductive VecOp where
  | create (cap req : Nat) (result : VecEnd)
  | request (i req : Nat)
  | release (i : Nat)
  | openAdi (j : Nat) (created : Bool)
  | closeAdi (j : Nat)
  | setNumVectors (j n : Nat)

namespace VecAdapter

/-- `num_alloc_vports` -/
def numAllocVports (s : VecAdapter) : Nat :=
  (List.range s.maxVports).countP fun i => (s.vports i).isSome

/-- `idpf_vport_alloc_vec_indexes` for a vport in its slot. When it gets nothing the vport keeps
the count it had. -/
def allocVecIndexes (s : VecAdapter) (i : Nat) (v : VecVport) (req : Nat) :
    VecAdapter × VecVport :=
  let r := s.stack.reqRel v.dflt i req v.idxs
  ({ s with
      stack := r.2
      overrun := s.overrun || v.cap < r.1.length },
    if r.1 = [] then v else { v with idxs := r.1 })

/-- `idpf_vport_alloc`: where it fails after `idpf_vport_init` it frees `q_vector_idxs` and gives
no vector back. -/
def create (s : VecAdapter) (cap req : Nat) (result : VecEnd) : VecAdapter :=
  match freeSlot s.maxVports s.vports with
  | none => s
  | some i =>
    if result = .early then s
    else
      let r := s.allocVecIndexes i ⟨s.numAllocVports < s.defaultVports, cap, []⟩ req
      if result = .late then r.1
      else { r.1 with vports := Function.update s.vports i (some r.2) }

/-- `idpf_vport_dealloc_vec_indexes` with the vport. -/
def release (s : VecAdapter) (i : Nat) (v : VecVport) : VecAdapter :=
  { s with
    stack := (s.stack.reqRel v.dflt i 0 v.idxs).2
    vports := Function.update s.vports i none }

/-- `idpf_adi_create`: `idpf_adi_alloc_vectors` wants the exact number, and where anything after
it fails `idpf_adi_dealloc_vectors` gives the vectors back. -/
def openAdi (s : VecAdapter) (j : Nat) (created : Bool) : VecAdapter :=
  let r := s.stack.reqRel false 0 (s.numVectors j) []
  let s := { s with
    stack := r.2
    overrun := s.overrun || s.numVectors j < r.1.length }
  if r.1.length = s.numVectors j && created then
    { s with adis := Function.update s.adis j (some r.1) }
  else { s with stack := (s.stack.reqRel false 0 0 r.1).2 }

/-- `idpf_adi_destroy` -/
def closeAdi (s : VecAdapter) (j : Nat) (vecs : List Nat) : VecAdapter :=
  { s with
    stack := (s.stack.reqRel false 0 0 vecs).2
    adis := Function.update s.adis j none }

/-- One step. An ADI is opened and given its number of vectors only while it is closed. -/
def step (s : VecAdapter) : VecOp → Option VecAdapter
  | .create cap req result => some (s.create cap req result)
  | .request i req =>
    match s.vports i with
    | none => none
    | some v =>
      let r := s.allocVecIndexes i v req
      some { r.1 with vports := Function.update s.vports i (some r.2) }
  | .release i =>
    match s.vports i with
    | none => none
    | some v => some (s.release i v)
  | .openAdi j created =>
    match s.adis j with
    | none => if j < s.maxAdis then some (s.openAdi j created) else none
    | some _ => none
  | .closeAdi j =>
    match s.adis j with
    | none => none
    | some vecs => some (s.closeAdi j vecs)
  | .setNumVectors j n =>
    match s.adis j with
    | none => some { s with numVectors := Function.update s.numVectors j n }
    | some _ => none

/-- The adapter once `idpf_init_vector_stack` has run: all but the default pool is free. -/
def start (size defaultVports maxVports maxAdis : Nat) : VecAdapter where
  stack :=
    { size := size
      base := defaultVports + 1
      top := defaultVports + 1
      vecIdx := id
      numAvail := size - (defaultVports + 1)
      full := false }
  defaultVports := defaultVports
  maxVports := maxVports
  vports := fun _ => none
  maxAdis := maxAdis
  adis := fun _ => none
  numVectors := fun _ => 9
  overrun := false

/-- The indexes of the free pool that vports and ADIs hold. -/
def held (s : VecAdapter) : Multiset Nat :=
  slotSum s.maxVports s.vports (fun v => (VecStack.pool v.dflt v.idxs : Multiset Nat)) +
    slotSum s.maxAdis s.adis fun vecs => (vecs : Multiset Nat)

/-- What a state has to satisfy: every index from the base of the stack on is exactly once in its
free part or with a holder, a default vport has the index that is set aside for it, the count of
free vectors is right, no push met a full stack, and no array was written past its end. -/
structure VectorsKept (s : VecAdapter) : Prop where
  conserved : (s.stack.free : Multiset Nat) + s.held =
    (List.range' s.stack.base (s.stack.size - s.stack.base) : Multiset Nat)
  default : ∀ i v, s.vports i = some v → v.dflt = true → v.idxs ≠ [] →
    v.idxs.head? = some (i + 1) ∧ i + 1 < s.stack.base
  avail : s.stack.numAvail = s.stack.size - s.stack.top
  notFull : s.stack.full = false
  notOverrun : s.overrun = false

end VecAdapter

namespace VecStack

structure Good (s : VecStack) : Prop where
  base_le : s.base ≤ s.top
  top_le : s.top ≤ s.size
  size_lt : s.size < 65536
  avail : s.numAvail = s.size - s.top
  setAside : ∀ j < s.base, s.vecIdx j = j
  notFull : s.full = false

variable {s : VecStack} {vec : Nat} {vecs : List Nat}

theorem free_length (s : VecStack) : s.free.length = s.size - s.top := by
  rw [free, List.length_map, List.length_range']

theorem push_eq (good : s.Good) (room : s.base < s.top) :
    push vec s =
      { s with
        numAvail := s.numAvail + 1
        top := s.top - 1
        vecIdx := Function.update s.vecIdx (s.top - 1) vec } := by
  have avail := good.avail
  have small := good.size_lt
  have inside := good.top_le
  unfold push
  dsimp only
  rw [if_neg (by omega), Nat.mod_eq_of_lt (by omega)]

theorem Good.push (good : s.Good) (room : s.base < s.top) : (push vec s).Good := by
  have inside := good.top_le
  have avail := good.avail
  rw [push_eq good room]
  constructor
  · change s.base ≤ s.top - 1
    omega
  · change s.top - 1 ≤ s.size
    omega
  · exact good.size_lt
  · change s.numAvail + 1 = s.size - (s.top - 1)
    omega
  · intro j below
    replace below : j < s.base := below
    change Function.update s.vecIdx (s.top - 1) vec j = j
    rw [Function.update_of_ne (by omega)]
    exact good.setAside j below
  · exact good.notFull

theorem push_free (good : s.Good) (room : s.base < s.top) : (push vec s).free = vec :: s.free := by
  have inside := good.top_le
  rw [push_eq good room]
  change (List.range' (s.top - 1) (s.size - (s.top - 1))).map
    (Function.update s.vecIdx (s.top - 1) vec) = _
  have more : s.size - (s.top - 1) = s.size - s.top + 1 := by omega
  have next : s.top - 1 + 1 = s.top := by omega
  rw [more, List.range'_succ, List.map_cons, Function.update_self, next]
  congr 1
  apply List.map_congr_left
  intro j member
  have above := (List.mem_range'_1.mp member).1
  rw [Function.update_of_ne (by omega)]

theorem stash_spec (good : s.Good) (room : vecs.length ≤ s.top - s.base) :
    (s.stash vecs).Good ∧ (s.stash vecs).free = vecs ++ s.free ∧
      (s.stash vecs).size = s.size ∧ (s.stash vecs).base = s.base ∧
      (s.stash vecs).top = s.top - vecs.length := by
  induction vecs with
  | nil => exact ⟨good, rfl, rfl, rfl, rfl⟩
  | cons vec vecs ih =>
      rw [List.length_cons] at room
      obtain ⟨kept, free, size, base, top⟩ := ih (by omega)
      have more : (s.stash vecs).base < (s.stash vecs).top := by omega
      change (push vec (s.stash vecs)).Good ∧ (push vec (s.stash vecs)).free = _ ∧
        (push vec (s.stash vecs)).size = _ ∧ (push vec (s.stash vecs)).base = _ ∧
          (push vec (s.stash vecs)).top = _
      refine ⟨kept.push more, ?_, ?_, ?_, ?_⟩
      · rw [push_free kept more, free, List.cons_append]
      · rw [push_eq kept more]
        exact size
      · rw [push_eq kept more]
        exact base
      · rw [push_eq kept more, List.length_cons]
        change (s.stash vecs).top - 1 = _
        omega

theorem pops_spec {n : Nat} (inside : s.top ≤ s.size) (room : n ≤ s.size - s.top) :
    (s.pops n).1 ++ (s.pops n).2.free = s.free ∧ (s.pops n).1.length = n ∧
      (s.pops n).2 = { s with top := s.top + n } := by
  induction n generalizing s with
  | zero => exact ⟨rfl, rfl, rfl⟩
  | succ n ih =>
      unfold pops
      rw [if_neg (by omega)]
      obtain ⟨free, length, rest⟩ := ih (s := { s with top := s.top + 1 })
        (show s.top + 1 ≤ s.size by omega) (show n ≤ s.size - (s.top + 1) by omega)
      refine ⟨?_, ?_, ?_⟩
      · have more : s.size - s.top = s.size - (s.top + 1) + 1 := by omega
        dsimp only
        rw [List.cons_append, free, VecStack.free, VecStack.free, more, List.range'_succ,
          List.map_cons]
      · exact congrArg Nat.succ length
      · dsimp only
        rw [rest]
        change ({ s with top := s.top + 1 + n } : VecStack) = { s with top := s.top + n + 1 }
        rw [Nat.add_right_comm]

/-- A request takes what it gives from what the holder had and from the free part, and gives a
default vport the index that is set aside for it. -/
theorem reqRel_spec (dflt : Bool) (index num : Nat) (vecs : List Nat) (good : s.Good)
    (room : (pool dflt vecs).length ≤ s.top - s.base) :
    (s.reqRel dflt index num vecs).2.Good ∧
      pool dflt (s.reqRel dflt index num vecs).1 ++ (s.reqRel dflt index num vecs).2.free =
        pool dflt vecs ++ s.free ∧
      (s.reqRel dflt index num vecs).2.size = s.size ∧
      (s.reqRel dflt index num vecs).2.base = s.base ∧
      (s.reqRel dflt index num vecs).1.length =
        grantedVecs dflt (s.numAvail + (pool dflt vecs).length) num ∧
      (dflt = true → index + 1 < s.base → num ≠ 0 →
        (s.reqRel dflt index num vecs).1.head? = some (index + 1)) := by
  obtain ⟨kept, free, size, base, top⟩ := stash_spec good room
  have avail : (s.stash (pool dflt vecs)).numAvail = s.numAvail + (pool dflt vecs).length := by
    have inside := good.top_le
    have low := good.base_le
    rw [kept.avail, size, top, good.avail]
    omega
  unfold reqRel
  dsimp only
  by_cases none : num = 0
  · subst none
    rw [if_pos rfl]
    refine ⟨kept, ?_, size, base, ?_, ?_⟩
    · rw [free]
      cases dflt <;> rfl
    · rfl
    · exact fun _ _ nonzero => absurd rfl nonzero
  · rw [if_neg none]
    generalize grant : min (s.stash (pool dflt vecs)).numAvail
      (num - (if dflt then [(s.stash (pool dflt vecs)).vecIdx (index + 1)] else []).length) = more
    have enough : more ≤ (s.stash (pool dflt vecs)).size - (s.stash (pool dflt vecs)).top := by
      rw [← kept.avail, ← grant]
      exact Nat.min_le_left _ _
    obtain ⟨rest, length, after⟩ := pops_spec kept.top_le enough
    have inside := kept.top_le
    refine ⟨?_, ?_, ?_, ?_, ?_, ?_⟩
    · rw [after]
      constructor
      · exact kept.base_le.trans (Nat.le_add_right _ _)
      · change (s.stash (pool dflt vecs)).top + more ≤ (s.stash (pool dflt vecs)).size
        omega
      · exact kept.size_lt
      · change (s.stash (pool dflt vecs)).numAvail - more =
          (s.stash (pool dflt vecs)).size - ((s.stash (pool dflt vecs)).top + more)
        rw [kept.avail]
        omega
      · exact kept.setAside
      · exact kept.notFull
    · rw [← free, ← rest]
      cases dflt <;> rfl
    · rw [after]
      exact size
    · rw [after]
      exact base
    · rw [List.length_append, length, ← grant, avail]
      unfold grantedVecs
      rw [if_neg none]
      cases dflt with
      | true => rfl
      | false =>
          simp only [Bool.false_eq_true, if_false, List.length_nil, Nat.zero_add, Nat.sub_zero]
    · intro isDflt low _
      rw [isDflt, if_pos rfl, List.cons_append, List.head?_cons]
      rw [isDflt] at kept base
      rw [kept.setAside _ (base ▸ low)]

end VecStack

namespace VecAdapter

/-- The steps after which the vectors are still in order: a vport is not lost once it has vectors
of the free pool, no request is for none while there are some, and none is granted more than its
array can take. -/
def ok (s : VecAdapter) : VecOp → Bool
  | .create cap req result =>
    let dflt : Bool := s.numAllocVports < s.defaultVports
    let got := grantedVecs dflt s.stack.numAvail req
    (freeSlot s.maxVports s.vports).isNone || result = .early ||
      (got ≤ cap && (result = .done || got ≤ (if dflt then 1 else 0)))
  | .request i req =>
    match s.vports i with
    | none => true
    | some v =>
      let own := VecStack.pool v.dflt v.idxs
      (req != 0 || own.isEmpty) && grantedVecs v.dflt (s.stack.numAvail + own.length) req ≤ v.cap
  | _ => true

structure Inv (s : VecAdapter) : Prop where
  good : s.stack.Good
  base : s.stack.base = s.defaultVports + 1
  conserved : (s.stack.free : Multiset Nat) + s.held =
    (List.range' s.stack.base (s.stack.size - s.stack.base) : Multiset Nat)
  vports : ∀ i v, s.vports i = some v → i < s.maxVports
  adis : ∀ j vecs, s.adis j = some vecs → j < s.maxAdis
  default : ∀ i v, s.vports i = some v → v.dflt = true →
    i + 1 < s.stack.base ∧ (v.idxs ≠ [] → v.idxs.head? = some (i + 1))
  notOverrun : s.overrun = false

variable {s : VecAdapter} {i j : Nat} {v : VecVport} {vecs : List Nat}

theorem Inv.kept (inv : s.Inv) : s.VectorsKept where
  conserved := inv.conserved
  default := fun i v there isDflt some =>
    ⟨(inv.default i v there isDflt).2 some, (inv.default i v there isDflt).1⟩
  avail := inv.good.avail
  notFull := inv.good.notFull
  notOverrun := inv.notOverrun

theorem Inv.room (inv : s.Inv) {own rest : Multiset Nat} (split : s.held = own + rest) :
    own.card ≤ s.stack.top - s.stack.base := by
  have cards := congrArg Multiset.card inv.conserved
  have inside := inv.good.top_le
  have low := inv.good.base_le
  rw [split, Multiset.card_add, Multiset.card_add, Multiset.coe_card, Multiset.coe_card,
    VecStack.free_length, List.length_range'] at cards
  omega

theorem held_vport (inv : s.Inv) (there : s.vports i = some v) : ∃ rest,
    s.held = (VecStack.pool v.dflt v.idxs : Multiset Nat) + rest ∧
      ∀ t : VecAdapter, t.maxVports = s.maxVports → t.maxAdis = s.maxAdis → t.adis = s.adis →
        (t.vports = Function.update s.vports i none → t.held = rest) ∧
          ∀ w, t.vports = Function.update s.vports i (some w) →
            t.held = (VecStack.pool w.dflt w.idxs : Multiset Nat) + rest := by
  obtain ⟨others, whole, gone, replaced⟩ := slotSum_split (inv.vports i v there) there
    fun v : VecVport => (VecStack.pool v.dflt v.idxs : Multiset Nat)
  refine ⟨others + slotSum s.maxAdis s.adis fun vecs => (vecs : Multiset Nat), ?_, ?_⟩
  · rw [held, whole, add_assoc]
  · intro t maxVports maxAdis adis
    constructor
    · intro vports
      rw [held, maxVports, maxAdis, adis, vports, gone]
    · intro w vports
      rw [held, maxVports, maxAdis, adis, vports, replaced, add_assoc]

theorem held_adi (inv : s.Inv) (there : s.adis j = some vecs) : ∃ rest,
    s.held = (vecs : Multiset Nat) + rest ∧
      ∀ t : VecAdapter, t.maxVports = s.maxVports → t.maxAdis = s.maxAdis → t.vports = s.vports →
        t.adis = Function.update s.adis j none → t.held = rest := by
  obtain ⟨others, whole, gone, -⟩ := slotSum_split (inv.adis j vecs there) there
    fun vecs : List Nat => (vecs : Multiset Nat)
  refine ⟨others + slotSum s.maxVports s.vports
    fun v => (VecStack.pool v.dflt v.idxs : Multiset Nat), ?_, ?_⟩
  · rw [held, whole, add_comm, add_assoc]
  · intro t maxVports maxAdis vports adis
    rw [held, maxVports, maxAdis, adis, vports, gone, add_comm]

/-- Every index is where it was or moved between the free part and one holder. -/
theorem conserved_of_move {free free' own own' : List Nat} {rest all : Multiset Nat}
    (before : (free : Multiset Nat) + ((own : Multiset Nat) + rest) = all)
    (move : own' ++ free' = own ++ free) :
    (free' : Multiset Nat) + ((own' : Multiset Nat) + rest) = all := by
  have moved : (own' : Multiset Nat) + free' = own + free := by
    rw [Multiset.coe_add, Multiset.coe_add, move]
  calc (free' : Multiset Nat) + ((own' : Multiset Nat) + rest)
      = (own' + free') + rest := by rw [← add_assoc, add_comm (free' : Multiset Nat)]
    _ = (own + free) + rest := by rw [moved]
    _ = free + (own + rest) := by rw [← add_assoc, add_comm (free : Multiset Nat)]
    _ = all := before

theorem pool_nil (dflt : Bool) : VecStack.pool dflt [] = [] := by
  cases dflt <;> rfl

/-- What a request does for a vport in its slot. -/
theorem Inv.request (inv : s.Inv) (req : Nat) (there : s.vports i = some v)
    (own : req ≠ 0 ∨ VecStack.pool v.dflt v.idxs = [])
    (fits : grantedVecs v.dflt (s.stack.numAvail + (VecStack.pool v.dflt v.idxs).length) req ≤
      v.cap) :
    ({ (s.allocVecIndexes i v req).1 with
      vports := Function.update s.vports i (some (s.allocVecIndexes i v req).2) } :
        VecAdapter).Inv := by
  obtain ⟨rest, split, after⟩ := held_vport inv there
  have room := inv.room split
  rw [Multiset.coe_card] at room
  obtain ⟨good, move, size, base, length, first⟩ :=
    VecStack.reqRel_spec v.dflt i req v.idxs inv.good room
  have low := inv.default i v there
  unfold VecAdapter.allocVecIndexes
  dsimp only
  generalize granted : s.stack.reqRel v.dflt i req v.idxs = r at good move size base length first
  -- a vport that gets nothing had nothing of the free pool
  have same : VecStack.pool (if r.1 = [] then v else { v with idxs := r.1 }).dflt
      (if r.1 = [] then v else { v with idxs := r.1 }).idxs = VecStack.pool v.dflt r.1 := by
    split
    next none =>
      rw [none, pool_nil]
      obtain some | nothing := own
      · rw [none, List.length_nil, grantedVecs, if_neg some] at length
        apply List.length_eq_zero_iff.mp
        split at length <;> omega
      · exact nothing
    · rfl
  constructor
  · exact good
  · exact base.trans inv.base
  · generalize state : ({ s with
      stack := r.2
      overrun := s.overrun || decide (v.cap < r.1.length)
      vports := Function.update s.vports i
        (some (if r.1 = [] then v else { v with idxs := r.1 })) } : VecAdapter) = t
    have held' := (after t (state ▸ rfl) (state ▸ rfl) (state ▸ rfl)).2
      (if r.1 = [] then v else { v with idxs := r.1 }) (state ▸ rfl)
    have before := inv.conserved
    rw [split] at before
    rw [held', same, ← state]
    show (r.2.free : Multiset Nat) + _ = (List.range' r.2.base (r.2.size - r.2.base) : Multiset Nat)
    rw [size, base]
    exact conserved_of_move before move
  · intro k w full
    obtain ⟨rfl, -⟩ | ⟨-, before⟩ := filled_cases full
    · exact inv.vports k v there
    · exact inv.vports k w before
  · exact inv.adis
  · intro k w full isDflt
    change k + 1 < r.2.base ∧ _
    rw [base]
    obtain ⟨rfl, rfl⟩ | ⟨-, before⟩ := filled_cases full
    · split at isDflt
      next none =>
        rw [if_pos none]
        exact low isDflt
      next some =>
        rw [if_neg some]
        refine ⟨(low isDflt).1, fun _ => first isDflt (low isDflt).1 ?_⟩
        intro zero
        apply some
        apply List.length_eq_zero_iff.mp
        rw [length, grantedVecs, if_pos zero]
    · exact inv.default k w before isDflt
  · change (s.overrun || decide (v.cap < r.1.length)) = false
    rw [inv.notOverrun, Bool.false_or]
    exact decide_eq_false (by omega)

theorem Inv.attach (inv : s.Inv) (free : freeSlot s.maxVports s.vports = some i)
    (v : VecVport) (none : v.idxs = []) (low : v.dflt = true → i + 1 < s.stack.base) :
    ({ s with vports := Function.update s.vports i (some v) } : VecAdapter).Inv := by
  obtain ⟨inside, empty⟩ := freeSlot_spec free
  constructor
  · exact inv.good
  · exact inv.base
  · have filled := slotSum_fill inside empty v
      fun v : VecVport => (VecStack.pool v.dflt v.idxs : Multiset Nat)
    rw [none, pool_nil, Multiset.coe_nil, zero_add] at filled
    rw [held, filled]
    exact inv.conserved
  · intro k w full
    obtain ⟨rfl, -⟩ | ⟨-, before⟩ := filled_cases full
    · exact inside
    · exact inv.vports k w before
  · exact inv.adis
  · intro k w full isDflt
    obtain ⟨rfl, rfl⟩ | ⟨-, before⟩ := filled_cases full
    · exact ⟨low isDflt, fun some => absurd none some⟩
    · exact inv.default k w before isDflt
  · exact inv.notOverrun

/-- A default vport that is granted one index at most has none of the free pool. -/
theorem granted_pool {dflt : Bool} (index num : Nat) (good : s.stack.Good)
    (none : VecStack.pool dflt vecs = [])
    (few : grantedVecs dflt s.stack.numAvail num ≤ if dflt then 1 else 0) :
    VecStack.pool dflt (s.stack.reqRel dflt index num vecs).1 = [] := by
  obtain ⟨-, -, -, -, length, -⟩ := VecStack.reqRel_spec dflt index num vecs good
    (by rw [none]; exact Nat.zero_le _)
  rw [none, List.length_nil, Nat.add_zero] at length
  rw [← length] at few
  cases dflt with
  | true => exact List.drop_eq_nil_of_le few
  | false => exact List.length_eq_zero_iff.mp (Nat.le_zero.mp few)

/-- A vport that holds nothing of the free pool can leave its slot. -/
theorem Inv.drop {stack : VecStack} {overrun : Bool} (inside : i < s.maxVports)
    (empty : s.vports i = none)
    (inv : ({ s with
      stack := stack
      overrun := overrun
      vports := Function.update s.vports i (some v) } : VecAdapter).Inv)
    (nothing : VecStack.pool v.dflt v.idxs = []) :
    ({ s with
      stack := stack
      overrun := overrun } : VecAdapter).Inv := by
  have other := fun {k : Nat} {w : VecVport} (there : s.vports k = some w) =>
    (Function.update_of_ne (show k ≠ i from fun here =>
      absurd (there.symm.trans (here ▸ empty)) (Option.some_ne_none _)) (some v) s.vports).trans
      there
  constructor
  · exact inv.good
  · exact inv.base
  · have filled := slotSum_fill inside empty v
      fun v : VecVport => (VecStack.pool v.dflt v.idxs : Multiset Nat)
    rw [nothing, Multiset.coe_nil, zero_add] at filled
    have conserved := inv.conserved
    rwa [held, filled] at conserved
  · exact fun k w there => inv.vports k w (other there)
  · exact inv.adis
  · exact fun k w there => inv.default k w (other there)
  · exact inv.notOverrun

theorem Inv.create {cap req : Nat} {result : VecEnd} (inv : s.Inv)
    (good : s.ok (.create cap req result) = true) : (s.create cap req result).Inv := by
  unfold VecAdapter.create
  split
  · exact inv
  next i free =>
    split
    · exact inv
    next later =>
      simp only [ok, free, Option.isNone_some, Bool.false_or, Bool.or_eq_true, decide_eq_true_eq,
        Bool.and_eq_true] at good
      obtain ⟨fits, lost⟩ := good.resolve_left later
      generalize kind : decide (s.numAllocVports < s.defaultVports) = dflt at fits lost
      have low : dflt = true → i + 1 < s.stack.base := by
        intro isDflt
        have few := freeSlot_le_count free
        rw [isDflt] at kind
        have less := of_decide_eq_true kind
        have base := inv.base
        unfold numAllocVports at less
        omega
      obtain ⟨inside, empty⟩ := freeSlot_spec free
      have attached := inv.attach free ⟨dflt, cap, []⟩ rfl low
      have asked := attached.request (i := i) req (Function.update_self ..)
        (.inr (pool_nil dflt)) (by rw [pool_nil]; exact fits)
      have idem := fun w : VecVport =>
        Function.update_idem (some (⟨dflt, cap, []⟩ : VecVport)) (some w) s.vports (a := i)
      unfold VecAdapter.allocVecIndexes at asked ⊢
      dsimp only at asked ⊢
      rw [idem] at asked
      split
      next isLate =>
        have few : grantedVecs dflt s.stack.numAvail req ≤ if dflt then 1 else 0 := by
          have few := lost.resolve_left (isLate ▸ VecEnd.noConfusion)
          rw [← kind] at few ⊢
          simpa only [decide_eq_true_eq] using few
        have nothing := granted_pool i req inv.good (pool_nil dflt) few
        refine asked.drop inside empty ?_
        split
        · exact pool_nil dflt
        · exact nothing
      · exact asked

theorem Inv.release (inv : s.Inv) (there : s.vports i = some v) : (s.release i v).Inv := by
  obtain ⟨rest, split, after⟩ := held_vport inv there
  have room := inv.room split
  rw [Multiset.coe_card] at room
  obtain ⟨good, move, size, base, -, -⟩ :=
    VecStack.reqRel_spec v.dflt i 0 v.idxs inv.good room
  constructor
  · exact good
  · exact base.trans inv.base
  · have before := inv.conserved
    rw [split] at before
    rw [(after (s.release i v) rfl rfl rfl).1 rfl]
    change ((s.stack.reqRel v.dflt i 0 v.idxs).2.free : Multiset Nat) + rest = (List.range'
      (s.stack.reqRel v.dflt i 0 v.idxs).2.base ((s.stack.reqRel v.dflt i 0 v.idxs).2.size -
        (s.stack.reqRel v.dflt i 0 v.idxs).2.base) : Multiset Nat)
    rw [size, base]
    have moved := conserved_of_move before move
    rwa [show VecStack.pool v.dflt (s.stack.reqRel v.dflt i 0 v.idxs).1 = [] from pool_nil v.dflt,
      Multiset.coe_nil, zero_add] at moved
  · exact fun k w full => inv.vports k w (emptied_ne full).2
  · exact inv.adis
  · intro k w full
    change (w.dflt = true → k + 1 < (s.stack.reqRel v.dflt i 0 v.idxs).2.base ∧ _)
    rw [base]
    exact inv.default k w (emptied_ne full).2
  · exact inv.notOverrun

theorem Inv.closeAdi (inv : s.Inv) (there : s.adis j = some vecs) : (s.closeAdi j vecs).Inv := by
  obtain ⟨rest, split, after⟩ := held_adi inv there
  have room := inv.room split
  rw [Multiset.coe_card] at room
  obtain ⟨good, move, size, base, -, -⟩ :=
    VecStack.reqRel_spec false 0 0 vecs inv.good room
  constructor
  · exact good
  · exact base.trans inv.base
  · have before := inv.conserved
    rw [split] at before
    rw [after (s.closeAdi j vecs) rfl rfl rfl rfl]
    change ((s.stack.reqRel false 0 0 vecs).2.free : Multiset Nat) + rest = (List.range'
      (s.stack.reqRel false 0 0 vecs).2.base ((s.stack.reqRel false 0 0 vecs).2.size -
        (s.stack.reqRel false 0 0 vecs).2.base) : Multiset Nat)
    rw [size, base]
    have freed : [] ++ (s.stack.reqRel false 0 0 vecs).2.free = vecs ++ s.stack.free := move
    have moved := conserved_of_move before freed
    rwa [Multiset.coe_nil, zero_add] at moved
  · exact inv.vports
  · intro k own full
    exact inv.adis k own (emptied_ne full).2
  · intro k w full
    change (w.dflt = true → k + 1 < (s.stack.reqRel false 0 0 vecs).2.base ∧ _)
    rw [base]
    exact inv.default k w full
  · exact inv.notOverrun

theorem Inv.openAdi {created : Bool} (inv : s.Inv) (empty : s.adis j = none) (low : j < s.maxAdis) :
    (s.openAdi j created).Inv := by
  obtain ⟨good, move, size, base, length, -⟩ :=
    VecStack.reqRel_spec false 0 (s.numVectors j) [] inv.good (Nat.zero_le _)
  have fits : ¬ s.numVectors j < (s.stack.reqRel false 0 (s.numVectors j) []).1.length := by
    rw [length]
    exact (QueueUse.grantedVecs_le _ _ _).not_gt
  unfold VecAdapter.openAdi
  dsimp only
  rw [inv.notOverrun, decide_eq_false fits, Bool.false_or]
  generalize s.stack.reqRel false 0 (s.numVectors j) [] = r at good move size base
  have filled := slotSum_fill low empty r.1 fun vecs => (vecs : Multiset Nat)
  have opened : ({ s with
      stack := r.2
      overrun := false
      adis := Function.update s.adis j (some r.1) } : VecAdapter).Inv := by
    constructor
    · exact good
    · exact base.trans inv.base
    · change (r.2.free : Multiset Nat) +
        (slotSum s.maxVports s.vports (fun v => (VecStack.pool v.dflt v.idxs : Multiset Nat)) +
          slotSum s.maxAdis (Function.update s.adis j (some r.1)) fun vecs => (vecs : Multiset Nat))
        = (List.range' r.2.base (r.2.size - r.2.base) : Multiset Nat)
      rw [size, base, filled, add_left_comm (slotSum s.maxVports _ _)]
      have before : (s.stack.free : Multiset Nat) + (([] : List Nat) + s.held) =
          (List.range' s.stack.base (s.stack.size - s.stack.base) : Multiset Nat) := by
        rw [Multiset.coe_nil, zero_add]
        exact inv.conserved
      exact conserved_of_move before move
    · exact inv.vports
    · intro k own full
      obtain ⟨rfl, -⟩ | ⟨-, before⟩ := filled_cases full
      · exact low
      · exact inv.adis k own before
    · intro k w full
      change (w.dflt = true → k + 1 < r.2.base ∧ _)
      rw [base]
      exact inv.default k w full
    · rfl
  split
  · exact opened
  · have closed := opened.closeAdi (j := j) (Function.update_self ..)
    unfold VecAdapter.closeAdi at closed
    dsimp only at closed
    rwa [Function.update_idem, ← empty, Function.update_eq_self] at closed

theorem Inv.step {op : VecOp} {t : VecAdapter} (inv : s.Inv) (good : s.ok op = true)
    (stepped : s.step op = some t) : t.Inv := by
  cases op with
  | create cap req result =>
      obtain rfl := Option.some.inj stepped
      exact inv.create good
  | request i req =>
      dsimp only [VecAdapter.step] at stepped
      split at stepped
      · cases stepped
      next v there =>
        obtain rfl := Option.some.inj stepped
        simp only [ok, there, Bool.and_eq_true, Bool.or_eq_true, bne_iff_ne, List.isEmpty_iff,
          decide_eq_true_eq] at good
        exact inv.request req there good.1 good.2
  | release i =>
      dsimp only [VecAdapter.step] at stepped
      split at stepped
      · cases stepped
      next v there =>
        obtain rfl := Option.some.inj stepped
        exact inv.release there
  | openAdi j created =>
      dsimp only [VecAdapter.step] at stepped
      split at stepped
      next empty =>
        split at stepped
        next low =>
          obtain rfl := Option.some.inj stepped
          exact inv.openAdi empty low
        · cases stepped
      · cases stepped
  | closeAdi j =>
      dsimp only [VecAdapter.step] at stepped
      split at stepped
      · cases stepped
      next vecs there =>
        obtain rfl := Option.some.inj stepped
        exact inv.closeAdi there
  | setNumVectors j n =>
      dsimp only [VecAdapter.step] at stepped
      split at stepped
      · obtain rfl := Option.some.inj stepped
        exact ⟨inv.good, inv.base, inv.conserved, inv.vports, inv.adis, inv.default,
          inv.notOverrun⟩
      · cases stepped

/-- Where a run begins: the stack has its default pool, and fewer than 65536 indexes. -/
def Init (s : VecAdapter) : Prop :=
  ∃ size defaultVports maxVports maxAdis, defaultVports + 1 ≤ size ∧ size < 65536 ∧
    s = start size defaultVports maxVports maxAdis

theorem Init.inv (init : s.Init) : s.Inv := by
  obtain ⟨size, defaultVports, maxVports, maxAdis, least, most, rfl⟩ := init
  constructor
  · constructor
    · exact Nat.le_refl _
    · exact least
    · exact most
    · rfl
    · exact fun _ _ => rfl
    · rfl
  · rfl
  · rw [held, start, slotSum_none, slotSum_none, add_zero, add_zero, VecStack.free, List.map_id]
  · exact fun i v there => absurd there.symm (Option.some_ne_none _)
  · exact fun j vecs there => absurd there.symm (Option.some_ne_none _)
  · exact fun i v there => absurd there.symm (Option.some_ne_none _)
  · rfl

/-- In a run in which no vport with vectors of the free pool is lost while it is built, none asks
for no vectors while it has some, and none is granted more than its array can take, the vectors
are in order in every state. -/
theorem vectors_kept (run : Reachable step (fun s op => s.ok op = true) Init s) :
    s.VectorsKept :=
  (run.invariant (I := Inv) (fun _ init => init.inv) fun _ _ _ inv good stepped =>
    inv.step good stepped).kept

/-- Three vports, two of them not from the default pool, that ask for more and come and go, and
an ADI that is opened with the default number of vectors. -/
theorem vectors_kept_run : ∃ s, Reachable step (fun s op => s.ok op = true) Init s ∧
    s.stack.top = 12 ∧ s.VectorsKept := by
  obtain ⟨s, run, top⟩ : ∃ s, execIf step ok (start 24 1 4 2)
      [.create 8 4 .done, .create 8 4 .done, .create 8 20 .early, .request 1 6, .openAdi 0 true,
        .create 8 2 .done, .release 0, .request 1 3, .closeAdi 0, .setNumVectors 0 5,
        .openAdi 0 true] = some s ∧ s.stack.top = 12 := by
    apply Option.map_eq_some_iff.mp
    decide +kernel
  have init : Init (start 24 1 4 2) := ⟨24, 1, 4, 2, by decide, by decide, rfl⟩
  have reached := Reachable.execIf (.start init) run
  exact ⟨s, reached, top, vectors_kept reached⟩

/-- A default vport is granted four vectors, and then `idpf_vport_alloc` fails: three of them are
neither free nor with a holder. -/
theorem lost_vport_keeps_vectors : ¬ ∀ s, Reachable step anyStep Init s → s.VectorsKept := by
  intro claim
  obtain ⟨s, run, few⟩ : ∃ s, exec step (start 10 1 4 1) [.create 4 4 .late] = some s ∧
      (s.stack.free : Multiset Nat) + s.held ≠
        (List.range' s.stack.base (s.stack.size - s.stack.base) : Multiset Nat) := by
    refine ⟨_, rfl, ?_⟩
    decide +kernel
  have init : Init (start 10 1 4 1) := ⟨10, 1, 4, 1, by decide, by decide, rfl⟩
  have reached := Reachable.exec (.start init) run
  exact few (claim s reached).conserved

end VecAdapter

end Idpf
