import Idpf.Adi.Registers
import Idpf.Vport.Vectors

/-! Who owns what when ADIs are opened and closed: the vectors, the ADIs that the device has made, and
the table in which a reset notification looks its ADI up. -/
namespace Idpf
open General

/-- The adapter as far as it is about ADIs. `device` are the numbers of the ADIs that the device has
made and was not told to destroy; `fault` is set where a NULL or freed pointer is followed. -/
structure AdiAdapter where
  stack : VecStack
  entry : Nat → BitVec 16
  maxAdis : Nat
  adis : Nat → Option AdiPriv
  refcnt : Nat → Int
  table : BitVec 32 → Option Nat
  device : BitVec 32 → Bool
  fault : Bool

/-- What opening an ADI meets: no pasid, no memory for the message or for the vector indexes, a
message that fails, or a reply and whether `xa_store` works. -/
inductive AdiOpen where
  | noPasid
  | noMem
  | noIndexes
  | noReply
  | reply (r : AdiReply) (stores : Bool)

/-- What happens to ADIs. -/
inductive AdiEvent where
  | alloc (j : Nat) (heap : Nat → BitVec 32)
  | setNumVectors (j n : Nat)
  | devOpen (j : Nat) (meets : AdiOpen)
  | devClose (j : Nat)
  | free (j : Nat)
  | notify (adiId : BitVec 16) (reset : Bool)

namespace AdiAdapter

/-- The ADI is enabled. -/
def live (s : AdiAdapter) (j : Nat) : Prop := 0 < s.refcnt j

def put (s : AdiAdapter) (j : Nat) (p : AdiPriv) : AdiAdapter :=
  { s with adis := Function.update s.adis j (some p) }

/-- `idpf_adi_dealloc_vectors`: it gives back as many vectors as are set for the ADI, from an array
that may not be there. -/
def deallocVectors (s : AdiAdapter) (j : Nat) (p : AdiPriv) : AdiAdapter :=
  match p.vecIndexes with
  | some vecs =>
    { s with stack := (s.stack.reqRel false 0 0 (vecs.take p.numVectors)).2 }.put j
      { p with vecIndexes := none }
  | none => if p.numVectors = 0 then s.put j p else { s with fault := true }

/-- `idpf_adi_create` from the reply on: whether it fails. The mailbox number has 16 bits and is
never below 0. -/
def answered (s : AdiAdapter) (j : Nat) (p : AdiPriv) (r : AdiReply) (stores : Bool) :
    Bool × AdiAdapter :=
  let failed := (p.accept r).1
  let p := (p.accept r).2
  if failed || (s.table p.adiId).isSome || !stores then
    (true, { s with device := Function.update s.device p.adiId false }.deallocVectors j p)
  else
    (false, { s with
      table := Function.update s.table p.adiId (some j)
      device := Function.update s.device p.adiId true }.put j { p with resetState := .completed })

/-- `idpf_adi_create` -/
def create (s : AdiAdapter) (j : Nat) (p : AdiPriv) : AdiOpen → Bool × AdiAdapter
  | .noPasid => (true, s)
  | .noMem => (true, s)
  | .noIndexes => (true, s.put j { p with vecIndexes := none })
  | meets =>
    let r := s.stack.reqRel false 0 p.numVectors []
    match p.takeVectors s.entry r.1 with
    | none =>
      (true, { s with stack := (r.2.reqRel false 0 0 r.1).2 }.put j { p with vecIndexes := none })
    | some p =>
      let s := { s with stack := r.2 }
      match p.prepVecChunks s.entry r.1, meets with
      | some p, .reply reply stores => s.answered j p reply stores
      | some p, _ => (true, s.deallocVectors j p)
      | none, _ => (true, s.deallocVectors j p)

/-- `idpf_adi_destroy` -/
def destroy (s : AdiAdapter) (j : Nat) (p : AdiPriv) : AdiAdapter :=
  let t := s.deallocVectors j { p with resetState := .inprogress }
  { t with
    table := Function.update t.table p.adiId none
    device := Function.update t.device p.adiId false }

def count (s : AdiAdapter) (j : Nat) (n : Int) : AdiAdapter :=
  { s with refcnt := Function.update s.refcnt j n }

/-- `idpf_vdcm_dev_open` -/
def devOpen (s : AdiAdapter) (j : Nat) (p : AdiPriv) (meets : AdiOpen) : AdiAdapter :=
  if s.refcnt j = 0 then
    match s.create j p meets with
    | (true, t) => t
    | (false, t) => t.count j 1
  else s.count j (s.refcnt j + 1)

/-- `idpf_vdcm_dev_close` -/
def devClose (s : AdiAdapter) (j : Nat) (p : AdiPriv) : AdiAdapter :=
  let t := s.count j (s.refcnt j - 1)
  if s.refcnt j - 1 = 0 then t.destroy j p else t

/-- `idpf_notify_adi_reset`: it does not ask whether the table has the number. -/
def notifyAdiReset (s : AdiAdapter) (adiId : BitVec 16) (reset : Bool) : AdiAdapter :=
  match s.table (adiId.setWidth 32) with
  | none => { s with fault := true }
  | some j =>
    match s.adis j with
    | none => { s with fault := true }
    | some p => s.put j { p with resetState := if reset then .completed else .inprogress }

/-- One step. The number of vectors is set as the sysfs attribute does it. -/
def step (s : AdiAdapter) : AdiEvent → Option AdiAdapter
  | .alloc j heap =>
    if (s.adis j).isNone ∧ j < s.maxAdis then some ((s.put j (AdiPriv.fresh heap)).count j 0)
    else none
  | .setNumVectors j n =>
    (s.adis j).map fun p =>
      if n = 0 ∨ 65 < n ∨ s.refcnt j ≠ 0 then s else s.put j { p with numVectors := n }
  | .devOpen j meets => (s.adis j).map fun p => s.devOpen j p meets
  | .devClose j => (s.adis j).map fun p => s.devClose j p
  | .free j =>
    (s.adis j).map fun _ =>
      { s with
        adis := Function.update s.adis j none
        refcnt := Function.update s.refcnt j 0 }
  | .notify adiId reset => some (s.notifyAdiReset adiId reset)

/-- Opening the ADI gets as far as the message. -/
def requests (s : AdiAdapter) (j : Nat) : Bool :=
  s.refcnt j = 0 && (s.adis j).any fun p =>
    p.numVectors ≤ s.stack.numAvail && 1 < p.numVectors && p.numVectors ≤ 64

/-- The steps that leave everything in order: the device gives a new ADI a number that is not in
use, an ADI is freed while it is not open, and a notification is for a number that is known. -/
def ok (s : AdiAdapter) : AdiEvent → Bool
  | .devOpen j (.reply r _) => !s.requests j || (s.table (r.adiId.setWidth 32)).isNone
  | .free j => s.refcnt j ≤ 0
  | .notify adiId _ => (s.table (adiId.setWidth 32)).isSome
  | _ => true

/-- The vectors that ADIs hold. -/
def held (s : AdiAdapter) : Multiset Nat :=
  slotSum s.maxAdis s.adis fun p => (p.vecIndexes.getD [] : Multiset Nat)

/-- There is no ADI, and `pool` are the vectors that are free. -/
structure Start (pool : Multiset Nat) (s : AdiAdapter) : Prop where
  good : s.stack.Good
  free : (s.stack.free : Multiset Nat) = pool
  adis : ∀ j, s.adis j = none
  refcnt : ∀ j, s.refcnt j = 0
  table : ∀ id, s.table id = none
  fault : s.fault = false

/-- The table has the enabled ADIs under their numbers and nothing else, each vector is free or with
one ADI that is enabled, and the device still has the ADIs that are enabled. -/
structure Ownership (pool : Multiset Nat) (s : AdiAdapter) : Prop where
  table : ∀ id j, s.table id = some j ↔ s.live j ∧ ∃ p, s.adis j = some p ∧ p.adiId = id
  vectors : (s.stack.free : Multiset Nat) + s.held = pool
  holders : ∀ j p, s.adis j = some p → (p.vecIndexes.isSome ↔ s.live j)
  device : ∀ j p, s.adis j = some p → s.live j → s.device p.adiId = true
  healthy : s.fault = false

/-- The vectors, the table and the device are as they were. -/
structure Untouched (s t : AdiAdapter) : Prop where
  vectors : t.stack.free = s.stack.free
  held : t.held = s.held
  table : t.table = s.table
  device : t.device = s.device

/-- What an enable comes to that fails: the free vectors and the table are as before, no other ADI
is touched, and the device has lost at most the ADI of this request, whose number is nobody else's.
To close or free the ADI then gives nothing back again. -/
structure FailedEnable (s : AdiAdapter) (j : Nat) (meets : AdiOpen) (t : AdiAdapter) : Prop where
  vectors : t.stack.free = s.stack.free
  table : t.table = s.table
  others : ∀ k, k ≠ j → t.adis k = s.adis k
  device : ∀ id, t.device id ≠ s.device id → (∃ r stores, meets = .reply r stores ∧
    id = r.adiId.setWidth 32) ∧ ∀ k p, s.adis k = some p → s.live k → p.adiId ≠ id
  close : ∀ u, t.step (.devClose j) = some u → t.Untouched u
  free : ∀ u, t.step (.free j) = some u → t.Untouched u

structure Inv (pool : Multiset Nat) (s : AdiAdapter) : Prop where
  owned : s.Ownership pool
  good : s.stack.Good
  room : pool.card ≤ s.stack.size - s.stack.base
  inside : ∀ j p, s.adis j = some p → j < s.maxAdis
  there : ∀ j, s.live j → (s.adis j).isSome
  counts : ∀ j p vecs, s.adis j = some p → p.vecIndexes = some vecs → vecs.length = p.numVectors
  sized : ∀ j p, s.adis j = some p → p.qinfo.consistent

end AdiAdapter

namespace VecStack

variable {s : VecStack}

structure Same (s t : VecStack) : Prop where
  good : t.Good
  free : t.free = s.free
  size : t.size = s.size
  base : t.base = s.base

/-- What was taken can be given back. -/
theorem taken (good : s.Good) (num : Nat) :
    (s.reqRel false 0 num []).2.Good ∧
      (s.reqRel false 0 num []).1 ++ (s.reqRel false 0 num []).2.free = s.free ∧
      (s.reqRel false 0 num []).2.size = s.size ∧ (s.reqRel false 0 num []).2.base = s.base ∧
      (s.reqRel false 0 num []).1.length = min s.numAvail num ∧
      s.Same ((s.reqRel false 0 num []).2.reqRel false 0 0 (s.reqRel false 0 num []).1).2 := by
  obtain ⟨kept, move, size, base, length, -⟩ := reqRel_spec false 0 num [] good (Nat.zero_le _)
  generalize s.reqRel false 0 num [] = r at kept move size base length ⊢
  replace move : r.1 ++ r.2.free = s.free := move
  have lengths := congrArg List.length move
  have low := good.base_le
  have high := good.top_le
  have inside := kept.top_le
  rw [List.length_append, free_length, free_length] at lengths
  obtain ⟨back, free, size', base', -⟩ := @stash_spec r.2 r.1 kept (by omega)
  refine ⟨kept, move, size, base, ?_, ?_⟩
  · rw [length, grantedVecs]
    split
    next none => rw [none, Nat.min_zero]
    next some => rfl
  · exact ⟨back, free.trans move, size'.trans size, base'.trans base⟩

end VecStack

namespace AdiAdapter

variable {pool : Multiset Nat} {s t : AdiAdapter} {j : Nat} {p p' : AdiPriv}

/-- A change of one ADI that has to do with neither its vectors nor, while it is enabled, its
number. -/
theorem Inv.replace (inv : s.Inv pool) (there : s.adis j = some p) (stack : s.stack.Same t.stack)
    (adis : t.adis = Function.update s.adis j (some p')) (maxAdis : t.maxAdis = s.maxAdis)
    (table : t.table = s.table) (fault : t.fault = s.fault) (live : ∀ k, t.live k ↔ s.live k)
    (device : ∀ id k, s.table id = some k → t.device id = s.device id)
    (vecs : p'.vecIndexes = p.vecIndexes) (number : s.live j → p'.adiId = p.adiId)
    (count : s.live j → p'.numVectors = p.numVectors) (sized : p'.qinfo.consistent) :
    t.Inv pool := by
  have slot : ∀ {k q}, t.adis k = some q → k = j ∧ q = p' ∨ k ≠ j ∧ s.adis k = some q := by
    intro k q full
    rw [adis] at full
    exact filled_cases full
  have known : ∀ id k, t.table id = some k ↔
      t.live k ∧ ∃ q, t.adis k = some q ∧ q.adiId = id := by
    intro id k
    rw [table, inv.owned.table, live, adis]
    apply and_congr_right
    intro enabled
    by_cases here : k = j
    · subst here
      simp only [Function.update_self, there, Option.some.injEq, exists_eq_left',
        number enabled]
    · rw [Function.update_of_ne here]
  constructor
  · constructor
    · exact known
    · obtain ⟨rest, whole, -, filled⟩ := slotSum_split (inv.inside j p there) there
        fun p : AdiPriv => (p.vecIndexes.getD [] : Multiset Nat)
      have same : t.held = s.held := by
        rw [held, held, maxAdis, adis, filled, whole, vecs]
      rw [stack.free, same]
      exact inv.owned.vectors
    · intro k q full
      rw [live]
      rcases slot full with ⟨rfl, rfl⟩ | ⟨-, before⟩
      · rw [vecs]
        exact inv.owned.holders k p there
      · exact inv.owned.holders k q before
    · intro k q full enabled
      have entry := (known q.adiId k).mpr ⟨enabled, q, full, rfl⟩
      rw [table] at entry
      obtain ⟨enabled, q', before, number⟩ := (inv.owned.table _ _).mp entry
      rw [device _ _ entry, ← number]
      exact inv.owned.device k q' before enabled
    · exact fault.trans inv.owned.healthy
  · exact stack.good
  · rw [stack.size, stack.base]
    exact inv.room
  · intro k q full
    rw [maxAdis]
    rcases slot full with ⟨rfl, rfl⟩ | ⟨-, before⟩
    · exact inv.inside k p there
    · exact inv.inside k q before
  · intro k enabled
    rw [adis]
    by_cases here : k = j
    · rw [here, Function.update_self]
      rfl
    · rw [Function.update_of_ne here]
      exact inv.there k ((live k).mp enabled)
  · intro k q own full holds
    rcases slot full with ⟨rfl, rfl⟩ | ⟨-, before⟩
    · rw [vecs] at holds
      have enabled := (inv.owned.holders k p there).mp (Option.isSome_of_eq_some holds)
      rw [count enabled]
      exact inv.counts k p own there holds
    · exact inv.counts k q own before holds
  · intro k q full
    rcases slot full with ⟨rfl, rfl⟩ | ⟨-, before⟩
    · exact sized
    · exact inv.sized k q before

/-- The ADI has these vectors, as many as are set for it. -/
structure Has (p : AdiPriv) (vecs : List Nat) : Prop where
  indexes : p.vecIndexes = some vecs
  length : vecs.length = p.numVectors
  sized : p.qinfo.consistent

theorem Has.takeVectors {entry : Nat → BitVec 16} {vecs : List Nat} (sized : p.qinfo.consistent)
    (took : p.takeVectors entry vecs = some p') : Has p' vecs ∧ p'.numVectors = p.numVectors := by
  simp only [AdiPriv.takeVectors, Option.ite_none_right_eq_some, Option.some.injEq] at took
  obtain ⟨enough, rfl⟩ := took
  exact ⟨⟨rfl, enough, sized⟩, rfl⟩

theorem Has.prepVecChunks {entry : Nat → BitVec 16} {vecs vecs' : List Nat} (has : Has p vecs)
    (prepared : p.prepVecChunks entry vecs' = some p') :
    Has p' vecs ∧ 1 < p.numVectors ∧ p.numVectors ≤ 64 := by
  simp only [AdiPriv.prepVecChunks, Option.ite_none_left_eq_some, Option.some.injEq, not_or,
    Nat.not_le] at prepared
  obtain ⟨⟨several, few⟩, rfl⟩ := prepared
  exact ⟨⟨has.indexes, has.length, has.sized⟩, several, by omega⟩

theorem Has.accept {vecs : List Nat} (has : Has p vecs) (r : AdiReply) :
    Has (p.accept r).2 vecs ∧ (p.accept r).2.adiId = r.adiId.setWidth 32 := by
  have sized : (adiQidRegInit r.chunks adiKinds p.qinfo).2.consistent := has.sized.adiQidRegInit
  exact ⟨⟨has.indexes, has.length, sized⟩, rfl⟩

theorem deallocVectors_eq {vecs : List Nat} (s : AdiAdapter) (j : Nat) (has : Has p vecs) :
    s.deallocVectors j p =
      { s with stack := (s.stack.reqRel false 0 0 vecs).2 }.put j { p with vecIndexes := none } := by
  unfold deallocVectors
  rw [has.indexes]
  dsimp only
  rw [← has.length, List.take_length]

/-- An ADI that is not made: its vectors are free again, and the device has lost at most the ADI that
the reply named. -/
structure Refused (s : AdiAdapter) (j : Nat) (meets : AdiOpen) (t : AdiAdapter) : Prop where
  stack : s.stack.Same t.stack
  adi : ∃ p, t.adis = Function.update s.adis j (some p) ∧ p.vecIndexes = none ∧ p.qinfo.consistent
  maxAdis : t.maxAdis = s.maxAdis
  refcnt : t.refcnt = s.refcnt
  table : t.table = s.table
  fault : t.fault = s.fault
  device : ∀ id, t.device id ≠ s.device id → s.requests j = true ∧
    ∃ r stores, meets = .reply r stores ∧ id = r.adiId.setWidth 32

/-- An ADI that is made has vectors of the free ones, and a number that nobody has. -/
structure Made (s : AdiAdapter) (j : Nat) (p : AdiPriv) (vecs : List Nat) (t : AdiAdapter) :
    Prop where
  has : Has p vecs
  good : t.stack.Good
  free : vecs ++ t.stack.free = s.stack.free
  size : t.stack.size = s.stack.size
  base : t.stack.base = s.stack.base
  unused : s.table p.adiId = none
  state : t = { s with
    stack := t.stack
    adis := Function.update s.adis j (some p)
    table := Function.update s.table p.adiId (some j)
    device := Function.update s.device p.adiId true }

theorem refused_release {meets : AdiOpen} {num : Nat} {device : BitVec 32 → Bool}
    (good : s.stack.Good) (has : Has p (s.stack.reqRel false 0 num []).1)
    (lost : ∀ id, device id ≠ s.device id → s.requests j = true ∧
      ∃ r stores, meets = .reply r stores ∧ id = r.adiId.setWidth 32) :
    s.Refused j meets ({ s with
      stack := (s.stack.reqRel false 0 num []).2
      device := device }.deallocVectors j p) := by
  obtain ⟨-, -, -, -, -, back⟩ := VecStack.taken good num
  rw [deallocVectors_eq _ _ has]
  exact ⟨back, ⟨_, rfl, rfl, has.sized⟩, rfl, rfl, rfl, rfl, lost⟩

/-- What `idpf_adi_create` comes to. -/
theorem create_cases (meets : AdiOpen) (good : s.stack.Good) (there : s.adis j = some p)
    (closed : s.refcnt j = 0) (none : p.vecIndexes = none) (sized : p.qinfo.consistent) :
    (∃ t, s.create j p meets = (true, t) ∧ s.Refused j meets t) ∨
      ∃ t p' vecs, s.create j p meets = (false, t) ∧ s.Made j p' vecs t := by
  have nothing : ∀ id, s.device id ≠ s.device id → s.requests j = true ∧
      ∃ r stores, meets = .reply r stores ∧ id = r.adiId.setWidth 32 :=
    fun id lost => absurd rfl lost
  have untouched : s.Refused j meets s := by
    refine ⟨⟨good, rfl, rfl, rfl⟩, ⟨p, ?_, none, sized⟩, rfl, rfl, rfl, rfl, nothing⟩
    rw [← there, Function.update_eq_self]
  obtain ⟨kept, free, size, base, length, back⟩ := VecStack.taken good p.numVectors
  have few : s.Refused j meets ({ s with
      stack := ((s.stack.reqRel false 0 p.numVectors []).2.reqRel false 0 0
        (s.stack.reqRel false 0 p.numVectors []).1).2 }.put j { p with vecIndexes := Option.none }) :=
    ⟨back, ⟨_, rfl, rfl, sized⟩, rfl, rfl, rfl, rfl, nothing⟩
  cases meets with
  | noPasid => exact .inl ⟨s, rfl, untouched⟩
  | noMem => exact .inl ⟨s, rfl, untouched⟩
  | noIndexes =>
      exact .inl ⟨_, rfl, ⟨good, rfl, rfl, rfl⟩, ⟨_, rfl, rfl, sized⟩, rfl, rfl, rfl, rfl, nothing⟩
  | noReply =>
      left
      unfold create
      dsimp only
      split
      · exact ⟨_, rfl, few⟩
      next q took =>
        obtain ⟨has, same⟩ := Has.takeVectors sized took
        split
        next impossible => cases impossible
        next q' prepared _ => exact ⟨_, rfl, refused_release good (has.prepVecChunks prepared).1 nothing⟩
        next unprepared => exact ⟨_, rfl, refused_release good has nothing⟩
  | reply r stores =>
      unfold create
      dsimp only
      split
      · exact .inl ⟨_, rfl, few⟩
      next q took =>
        obtain ⟨has, same⟩ := Has.takeVectors sized took
        split
        next q' reply stores' prepared meets =>
          obtain ⟨rfl, rfl⟩ := AdiOpen.reply.inj meets
          obtain ⟨has', several, most⟩ := has.prepVecChunks prepared
          obtain ⟨has'', number⟩ := has'.accept r
          have asked : s.requests j = true := by
            have enough : p.numVectors ≤ s.stack.numAvail := by
              rw [← same, ← has.length, length]
              exact Nat.min_le_left _ _
            rw [same] at several most
            simp [requests, closed, there, enough, several, most]
          unfold answered
          dsimp only
          split
          · refine .inl ⟨_, rfl, refused_release good has'' ?_⟩
            intro id lost
            refine ⟨asked, r, stores, rfl, ?_⟩
            by_contra other
            rw [← number] at other
            exact lost (Function.update_of_ne other _ _)
          next accepted =>
            simp only [Bool.or_eq_true, not_or, Option.isSome_eq_false_iff, Option.isNone_iff_eq_none,
              Bool.not_eq_true] at accepted
            exact .inr ⟨_, { (q'.accept r).2 with resetState := .completed }, _, rfl,
              ⟨has''.indexes, has''.length, has''.sized⟩, kept, free, size, base, accepted.1.2, rfl⟩
        next q' prepared other => exact absurd rfl (other r stores)
        next unprepared => exact .inl ⟨_, rfl, refused_release good has nothing⟩

theorem Ownership.unique {k : Nat} (owned : s.Ownership pool) (there : s.adis j = some p)
    (enabled : s.live j) (there' : s.adis k = some p') (enabled' : s.live k)
    (same : p'.adiId = p.adiId) : k = j := by
  have entry := (owned.table p.adiId j).mpr ⟨enabled, p, there, rfl⟩
  have entry' := (owned.table p.adiId k).mpr ⟨enabled', p', there', same⟩
  exact Option.some.inj (entry'.symm.trans entry)

theorem live_count {k : Nat} {n : Int} (other : k ≠ j) : (s.count j n).live k ↔ s.live k := by
  change 0 < Function.update s.refcnt j n k ↔ 0 < s.refcnt k
  rw [Function.update_of_ne other]

theorem live_count_self {n : Int} : (s.count j n).live j ↔ 0 < n := by
  change 0 < Function.update s.refcnt j n j ↔ 0 < n
  rw [Function.update_self]

theorem Inv.empty (inv : s.Inv pool) (there : s.adis j = some p) (disabled : ¬ s.live j) :
    p.vecIndexes = none := by
  by_contra full
  exact disabled ((inv.owned.holders j p there).mp (Option.isSome_iff_ne_none.mpr full))

theorem Inv.refused {meets : AdiOpen} (inv : s.Inv pool) (there : s.adis j = some p)
    (disabled : ¬ s.live j) (good : s.ok (.devOpen j meets) = true)
    (refused : s.Refused j meets t) : t.Inv pool := by
  obtain ⟨p', adis, none, sized⟩ := refused.adi
  refine inv.replace there refused.stack adis refused.maxAdis refused.table refused.fault ?_ ?_
    (none.trans (inv.empty there disabled).symm) (absurd · disabled) (absurd · disabled) sized
  · intro k
    rw [live, live, refused.refcnt]
  · intro id k entry
    by_contra lost
    obtain ⟨asked, r, stores, rfl, rfl⟩ := refused.device id lost
    simp only [ok, asked, Bool.not_true, Bool.false_or, entry, Option.isNone_some] at good
    cases good

theorem Inv.recount {n : Int} (inv : s.Inv pool) (there : s.adis j = some p)
    (same : 0 < n ↔ s.live j) : (s.count j n).Inv pool := by
  have adis : (s.count j n).adis = Function.update s.adis j (some p) := by
    rw [← there, Function.update_eq_self]
    rfl
  refine inv.replace there ⟨inv.good, rfl, rfl, rfl⟩ adis rfl rfl rfl ?_ (fun _ _ _ => rfl) rfl
    (fun _ => rfl) (fun _ => rfl) (inv.sized j p there)
  intro k
  by_cases here : k = j
  · rw [here]
    exact live_count_self.trans same
  · exact live_count here

theorem Inv.made {vecs : List Nat} (inv : s.Inv pool) (there : s.adis j = some p)
    (disabled : ¬ s.live j) (made : s.Made j p' vecs t) : (t.count j 1).Inv pool := by
  have empty := inv.empty there disabled
  obtain ⟨has, good, free, size, base, unused, state⟩ := made
  have slot : ∀ {k q}, (t.count j 1).adis k = some q →
      k = j ∧ q = p' ∨ k ≠ j ∧ s.adis k = some q := by
    intro k q full
    rw [state] at full
    exact filled_cases full
  have enabled : ∀ k, (t.count j 1).live k ↔ k = j ∨ s.live k := by
    intro k
    rw [state]
    by_cases here : k = j
    · rw [here]
      exact iff_of_true (live_count_self.mpr one_pos) (.inl rfl)
    · rw [or_iff_right here]
      exact live_count here
  constructor
  · constructor
    · intro id k
      rw [enabled, state]
      change Function.update s.table p'.adiId (some j) id = some k ↔
        _ ∧ ∃ q, Function.update s.adis j (some p') k = some q ∧ q.adiId = id
      by_cases here : k = j
      · rw [here, Function.update_self]
        simp only [true_or, Option.some.injEq, exists_eq_left', true_and]
        constructor
        · intro entry
          by_contra other
          rw [Function.update_of_ne (Ne.symm other)] at entry
          exact disabled ((inv.owned.table id j).mp entry).1
        · intro number
          rw [number, Function.update_self]
      · rw [or_iff_right here, Function.update_of_ne here]
        by_cases number : id = p'.adiId
        · rw [number, Function.update_self, ← inv.owned.table, unused]
          simp [Ne.symm here]
        · rw [Function.update_of_ne number, inv.owned.table]
    · obtain ⟨rest, whole, -, filled⟩ := slotSum_split (inv.inside j p there) there
        fun p : AdiPriv => (p.vecIndexes.getD [] : Multiset Nat)
      have before := inv.owned.vectors
      rw [held, whole, empty] at before
      have after : (t.count j 1).held = (vecs : Multiset Nat) + rest := by
        rw [state]
        change slotSum s.maxAdis (Function.update s.adis j (some p')) _ = _
        rw [filled, has.indexes, Option.getD_some]
      rw [after]
      exact VecAdapter.conserved_of_move before free
    · intro k q full
      rw [enabled]
      rcases slot full with ⟨rfl, rfl⟩ | ⟨other, before⟩
      · rw [has.indexes]
        exact iff_of_true rfl (.inl rfl)
      · rw [or_iff_right other]
        exact inv.owned.holders k q before
    · intro k q full live
      rw [state]
      change Function.update s.device p'.adiId true q.adiId = true
      by_cases number : q.adiId = p'.adiId
      · rw [number, Function.update_self]
      · rw [Function.update_of_ne number]
        rcases slot full with ⟨-, rfl⟩ | ⟨other, before⟩
        · exact absurd rfl number
        · exact inv.owned.device k q before (((enabled k).mp live).resolve_left other)
    · rw [state]
      exact inv.owned.healthy
  · exact good
  · change pool.card ≤ t.stack.size - t.stack.base
    rw [size, base]
    exact inv.room
  · intro k q full
    rw [state]
    rcases slot full with ⟨rfl, rfl⟩ | ⟨-, before⟩
    · exact inv.inside k p there
    · exact inv.inside k q before
  · intro k live
    rw [state]
    change (Function.update s.adis j (some p') k).isSome = true
    by_cases here : k = j
    · rw [here, Function.update_self]
      rfl
    · rw [Function.update_of_ne here]
      exact inv.there k (((enabled k).mp live).resolve_left here)
  · intro k q own full holds
    rcases slot full with ⟨rfl, rfl⟩ | ⟨-, before⟩
    · rw [has.indexes] at holds
      exact Option.some.inj holds ▸ has.length
    · exact inv.counts k q own before holds
  · intro k q full
    rcases slot full with ⟨rfl, rfl⟩ | ⟨-, before⟩
    · exact has.sized
    · exact inv.sized k q before

/-- The ADI has given back its vectors and its number. -/
def emptied (s : AdiAdapter) (j : Nat) (p : AdiPriv) (vecs : List Nat) : AdiAdapter :=
  { s with
    stack := s.stack.stash vecs
    adis := Function.update s.adis j
      (some { p with
        vecIndexes := none
        resetState := .inprogress })
    refcnt := Function.update s.refcnt j 0
    table := Function.update s.table p.adiId none
    device := Function.update s.device p.adiId false }

section Emptied
variable {vecs : List Nat} {k : Nat} {q : AdiPriv}

theorem destroy_eq (has : Has { p with resetState := .inprogress } vecs) :
    (s.count j 0).destroy j p = s.emptied j p vecs := by
  unfold AdiAdapter.destroy
  rw [deallocVectors_eq _ _ has]
  rfl

theorem live_emptied : (s.emptied j p vecs).live k ↔ k ≠ j ∧ s.live k := by
  change 0 < Function.update s.refcnt j 0 k ↔ _
  by_cases here : k = j
  · rw [here, Function.update_self]
    simp
  · rw [Function.update_of_ne here, and_iff_right here]
    rfl

theorem emptied_cases (full : (s.emptied j p vecs).adis k = some q) :
    k = j ∧ q = { p with
      vecIndexes := none
      resetState := .inprogress } ∨ k ≠ j ∧ s.adis k = some q :=
  filled_cases full

/-- The table loses the number of the ADI and nothing else. -/
theorem Ownership.emptied_table (owned : s.Ownership pool) (there : s.adis j = some p)
    (enabled : s.live j) (id : BitVec 32) (k : Nat) : (s.emptied j p vecs).table id = some k ↔
      (s.emptied j p vecs).live k ∧
        ∃ q, (s.emptied j p vecs).adis k = some q ∧ q.adiId = id := by
  rw [live_emptied]
  show Function.update s.table p.adiId none id = some k ↔
    _ ∧ ∃ q, Function.update s.adis j _ k = some q ∧ q.adiId = id
  by_cases here : k = j
  · rw [here]
    refine iff_of_false ?_ (fun right => right.1.1 rfl)
    intro entry
    obtain ⟨other, entry⟩ := emptied_ne entry
    obtain ⟨-, q, there', number⟩ := (owned.table id j).mp entry
    rw [there] at there'
    exact other (Option.some.inj there' ▸ number.symm)
  · rw [Function.update_of_ne here, and_iff_right here, ← owned.table]
    by_cases number : id = p.adiId
    · rw [number, Function.update_self]
      refine iff_of_false (Option.some_ne_none k).symm ?_
      intro entry
      obtain ⟨enabled', q, there', same⟩ := (owned.table _ _).mp entry
      exact here (owned.unique there enabled there' enabled' same)
    · rw [Function.update_of_ne number]

theorem Ownership.emptied (owned : s.Ownership pool) (there : s.adis j = some p)
    (enabled : s.live j) (inside : j < s.maxAdis) (indexes : p.vecIndexes = some vecs)
    (free : (s.stack.stash vecs).free = vecs ++ s.stack.free) :
    (s.emptied j p vecs).Ownership pool where
  table := owned.emptied_table there enabled
  vectors := by
    obtain ⟨rest, whole, -, filled⟩ := slotSum_split inside there
      fun p : AdiPriv => (p.vecIndexes.getD [] : Multiset Nat)
    have before := owned.vectors
    rw [held, whole, indexes, Option.getD_some] at before
    have after : (s.emptied j p vecs).held = ([] : List Nat) + rest := filled _
    rw [after]
    exact VecAdapter.conserved_of_move before free
  holders k q full := by
    rw [live_emptied]
    rcases emptied_cases full with ⟨rfl, rfl⟩ | ⟨other, there'⟩
    · simp
    · rw [and_iff_right other]
      exact owned.holders k q there'
  device k q full alive := by
    obtain ⟨other, enabled'⟩ := live_emptied.mp alive
    rcases emptied_cases full with ⟨here, -⟩ | ⟨-, there'⟩
    · exact absurd here other
    · change Function.update s.device p.adiId false q.adiId = true
      have unique : q.adiId ≠ p.adiId := fun same =>
        other (owned.unique there enabled there' enabled' same)
      rw [Function.update_of_ne unique]
      exact owned.device k q there' enabled'
  healthy := owned.healthy

theorem Inv.room_of (inv : s.Inv pool) (there : s.adis j = some p)
    (indexes : p.vecIndexes = some vecs) : vecs.length ≤ s.stack.top - s.stack.base := by
  obtain ⟨rest, whole, -, -⟩ := slotSum_split (inv.inside j p there) there
    fun p : AdiPriv => (p.vecIndexes.getD [] : Multiset Nat)
  have before := inv.owned.vectors
  rw [held, whole, indexes, Option.getD_some] at before
  have cards := congrArg Multiset.card before
  have pool := inv.room
  have high := inv.good.top_le
  have low := inv.good.base_le
  rw [Multiset.card_add, Multiset.card_add, Multiset.coe_card, Multiset.coe_card,
    VecStack.free_length] at cards
  omega

end Emptied

theorem Inv.destroy (inv : s.Inv pool) (there : s.adis j = some p) (enabled : s.live j) :
    ((s.count j 0).destroy j p).Inv pool := by
  obtain ⟨vecs, indexes⟩ := Option.isSome_iff_exists.mp ((inv.owned.holders j p there).mpr enabled)
  have has : Has { p with resetState := .inprogress } vecs :=
    ⟨indexes, inv.counts j p vecs there indexes, inv.sized j p there⟩
  obtain ⟨good, free, size, base, -⟩ := VecStack.stash_spec inv.good (inv.room_of there indexes)
  rw [destroy_eq has]
  refine ⟨inv.owned.emptied there enabled (inv.inside j p there) indexes free, good, ?_, ?_, ?_,
    ?_, ?_⟩
  · change pool.card ≤ (s.stack.stash vecs).size - (s.stack.stash vecs).base
    rw [size, base]
    exact inv.room
  · intro k q full
    rcases emptied_cases full with ⟨rfl, -⟩ | ⟨-, there'⟩
    · exact inv.inside k p there
    · exact inv.inside k q there'
  · intro k alive
    obtain ⟨other, enabled'⟩ := live_emptied.mp alive
    change (Function.update s.adis j _ k).isSome = true
    rw [Function.update_of_ne other]
    exact inv.there k enabled'
  · intro k q own full holds
    rcases emptied_cases full with ⟨rfl, rfl⟩ | ⟨-, there'⟩
    · cases holds
    · exact inv.counts k q own there' holds
  · intro k q full
    rcases emptied_cases full with ⟨rfl, rfl⟩ | ⟨-, there'⟩
    · exact inv.sized k p there
    · exact inv.sized k q there'

theorem Inv.alloc {heap : Nat → BitVec 32} (inv : s.Inv pool) (absent : s.adis j = none)
    (inside : j < s.maxAdis) : ((s.put j (AdiPriv.fresh heap)).count j 0).Inv pool := by
  have disabled : ¬ s.live j := by
    intro enabled
    have some := inv.there j enabled
    rw [absent] at some
    cases some
  generalize state : (s.put j (AdiPriv.fresh heap)).count j 0 = t
  have live : ∀ k, t.live k ↔ s.live k := by
    intro k
    rw [← state]
    by_cases here : k = j
    · rw [here]
      exact iff_of_false (fun enabled => absurd (live_count_self.mp enabled) (by decide)) disabled
    · exact live_count here
  have adis : t.adis = Function.update s.adis j (some (AdiPriv.fresh heap)) := state ▸ rfl
  have slot : ∀ {k q}, t.adis k = some q →
      k = j ∧ q = AdiPriv.fresh heap ∨ k ≠ j ∧ s.adis k = some q := by
    intro k q full
    rw [adis] at full
    exact filled_cases full
  constructor
  · constructor
    · intro id k
      rw [live, adis, show t.table = s.table from state ▸ rfl, inv.owned.table]
      apply and_congr_right
      intro enabled
      have other : k ≠ j := fun here => disabled (here ▸ enabled)
      rw [Function.update_of_ne other]
    · have same : t.held = s.held := by
        have filled := slotSum_fill inside absent (AdiPriv.fresh heap)
          fun p : AdiPriv => (p.vecIndexes.getD [] : Multiset Nat)
        rw [held, adis, show t.maxAdis = s.maxAdis from state ▸ rfl, filled]
        exact zero_add _
      rw [same, ← state]
      exact inv.owned.vectors
    · intro k q full
      rw [live]
      rcases slot full with ⟨rfl, rfl⟩ | ⟨-, before⟩
      · exact iff_of_false Bool.false_ne_true disabled
      · exact inv.owned.holders k q before
    · intro k q full enabled
      have before := (live k).mp enabled
      rcases slot full with ⟨rfl, -⟩ | ⟨-, there⟩
      · exact absurd before disabled
      · rw [← state]
        exact inv.owned.device k q there before
    · rw [← state]
      exact inv.owned.healthy
  · rw [← state]
    exact inv.good
  · rw [← state]
    exact inv.room
  · intro k q full
    rw [show t.maxAdis = s.maxAdis from state ▸ rfl]
    rcases slot full with ⟨rfl, -⟩ | ⟨-, before⟩
    · exact inside
    · exact inv.inside k q before
  · intro k enabled
    have before := (live k).mp enabled
    have other : k ≠ j := fun here => disabled (here ▸ before)
    rw [adis, Function.update_of_ne other]
    exact inv.there k before
  · intro k q own full holds
    rcases slot full with ⟨rfl, rfl⟩ | ⟨-, before⟩
    · cases holds
    · exact inv.counts k q own before holds
  · intro k q full
    rcases slot full with ⟨rfl, rfl⟩ | ⟨-, before⟩
    · exact AdiPriv.fresh_consistent heap
    · exact inv.sized k q before

theorem Inv.held_without (inv : s.Inv pool) (there : s.adis j = some p) (disabled : ¬ s.live j) :
    slotSum s.maxAdis (Function.update s.adis j none)
      (fun p => (p.vecIndexes.getD [] : Multiset Nat)) = s.held := by
  obtain ⟨rest, whole, gone, -⟩ := slotSum_split (inv.inside j p there) there
    fun p : AdiPriv => (p.vecIndexes.getD [] : Multiset Nat)
  rw [gone, held, whole, inv.empty there disabled]
  exact (zero_add rest).symm

theorem Inv.free (inv : s.Inv pool) (there : s.adis j = some p) (disabled : ¬ s.live j) :
    ({ s with
      adis := Function.update s.adis j none
      refcnt := Function.update s.refcnt j 0 } : AdiAdapter).Inv pool := by
  generalize state : ({ s with
    adis := Function.update s.adis j none
    refcnt := Function.update s.refcnt j 0 } : AdiAdapter) = t
  have live : ∀ k, t.live k ↔ s.live k := by
    intro k
    rw [← state]
    by_cases here : k = j
    · rw [here]
      exact iff_of_false (fun enabled => absurd (live_count_self.mp enabled) (by decide)) disabled
    · exact live_count here
  have adis : t.adis = Function.update s.adis j none := state ▸ rfl
  have slot : ∀ {k q}, t.adis k = some q → s.adis k = some q := by
    intro k q full
    rw [adis] at full
    exact (emptied_ne full).2
  have kept : ∀ {k}, s.live k → t.adis k = s.adis k := by
    intro k enabled
    have other : k ≠ j := fun here => disabled (here ▸ enabled)
    rw [adis, Function.update_of_ne other]
  constructor
  · constructor
    · intro id k
      rw [live, show t.table = s.table from state ▸ rfl, inv.owned.table]
      apply and_congr_right
      intro enabled
      rw [kept enabled]
    · rw [← state]
      show (s.stack.free : Multiset Nat) + slotSum s.maxAdis (Function.update s.adis j none) _ = pool
      rw [inv.held_without there disabled]
      exact inv.owned.vectors
    · intro k q full
      rw [live]
      exact inv.owned.holders k q (slot full)
    · intro k q full enabled
      rw [← state]
      exact inv.owned.device k q (slot full) ((live k).mp enabled)
    · rw [← state]
      exact inv.owned.healthy
  · rw [← state]
    exact inv.good
  · rw [← state]
    exact inv.room
  · intro k q full
    rw [show t.maxAdis = s.maxAdis from state ▸ rfl]
    exact inv.inside k q (slot full)
  · intro k enabled
    have before := (live k).mp enabled
    rw [kept before]
    exact inv.there k before
  · exact fun k q own full => inv.counts k q own (slot full)
  · exact fun k q full => inv.sized k q (slot full)

/-- An ADI is refused or made where it is opened for the first time, else only the count goes up. -/
theorem devOpen_cases (meets : AdiOpen) (inv : s.Inv pool) (there : s.adis j = some p) :
    ¬ s.live j ∧ s.Refused j meets (s.devOpen j p meets) ∨
      (∃ t p' vecs, ¬ s.live j ∧ s.Made j p' vecs t ∧ s.devOpen j p meets = t.count j 1) ∨
      s.refcnt j ≠ 0 ∧ s.devOpen j p meets = s.count j (s.refcnt j + 1) := by
  by_cases closed : s.refcnt j = 0
  · have disabled : ¬ s.live j := by
      rw [live, closed]
      exact Int.lt_irrefl 0
    unfold devOpen
    rw [if_pos closed]
    obtain ⟨t, made, refused⟩ | ⟨t, p', vecs, created, made⟩ := create_cases meets inv.good there
      closed (inv.empty there disabled) (inv.sized j p there)
    · rw [made]
      exact .inl ⟨disabled, refused⟩
    · rw [created]
      exact .inr (.inl ⟨t, p', vecs, disabled, made, rfl⟩)
  · unfold devOpen
    rw [if_neg closed]
    exact .inr (.inr ⟨closed, rfl⟩)

theorem Inv.devOpen {meets : AdiOpen} (inv : s.Inv pool) (there : s.adis j = some p)
    (good : s.ok (.devOpen j meets) = true) : (s.devOpen j p meets).Inv pool := by
  obtain ⟨disabled, refused⟩ | ⟨t, p', vecs, disabled, made, opened⟩ | ⟨counted, opened⟩ :=
    devOpen_cases meets inv there
  · exact inv.refused there disabled good refused
  · rw [opened]
    exact inv.made there disabled made
  · rw [opened]
    apply inv.recount there
    unfold live
    omega

theorem Inv.devClose (inv : s.Inv pool) (there : s.adis j = some p) :
    (s.devClose j p).Inv pool := by
  unfold AdiAdapter.devClose
  dsimp only
  split
  next last =>
    rw [last]
    apply inv.destroy there
    unfold live
    omega
  next counted =>
    apply inv.recount there
    unfold live
    omega

theorem Inv.notify {adiId : BitVec 16} {reset : Bool} (inv : s.Inv pool)
    (known : (s.table (adiId.setWidth 32)).isSome = true) :
    (s.notifyAdiReset adiId reset).Inv pool := by
  obtain ⟨j, entry⟩ := Option.isSome_iff_exists.mp known
  obtain ⟨-, p, there, -⟩ := (inv.owned.table _ _).mp entry
  unfold notifyAdiReset
  rw [entry]
  dsimp only
  rw [there]
  exact inv.replace there ⟨inv.good, rfl, rfl, rfl⟩ rfl rfl rfl rfl (fun _ => Iff.rfl)
    (fun _ _ _ => rfl) rfl (fun _ => rfl) (fun _ => rfl) (inv.sized j p there)

theorem Inv.step {event : AdiEvent} (inv : s.Inv pool) (good : s.ok event = true)
    (stepped : s.step event = some t) : t.Inv pool := by
  cases event with
  | alloc j heap =>
      obtain ⟨⟨absent, inside⟩, state⟩ := Option.ite_none_right_eq_some.mp stepped
      obtain rfl := Option.some.inj state
      exact inv.alloc (Option.isNone_iff_eq_none.mp absent) inside
  | setNumVectors j n =>
      obtain ⟨p, there, rfl⟩ := Option.map_eq_some_iff.mp stepped
      split
      · exact inv
      next allowed =>
        have disabled : ¬ s.live j := by
          unfold live
          omega
        exact inv.replace there ⟨inv.good, rfl, rfl, rfl⟩ rfl rfl rfl rfl (fun _ => Iff.rfl)
          (fun _ _ _ => rfl) rfl (fun _ => rfl) (absurd · disabled) (inv.sized j p there)
  | devOpen j meets =>
      obtain ⟨p, there, rfl⟩ := Option.map_eq_some_iff.mp stepped
      exact inv.devOpen there good
  | devClose j =>
      obtain ⟨p, there, rfl⟩ := Option.map_eq_some_iff.mp stepped
      exact inv.devClose there
  | free j =>
      obtain ⟨p, there, rfl⟩ := Option.map_eq_some_iff.mp stepped
      exact inv.free there (Int.not_lt.mpr (of_decide_eq_true good))
  | notify adiId reset =>
      obtain rfl := Option.some.inj stepped
      exact inv.notify good

theorem Start.inv (start : s.Start pool) : s.Inv pool := by
  have none : s.adis = fun _ => Option.none := funext start.adis
  have disabled : ∀ j, ¬ s.live j := by
    intro j
    rw [live, start.refcnt j]
    exact Int.lt_irrefl 0
  have absent : ∀ {j p}, s.adis j ≠ some p :=
    fun full => Option.some_ne_none _ (full.symm.trans (start.adis _))
  constructor
  · constructor
    · intro id j
      rw [start.table id]
      exact iff_of_false (Option.some_ne_none j).symm fun right => disabled j right.1
    · rw [held, none, slotSum_none, add_zero]
      exact start.free
    · exact fun j p full => absurd full absent
    · exact fun j p full => absurd full absent
    · exact start.fault
  · exact start.good
  · have low := start.good.base_le
    rw [← start.free, Multiset.coe_card, VecStack.free_length]
    omega
  · exact fun j p full => absurd full absent
  · exact fun j enabled => absurd enabled (disabled j)
  · exact fun j p vecs full => absurd full absent
  · exact fun j p full => absurd full absent

theorem Inv.untouched {u : AdiAdapter} (inv : s.Inv pool) (disabled : ¬ s.live j) :
    (s.step (.devClose j) = some u → s.Untouched u) ∧
      (s.step (.free j) = some u → s.Untouched u) := by
  constructor
  · intro stepped
    obtain ⟨p, there, rfl⟩ := Option.map_eq_some_iff.mp stepped
    unfold live at disabled
    rw [AdiAdapter.devClose, if_neg (by omega)]
    exact ⟨rfl, rfl, rfl, rfl⟩
  · intro stepped
    obtain ⟨p, there, rfl⟩ := Option.map_eq_some_iff.mp stepped
    exact ⟨rfl, inv.held_without there disabled, rfl, rfl⟩

theorem Inv.failed {meets : AdiOpen} (inv : s.Inv pool) (good : s.ok (.devOpen j meets) = true)
    (stepped : s.step (.devOpen j meets) = some t) (disabled : ¬ t.live j) :
    s.FailedEnable j meets t := by
  have after := inv.step good stepped
  obtain ⟨p, there, rfl⟩ := Option.map_eq_some_iff.mp stepped
  have close := fun u => (after.untouched (u := u) disabled).1
  have free := fun u => (after.untouched (u := u) disabled).2
  obtain ⟨-, refused⟩ | ⟨t, p', vecs, -, -, opened⟩ | ⟨-, opened⟩ := devOpen_cases meets inv there
  · obtain ⟨p', adis, -, -⟩ := refused.adi
    refine ⟨refused.stack.free, refused.table, ?_, ?_, close, free⟩
    · intro k other
      rw [adis, Function.update_of_ne other]
    · intro id lost
      obtain ⟨asked, r, stores, rfl, rfl⟩ := refused.device id lost
      refine ⟨⟨r, stores, rfl, rfl⟩, ?_⟩
      intro k q there' enabled number
      have entry := (inv.owned.table _ k).mpr ⟨enabled, q, there', number⟩
      simp only [ok, asked, entry, Option.isNone_some, Bool.not_true, Bool.or_self] at good
      cases good
  · rw [opened] at disabled
    exact absurd (live_count_self.mpr one_pos) disabled
  · rw [opened] at close free ⊢
    exact ⟨rfl, rfl, fun _ _ => rfl, fun _ lost => absurd rfl lost, close, free⟩

/-- In a run in which the device gives each new ADI a number that is not in use, no ADI is freed while
it is open, and each notification is for a number that is known: everything has its one owner in
every state, and an enable that fails gives back what it took and nothing else, once. -/
theorem adis_owned
    (run : Reachable step (fun s event => s.ok event = true) (Start pool) s) :
    s.Ownership pool ∧ ∀ j meets t, s.ok (.devOpen j meets) = true →
      s.step (.devOpen j meets) = some t → ¬ t.live j → s.FailedEnable j meets t := by
  have inv := run.invariant (I := Inv pool) (fun _ start => start.inv) fun _ _ _ inv good stepped =>
    inv.step good stepped
  exact ⟨inv.owned, fun j meets t good stepped disabled => inv.failed good stepped disabled⟩

/-- The vectors from 1 to 23 are free, and there can be four ADIs. -/
def fourAdis : AdiAdapter where
  stack :=
    { size := 24
      base := 1
      top := 1
      vecIdx := id
      numAvail := 23
      full := false }
  entry := BitVec.ofNat 16
  maxAdis := 4
  adis := fun _ => none
  refcnt := fun _ => 0
  table := fun _ => none
  device := fun _ => false
  fault := false

theorem fourAdis_start : fourAdis.Start (List.range' 1 23) := by
  constructor
  · constructor
    · exact Nat.le_refl 1
    · change 1 ≤ 24
      decide
    · change 24 < 65536
      decide
    · rfl
    · exact fun _ _ => rfl
    · rfl
  · rfl
  · exact fun _ => rfl
  · exact fun _ => rfl
  · exact fun _ => rfl
  · rfl

/-- Two ADIs are opened and closed, one of them after a message that fails; then one is refused whose
reply has no queues. -/
theorem adis_owned_run : ∃ s t, Reachable step (fun s event => s.ok event = true)
      (Start (List.range' 1 23)) s ∧ s.Ownership (List.range' 1 23) ∧ s.stack.top = 10 ∧
    s.step (.devOpen 1 (.reply ⟨7, 5, []⟩ true)) = some t ∧
      s.FailedEnable 1 (.reply ⟨7, 5, []⟩ true) t := by
  have run : (execIf step ok fourAdis
      [.alloc 0 fun _ => 0, .devOpen 0 (.reply AdiPriv.twoOfEach true), .alloc 1 fun _ => 0,
        .setNumVectors 1 4, .devOpen 1 .noReply, .devClose 1, .devOpen 1 .noPasid,
        .devOpen 1 (.reply { AdiPriv.twoOfEach with adiId := 5 } true), .devOpen 1 .noMem,
        .notify 5 false, .devClose 1, .devClose 1]).map (fun s => (s.stack.top,
          s.ok (.devOpen 1 (.reply ⟨7, 5, []⟩ true)),
          (s.step (.devOpen 1 (.reply ⟨7, 5, []⟩ true))).map fun t => t.refcnt 1)) =
        some (10, true, some 0) := by
    decide +kernel
  obtain ⟨s, run, facts⟩ := Option.map_eq_some_iff.mp run
  obtain ⟨top, facts⟩ := Prod.mk.inj facts
  obtain ⟨good, refused⟩ := Prod.mk.inj facts
  obtain ⟨t, stepped, closed⟩ := Option.map_eq_some_iff.mp refused
  have reached := Reachable.execIf (.start fourAdis_start) run
  have disabled : ¬ t.live 1 := by
    rw [live, closed]
    exact Int.lt_irrefl 0
  exact ⟨s, t, reached, (adis_owned reached).1, top, stepped,
    (adis_owned reached).2 1 _ t good stepped disabled⟩

/-- A second ADI is created with the number of the first: the device is told to destroy the first. And
a notification for a number that nobody has follows NULL. -/
theorem duplicate_adi_destroyed : (∃ s, Reachable step anyStep (Start (List.range' 1 23)) s ∧
      s.live 0 ∧ s.device 3 = false ∧ ¬ s.Ownership (List.range' 1 23)) ∧
    ∃ s, Reachable step anyStep (Start (List.range' 1 23)) s ∧ s.fault = true := by
  constructor
  · have run : (exec step fourAdis
        [.alloc 0 fun _ => 0, .devOpen 0 (.reply AdiPriv.twoOfEach true), .alloc 1 fun _ => 0,
          .devOpen 1 (.reply AdiPriv.twoOfEach true)]).map (fun s => (s.refcnt 0, s.device 3,
            (s.adis 0).map AdiPriv.adiId)) = some (1, false, some 3) := by
      decide +kernel
    obtain ⟨s, run, facts⟩ := Option.map_eq_some_iff.mp run
    obtain ⟨count, facts⟩ := Prod.mk.inj facts
    obtain ⟨destroyed, there⟩ := Prod.mk.inj facts
    obtain ⟨p, there, number⟩ := Option.map_eq_some_iff.mp there
    have enabled : s.live 0 := by
      rw [live, count]
      exact Int.one_pos
    refine ⟨s, Reachable.exec (.start fourAdis_start) run, enabled, destroyed, ?_⟩
    intro owned
    have kept := owned.device 0 p there enabled
    rw [number, destroyed] at kept
    cases kept
  · have run : (exec step fourAdis [.notify 3 true]).map fault = some true := by
      decide +kernel
    obtain ⟨s, run, broken⟩ := Option.map_eq_some_iff.mp run
    exact ⟨s, Reachable.exec (.start fourAdis_start) run, broken⟩

end AdiAdapter

end Idpf
