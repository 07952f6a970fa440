import Idpf.General.Cursor
import Idpf.General.Slots
import Idpf.General.Transition
import Mathlib.Data.List.Perm.Basic
import Mathlib.Data.List.Range

/-! Subfunctions: devlink port creation, deletion and state changes, and the cleanup task. devlink
runs one operation at a time; the cleanup task runs beside them, and gives up the mutex around each
subfunction that it destroys. -/
namespace Idpf
open General

/-- `IDPF_MAX_DYNAMIC_VPORT` -/
def maxDynamicVport : Nat := 925

/-- `enum devlink_port_fn_state` -/
inductive FnState where
  | inactive
  | active
  deriving DecidableEq, Repr

/-- A vport, with the subfunction that it was made for. -/
structure SfVport where
  serial : Nat
  idx : Nat
  defaultVport : Bool
  madeFor : Option Nat
  deriving DecidableEq, Repr

/-- `struct idpf_sf`; `asked` is the state that the last successful change asked for. -/
structure Sf where
  sfId : BitVec 16
  sfnum : BitVec 32
  deleted : Bool
  state : FnState
  vport : Option SfVport
  asked : FnState
  deriving DecidableEq, Repr

/-- How the driver is built (`HAVE_DEVLINK_PORT_OPS`, `HAVE_DEVL_PORT_REG_WITH_OPS_AND_UNREG`), and
the vports that the device offers. -/
structure SfBuild where
  portOps : Bool
  unregisters : Bool
  maxVports : Nat
  numDefaultVports : Nat

inductive DevlinkErr where
  | einval
  | eexist
  | eagain
  | enomem
  | register
  deriving DecidableEq, Repr

/-- What `idpf_vport_dealloc` is about to do. -/
inductive Dealloc where
  | clear (v : SfVport)
  | rel (v : SfVport)
  | scan
  | store (next : Option Nat)
  deriving DecidableEq, Repr

/-- What `idpf_destroy_sf` is about to do. -/
inductive Destroy where
  | look
  | seen
  | dealloc (d : Dealloc)
  | unregister
  | free
  deriving DecidableEq, Repr

/-- What `idpf_init_task` is about to do for a state change. -/
inductive InitTask where
  | queued
  | alloc (idx : Option Nat)
  | scan (v : SfVport)
  | store (v : SfVport) (next : Option Nat)
  | made (v : SfVport)
  | unwind (d : Dealloc)
  | done
  deriving DecidableEq, Repr

/-- The devlink operation in progress: a port has been registered but is not in the list yet, a
subfunction is marked and the task not yet scheduled, or `idpf_destroy_sf` runs, or a state change
has read `next_vport`. -/
inductive DevlinkOp where
  | idle
  | adding (p : Nat)
  | scheduling
  | deleting
  | changing (p : Nat) (state : FnState) (nextVport : Nat) (task : InitTask)
  deriving DecidableEq, Repr

/-- The adapter. `walk` is the saved next entry of the cleanup task, `dying` the subfunction that is
being destroyed; the last four fields are what has been made and is gone. -/
structure SfAdapter where
  sfs : Nat → Option Sf
  sfList : List Nat
  sfId : BitVec 16
  sfCnt : BitVec 16
  vports : Nat → Option SfVport
  nextVport : Option Nat
  numAllocVports : Nat
  op : DevlinkOp
  ret : Except DevlinkErr Unit
  pending : Bool
  walk : Option (Option Nat)
  dying : Option (Nat × Destroy)
  created : Nat
  destroyed : List Nat
  spawned : Nat
  alive : List SfVport

/-- Steps of the operations and of the task. `portNew`, `portDel` and `stateSet` begin an operation,
`initTask` is one step of the task that a state change waits for. -/
inductive SfEvent where
  | portNew (sfnumValid : Bool) (sfnum : BitVec 32) (mem registers : Bool)
  | listAdd
  | portDel (port : Nat) (portIndex : BitVec 32)
  | schedule
  | stateSet (p : Nat) (state : FnState)
  | initTask (works : Bool)
  | finish
  | cleanup
  | walkOn
  | destroy

namespace SfAdapter

def fails (s : SfAdapter) (err : DevlinkErr) : SfAdapter := { s with op := .idle, ret := .error err }

def succeeds (s : SfAdapter) : SfAdapter := { s with op := .idle, ret := .ok () }

def modify (s : SfAdapter) (p : Nat) (f : Sf → Sf) : SfAdapter :=
  { s with sfs := Function.update s.sfs p ((s.sfs p).map f) }

def deleted (s : SfAdapter) (p : Nat) : Bool := (s.sfs p).any (·.deleted)

/-- `idpf_sf_by_sfnum` -/
def sfBySfnum (s : SfAdapter) (sfnum : BitVec 32) : Option Nat :=
  s.sfList.find? fun p => (s.sfs p).any fun sf => !sf.deleted && sf.sfnum == sfnum

/-- The search of `idpf_dl_port_del`. -/
def sfByPort (b : SfBuild) (s : SfAdapter) (port : Nat) (portIndex : BitVec 32) : Option Nat :=
  s.sfList.find? fun p => (s.sfs p).any fun sf =>
    !sf.deleted && if b.portOps then p == port else sf.sfId.signExtend 32 == portIndex

def registered (s : SfAdapter) (p : Nat) : Bool :=
  p ∈ s.sfList || s.dying.any fun d => d.1 == p && d.2 != .free

/-- `idpf_dl_port_new` up to the list. -/
def portNew (b : SfBuild) (s : SfAdapter) (sfnumValid : Bool) (sfnum : BitVec 32)
    (mem registers : Bool) : SfAdapter :=
  if !sfnumValid then s.fails .einval
  else if (s.sfBySfnum sfnum).isSome then s.fails .eexist
  else if maxDynamicVport ≤ s.sfCnt.toNat then s.fails .einval
  else if b.numDefaultVports = 0 ∨ s.numAllocVports < b.numDefaultVports then s.fails .eagain
  else if !mem then s.fails .enomem
  else if !registers then { s with sfId := s.sfId + 1 }.fails .register
  else
    { s with
      sfId := s.sfId + 1
      sfs := Function.update s.sfs s.created
        (some ⟨s.sfId + 1, sfnum, false, .inactive, none, .inactive⟩)
      op := .adding s.created }

/-- The end of `idpf_dl_port_new`, under the mutex. -/
def listAdd (s : SfAdapter) (p : Nat) : SfAdapter :=
  { s with
    sfList := p :: s.sfList
    sfCnt := s.sfCnt + 1
    created := s.created + 1 }.succeeds

/-- `idpf_dl_port_del` up to the destruction. -/
def portDel (b : SfBuild) (s : SfAdapter) (port : Nat) (portIndex : BitVec 32) : SfAdapter :=
  match s.sfByPort b port portIndex with
  | none => s.fails .einval
  | some p =>
    let s := s.modify p fun sf => { sf with deleted := true }
    if b.unregisters then
      { s with
        sfList := s.sfList.erase p
        dying := some (p, .look)
        op := .deleting }
    else { s with op := .scheduling }

/-- `idpf_dl_port_fn_state_set` up to the task. -/
def stateSet (s : SfAdapter) (p : Nat) (state : FnState) : Option SfAdapter :=
  match s.sfs p with
  | none => none
  | some sf =>
    if state = sf.state then some (s.modify p fun sf => { sf with asked := state }).succeeds
    else
      match s.nextVport with
      | none => some (s.fails .enomem)
      | some next => some { s with op := .changing p state next .queued }

/-- The end of `idpf_dl_port_fn_state_set`: whatever the state that is asked for, the subfunction gets
the vport of the slot and is active. -/
def stateDone (s : SfAdapter) (p : Nat) (state : FnState) (next : Nat) : SfAdapter :=
  match s.vports next with
  | none => s.fails .enomem
  | some v => (s.modify p fun sf =>
      { sf with
        vport := some v
        state := .active
        asked := state }).succeeds

/-- One step of `idpf_vport_dealloc`. -/
def dealloc (b : SfBuild) (s : SfAdapter) : Dealloc → SfAdapter × Option Dealloc
  | .clear v => ({ s with vports := Function.update s.vports v.idx none }, some (.rel v))
  | .rel v =>
    ({ s with
      numAllocVports := s.numAllocVports - 1
      alive := s.alive.erase v }, some .scan)
  | .scan => (s, some (.store (freeSlot b.maxVports s.vports)))
  | .store next => ({ s with nextVport := next }, none)

/-- The vport that `idpf_vport_alloc` makes for a subfunction. -/
def newVport (b : SfBuild) (s : SfAdapter) (p idx : Nat) : SfVport :=
  ⟨s.spawned, idx, s.numAllocVports < b.numDefaultVports, some p⟩

/-- `idpf_vport_alloc` puts it in its slot. -/
def fill (b : SfBuild) (s : SfAdapter) (p idx : Nat) : SfAdapter :=
  { s with
    vports := Function.update s.vports idx (some (s.newVport b p idx))
    numAllocVports := s.numAllocVports + 1
    spawned := s.spawned + 1
    alive := s.newVport b p idx :: s.alive }

/-- One step of `idpf_init_task` for subfunction `p`, with what is next. The task that makes the
default vports has run before: here `next_vport` is read for a further one. -/
def initTask (b : SfBuild) (s : SfAdapter) (p : Nat) (works : Bool) :
    InitTask → Option (SfAdapter × InitTask)
  | .queued =>
    if s.numAllocVports < b.numDefaultVports then none
    else some (s, if works then .alloc s.nextVport else .done)
  | .alloc none => some (s, .done)
  | .alloc (some idx) =>
    some (if works then (s.fill b p idx, .scan (s.newVport b p idx)) else (s, .done))
  | .scan v => some (s, .store v (freeSlot b.maxVports s.vports))
  | .store v next => some ({ s with nextVport := next }, .made v)
  | .made v =>
    some (s, if !works && decide (s.vports v.idx = some v) then .unwind (.clear v) else .done)
  | .unwind d =>
    match s.dealloc b d with
    | (t, some d') => some (t, .unwind d')
    | (t, none) => some (t, .done)
  | .done => none

/-- The walk of `idpf_destroy_sfs` over the rest of the list, up to the first entry to destroy. -/
def walkFrom (s : SfAdapter) (rest : List Nat) : SfAdapter :=
  match rest.dropWhile fun p => !s.deleted p with
  | [] => { s with walk := none }
  | p :: later =>
    { s with
      sfList := s.sfList.erase p
      dying := some (p, .look)
      walk := some later.head? }

/-- The end of `idpf_destroy_sf`, under the mutex. -/
def free (s : SfAdapter) (p : Nat) : SfAdapter :=
  let t := { s with
    sfs := Function.update s.sfs p none
    sfCnt := s.sfCnt - 1
    dying := none
    destroyed := p :: s.destroyed }
  if s.op = .deleting then t.succeeds else t

/-- One step of `idpf_destroy_sf`. A port is unregistered when no state change is in progress. -/
def destroy (b : SfBuild) (s : SfAdapter) (p : Nat) : Destroy → Option SfAdapter
  | .look =>
    match s.sfs p with
    | none => none
    | some sf =>
      some { s with dying := some (p, if sf.vport.isSome then .seen else .unregister) }
  | .seen =>
    match (s.sfs p).bind (·.vport) with
    | none => none
    | some v => some { s with dying := some (p, .dealloc (.clear v)) }
  | .dealloc d =>
    match s.dealloc b d with
    | (t, some d') => some { t with dying := some (p, .dealloc d') }
    | (t, none) => some { t with dying := some (p, .unregister) }
  | .unregister =>
    match s.op with
    | .changing _ _ _ _ => none
    | _ => some { s with dying := some (p, .free) }
  | .free => some (s.free p)

def step (b : SfBuild) (s : SfAdapter) : SfEvent → Option SfAdapter
  | .portNew sfnumValid sfnum mem registers =>
    if s.op = .idle then some (s.portNew b sfnumValid sfnum mem registers) else none
  | .listAdd =>
    match s.op with
    | .adding p => some (s.listAdd p)
    | _ => none
  | .portDel port portIndex => if s.op = .idle then some (s.portDel b port portIndex) else none
  | .schedule => if s.op = .scheduling then some { s with pending := true }.succeeds else none
  | .stateSet p state => if s.op = .idle ∧ s.registered p then s.stateSet p state else none
  | .initTask works =>
    match s.op with
    | .changing p state next task =>
      (s.initTask b p works task).map fun (t, task') =>
        { t with op := .changing p state next task' }
    | _ => none
  | .finish =>
    match s.op with
    | .changing p state next .done => some (s.stateDone p state next)
    | _ => none
  | .cleanup =>
    if s.pending ∧ s.walk = none then some ({ s with pending := false }.walkFrom s.sfList) else none
  | .walkOn =>
    match s.walk, s.dying with
    | some cursor, none => some (s.walkFrom (cursorRest s.sfList cursor))
    | _, _ => none
  | .destroy =>
    match s.dying with
    | some (p, phase) => s.destroy b p phase
    | none => none

/-- Default vport `i`. -/
def defaultVport (i : Nat) : SfVport := ⟨i, i, true, none⟩

def start (b : SfBuild) : SfAdapter :=
  let vports := fun i => if i < b.numDefaultVports then some (defaultVport i) else none
  { sfs := fun _ => none
    sfList := []
    sfId := 0
    sfCnt := 0
    vports
    nextVport := freeSlot b.maxVports vports
    numAllocVports := b.numDefaultVports
    op := .idle
    ret := .ok ()
    pending := false
    walk := none
    dying := none
    created := 0
    destroyed := []
    spawned := b.numDefaultVports
    alive := (List.range b.numDefaultVports).map defaultVport }

/-- The subfunctions not yet destroyed: the listed ones, and the one that is being destroyed. -/
def live (s : SfAdapter) : List Nat := s.dying.toList.map (·.1) ++ s.sfList

@[simp] theorem live_dying {s : SfAdapter} {p : Nat} {phase : Destroy}
    (dying : s.dying = some (p, phase)) : s.live = p :: s.sfList := by
  simp [live, dying]

theorem live_listed {s : SfAdapter} (dying : s.dying = none) : s.live = s.sfList := by
  simp [live, dying]

/-- What is kept of the subfunctions as such, whatever happens to their vports. -/
def bookkeeping (s : SfAdapter) :=
  (s.sfList, s.sfCnt, s.created, s.destroyed, s.pending, s.walk, s.dying.map (·.1),
    fun p => (s.sfs p).map (·.deleted))

end SfAdapter

def DevlinkOp.quiet : DevlinkOp → Bool
  | .idle => true
  | .changing _ _ _ _ => true
  | _ => false

/-- What holds of the subfunctions in every run. -/
structure SfBooks (b : SfBuild) (s : SfAdapter) : Prop where
  shares : (s.live ++ s.destroyed).Perm (List.range s.created)
  heap : ∀ p, (s.sfs p).isSome ↔ p ∈ s.live ∨ s.op = .adding p
  adding : ∀ p, s.op = .adding p →
    p = s.created ∧ s.live.length < maxDynamicVport ∧ s.deleted p = false
  count : s.sfCnt.toNat = s.live.length
  small : s.live.length ≤ maxDynamicVport
  cursor : ∀ c, s.walk = some (some c) → c ∈ s.sfList
  prompt : ∀ p ∈ s.sfList, s.deleted p → s.pending ∨ s.op = .scheduling ∨
    ∃ cursor, s.walk = some cursor ∧ p ∈ cursorRest s.sfList cursor
  alone : s.dying.isSome → s.op = .deleting ∨ s.walk.isSome
  deleting : s.op = .deleting → b.unregisters
  atOnce : b.unregisters → s.walk = none ∧ s.pending = false ∧ s.op ≠ .scheduling

namespace SfBooks

variable {b : SfBuild} {s t : SfAdapter}

theorem nodup (books : SfBooks b s) : (s.live ++ s.destroyed).Nodup :=
  books.shares.nodup_iff.mpr List.nodup_range

theorem listed_nodup (books : SfBooks b s) : s.sfList.Nodup := by
  have all := books.nodup
  rw [SfAdapter.live, List.append_assoc] at all
  exact all.of_append_right.of_append_left

theorem live_lt (books : SfBooks b s) {p : Nat} (member : p ∈ s.live) : p < s.created := by
  have shared := books.shares.mem_iff.mp (List.mem_append_left _ member)
  exact List.mem_range.mp shared

theorem live_of_listed {p : Nat} (member : p ∈ s.sfList) : p ∈ s.live :=
  List.mem_append_right _ member

theorem frame (books : SfBooks b s) (same : t.bookkeeping = s.bookkeeping)
    (op : t.op = s.op ∨ s.op.quiet ∧ t.op.quiet) : SfBooks b t := by
  simp only [SfAdapter.bookkeeping, Prod.mk.injEq] at same
  obtain ⟨list, cnt, created, destroyed, pending, walk, dying, flags⟩ := same
  have live : t.live = s.live := by
    have first := congrArg Option.toList dying
    simp only [Option.toList_map] at first
    rw [SfAdapter.live, SfAdapter.live, list, first]
  have alive : ∀ p, (t.sfs p).isSome = (s.sfs p).isSome := by
    intro p
    have here := congrArg Option.isSome (congrFun flags p)
    simpa only [Option.isSome_map] using here
  have marked : ∀ p, t.deleted p = s.deleted p := by
    intro p
    have here := congrArg (Option.any id) (congrFun flags p)
    simpa only [Option.any_map, id_eq, SfAdapter.deleted] using here
  have someone : t.dying.isSome = s.dying.isSome := by
    simpa only [Option.isSome_map] using congrArg Option.isSome dying
  have loud : ∀ o : DevlinkOp, o.quiet = false → (t.op = o ↔ s.op = o) := by
    intro o not_quiet
    rcases op with same_op | ⟨before, after⟩
    · rw [same_op]
    · constructor
      · intro is_o
        rw [is_o, not_quiet] at after
        cases after
      · intro is_o
        rw [is_o, not_quiet] at before
        cases before
  constructor
  · rw [live, destroyed, created]
    exact books.shares
  · intro p
    rw [alive, live, loud _ rfl]
    exact books.heap p
  · intro p is_adding
    rw [created, live, marked]
    exact books.adding p ((loud _ rfl).mp is_adding)
  · rw [cnt, live]
    exact books.count
  · rw [live]
    exact books.small
  · intro c saved
    rw [list]
    exact books.cursor c (walk ▸ saved)
  · intro p member flag
    rw [pending, loud _ rfl, walk, list]
    exact books.prompt p (list ▸ member) (marked p ▸ flag)
  · intro dies
    rw [loud _ rfl, walk]
    exact books.alone (someone ▸ dies)
  · intro is_deleting
    exact books.deleting ((loud _ rfl).mp is_deleting)
  · intro built
    obtain ⟨no_walk, not_pending, not_scheduling⟩ := books.atOnce built
    exact ⟨walk.trans no_walk, pending.trans not_pending,
      fun is_scheduling => not_scheduling ((loud _ rfl).mp is_scheduling)⟩

theorem start (b : SfBuild) : SfBooks b (SfAdapter.start b) := by
  constructor
  · exact List.Perm.refl _
  · intro p
    simp [SfAdapter.start, SfAdapter.live]
  · intro p is_adding
    cases is_adding
  · rfl
  · exact Nat.zero_le _
  · intro c saved
    cases saved
  · intro p member
    cases member
  · intro dies
    cases dies
  · intro is_deleting
    cases is_deleting
  · intro _
    exact ⟨rfl, rfl, by intro same; cases same⟩

/-- What looks at nothing that `f` changes sees no change. -/
theorem modify_map {α : Type} (p : Nat) (f : Sf → Sf) (g : Sf → α)
    (kept : ∀ sf, s.sfs p = some sf → g (f sf) = g sf) :
    (fun q => ((s.modify p f).sfs q).map g) = fun q => (s.sfs q).map g := by
  funext q
  by_cases here : q = p
  · subst here
    cases found : s.sfs q with
    | none => simp [SfAdapter.modify, found]
    | some sf => simp [SfAdapter.modify, found, kept sf found]
  · simp [SfAdapter.modify, here]

theorem modify_bookkeeping (p : Nat) (f : Sf → Sf) (kept : ∀ sf, (f sf).deleted = sf.deleted) :
    (s.modify p f).bookkeeping = s.bookkeeping := by
  have flags := modify_map (s := s) p f (·.deleted) fun sf _ => kept sf
  simp only [SfAdapter.bookkeeping, flags, Prod.mk.injEq, and_true]
  exact ⟨rfl, rfl, rfl, rfl, rfl, rfl, rfl⟩

theorem portNew_keeps (books : SfBooks b s) (idle : s.op = .idle) (valid : Bool) (sfnum : BitVec 32)
    (mem registers : Bool) : SfBooks b (s.portNew b valid sfnum mem registers) := by
  have failing : ∀ err, SfBooks b (s.fails err) := fun err =>
    books.frame rfl (.inl idle.symm)
  unfold SfAdapter.portNew
  split_ifs with invalid exists_already full early no_mem no_port
  · exact failing _
  · exact failing _
  · exact failing _
  · exact failing _
  · exact failing _
  · exact books.frame rfl (.inl idle.symm)
  · have fresh : s.created ∉ s.live := fun member => (books.live_lt member).false
    have listed : s.created ∉ s.sfList := fun member => fresh (live_of_listed member)
    constructor
    · exact books.shares
    · intro p
      change _ ↔ p ∈ s.live ∨ _
      by_cases here : p = s.created
      · simp [here]
      · have before := books.heap p
        have other : s.created ≠ p := fun same => here same.symm
        rw [idle] at before
        simpa [here, other] using before
    · intro p is_adding
      obtain rfl := (DevlinkOp.adding.inj is_adding)
      refine ⟨rfl, ?_, ?_⟩
      · have counted := books.count
        change s.live.length < maxDynamicVport
        omega
      · simp [SfAdapter.deleted]
    · exact books.count
    · exact books.small
    · exact books.cursor
    · intro p member flag
      have other : p ≠ s.created := fun same => listed (same ▸ member)
      have before : s.deleted p = true := by
        simpa [SfAdapter.deleted, Function.update_of_ne other] using flag
      rcases books.prompt p member before with pending | scheduling | walking
      · exact .inl pending
      · rw [idle] at scheduling
        cases scheduling
      · exact .inr (.inr walking)
    · intro dies
      rcases books.alone dies with is_deleting | walking
      · rw [idle] at is_deleting
        cases is_deleting
      · exact .inr walking
    · intro is_deleting
      cases is_deleting
    · intro built
      obtain ⟨no_walk, not_pending, _⟩ := books.atOnce built
      exact ⟨no_walk, not_pending, by intro same; cases same⟩

theorem listAdd_keeps (books : SfBooks b s) {p : Nat} (adds : s.op = .adding p) :
    SfBooks b (s.listAdd p) := by
  obtain ⟨rfl, room, unmarked⟩ := books.adding p adds
  have fresh : s.created ∉ s.live := fun member => (books.live_lt member).false
  have listed : s.created ∉ s.sfList := fun member => fresh (live_of_listed member)
  have live : (s.listAdd s.created).live.Perm (s.created :: s.live) := List.perm_middle
  have length : (s.listAdd s.created).live.length = s.live.length + 1 := live.length_eq
  have counted := books.count
  have small := books.small
  simp only [maxDynamicVport] at small room
  constructor
  · change List.Perm _ (List.range (s.created + 1))
    rw [List.range_succ]
    apply ((live.append_right _).trans _).trans (List.perm_append_singleton _ _).symm
    exact books.shares.cons _
  · intro p
    have before := books.heap p
    rw [live.mem_iff, List.mem_cons]
    rw [adds] at before
    change (s.sfs p).isSome = true ↔ _ ∨ DevlinkOp.idle = _
    rw [before]
    constructor
    · rintro (member | same)
      · exact .inl (.inr member)
      · exact .inl (.inl (DevlinkOp.adding.inj same).symm)
    · rintro ((rfl | member) | same)
      · exact .inr rfl
      · exact .inl member
      · cases same
  · intro p is_adding
    cases is_adding
  · rw [length]
    change (s.sfCnt + 1).toNat = _
    rw [BitVec.toNat_add, counted]
    change (s.live.length + 1) % 2 ^ 16 = _
    omega
  · rw [length]
    simp only [maxDynamicVport]
    omega
  · intro c saved
    exact List.mem_cons_of_mem _ (books.cursor c saved)
  · intro q member flag
    rcases List.mem_cons.mp member with rfl | member
    · exact absurd (unmarked.symm.trans flag) (by decide)
    · rcases books.prompt q member flag with pending | scheduling | ⟨cursor, walking, rest⟩
      · exact .inl pending
      · rw [adds] at scheduling
        cases scheduling
      · refine .inr (.inr ⟨cursor, walking, ?_⟩)
        have same : cursorRest (s.created :: s.sfList) cursor = cursorRest s.sfList cursor := by
          apply cursorRest_cons listed
          rintro c rfl
          exact books.cursor c walking
        exact same ▸ rest
  · intro dies
    rcases books.alone dies with is_deleting | walking
    · rw [adds] at is_deleting
      cases is_deleting
    · exact .inr walking
  · intro is_deleting
    cases is_deleting
  · intro built
    obtain ⟨no_walk, not_pending, _⟩ := books.atOnce built
    exact ⟨no_walk, not_pending, by intro same; cases same⟩

theorem deleted_modify (p q : Nat) : (s.modify p fun sf => { sf with deleted := true }).deleted q =
    if q = p then (s.sfs p).isSome else s.deleted q := by
  by_cases here : q = p
  · subst here
    cases sf : s.sfs q with
    | none => simp [SfAdapter.deleted, SfAdapter.modify, sf]
    | some sf => simp [SfAdapter.deleted, SfAdapter.modify, sf]
  · simp [SfAdapter.deleted, SfAdapter.modify, here]

theorem modify_isSome (p q : Nat) (f : Sf → Sf) :
    ((s.modify p f).sfs q).isSome = (s.sfs q).isSome := by
  by_cases here : q = p
  · subst here
    simp [SfAdapter.modify]
  · simp [SfAdapter.modify, here]

/-- A build that destroys at once destroys nothing while no operation is in progress. -/
theorem nobody_idle (books : SfBooks b s) (idle : s.op = .idle) (built : b.unregisters) :
    s.dying = none := by
  by_contra someone
  rcases books.alone (Option.isSome_iff_ne_none.mpr someone) with is_deleting | walking
  · rw [idle] at is_deleting
    cases is_deleting
  · rw [(books.atOnce built).1] at walking
    cases walking

/-- The cleanup task is about to start, and nothing is being destroyed. -/
theorem nobody_pending (books : SfBooks b s) (pending : s.pending) (no_walk : s.walk = none) :
    ¬ b.unregisters ∧ s.dying = none := by
  have late : ¬ b.unregisters := by
    intro built
    have not_pending := (books.atOnce built).2.1
    rw [pending] at not_pending
    cases not_pending
  refine ⟨late, ?_⟩
  by_contra someone
  rcases books.alone (Option.isSome_iff_ne_none.mpr someone) with is_deleting | walking
  · exact late (books.deleting is_deleting)
  · rw [no_walk] at walking
    cases walking

theorem portDel_keeps (books : SfBooks b s) (idle : s.op = .idle) (port : Nat)
    (portIndex : BitVec 32) : SfBooks b (s.portDel b port portIndex) := by
  unfold SfAdapter.portDel
  cases found : s.sfByPort b port portIndex with
  | none => exact books.frame rfl (.inl idle.symm)
  | some p =>
      have member : p ∈ s.sfList := List.mem_of_find?_eq_some found
      have heap := books.heap
      rw [idle] at heap
      simp only [reduceCtorEq, or_false] at heap
      by_cases built : b.unregisters = true
      · obtain ⟨no_walk, not_pending, _⟩ := books.atOnce built
        have listed : s.live = s.sfList := SfAdapter.live_listed (books.nobody_idle idle built)
        have moved : (p :: s.sfList.erase p).Perm s.live :=
          listed ▸ (List.perm_cons_erase member).symm
        simp only [if_pos built]
        constructor
        · exact (moved.append_right _).trans books.shares
        · intro q
          change ((s.modify p _).sfs q).isSome = true ↔
            q ∈ p :: s.sfList.erase p ∨ DevlinkOp.deleting = .adding q
          rw [modify_isSome, heap q, moved.mem_iff]
          simp only [reduceCtorEq, or_false]
        · intro q is_adding
          cases is_adding
        · exact books.count.trans moved.length_eq.symm
        · exact moved.length_eq.le.trans books.small
        · intro c saved
          rw [show s.walk = some (some c) from saved] at no_walk
          cases no_walk
        · intro q rest flag
          have other : q ≠ p := by
            rintro rfl
            exact books.listed_nodup.not_mem_erase rest
          have before : s.deleted q = true := by
            have flagged := deleted_modify (s := s) p q
            rw [if_neg other] at flagged
            exact flagged.symm.trans flag
          rcases books.prompt q (List.mem_of_mem_erase rest) before with pending | scheduling | walking
          · exact .inl pending
          · rw [idle] at scheduling
            cases scheduling
          · obtain ⟨cursor, walking, _⟩ := walking
            rw [no_walk] at walking
            cases walking
        · intro _
          exact .inl rfl
        · intro _
          exact built
        · intro _
          exact ⟨no_walk, not_pending, by intro same; cases same⟩
      · simp only [if_neg built]
        constructor
        · exact books.shares
        · intro q
          change ((s.modify p _).sfs q).isSome = true ↔
            q ∈ s.live ∨ DevlinkOp.scheduling = .adding q
          rw [modify_isSome, heap q]
          simp only [reduceCtorEq, or_false]
        · intro q is_adding
          cases is_adding
        · exact books.count
        · exact books.small
        · exact books.cursor
        · intro q _ _
          exact .inr (.inl rfl)
        · intro dies
          rcases books.alone dies with is_deleting | walking
          · rw [idle] at is_deleting
            cases is_deleting
          · exact .inr walking
        · intro is_deleting
          cases is_deleting
        · intro at_once
          exact absurd at_once built

theorem schedule_keeps (books : SfBooks b s) (scheduling : s.op = .scheduling) :
    SfBooks b { s with pending := true }.succeeds := by
  have late : b.unregisters ≠ true := fun built => (books.atOnce built).2.2 scheduling
  constructor
  · exact books.shares
  · intro q
    have before := books.heap q
    rw [scheduling] at before
    change (s.sfs q).isSome = true ↔ q ∈ s.live ∨ DevlinkOp.idle = .adding q
    simpa only [reduceCtorEq, or_false] using before
  · intro q is_adding
    cases is_adding
  · exact books.count
  · exact books.small
  · exact books.cursor
  · intro q _ _
    exact .inl rfl
  · intro dies
    rcases books.alone dies with is_deleting | walking
    · rw [scheduling] at is_deleting
      cases is_deleting
    · exact .inr walking
  · intro is_deleting
    cases is_deleting
  · intro built
    exact absurd built late

/-- The task goes on over the rest of the list; what is marked for deletion is in that rest, or the
task runs once more. -/
theorem walkFrom_keeps (books : SfBooks b s) (late : ¬ b.unregisters) (nobody : s.dying = none)
    {rest : List Nat} (suffix : rest <:+ s.sfList) {d : Bool}
    (ahead : ∀ p ∈ s.sfList, s.deleted p → d ∨ s.op = .scheduling ∨ p ∈ rest) :
    SfBooks b ({ s with pending := d }.walkFrom rest) := by
  have listed : s.live = s.sfList := SfAdapter.live_listed nobody
  unfold SfAdapter.walkFrom
  cases split : rest.dropWhile fun p => !s.deleted p with
  | nil =>
      have none_marked := List.dropWhile_eq_nil_iff.mp split
      change SfBooks b (match rest.dropWhile fun p => !s.deleted p with | [] => _ | p :: later => _)
      rw [split]
      constructor
      · exact books.shares
      · exact books.heap
      · exact books.adding
      · exact books.count
      · exact books.small
      · intro c saved
        cases saved
      · intro p member flag
        rcases ahead p member flag with again | scheduling | inside
        · exact .inl again
        · exact .inr (.inl scheduling)
        · have unmarked := none_marked p inside
          rw [show s.deleted p = true from flag] at unmarked
          exact absurd unmarked (by decide)
      · intro dies
        rw [show s.dying = none from nobody] at dies
        cases dies
      · exact books.deleting
      · intro built
        exact absurd built late
  | cons p later =>
      obtain ⟨skipped, parts, unmarked, marked⟩ := dropWhile_split split
      obtain ⟨front, whole⟩ := suffix
      rw [parts, ← List.append_assoc] at whole
      obtain ⟨erased, onward⟩ := cursorRest_erase books.listed_nodup whole.symm
      have member : p ∈ s.sfList := by simp [← whole]
      have moved : (p :: s.sfList.erase p).Perm s.live :=
        listed ▸ (List.perm_cons_erase member).symm
      change SfBooks b (match rest.dropWhile fun p => !s.deleted p with | [] => _ | p :: later => _)
      rw [split]
      constructor
      · exact (moved.append_right _).trans books.shares
      · intro q
        change (s.sfs q).isSome = true ↔ q ∈ p :: s.sfList.erase p ∨ s.op = .adding q
        rw [books.heap q, moved.mem_iff]
      · intro q is_adding
        obtain ⟨last, room, new⟩ := books.adding q is_adding
        exact ⟨last, moved.length_eq.trans_lt room, new⟩
      · exact books.count.trans moved.length_eq.symm
      · exact moved.length_eq.le.trans books.small
      · intro c saved
        have next : c ∈ later := List.mem_of_head? (Option.some.inj saved)
        change c ∈ s.sfList.erase p
        rw [erased]
        exact List.mem_append_right _ next
      · intro q left flag
        have other : q ≠ p := by
          rintro rfl
          exact books.listed_nodup.not_mem_erase left
        rcases ahead q (List.mem_of_mem_erase left) flag with again | scheduling | inside
        · exact .inl again
        · exact .inr (.inl scheduling)
        · refine .inr (.inr ⟨later.head?, rfl, ?_⟩)
          change q ∈ cursorRest (s.sfList.erase p) later.head?
          rw [onward]
          rw [parts] at inside
          rcases List.mem_append.mp inside with passed | rest_of
          · have clean := unmarked q passed
            rw [show s.deleted q = true from flag] at clean
            exact absurd clean (by decide)
          · exact List.mem_of_ne_of_mem other rest_of
      · intro _
        exact .inr rfl
      · exact books.deleting
      · intro built
        exact absurd built late

theorem free_keeps (books : SfBooks b s) {p : Nat} (dies : s.dying = some (p, .free)) :
    SfBooks b (s.free p) := by
  have live : s.live = p :: s.sfList := SfAdapter.live_dying dies
  have distinct := books.nodup
  rw [live] at distinct
  have away : p ∉ s.sfList := by
    intro member
    have first := (List.nodup_cons.mp distinct).1
    exact first (List.mem_append_left _ member)
  have counted := books.count
  have small := books.small
  rw [live, List.length_cons] at counted small
  simp only [maxDynamicVport] at small
  have older : ∀ q, s.op = .adding q → q ≠ p := by
    rintro q is_adding rfl
    have last := (books.adding q is_adding).1
    exact (books.live_lt (p := q) (live ▸ List.mem_cons_self)).ne last
  have freed : ∀ q, (Function.update s.sfs p none q).isSome ↔ q ∈ s.sfList ∨ s.op = .adding q := by
    intro q
    by_cases here : q = p
    · subst here
      simp only [Function.update_self, Option.isSome_none, Bool.false_eq_true, away, false_or,
        false_iff]
      exact fun is_adding => older q is_adding rfl
    · rw [Function.update_of_ne here, books.heap q, live]
      simp [here]
  have less : (s.sfCnt - 1).toNat = s.sfList.length := by
    rw [BitVec.toNat_sub, counted]
    change (2 ^ 16 - 1 + (s.sfList.length + 1)) % 2 ^ 16 = _
    omega
  have shares : (s.sfList ++ p :: s.destroyed).Perm (List.range s.created) := by
    apply List.perm_middle.trans
    simpa only [live, List.cons_append] using books.shares
  have flags : ∀ q ∈ s.sfList, (Function.update s.sfs p none q).any (·.deleted) = s.deleted q := by
    intro q member
    have other : q ≠ p := fun same => away (same ▸ member)
    rw [Function.update_of_ne other]
    rfl
  unfold SfAdapter.free
  split_ifs with is_deleting
  · constructor
    · exact shares
    · intro q
      change (Function.update s.sfs p none q).isSome = true ↔
        q ∈ s.sfList ∨ DevlinkOp.idle = .adding q
      have before := freed q
      rw [is_deleting] at before
      simpa only [reduceCtorEq, or_false] using before
    · intro q is_adding
      cases is_adding
    · exact less
    · change s.sfList.length ≤ 925
      omega
    · exact books.cursor
    · intro q member flag
      rcases books.prompt q member ((flags q member).symm.trans flag) with again | scheduling | walk
      · exact .inl again
      · rw [is_deleting] at scheduling
        cases scheduling
      · exact .inr (.inr walk)
    · intro someone
      cases someone
    · intro again
      cases again
    · intro built
      obtain ⟨no_walk, not_pending, _⟩ := books.atOnce built
      exact ⟨no_walk, not_pending, by intro same; cases same⟩
  · constructor
    · exact shares
    · exact freed
    · intro q is_adding
      obtain ⟨last, room, new⟩ := books.adding q is_adding
      refine ⟨last, ?_, ?_⟩
      · rw [live, List.length_cons] at room
        exact (Nat.lt_succ_self _).trans room
      · have other := older q is_adding
        change (Function.update s.sfs p none q).any (·.deleted) = false
        rw [Function.update_of_ne other]
        exact new
    · exact less
    · change s.sfList.length ≤ 925
      omega
    · exact books.cursor
    · intro q member flag
      exact books.prompt q member ((flags q member).symm.trans flag)
    · intro someone
      cases someone
    · exact books.deleting
    · exact books.atOnce

theorem dealloc_bookkeeping (b : SfBuild) (s : SfAdapter) (d : Dealloc) :
    (s.dealloc b d).1.bookkeeping = s.bookkeeping := by
  cases d with
  | clear v => rfl
  | rel v => rfl
  | scan => rfl
  | store next => rfl

theorem initTask_bookkeeping {p : Nat} {works : Bool} {task task' : InitTask}
    (taken : s.initTask b p works task = some (t, task')) : t.bookkeeping = s.bookkeeping := by
  cases task with
  | queued =>
      simp only [SfAdapter.initTask, Option.ite_none_left_eq_some, Option.some.injEq,
        Prod.mk.injEq] at taken
      rw [← taken.2.1]
  | alloc idx =>
      cases idx with
      | none =>
          obtain ⟨rfl, _⟩ := Prod.mk.inj (Option.some.inj taken)
          rfl
      | some idx =>
          cases works with
          | false =>
              obtain ⟨rfl, _⟩ := Prod.mk.inj (Option.some.inj taken)
              rfl
          | true =>
              obtain ⟨rfl, _⟩ := Prod.mk.inj (Option.some.inj taken)
              rfl
  | scan v =>
      obtain ⟨rfl, _⟩ := Prod.mk.inj (Option.some.inj taken)
      rfl
  | store v next =>
      obtain ⟨rfl, _⟩ := Prod.mk.inj (Option.some.inj taken)
      rfl
  | made v =>
      obtain ⟨rfl, _⟩ := Prod.mk.inj (Option.some.inj taken)
      rfl
  | unwind d =>
      have same := dealloc_bookkeeping b s d
      rw [SfAdapter.initTask] at taken
      split at taken
      all_goals
        rename_i result
        obtain ⟨rfl, _⟩ := Prod.mk.inj (Option.some.inj taken)
        rw [result] at same
        exact same
  | done => cases taken

theorem stateSet_keeps (books : SfBooks b s) (idle : s.op = .idle) {p : Nat} {state : FnState}
    (taken : s.stateSet p state = some t) : SfBooks b t := by
  unfold SfAdapter.stateSet at taken
  cases found : s.sfs p with
  | none => simp [found] at taken
  | some sf =>
      simp only [found] at taken
      split_ifs at taken with already
      · obtain rfl := Option.some.inj taken
        have same := modify_bookkeeping (s := s) p (fun sf => { sf with asked := state }) fun _ => rfl
        exact books.frame same (.inl idle.symm)
      · cases free : s.nextVport with
        | none =>
            rw [free] at taken
            obtain rfl := Option.some.inj taken
            exact books.frame rfl (.inl idle.symm)
        | some next =>
            rw [free] at taken
            obtain rfl := Option.some.inj taken
            refine books.frame rfl (.inr ⟨?_, rfl⟩)
            rw [idle]
            rfl

theorem stateDone_keeps (books : SfBooks b s) {p next : Nat} {state : FnState} {task : InitTask}
    (changing : s.op = .changing p state next task) : SfBooks b (s.stateDone p state next) := by
  have quiet : s.op.quiet = true := by
    rw [changing]
    rfl
  unfold SfAdapter.stateDone
  cases s.vports next with
  | none => exact books.frame rfl (.inr ⟨quiet, rfl⟩)
  | some v =>
      have same := modify_bookkeeping (s := s) p
        (fun sf => { sf with vport := some v, state := .active, asked := state }) fun _ => rfl
      exact books.frame same (.inr ⟨quiet, rfl⟩)

theorem phase_keeps (books : SfBooks b s) {p : Nat} {phase next : Destroy}
    (dies : s.dying = some (p, phase)) (same : t.bookkeeping = s.bookkeeping) (op : t.op = s.op) :
    SfBooks b { t with dying := some (p, next) } := by
  refine books.frame ?_ (.inl op)
  simp only [SfAdapter.bookkeeping, Prod.mk.injEq] at same ⊢
  obtain ⟨list, cnt, created, destroyed, pending, walk, _, flags⟩ := same
  exact ⟨list, cnt, created, destroyed, pending, walk, by simp [dies], flags⟩

theorem destroy_keeps (books : SfBooks b s) {p : Nat} {phase : Destroy}
    (dies : s.dying = some (p, phase)) (taken : s.destroy b p phase = some t) : SfBooks b t := by
  cases phase with
  | look =>
      simp only [SfAdapter.destroy] at taken
      cases found : s.sfs p with
      | none => simp [found] at taken
      | some sf =>
          simp only [found, Option.some.injEq] at taken
          subst taken
          exact books.phase_keeps dies rfl rfl
  | seen =>
      simp only [SfAdapter.destroy] at taken
      cases found : (s.sfs p).bind (·.vport) with
      | none => simp [found] at taken
      | some v =>
          simp only [found, Option.some.injEq] at taken
          subst taken
          exact books.phase_keeps dies rfl rfl
  | dealloc d =>
      cases d with
      | clear v =>
          obtain rfl := Option.some.inj taken
          exact books.phase_keeps dies (dealloc_bookkeeping b s (.clear v)) rfl
      | rel v =>
          obtain rfl := Option.some.inj taken
          exact books.phase_keeps dies (dealloc_bookkeeping b s (.rel v)) rfl
      | scan =>
          obtain rfl := Option.some.inj taken
          exact books.phase_keeps dies rfl rfl
      | store next =>
          obtain rfl := Option.some.inj taken
          exact books.phase_keeps dies (dealloc_bookkeeping b s (.store next)) rfl
  | unregister =>
      simp only [SfAdapter.destroy] at taken
      split at taken
      · cases taken
      · obtain rfl := Option.some.inj taken
        exact books.phase_keeps dies rfl rfl
  | free =>
      obtain rfl := Option.some.inj taken
      exact books.free_keeps dies

theorem step_keeps (books : SfBooks b s) {e : SfEvent} (taken : s.step b e = some t) :
    SfBooks b t := by
  cases e with
  | portNew valid sfnum mem registers =>
      obtain ⟨idle, done⟩ := Option.ite_none_right_eq_some.mp taken
      obtain rfl := Option.some.inj done
      exact books.portNew_keeps idle valid sfnum mem registers
  | listAdd =>
      simp only [SfAdapter.step] at taken
      split at taken
      · rename_i p adds
        obtain rfl := Option.some.inj taken
        exact books.listAdd_keeps adds
      · cases taken
  | portDel port portIndex =>
      obtain ⟨idle, done⟩ := Option.ite_none_right_eq_some.mp taken
      obtain rfl := Option.some.inj done
      exact books.portDel_keeps idle port portIndex
  | schedule =>
      obtain ⟨scheduling, done⟩ := Option.ite_none_right_eq_some.mp taken
      obtain rfl := Option.some.inj done
      exact books.schedule_keeps scheduling
  | stateSet p state =>
      obtain ⟨⟨idle, _⟩, done⟩ := Option.ite_none_right_eq_some.mp taken
      exact books.stateSet_keeps idle done
  | initTask works =>
      simp only [SfAdapter.step] at taken
      split at taken
      · rename_i p state next task changing
        obtain ⟨⟨u, task'⟩, run, rfl⟩ := Option.map_eq_some_iff.mp taken
        have same : u.bookkeeping = s.bookkeeping := initTask_bookkeeping run
        refine books.frame same (.inr ⟨?_, rfl⟩)
        rw [changing]
        rfl
      · cases taken
  | finish =>
      simp only [SfAdapter.step] at taken
      split at taken
      · rename_i p state next changing
        obtain rfl := Option.some.inj taken
        exact books.stateDone_keeps changing
      · cases taken
  | cleanup =>
      obtain ⟨⟨pending, no_walk⟩, done⟩ := Option.ite_none_right_eq_some.mp taken
      obtain rfl := Option.some.inj done
      obtain ⟨late, nobody⟩ := books.nobody_pending pending no_walk
      exact books.walkFrom_keeps late nobody List.suffix_rfl fun p member _ => .inr (.inr member)
  | walkOn =>
      simp only [SfAdapter.step] at taken
      split at taken
      · rename_i cursor walking nobody
        obtain rfl := Option.some.inj taken
        have late : ¬ b.unregisters := by
          intro built
          have no_walk := (books.atOnce built).1
          rw [walking] at no_walk
          cases no_walk
        apply books.walkFrom_keeps late nobody (cursorRest_suffix _ _) (d := s.pending)
        intro p member flag
        rcases books.prompt p member flag with again | scheduling | ⟨other, saved, rest⟩
        · exact .inl again
        · exact .inr (.inl scheduling)
        · rw [walking] at saved
          obtain rfl := Option.some.inj saved
          exact .inr (.inr rest)
      · cases taken
  | destroy =>
      simp only [SfAdapter.step] at taken
      split at taken
      · rename_i p phase dies
        exact books.destroy_keeps dies taken
      · cases taken

/-- Whatever the order of the steps, the subfunctions that were created are those that are there,
each once, and those that were destroyed, each once. -/
theorem reachable (reached : Reachable (SfAdapter.step b) anyStep (· = SfAdapter.start b) s) :
    SfBooks b s := by
  apply reached.invariant
  · rintro _ rfl
    exact start b
  · intro s e t books _ taken
    exact books.step_keeps taken

end SfBooks

end Idpf
