import Idpf.Devlink.Subfunctions
import Mathlib.Data.List.Count

/-! The vports of subfunctions: who owns each of them, through state changes and deletions. -/
namespace Idpf
open General

def Destroy.cleared : Destroy → Bool
  | .dealloc (.clear _) => false
  | .dealloc _ => true
  | .unregister => true
  | .free => true
  | _ => false

def Destroy.released : Destroy → Bool
  | .dealloc (.rel _) => false
  | phase => phase.cleared

theorem Destroy.cleared_of_released {phase : Destroy} (past : phase.released) : phase.cleared := by
  cases phase with
  | dealloc d =>
      cases d with
      | rel v => rfl
      | clear v => exact past
      | scan => rfl
      | store next => rfl
  | look => exact past
  | seen => exact past
  | unregister => rfl
  | free => rfl

def DevlinkOp.changes : DevlinkOp → Bool
  | .changing .. => true
  | _ => false

theorem DevlinkOp.not_changing {op : DevlinkOp} (other : op.changes = false) (p : Nat)
    (state : FnState) (next : Nat) (task : InitTask) : op ≠ .changing p state next task := by
  rintro rfl
  cases other

def InitTask.filled : InitTask → Option SfVport
  | .scan v => some v
  | .store v _ => some v
  | .made v => some v
  | .unwind (.clear v) => some v
  | _ => none

/-- The vport that a state change has made and not handed over yet; once the task has ended it is
the one in the slot. -/
def InitTask.holding (slot : Option SfVport) : InitTask → Option SfVport
  | .unwind (.rel v) => some v
  | .done => slot
  | task => task.filled

namespace SfAdapter

def vportOf (s : SfAdapter) (p : Nat) : Option SfVport := (s.sfs p).bind (·.vport)

def Owns (s : SfAdapter) (p : Nat) (v : SfVport) : Prop := s.vportOf p = some v

/-- The state change in progress has made the vport for the subfunction. -/
def Hands (s : SfAdapter) (p : Nat) (v : SfVport) : Prop :=
  ∃ state next task, s.op = .changing p state next task ∧ task.holding (s.vports next) = some v

/-- The destruction of the subfunction has got past the look at its vport. -/
def begun (s : SfAdapter) (p : Nat) : Bool := s.dying.any fun d => d.1 == p && d.2 != .look

/-- The steps that keep the vports owned. A state change reads the number of an empty slot; the vport
goes into that slot, for an inactive subfunction whose destruction has not begun; and the cleanup task
does not look at a subfunction while a state change has a vport for it. -/
def ok (s : SfAdapter) : SfEvent → Bool
  | .stateSet p state =>
    (s.sfs p).any (·.state == state) || s.nextVport.all fun next => (s.vports next).isNone
  | .initTask works =>
    match s.op with
    | .changing p _ next (.alloc (some idx)) =>
      !works || (idx == next && (s.sfs p).any (·.state == .inactive) && !s.begun p)
    | _ => true
  | .destroy =>
    match s.dying, s.op with
    | some (p, .look), .changing q _ next _ => q != p || (s.vports next).isNone
    | _, _ => true
  | _ => true

def view (s : SfAdapter) (p : Nat) : Option (FnState × Option SfVport × FnState) :=
  (s.sfs p).map fun sf => (sf.state, sf.vport, sf.asked)

end SfAdapter

/-- A subfunction has what was made for it, while it is active. -/
structure Sf.Sound (p : Nat) (sf : Sf) : Prop where
  asked : sf.asked = sf.state
  inactive : sf.state = .inactive → sf.vport = none
  madeFor : ∀ v, sf.vport = some v → v.madeFor = some p

/-- What holds during a state change of `p` that has read `next`. -/
structure Changing (s : SfAdapter) (p : Nat) (state : FnState) (next : Nat) (task : InitTask) :
    Prop where
  there : ∃ sf, s.sfs p = some sf ∧ sf.state ≠ state
  lives : s.dying ≠ some (p, .free)
  held : ∀ v, task.holding (s.vports next) = some v →
    v ∈ s.alive ∧ v.madeFor = some p ∧ v.idx = next ∧
      ∀ sf, s.sfs p = some sf → sf.state = .inactive
  slot : task ≠ .done → s.vports next = task.filled
  early : (s.vports next).isSome → s.begun p = false

theorem InitTask.holding_filled {task : InitTask} {slot : Option SfVport} {v : SfVport}
    (filled : task.filled = some v) : task.holding slot = some v := by
  cases task with
  | unwind d =>
      cases d with
      | clear w => exact filled
      | rel w => cases filled
      | scan => cases filled
      | store next => cases filled
  | done => cases filled
  | queued => cases filled
  | alloc idx => cases filled
  | scan w => exact filled
  | store w next => exact filled
  | made w => exact filled

theorem Changing.in_slot {s : SfAdapter} {p next : Nat} {state : FnState} {task : InitTask}
    {v : SfVport} (change : Changing s p state next task) (full : s.vports next = some v) :
    task.holding (s.vports next) = some v := by
  by_cases ended : task = .done
  · subst ended
    exact full
  · apply InitTask.holding_filled
    rw [← change.slot ended, full]

/-- What holds of the vports where each step meets the condition. -/
structure SfOwners (b : SfBuild) (s : SfAdapter) : Prop where
  sound : ∀ p sf, s.sfs p = some sf → sf.Sound p
  changing : ∀ p state next task, s.op = .changing p state next task →
    Changing s p state next task
  slotted : ∀ p v, s.Owns p v → s.vports v.idx = some v ∨
    ∃ phase, s.dying = some (p, phase) ∧ phase.cleared
  there : ∀ p v, s.Owns p v → v ∈ s.alive ∨ ∃ phase, s.dying = some (p, phase) ∧ phase.released
  claimed : ∀ p v, s.dying = some (p, .dealloc (.clear v)) ∨ s.dying = some (p, .dealloc (.rel v)) →
    s.Owns p v
  gone : ∀ p phase, s.dying = some (p, phase) → phase.released → ∀ v ∈ s.alive, ¬ s.Owns p v
  made : ∀ v ∈ s.alive, v.madeFor = none ∨
    ∃ p, v.madeFor = some p ∧ (s.Owns p v ∨ s.Hands p v)
  kinds : ∀ v ∈ s.alive, v.defaultVport = v.madeFor.isNone
  serials : ∀ v ∈ s.alive, v.serial < s.spawned
  distinct : s.alive.Nodup
  alloc : s.numAllocVports = s.alive.length
  defaults : s.alive.countP (·.madeFor.isNone) = b.numDefaultVports

namespace SfOwners

variable {b : SfBuild} {s t : SfAdapter}

theorem owner (own : SfOwners b s) {p : Nat} {v : SfVport} (owns : s.Owns p v) :
    v.madeFor = some p := by
  obtain ⟨sf, found, has⟩ := Option.bind_eq_some_iff.mp owns
  exact (own.sound p sf found).madeFor v has

theorem unowned (own : SfOwners b s) {p q next : Nat} {state : FnState} {task : InitTask}
    {v : SfVport} (change : s.op = .changing p state next task)
    (held : task.holding (s.vports next) = some v) : ¬ s.Owns q v := by
  intro owns
  obtain ⟨_, made, _, inactive⟩ := (own.changing p state next task change).held v held
  have same := (own.owner owns).symm.trans made
  obtain rfl := Option.some.inj same
  obtain ⟨sf, found, has⟩ := Option.bind_eq_some_iff.mp owns
  have nothing := (own.sound q sf found).inactive (inactive sf found)
  rw [nothing] at has
  cases has

theorem apart (own : SfOwners b s) {p q next : Nat} {state : FnState} {task : InitTask}
    {v : SfVport} (change : s.op = .changing p state next task) (owns : s.Owns q v)
    (full : s.vports v.idx = some v) : v.idx ≠ next := by
  rintro rfl
  have held := (own.changing p state _ task change).in_slot full
  exact own.unowned change held owns

theorem room (own : SfOwners b s) : b.numDefaultVports ≤ s.numAllocVports := by
  rw [own.alloc, ← own.defaults]
  exact List.countP_le_length

theorem seen (view : t.view = s.view) {p : Nat} {sf : Sf} (found : t.sfs p = some sf) :
    ∃ old, s.sfs p = some old ∧ old.state = sf.state ∧ old.vport = sf.vport ∧
      old.asked = sf.asked := by
  have here := congrFun view p
  simp only [SfAdapter.view, found, Option.map_some] at here
  obtain ⟨old, before, same⟩ := Option.map_eq_some_iff.mp here.symm
  simp only [Prod.mk.injEq] at same
  exact ⟨old, before, same⟩

theorem same_vport (view : t.view = s.view) (p : Nat) : t.vportOf p = s.vportOf p := by
  have here := congrArg (Option.bind · (·.2.1)) (congrFun view p)
  simp only [SfAdapter.view, Option.bind_map] at here
  exact here

/-- The vports, and what the subfunctions have of them, stay as they are. -/
theorem frame (own : SfOwners b s) (view : t.view = s.view) (vports : t.vports = s.vports)
    (alive : t.alive = s.alive) (alloc : t.numAllocVports = s.numAllocVports)
    (spawned : t.spawned = s.spawned)
    (dying : t.dying = s.dying ∨ s.dying = none ∧ ∀ d, t.dying = some d → d.2 = .look)
    (changing : ∀ p state next task, t.op = .changing p state next task →
      Changing t p state next task)
    (hands : ∀ p v, s.Hands p v → t.Hands p v) : SfOwners b t := by
  have owns : ∀ p v, t.Owns p v ↔ s.Owns p v := by
    intro p v
    rw [SfAdapter.Owns, SfAdapter.Owns, same_vport view]
  have past : ∀ p phase, phase ≠ .look → t.dying = some (p, phase) →
      s.dying = some (p, phase) := by
    intro p phase late dies
    rcases dying with same | ⟨_, looks⟩
    · exact same ▸ dies
    · exact absurd (looks _ dies) late
  have onward : ∀ d, s.dying = some d → t.dying = some d := by
    intro d dies
    rcases dying with same | ⟨nobody, _⟩
    · exact same ▸ dies
    · rw [nobody] at dies
      cases dies
  constructor
  · intro p sf found
    obtain ⟨old, before, state, vport, asked⟩ := seen view found
    have sound := own.sound p old before
    constructor
    · rw [← asked, ← state, sound.asked]
    · intro inactive
      rw [← vport]
      exact sound.inactive (state.trans inactive)
    · intro v has
      exact sound.madeFor v (vport.trans has)
  · exact changing
  · intro p v has
    rw [vports]
    rcases own.slotted p v ((owns p v).mp has) with here | ⟨phase, dies, cleared⟩
    · exact .inl here
    · exact .inr ⟨phase, onward _ dies, cleared⟩
  · intro p v has
    rw [alive]
    rcases own.there p v ((owns p v).mp has) with here | ⟨phase, dies, released⟩
    · exact .inl here
    · exact .inr ⟨phase, onward _ dies, released⟩
  · intro p v dies
    apply (owns p v).mpr
    apply own.claimed p v
    rcases dies with clear | rel
    · exact .inl (past _ _ (by intro same; cases same) clear)
    · exact .inr (past _ _ (by intro same; cases same) rel)
  · intro p phase dies released v member
    rw [owns]
    have late : phase ≠ .look := by
      rintro rfl
      cases released
    exact own.gone p phase (past _ _ late dies) released v (alive ▸ member)
  · intro v member
    rcases own.made v (alive ▸ member) with default | ⟨p, made, has | handed⟩
    · exact .inl default
    · exact .inr ⟨p, made, .inl ((owns p v).mpr has)⟩
    · exact .inr ⟨p, made, .inr (hands p v handed)⟩
  · rw [alive]
    exact own.kinds
  · rw [alive, spawned]
    exact own.serials
  · rw [alive]
    exact own.distinct
  · rw [alloc, alive]
    exact own.alloc
  · rw [alive]
    exact own.defaults

/-- There is no state change before the step or after it. -/
theorem frame_still (own : SfOwners b s) (view : t.view = s.view) (vports : t.vports = s.vports)
    (alive : t.alive = s.alive) (alloc : t.numAllocVports = s.numAllocVports)
    (spawned : t.spawned = s.spawned)
    (dying : t.dying = s.dying ∨ s.dying = none ∧ ∀ d, t.dying = some d → d.2 = .look)
    (before : s.op.changes = false) (after : t.op.changes = false) : SfOwners b t := by
  apply own.frame view vports alive alloc spawned dying
  · intro p state next task change
    exact absurd change (DevlinkOp.not_changing after p state next task)
  · rintro p v ⟨state, next, task, change, _⟩
    exact absurd change (DevlinkOp.not_changing before p state next task)

/-- A state change goes on beside the step. -/
theorem beside {p next : Nat} {state : FnState} {task : InitTask}
    (change : Changing s p state next task) (view : t.view = s.view) (vports : t.vports = s.vports)
    (alive : t.alive = s.alive) (lives : t.dying ≠ some (p, .free))
    (early : (s.vports next).isSome → t.begun p = false) : Changing t p state next task := by
  constructor
  · obtain ⟨sf, found, other⟩ := change.there
    obtain ⟨new, after, same, _⟩ := seen view.symm found
    exact ⟨new, after, same ▸ other⟩
  · exact lives
  · intro v held
    rw [vports] at held
    obtain ⟨member, made, idx, inactive⟩ := change.held v held
    refine ⟨alive ▸ member, made, idx, ?_⟩
    intro sf found
    obtain ⟨old, before, same, _⟩ := seen view found
    exact same ▸ inactive old before
  · rw [vports]
    exact change.slot
  · rw [vports]
    exact early

/-- A subfunction that owns nothing comes or goes. -/
theorem replace (own : SfOwners b s) {p : Nat} (others : ∀ q, q ≠ p → t.sfs q = s.sfs q)
    (bare : ∀ sf, t.sfs p = some sf → sf.Sound p ∧ sf.vport = none)
    (nothing : ∀ v ∈ s.alive, ¬ s.Owns p v) (vports : t.vports = s.vports)
    (alive : t.alive = s.alive) (alloc : t.numAllocVports = s.numAllocVports)
    (spawned : t.spawned = s.spawned)
    (dying : t.dying = s.dying ∨ t.dying = none ∧ ∀ d, s.dying = some d → d.1 = p)
    (change : ∀ q state next task, t.op = .changing q state next task ↔
      s.op = .changing q state next task)
    (idle : ∀ state next task, s.op ≠ .changing p state next task) : SfOwners b t := by
  have owns : ∀ q v, t.Owns q v ↔ q ≠ p ∧ s.Owns q v := by
    intro q v
    by_cases here : q = p
    · subst here
      constructor
      · intro has
        obtain ⟨sf, found, same⟩ := Option.bind_eq_some_iff.mp has
        rw [(bare sf found).2] at same
        cases same
      · exact fun both => absurd rfl both.1
    · rw [SfAdapter.Owns, SfAdapter.Owns, SfAdapter.vportOf, SfAdapter.vportOf, others q here]
      simp only [ne_eq, here, not_false_eq_true, true_and]
  have past : ∀ q phase, t.dying = some (q, phase) → s.dying = some (q, phase) := by
    intro q phase dies
    rcases dying with same | ⟨nobody, _⟩
    · exact same ▸ dies
    · rw [nobody] at dies
      cases dies
  have onward : ∀ q phase, q ≠ p → s.dying = some (q, phase) → t.dying = some (q, phase) := by
    intro q phase other dies
    rcases dying with same | ⟨_, only⟩
    · exact same ▸ dies
    · exact absurd (only _ dies) other
  constructor
  · intro q sf found
    by_cases here : q = p
    · subst here
      exact (bare sf found).1
    · exact own.sound q sf (others q here ▸ found)
  · intro q state next task changing
    have before := (change q state next task).mp changing
    have other : q ≠ p := by
      rintro rfl
      exact idle state next task before
    have old := own.changing q state next task before
    constructor
    · rw [others q other]
      exact old.there
    · exact fun dies => old.lives (past q _ dies)
    · rw [vports, alive, others q other]
      exact old.held
    · rw [vports]
      exact old.slot
    · intro full
      have early := old.early (vports ▸ full)
      rcases dying with same | ⟨nobody, _⟩
      · rw [SfAdapter.begun, same]
        exact early
      · rw [SfAdapter.begun, nobody]
        rfl
  · intro q v has
    obtain ⟨other, had⟩ := (owns q v).mp has
    rw [vports]
    rcases own.slotted q v had with here | ⟨phase, dies, cleared⟩
    · exact .inl here
    · exact .inr ⟨phase, onward q phase other dies, cleared⟩
  · intro q v has
    obtain ⟨other, had⟩ := (owns q v).mp has
    rw [alive]
    rcases own.there q v had with here | ⟨phase, dies, released⟩
    · exact .inl here
    · exact .inr ⟨phase, onward q phase other dies, released⟩
  · intro q v dies
    have before : s.dying = some (q, .dealloc (.clear v)) ∨ s.dying = some (q, .dealloc (.rel v)) :=
      dies.imp (past q _) (past q _)
    have had := own.claimed q v before
    refine (owns q v).mpr ⟨?_, had⟩
    rintro rfl
    rcases own.there q v had with member | ⟨phase, again, released⟩
    · exact nothing v member had
    · rcases before with clear | rel
      · rw [clear] at again
        obtain rfl := (Prod.mk.inj (Option.some.inj again)).2
        cases released
      · rw [rel] at again
        obtain rfl := (Prod.mk.inj (Option.some.inj again)).2
        cases released
  · intro q phase dies released v member has
    exact own.gone q phase (past q phase dies) released v (alive ▸ member) ((owns q v).mp has).2
  · intro v member
    rcases own.made v (alive ▸ member) with default | ⟨q, made, has | handed⟩
    · exact .inl default
    · refine .inr ⟨q, made, .inl ((owns q v).mpr ⟨?_, has⟩)⟩
      rintro rfl
      exact nothing v (alive ▸ member) has
    · obtain ⟨state, next, task, changing, held⟩ := handed
      refine .inr ⟨q, made, .inr ⟨state, next, task, (change q state next task).mpr changing, ?_⟩⟩
      rw [vports]
      exact held
  · rw [alive]
    exact own.kinds
  · rw [alive, spawned]
    exact own.serials
  · rw [alive]
    exact own.distinct
  · rw [alloc, alive]
    exact own.alloc
  · rw [alive]
    exact own.defaults

theorem modify_view (p : Nat) (f : Sf → Sf)
    (same : ∀ sf, s.sfs p = some sf →
      (f sf).state = sf.state ∧ (f sf).vport = sf.vport ∧ (f sf).asked = sf.asked) :
    (s.modify p f).view = s.view := by
  apply SfBooks.modify_map
  intro sf found
  obtain ⟨state, vport, asked⟩ := same sf found
  rw [state, vport, asked]

theorem portNew_owned (own : SfOwners b s) (books : SfBooks b s) (idle : s.op = .idle)
    (valid : Bool) (sfnum : BitVec 32) (mem registers : Bool) :
    SfOwners b (s.portNew b valid sfnum mem registers) := by
  have still : s.op.changes = false := by
    rw [idle]
    rfl
  have failing : ∀ u : SfAdapter, u = { s with sfId := u.sfId } → ∀ err, SfOwners b (u.fails err) := by
    rintro u same err
    rw [same]
    exact own.frame_still rfl rfl rfl rfl rfl (.inl rfl) still rfl
  unfold SfAdapter.portNew
  split_ifs with invalid exists_already full early no_mem no_port
  · exact failing s rfl _
  · exact failing s rfl _
  · exact failing s rfl _
  · exact failing s rfl _
  · exact failing s rfl _
  · exact failing _ rfl _
  · have fresh : s.sfs s.created = none := by
      by_contra someone
      have there := (books.heap s.created).mp (Option.isSome_iff_ne_none.mpr someone)
      rcases there with member | is_adding
      · exact (books.live_lt member).false
      · rw [idle] at is_adding
        cases is_adding
    refine own.replace (p := s.created) ?_ ?_ ?_ rfl rfl rfl rfl (.inl rfl) ?_ (DevlinkOp.not_changing still s.created)
    · intro q other
      exact Function.update_of_ne other _ _
    · intro sf found
      simp only [Function.update_self, Option.some.injEq] at found
      subst found
      exact ⟨⟨rfl, fun _ => rfl, by intro v has; cases has⟩, rfl⟩
    · intro v _ owns
      rw [SfAdapter.Owns, SfAdapter.vportOf, fresh] at owns
      cases owns
    · intro q state next task
      constructor
      · intro change
        cases change
      · exact fun change => absurd change (DevlinkOp.not_changing still q state next task)

theorem listAdd_owned (own : SfOwners b s) {p : Nat} (adds : s.op = .adding p) :
    SfOwners b (s.listAdd p) := by
  have still : s.op.changes = false := by
    rw [adds]
    rfl
  exact own.frame_still rfl rfl rfl rfl rfl (.inl rfl) still rfl

theorem schedule_owned (own : SfOwners b s) (scheduling : s.op = .scheduling) :
    SfOwners b { s with pending := true }.succeeds := by
  have still : s.op.changes = false := by
    rw [scheduling]
    rfl
  exact own.frame_still rfl rfl rfl rfl rfl (.inl rfl) still rfl

theorem portDel_owned (own : SfOwners b s) (books : SfBooks b s) (idle : s.op = .idle) (port : Nat)
    (portIndex : BitVec 32) : SfOwners b (s.portDel b port portIndex) := by
  have still : s.op.changes = false := by
    rw [idle]
    rfl
  unfold SfAdapter.portDel
  cases found : s.sfByPort b port portIndex with
  | none =>
      exact own.frame_still rfl rfl rfl rfl rfl (.inl rfl) still rfl
  | some p =>
      have view := modify_view (s := s) p (fun sf => { sf with deleted := true })
        fun sf _ => ⟨rfl, rfl, rfl⟩
      by_cases built : b.unregisters = true
      · simp only [if_pos built]
        refine own.frame_still view rfl rfl rfl rfl (.inr ⟨books.nobody_idle idle built, ?_⟩) still rfl
        intro d dies
        obtain rfl := Option.some.inj dies
        rfl
      · simp only [if_neg built]
        exact own.frame_still view rfl rfl rfl rfl (.inl rfl) still rfl

theorem registered_lives (books : SfBooks b s) {p : Nat} (registered : s.registered p) :
    s.dying ≠ some (p, .free) := by
  intro dies
  simp only [SfAdapter.registered, Bool.or_eq_true, decide_eq_true_eq, dies, Option.any_some,
    bne_self_eq_false, Bool.and_false, Bool.false_eq_true, or_false] at registered
  have distinct := books.nodup
  rw [SfAdapter.live_dying dies] at distinct
  exact (List.nodup_cons.mp distinct).1 (List.mem_append_left _ registered)

theorem stateSet_owned (own : SfOwners b s) (books : SfBooks b s) (idle : s.op = .idle) {p : Nat}
    {state : FnState} (registered : s.registered p) (good : s.ok (.stateSet p state))
    (taken : s.stateSet p state = some t) : SfOwners b t := by
  have still : s.op.changes = false := by
    rw [idle]
    rfl
  unfold SfAdapter.stateSet at taken
  cases found : s.sfs p with
  | none => simp [found] at taken
  | some sf =>
      simp only [found] at taken
      split_ifs at taken with already
      · obtain rfl := Option.some.inj taken
        have view := modify_view (s := s) p (fun sf => { sf with asked := state }) (by
          intro old before
          obtain rfl := Option.some.inj (found.symm.trans before)
          exact ⟨rfl, rfl, already.trans (own.sound p sf found).asked.symm⟩)
        exact own.frame_still view rfl rfl rfl rfl (.inl rfl) still rfl
      · cases free : s.nextVport with
        | none =>
            rw [free] at taken
            obtain rfl := Option.some.inj taken
            exact own.frame_still rfl rfl rfl rfl rfl (.inl rfl) still rfl
        | some next =>
            rw [free] at taken
            obtain rfl := Option.some.inj taken
            have other : (sf.state == state) = false := by
              simpa using fun same : sf.state = state => already same.symm
            have empty : s.vports next = none := by
              simpa [SfAdapter.ok, found, other, free] using good
            refine own.frame rfl rfl rfl rfl rfl (.inl rfl) ?_ ?_
            · intro q asked n task change
              obtain ⟨rfl, rfl, rfl, rfl⟩ := DevlinkOp.changing.inj change
              constructor
              · exact ⟨sf, found, fun same => already same.symm⟩
              · exact registered_lives books registered
              · intro v held
                cases held
              · intro _
                exact empty
              · intro full
                rw [show s.vports next = none from empty] at full
                cases full
            · rintro q v ⟨asked, n, task, change, _⟩
              exact absurd change (DevlinkOp.not_changing still q asked n task)

/-- The walk of the cleanup task only chooses what to destroy next. -/
theorem walkFrom_owned (own : SfOwners b s) (nobody : s.dying = none) (rest : List Nat)
    (pending : Bool) : SfOwners b ({ s with pending }.walkFrom rest) := by
  have looks : ∀ u : SfAdapter, u.view = s.view → u.vports = s.vports → u.alive = s.alive →
      u.numAllocVports = s.numAllocVports → u.spawned = s.spawned → u.op = s.op →
      (∀ d, u.dying = some d → d.2 = .look) → SfOwners b u := by
    intro u view vports alive alloc spawned op look
    refine own.frame view vports alive alloc spawned (.inr ⟨nobody, look⟩) ?_ ?_
    · intro p state next task change
      refine beside (own.changing p state next task (op ▸ change)) view vports alive ?_ ?_
      · intro dies
        cases look _ dies
      · intro _
        cases dies : u.dying with
        | none => simp [SfAdapter.begun, dies]
        | some d => simp [SfAdapter.begun, dies, look d dies]
    · rintro p v ⟨state, next, task, change, held⟩
      exact ⟨state, next, task, op.trans change, vports ▸ held⟩
  unfold SfAdapter.walkFrom
  split
  · refine looks _ rfl rfl rfl rfl rfl rfl ?_
    intro d dies
    rw [show s.dying = some d from dies] at nobody
    cases nobody
  · refine looks _ rfl rfl rfl rfl rfl rfl ?_
    intro d dies
    obtain rfl := Option.some.inj dies
    rfl

/-- The task gets to its next step, and the vports stay as they are. -/
theorem task_owned (own : SfOwners b s) {p next : Nat} {state : FnState} {task task' : InitTask}
    (change : s.op = .changing p state next task) {n : Option Nat}
    (same : task'.holding (s.vports next) = task.holding (s.vports next))
    (slot : task' ≠ .done → s.vports next = task'.filled) :
    SfOwners b { s with nextVport := n, op := .changing p state next task' } := by
  have old := own.changing p state next task change
  refine own.frame rfl rfl rfl rfl rfl (.inl rfl) ?_ ?_
  · intro q asked n later onward
    obtain ⟨rfl, rfl, rfl, rfl⟩ := DevlinkOp.changing.inj onward
    constructor
    · exact old.there
    · exact old.lives
    · intro v held
      exact old.held v (same.symm.trans held)
    · exact slot
    · exact old.early
  · rintro q v ⟨asked, n, before, again, held⟩
    rw [change] at again
    obtain ⟨rfl, rfl, rfl, rfl⟩ := DevlinkOp.changing.inj again
    exact ⟨state, next, task', rfl, same.trans held⟩

/-- A new vport goes into the empty slot. -/
theorem fill_owned (own : SfOwners b s) {p next : Nat} {state : FnState}
    (change : s.op = .changing p state next (.alloc (some next)))
    (inactive : ∀ sf, s.sfs p = some sf → sf.state = .inactive) (early : s.begun p = false) :
    SfOwners b { s.fill b p next with
      op := .changing p state next (.scan (s.newVport b p next)) } := by
  have old := own.changing p state next _ change
  have empty : s.vports next = none := old.slot (by intro same; cases same)
  have unmade : ∀ q, ¬ s.Owns q (s.newVport b p next) := by
    intro q owns
    obtain rfl : p = q := Option.some.inj (own.owner owns)
    obtain ⟨sf, found, has⟩ := Option.bind_eq_some_iff.mp owns
    rw [(own.sound p sf found).inactive (inactive sf found)] at has
    cases has
  have fresh : s.newVport b p next ∉ s.alive := fun member =>
    (own.serials _ member).false
  constructor
  · exact own.sound
  · intro q asked n later onward
    obtain ⟨rfl, rfl, rfl, rfl⟩ := DevlinkOp.changing.inj onward
    constructor
    · exact old.there
    · exact old.lives
    · intro v held
      obtain rfl := Option.some.inj held
      exact ⟨List.mem_cons_self, rfl, rfl, inactive⟩
    · intro _
      exact Function.update_self ..
    · intro _
      exact early
  · intro q v owns
    rcases own.slotted q v owns with full | cleared
    · left
      have other : v.idx ≠ next := by
        intro same
        rw [same, empty] at full
        cases full
      exact (Function.update_of_ne other _ _).trans full
    · exact .inr cleared
  · intro q v owns
    exact (own.there q v owns).imp_left (List.mem_cons_of_mem _)
  · exact own.claimed
  · intro q phase dies released v member owns
    rcases List.mem_cons.mp member with rfl | member
    · exact unmade q owns
    · exact own.gone q phase dies released v member owns
  · intro v member
    rcases List.mem_cons.mp member with rfl | member
    · exact .inr ⟨p, rfl, .inr ⟨state, next, _, rfl, rfl⟩⟩
    · rcases own.made v member with default | ⟨q, made, owns | handed⟩
      · exact .inl default
      · exact .inr ⟨q, made, .inl owns⟩
      · obtain ⟨asked, n, later, again, held⟩ := handed
        rw [change] at again
        obtain ⟨rfl, rfl, rfl, rfl⟩ := DevlinkOp.changing.inj again
        cases held
  · intro v member
    rcases List.mem_cons.mp member with rfl | member
    · simpa [SfAdapter.newVport] using own.room
    · exact own.kinds v member
  · intro v member
    rcases List.mem_cons.mp member with rfl | member
    · exact Nat.lt_succ_self _
    · exact (own.serials v member).trans (Nat.lt_succ_self _)
  · exact List.nodup_cons.mpr ⟨fresh, own.distinct⟩
  · simpa [SfAdapter.fill] using own.alloc
  · simpa [SfAdapter.fill, SfAdapter.newVport] using own.defaults

/-- A vport that failed to be set up leaves its slot. -/
theorem unwind_clear_owned (own : SfOwners b s) {p next : Nat} {state : FnState} {v : SfVport}
    (change : s.op = .changing p state next (.unwind (.clear v))) :
    SfOwners b { s with
      vports := Function.update s.vports v.idx none
      op := .changing p state next (.unwind (.rel v)) } := by
  have old := own.changing p state next _ change
  have full : s.vports next = some v := old.slot (by intro same; cases same)
  obtain ⟨member, made, idx, inactive⟩ := old.held v rfl
  subst idx
  constructor
  · exact own.sound
  · intro q asked n later onward
    obtain ⟨rfl, rfl, rfl, rfl⟩ := DevlinkOp.changing.inj onward
    constructor
    · exact old.there
    · exact old.lives
    · intro w held
      obtain rfl := Option.some.inj held
      exact ⟨member, made, rfl, inactive⟩
    · intro _
      exact Function.update_self ..
    · intro still
      change (Function.update s.vports v.idx none v.idx).isSome = true at still
      rw [Function.update_self] at still
      cases still
  · intro q w owns
    rcases own.slotted q w owns with here | cleared
    · left
      have other := own.apart change owns here
      exact (Function.update_of_ne other _ _).trans here
    · exact .inr cleared
  · exact own.there
  · exact own.claimed
  · exact own.gone
  · intro w inside
    rcases own.made w inside with default | ⟨q, made, owns | handed⟩
    · exact .inl default
    · exact .inr ⟨q, made, .inl owns⟩
    · obtain ⟨asked, n, later, again, held⟩ := handed
      rw [change] at again
      obtain ⟨rfl, rfl, rfl, rfl⟩ := DevlinkOp.changing.inj again
      obtain rfl := Option.some.inj held
      exact .inr ⟨p, made, .inr ⟨state, _, _, rfl, rfl⟩⟩
  · exact own.kinds
  · exact own.serials
  · exact own.distinct
  · exact own.alloc
  · exact own.defaults

theorem release_counts (own : SfOwners b s) {p : Nat} {v : SfVport} (member : v ∈ s.alive)
    (made : v.madeFor = some p) : s.numAllocVports - 1 = (s.alive.erase v).length ∧
      (s.alive.erase v).countP (·.madeFor.isNone) = b.numDefaultVports := by
  constructor
  · rw [List.length_erase_of_mem member, own.alloc]
  · rw [List.countP_erase]
    simp [made, own.defaults]

/-- A vport that failed to be set up is released. -/
theorem unwind_rel_owned (own : SfOwners b s) {p next : Nat} {state : FnState} {v : SfVport}
    (change : s.op = .changing p state next (.unwind (.rel v))) :
    SfOwners b { s with
      numAllocVports := s.numAllocVports - 1
      alive := s.alive.erase v
      op := .changing p state next (.unwind .scan) } := by
  have old := own.changing p state next _ change
  have empty : s.vports next = none := old.slot (by intro same; cases same)
  obtain ⟨member, made, idx, inactive⟩ := old.held v rfl
  obtain ⟨count, defaults⟩ := own.release_counts member made
  have kept : ∀ w, w ∈ s.alive.erase v → w ≠ v ∧ w ∈ s.alive := by
    intro w inside
    exact (own.distinct.mem_erase_iff).mp inside
  constructor
  · exact own.sound
  · intro q asked n later onward
    obtain ⟨rfl, rfl, rfl, rfl⟩ := DevlinkOp.changing.inj onward
    constructor
    · exact old.there
    · exact old.lives
    · intro w held
      cases held
    · intro _
      exact empty
    · exact old.early
  · exact own.slotted
  · intro q w owns
    have other : w ≠ v := by
      rintro rfl
      exact own.unowned change rfl owns
    exact (own.there q w owns).imp_left fun inside => (List.mem_erase_of_ne other).mpr inside
  · exact own.claimed
  · intro q phase dies released w inside
    exact own.gone q phase dies released w (kept w inside).2
  · intro w inside
    rcases own.made w (kept w inside).2 with default | ⟨q, made, owns | handed⟩
    · exact .inl default
    · exact .inr ⟨q, made, .inl owns⟩
    · obtain ⟨asked, n, later, again, held⟩ := handed
      rw [change] at again
      obtain ⟨rfl, rfl, rfl, rfl⟩ := DevlinkOp.changing.inj again
      obtain rfl := Option.some.inj held
      exact absurd rfl (kept _ inside).1
  · exact fun w inside => own.kinds w (kept w inside).2
  · exact fun w inside => own.serials w (kept w inside).2
  · exact own.distinct.erase v
  · exact count
  · exact defaults

theorem initTask_owned (own : SfOwners b s) {p next : Nat} {state : FnState} {task task' : InitTask}
    {works : Bool} (change : s.op = .changing p state next task) (good : s.ok (.initTask works))
    (taken : s.initTask b p works task = some (t, task')) :
    SfOwners b { t with op := .changing p state next task' } := by
  have old := own.changing p state next task change
  cases task with
  | queued =>
      have empty : s.vports next = none := old.slot (by intro same; cases same)
      rw [SfAdapter.initTask, if_neg own.room.not_gt] at taken
      obtain ⟨rfl, rfl⟩ := Prod.mk.inj (Option.some.inj taken)
      cases works with
      | false => exact own.task_owned change (n := s.nextVport) empty (absurd rfl)
      | true => exact own.task_owned change (n := s.nextVport) rfl fun _ => empty
  | alloc idx =>
      have empty : s.vports next = none := old.slot (by intro same; cases same)
      cases idx with
      | none =>
          obtain ⟨rfl, rfl⟩ := Prod.mk.inj (Option.some.inj taken)
          exact own.task_owned change (n := s.nextVport) empty (absurd rfl)
      | some idx =>
          cases works with
          | false =>
              obtain ⟨rfl, rfl⟩ := Prod.mk.inj (Option.some.inj taken)
              exact own.task_owned change (n := s.nextVport) empty (absurd rfl)
          | true =>
              obtain ⟨rfl, rfl⟩ := Prod.mk.inj (Option.some.inj taken)
              simp only [SfAdapter.ok, change, Bool.not_true, Bool.false_or, Bool.and_eq_true,
                beq_iff_eq, Bool.not_eq_true'] at good
              obtain ⟨⟨rfl, inactive⟩, early⟩ := good
              apply own.fill_owned change _ early
              intro sf found
              simpa [found] using inactive
  | scan v =>
      obtain ⟨rfl, rfl⟩ := Prod.mk.inj (Option.some.inj taken)
      exact own.task_owned change (n := s.nextVport) rfl fun _ =>
        old.slot (by intro same; cases same)
  | store v free =>
      obtain ⟨rfl, rfl⟩ := Prod.mk.inj (Option.some.inj taken)
      exact own.task_owned change rfl fun _ => old.slot (by intro same; cases same)
  | made v =>
      have full : s.vports next = some v := old.slot (by intro same; cases same)
      have idx := (old.held v rfl).2.2.1
      obtain ⟨rfl, rfl⟩ := Prod.mk.inj (Option.some.inj taken)
      cases works with
      | true => exact own.task_owned change (n := s.nextVport) full (absurd rfl)
      | false =>
          simp only [idx, full, Bool.not_false, decide_true, Bool.and_self, if_true]
          exact own.task_owned change (n := s.nextVport) rfl fun _ => full
  | unwind d =>
      cases d with
      | clear v =>
          obtain ⟨rfl, rfl⟩ := Prod.mk.inj (Option.some.inj taken)
          exact own.unwind_clear_owned change
      | rel v =>
          obtain ⟨rfl, rfl⟩ := Prod.mk.inj (Option.some.inj taken)
          exact own.unwind_rel_owned change
      | scan =>
          obtain ⟨rfl, rfl⟩ := Prod.mk.inj (Option.some.inj taken)
          exact own.task_owned change (n := s.nextVport) rfl fun _ =>
            old.slot (by intro same; cases same)
      | store free =>
          have empty : s.vports next = none := old.slot (by intro same; cases same)
          obtain ⟨rfl, rfl⟩ := Prod.mk.inj (Option.some.inj taken)
          exact own.task_owned change empty (absurd rfl)
  | done => cases taken

theorem stateDone_owned (own : SfOwners b s) {p next : Nat} {state : FnState}
    (change : s.op = .changing p state next .done) : SfOwners b (s.stateDone p state next) := by
  have old := own.changing p state next _ change
  unfold SfAdapter.stateDone
  cases full : s.vports next with
  | none =>
      refine own.frame rfl rfl rfl rfl rfl (.inl rfl) ?_ ?_
      · intro q asked n task onward
        cases onward
      · rintro q v ⟨asked, n, task, again, held⟩
        rw [change] at again
        obtain ⟨rfl, rfl, rfl, rfl⟩ := DevlinkOp.changing.inj again
        rw [full] at held
        cases held
  | some v =>
      obtain ⟨member, made, idx, inactive⟩ := old.held v full
      obtain ⟨sf, found, other⟩ := old.there
      have active : state = .active := by
        rw [inactive sf found] at other
        cases state with
        | inactive => exact absurd rfl other
        | active => rfl
      have unowned : ∀ w, ¬ s.Owns p w := by
        intro w owns
        obtain ⟨_, again, has⟩ := Option.bind_eq_some_iff.mp owns
        rw [(own.sound p _ again).inactive (inactive _ again)] at has
        cases has
      have early : s.begun p = false := old.early (by rw [full]; rfl)
      have looking : ∀ phase, s.dying = some (p, phase) → phase = .look := by
        intro phase dies
        simpa [SfAdapter.begun, dies] using early
      subst active
      have owns : ∀ q w, (s.stateDone p .active next).Owns q w ↔
          q = p ∧ w = v ∨ s.Owns q w := by
        intro q w
        rw [SfAdapter.stateDone, full]
        by_cases here : q = p
        · subst here
          have free := unowned w
          simp only [true_and, free, or_false]
          simp [SfAdapter.Owns, SfAdapter.vportOf, SfAdapter.succeeds, SfAdapter.modify, found,
            eq_comm]
        · simp [SfAdapter.Owns, SfAdapter.vportOf, SfAdapter.succeeds, SfAdapter.modify, here]
      rw [SfAdapter.stateDone, full] at owns
      constructor
      · intro q new after
        by_cases here : q = p
        · subst here
          simp only [SfAdapter.succeeds, SfAdapter.modify, Function.update_self, found,
            Option.map_some, Option.some.injEq] at after
          subst after
          constructor
          · rfl
          · intro still
            cases still
          · intro w has
            obtain rfl := Option.some.inj has
            exact made
        · apply own.sound q
          simpa [SfAdapter.succeeds, SfAdapter.modify, here] using after
      · intro q asked n task onward
        cases onward
      · intro q w has
        rcases (owns q w).mp has with ⟨rfl, rfl⟩ | had
        · left
          rw [idx]
          exact full
        · exact own.slotted q w had
      · intro q w has
        rcases (owns q w).mp has with ⟨rfl, rfl⟩ | had
        · exact .inl member
        · exact own.there q w had
      · intro q w dies
        exact (owns q w).mpr (.inr (own.claimed q w dies))
      · intro q phase dies released w inside has
        rcases (owns q w).mp has with ⟨rfl, rfl⟩ | had
        · obtain rfl := looking phase dies
          cases released
        · exact own.gone q phase dies released w inside had
      · intro w inside
        rcases own.made w inside with default | ⟨q, made_for, had | handed⟩
        · exact .inl default
        · exact .inr ⟨q, made_for, .inl ((owns q w).mpr (.inr had))⟩
        · obtain ⟨asked, n, task, again, held⟩ := handed
          rw [change] at again
          obtain ⟨rfl, rfl, rfl, rfl⟩ := DevlinkOp.changing.inj again
          have same : w = v := Option.some.inj (held.symm.trans full)
          exact .inr ⟨p, made_for, .inl ((owns p w).mpr (.inl ⟨rfl, same⟩))⟩
      · exact own.kinds
      · exact own.serials
      · exact own.distinct
      · exact own.alloc
      · exact own.defaults

/-- The destruction gets to its next step, and the vports stay as they are. -/
theorem phase_owned (own : SfOwners b s) {p : Nat} {phase phase' : Destroy} {n : Option Nat}
    (dies : s.dying = some (p, phase)) (cleared : phase.cleared → phase'.cleared)
    (released : phase.released → phase'.released)
    (claimed : ∀ v, phase' = .dealloc (.clear v) ∨ phase' = .dealloc (.rel v) → s.Owns p v)
    (gone : phase'.released → ∀ v ∈ s.alive, ¬ s.Owns p v)
    (lives : ∀ state next task, s.op = .changing p state next task → phase' ≠ .free)
    (early : ∀ state next task, s.op = .changing p state next task → (s.vports next).isSome →
      phase' = .look) :
    SfOwners b { s with nextVport := n, dying := some (p, phase') } := by
  have onward : ∀ q ph, s.dying = some (q, ph) → q = p ∧ ph = phase := by
    intro q ph again
    rw [dies] at again
    obtain ⟨rfl, rfl⟩ := Prod.mk.inj (Option.some.inj again)
    exact ⟨rfl, rfl⟩
  constructor
  · exact own.sound
  · intro q state next task change
    have old := own.changing q state next task change
    constructor
    · exact old.there
    · intro again
      obtain ⟨rfl, last⟩ := Prod.mk.inj (Option.some.inj again)
      exact lives state next task change last
    · exact old.held
    · exact old.slot
    · intro full
      change (p == q && phase' != .look) = false
      by_cases here : p = q
      · subst here
        simp [early state next task change full]
      · simp [here]
  · intro q v owns
    rcases own.slotted q v owns with full | ⟨ph, again, past⟩
    · exact .inl full
    · obtain ⟨rfl, rfl⟩ := onward q ph again
      exact .inr ⟨phase', rfl, cleared past⟩
  · intro q v owns
    rcases own.there q v owns with inside | ⟨ph, again, past⟩
    · exact .inl inside
    · obtain ⟨rfl, rfl⟩ := onward q ph again
      exact .inr ⟨phase', rfl, released past⟩
  · intro q v again
    have both : p = q ∧ (phase' = .dealloc (.clear v) ∨ phase' = .dealloc (.rel v)) := by
      rcases again with clear | rel
      · obtain ⟨rfl, same⟩ := Prod.mk.inj (Option.some.inj clear)
        exact ⟨rfl, .inl same⟩
      · obtain ⟨rfl, same⟩ := Prod.mk.inj (Option.some.inj rel)
        exact ⟨rfl, .inr same⟩
    obtain ⟨rfl, either⟩ := both
    exact claimed v either
  · intro q ph again past
    obtain ⟨rfl, rfl⟩ := Prod.mk.inj (Option.some.inj again)
    exact gone past
  · exact own.made
  · exact own.kinds
  · exact own.serials
  · exact own.distinct
  · exact own.alloc
  · exact own.defaults

/-- The destruction goes on once the vport is released. -/
theorem released_owned (own : SfOwners b s) {p : Nat} {phase phase' : Destroy} {n : Option Nat}
    (dies : s.dying = some (p, phase)) (past : phase'.released)
    (gone : ∀ v ∈ s.alive, ¬ s.Owns p v)
    (lives : ∀ state next task, s.op = .changing p state next task → phase' ≠ .free)
    (late : ∀ state next task, s.op = .changing p state next task → (s.vports next).isSome →
      False) : SfOwners b { s with nextVport := n, dying := some (p, phase') } := by
  refine own.phase_owned dies (fun _ => Destroy.cleared_of_released past) (fun _ => past) ?_
    (fun _ => gone) lives fun state next task change full => (late state next task change full).elim
  rintro v (same | same)
  · rw [same] at past
    cases past
  · rw [same] at past
    cases past

/-- The destroyed subfunction's vport leaves its slot. -/
theorem clear_owned (own : SfOwners b s) {p : Nat} {v : SfVport}
    (dies : s.dying = some (p, .dealloc (.clear v))) :
    SfOwners b { s with
      vports := Function.update s.vports v.idx none
      dying := some (p, .dealloc (.rel v)) } := by
  have has : s.Owns p v := own.claimed p v (.inl dies)
  have early : ∀ q phase, s.dying = some (q, phase) → phase.cleared = false := by
    intro q phase again
    rw [dies] at again
    obtain ⟨_, rfl⟩ := Prod.mk.inj (Option.some.inj again)
    rfl
  have slotted : ∀ q w, s.Owns q w → s.vports w.idx = some w := by
    intro q w owns
    rcases own.slotted q w owns with full | ⟨phase, again, cleared⟩
    · exact full
    · rw [early q phase again] at cleared
      cases cleared
  have beside : ∀ q state next task, s.op = .changing q state next task →
      Function.update s.vports v.idx none next = s.vports next := by
    intro q state next task change
    exact Function.update_of_ne (own.apart change has (slotted p v has)).symm _ _
  constructor
  · exact own.sound
  · intro q state next task change
    have old := own.changing q state next task change
    have same := beside q state next task change
    constructor
    · exact old.there
    · intro again
      cases (Prod.mk.inj (Option.some.inj again)).2
    · intro w held
      exact old.held w (same ▸ held)
    · intro ended
      exact same.trans (old.slot ended)
    · intro full
      have before := old.early (same ▸ full)
      rw [SfAdapter.begun, dies] at before
      change (p == q && _) = false
      simpa using before
  · intro q w owns
    by_cases here : q = p
    · subst here
      exact .inr ⟨_, rfl, rfl⟩
    · left
      have other : w.idx ≠ v.idx := by
        intro same
        have full := slotted q w owns
        rw [same, slotted p v has] at full
        obtain rfl := Option.some.inj full
        exact here (Option.some.inj ((own.owner owns).symm.trans (own.owner has)))
      exact (Function.update_of_ne other _ _).trans (slotted q w owns)
  · intro q w owns
    rcases own.there q w owns with inside | ⟨phase, again, released⟩
    · exact .inl inside
    · rw [dies] at again
      obtain ⟨_, rfl⟩ := Prod.mk.inj (Option.some.inj again)
      cases released
  · intro q w again
    rcases again with clear | rel
    · cases (Prod.mk.inj (Option.some.inj clear)).2
    · obtain ⟨rfl, same⟩ := Prod.mk.inj (Option.some.inj rel)
      cases same
      exact has
  · intro q phase again released
    obtain ⟨_, rfl⟩ := Prod.mk.inj (Option.some.inj again)
    cases released
  · intro w inside
    rcases own.made w inside with default | ⟨q, made, owns | handed⟩
    · exact .inl default
    · exact .inr ⟨q, made, .inl owns⟩
    · obtain ⟨state, next, task, change, held⟩ := handed
      refine .inr ⟨q, made, .inr ⟨state, next, task, change, ?_⟩⟩
      exact (congrArg task.holding (beside q state next task change)).trans held
  · exact own.kinds
  · exact own.serials
  · exact own.distinct
  · exact own.alloc
  · exact own.defaults

/-- The destroyed subfunction's vport is released. -/
theorem rel_owned (own : SfOwners b s) {p : Nat} {v : SfVport}
    (dies : s.dying = some (p, .dealloc (.rel v))) :
    SfOwners b { s with
      numAllocVports := s.numAllocVports - 1
      alive := s.alive.erase v
      dying := some (p, .dealloc .scan) } := by
  have has : s.Owns p v := own.claimed p v (.inr dies)
  have unreleased : ∀ q phase, s.dying = some (q, phase) → q = p ∧ phase.released = false := by
    intro q phase again
    rw [dies] at again
    obtain ⟨rfl, rfl⟩ := Prod.mk.inj (Option.some.inj again)
    exact ⟨rfl, rfl⟩
  have there : ∀ q w, s.Owns q w → w ∈ s.alive := by
    intro q w owns
    rcases own.there q w owns with inside | ⟨phase, again, released⟩
    · exact inside
    · rw [(unreleased q phase again).2] at released
      cases released
  obtain ⟨count, defaults⟩ := own.release_counts (there p v has) (own.owner has)
  have kept : ∀ w, w ∈ s.alive.erase v → w ≠ v ∧ w ∈ s.alive := by
    intro w inside
    exact (own.distinct.mem_erase_iff).mp inside
  constructor
  · exact own.sound
  · intro q state next task change
    have old := own.changing q state next task change
    constructor
    · exact old.there
    · intro again
      cases (Prod.mk.inj (Option.some.inj again)).2
    · intro w held
      obtain ⟨inside, made, idx, inactive⟩ := old.held w held
      have other : w ≠ v := by
        rintro rfl
        exact own.unowned change held has
      exact ⟨(List.mem_erase_of_ne other).mpr inside, made, idx, inactive⟩
    · exact old.slot
    · intro full
      have before := old.early full
      rw [SfAdapter.begun, dies] at before
      change (p == q && _) = false
      simpa using before
  · intro q w owns
    rcases own.slotted q w owns with full | ⟨phase, again, _⟩
    · exact .inl full
    · obtain ⟨rfl, _⟩ := unreleased q phase again
      exact .inr ⟨_, rfl, rfl⟩
  · intro q w owns
    by_cases same : w = v
    · subst same
      obtain rfl := Option.some.inj ((own.owner owns).symm.trans (own.owner has))
      exact .inr ⟨_, rfl, rfl⟩
    · exact .inl ((List.mem_erase_of_ne same).mpr (there q w owns))
  · intro q w again
    rcases again with clear | rel
    · cases (Prod.mk.inj (Option.some.inj clear)).2
    · cases (Prod.mk.inj (Option.some.inj rel)).2
  · intro q phase again _ w inside owns
    obtain ⟨rfl, _⟩ := Prod.mk.inj (Option.some.inj again)
    exact (kept w inside).1 (Option.some.inj (owns.symm.trans has))
  · intro w inside
    exact own.made w (kept w inside).2
  · exact fun w inside => own.kinds w (kept w inside).2
  · exact fun w inside => own.serials w (kept w inside).2
  · exact own.distinct.erase v
  · exact count
  · exact defaults

theorem free_owned (own : SfOwners b s) {p : Nat} (dies : s.dying = some (p, .free)) :
    SfOwners b (s.free p) := by
  have gone := own.gone p .free dies rfl
  have only : ∀ d, s.dying = some d → d.1 = p := by
    intro d again
    rw [dies] at again
    obtain rfl := Option.some.inj again
    rfl
  have idle : ∀ state next task, s.op ≠ .changing p state next task :=
    fun state next task change => (own.changing p state next task change).lives dies
  have apart : ∀ q, q ≠ p → Function.update s.sfs p none q = s.sfs q :=
    fun q other => Function.update_of_ne other _ _
  have bare : ∀ sf, Function.update s.sfs p none p = some sf → sf.Sound p ∧ sf.vport = none := by
    intro sf found
    rw [Function.update_self] at found
    cases found
  unfold SfAdapter.free
  split_ifs with is_deleting
  · refine own.replace apart bare gone rfl rfl rfl rfl (.inr ⟨rfl, only⟩) ?_ idle
    intro q state next task
    rw [is_deleting]
    constructor
    · intro change
      cases change
    · intro change
      cases change
  · exact own.replace apart bare gone rfl rfl rfl rfl (.inr ⟨rfl, only⟩) (fun _ _ _ _ => Iff.rfl) idle

theorem destroy_owned (own : SfOwners b s) {p : Nat} {phase : Destroy}
    (dies : s.dying = some (p, phase)) (good : s.ok .destroy)
    (taken : s.destroy b p phase = some t) : SfOwners b t := by
  have settled : phase ≠ .look → ∀ state next task, s.op = .changing p state next task →
      (s.vports next).isSome → False := by
    intro past state next task change full
    have early := (own.changing p state next task change).early full
    simp [SfAdapter.begun, dies, past] at early
  cases phase with
  | look =>
      simp only [SfAdapter.destroy] at taken
      have empty : ∀ state next task, s.op = .changing p state next task →
          (s.vports next).isSome → False := by
        intro state next task change full
        simp only [SfAdapter.ok, dies, change, bne_self_eq_false, Bool.false_or] at good
        rw [Option.isNone_iff_eq_none.mp good] at full
        cases full
      cases found : s.sfs p with
      | none => simp [found] at taken
      | some sf =>
          simp only [found, Option.some.injEq] at taken
          subst taken
          cases has : sf.vport with
          | none =>
              refine own.released_owned (n := s.nextVport) dies rfl ?_
                (fun _ _ _ _ => Destroy.noConfusion) empty
              · intro v _ owns
                obtain ⟨_, again, some_vport⟩ := Option.bind_eq_some_iff.mp owns
                obtain rfl := Option.some.inj (found.symm.trans again)
                rw [has] at some_vport
                cases some_vport
          | some v =>
              refine own.phase_owned (n := s.nextVport) dies (by intro past; cases past)
                (by intro past; cases past) ?_ ?_ ?_ ?_
              · rintro v (same | same)
                · cases same
                · cases same
              · intro past
                cases past
              · intro _ _ _ _ same
                cases same
              · exact fun state next task change full => (empty state next task change full).elim
  | seen =>
      have late := settled (by intro same; cases same)
      simp only [SfAdapter.destroy] at taken
      cases found : (s.sfs p).bind (·.vport) with
      | none => simp [found] at taken
      | some v =>
          simp only [found, Option.some.injEq] at taken
          subst taken
          refine own.phase_owned (n := s.nextVport) dies (by intro past; cases past)
            (by intro past; cases past) ?_ ?_ ?_ ?_
          · rintro w (same | same)
            · cases same
              exact found
            · cases same
          · intro past
            cases past
          · intro _ _ _ _ same
            cases same
          · exact fun state next task change full => (late state next task change full).elim
  | dealloc d =>
      have late := settled (by intro same; cases same)
      cases d with
      | clear v =>
          obtain rfl := Option.some.inj taken
          exact own.clear_owned dies
      | rel v =>
          obtain rfl := Option.some.inj taken
          exact own.rel_owned dies
      | scan =>
          obtain rfl := Option.some.inj taken
          exact own.released_owned (n := s.nextVport) dies rfl (own.gone p _ dies rfl)
            (fun _ _ _ _ => Destroy.noConfusion) late
      | store free =>
          obtain rfl := Option.some.inj taken
          exact own.released_owned dies rfl (own.gone p _ dies rfl)
            (fun _ _ _ _ => Destroy.noConfusion) late
  | unregister =>
      simp only [SfAdapter.destroy] at taken
      split at taken
      · cases taken
      · rename_i still
        obtain rfl := Option.some.inj taken
        refine own.released_owned (n := s.nextVport) dies rfl (own.gone p _ dies rfl) ?_ ?_
        · exact fun state next task change => (still p state next task change).elim
        · exact fun state next task change _ => still p state next task change
  | free =>
      obtain rfl := Option.some.inj taken
      exact own.free_owned dies

theorem step_owned (own : SfOwners b s) (books : SfBooks b s) {e : SfEvent} (good : s.ok e)
    (taken : s.step b e = some t) : SfOwners b t := by
  cases e with
  | portNew valid sfnum mem registers =>
      obtain ⟨idle, done⟩ := Option.ite_none_right_eq_some.mp taken
      obtain rfl := Option.some.inj done
      exact own.portNew_owned books idle valid sfnum mem registers
  | listAdd =>
      simp only [SfAdapter.step] at taken
      split at taken
      · rename_i p adds
        obtain rfl := Option.some.inj taken
        exact own.listAdd_owned adds
      · cases taken
  | portDel port portIndex =>
      obtain ⟨idle, done⟩ := Option.ite_none_right_eq_some.mp taken
      obtain rfl := Option.some.inj done
      exact own.portDel_owned books idle port portIndex
  | schedule =>
      obtain ⟨scheduling, done⟩ := Option.ite_none_right_eq_some.mp taken
      obtain rfl := Option.some.inj done
      exact own.schedule_owned scheduling
  | stateSet p state =>
      obtain ⟨⟨idle, registered⟩, done⟩ := Option.ite_none_right_eq_some.mp taken
      exact own.stateSet_owned books idle registered good done
  | initTask works =>
      simp only [SfAdapter.step] at taken
      split at taken
      · rename_i p state next task change
        obtain ⟨⟨u, task'⟩, run, rfl⟩ := Option.map_eq_some_iff.mp taken
        exact own.initTask_owned change good run
      · cases taken
  | finish =>
      simp only [SfAdapter.step] at taken
      split at taken
      · rename_i p state next change
        obtain rfl := Option.some.inj taken
        exact own.stateDone_owned change
      · cases taken
  | cleanup =>
      obtain ⟨⟨pending, no_walk⟩, done⟩ := Option.ite_none_right_eq_some.mp taken
      obtain rfl := Option.some.inj done
      exact own.walkFrom_owned (books.nobody_pending pending no_walk).2 s.sfList false
  | walkOn =>
      simp only [SfAdapter.step] at taken
      split at taken
      · rename_i cursor walking nobody
        obtain rfl := Option.some.inj taken
        exact own.walkFrom_owned nobody _ s.pending
      · cases taken
  | destroy =>
      simp only [SfAdapter.step] at taken
      split at taken
      · rename_i p phase dies
        exact own.destroy_owned dies good taken
      · cases taken

theorem start (b : SfBuild) : SfOwners b (SfAdapter.start b) := by
  have default : ∀ v ∈ (SfAdapter.start b).alive, ∃ i < b.numDefaultVports,
      v = SfAdapter.defaultVport i := by
    intro v member
    obtain ⟨i, inside, rfl⟩ := List.mem_map.mp member
    exact ⟨i, List.mem_range.mp inside, rfl⟩
  constructor
  · intro p sf found
    cases found
  · intro p state next task change
    cases change
  · intro p v owns
    cases owns
  · intro p v owns
    cases owns
  · rintro p v (dies | dies)
    · cases dies
    · cases dies
  · intro p phase dies
    cases dies
  · intro v member
    obtain ⟨i, _, rfl⟩ := default v member
    exact .inl rfl
  · intro v member
    obtain ⟨i, _, rfl⟩ := default v member
    rfl
  · intro v member
    obtain ⟨i, inside, rfl⟩ := default v member
    exact inside
  · apply List.nodup_range.map
    intro i j same
    exact congrArg SfVport.serial same
  · simp [SfAdapter.start]
  · have all : ((fun v : SfVport => v.madeFor.isNone) ∘ SfAdapter.defaultVport) = fun _ => true := rfl
    simp [SfAdapter.start, List.countP_map, all]

theorem reachable
    (reached : Reachable (SfAdapter.step b) (fun s e => s.ok e = true) (· = SfAdapter.start b) s) :
    SfBooks b s ∧ SfOwners b s := by
  apply reached.invariant
  · rintro _ rfl
    exact ⟨SfBooks.start b, start b⟩
  · rintro s e t ⟨books, own⟩ good taken
    exact ⟨books.step_keeps taken, own.step_owned books good taken⟩

end SfOwners

/-- Each subfunction is counted until it is destroyed, which happens once; what is marked is not
forgotten; each vport of a subfunction has one owner, which is there, and none is left of a
subfunction that is destroyed or was asked to be inactive; and the saved entry of the walk is listed. -/
structure SfOwnership (s : SfAdapter) : Prop where
  counted : s.sfCnt.toNat + s.destroyed.length = s.created
  once : s.destroyed.Nodup ∧ ∀ p < s.created, (s.sfs p).isSome ↔ p ∉ s.destroyed
  prompt : ∀ p ∈ s.sfList, s.deleted p → s.pending ∨ s.op = .scheduling ∨ s.walk.isSome
  owned : ∀ v ∈ s.alive, v.defaultVport = false → ∃ p, v.madeFor = some p ∧ (s.sfs p).isSome ∧
    (s.Owns p v ∨ s.Hands p v) ∧ ∀ q, s.Owns q v → q = p
  deleted : ∀ v ∈ s.alive, ∀ p ∈ s.destroyed, v.madeFor ≠ some p
  deactivated : ∀ p sf, s.sfs p = some sf → sf.asked = .inactive →
    ∀ v ∈ s.alive, v.madeFor = some p → s.Hands p v
  walked : ∀ c, s.walk = some (some c) → c ∈ s.sfList ∧ (s.sfs c).isSome

namespace SfAdapter

variable {b : SfBuild} {s : SfAdapter}

theorem books_destroyed (books : SfBooks b s) {p : Nat} (created : p < s.created) :
    (s.sfs p).isSome ↔ p ∉ s.destroyed := by
  have apart := (List.nodup_append'.mp books.nodup).2.2
  have somewhere := List.mem_append.mp (books.shares.mem_iff.mpr (List.mem_range.mpr created))
  have not_adding : s.op ≠ .adding p := fun is_adding => created.ne (books.adding p is_adding).1
  rw [books.heap p]
  constructor
  · rintro (member | is_adding) gone
    · exact apart member gone
    · exact not_adding is_adding
  · intro there
    exact .inl (somewhere.resolve_right there)

/-- In a run of steps that meet the condition each vport is owned, in the build that destroys at once
and in the one that leaves it to the cleanup task. -/
theorem subfunctions_own
    (reached : Reachable (step b) (fun s e => s.ok e = true) (· = start b) s) : SfOwnership s := by
  obtain ⟨books, own⟩ := SfOwners.reachable reached
  have lives : ∀ p v, s.Owns p v ∨ s.Hands p v → (s.sfs p).isSome := by
    rintro p v (owns | ⟨state, next, task, change, _⟩)
    · obtain ⟨sf, found, _⟩ := Option.bind_eq_some_iff.mp owns
      exact Option.isSome_of_eq_some found
    · obtain ⟨sf, found, _⟩ := (own.changing p state next task change).there
      exact Option.isSome_of_eq_some found
  have keeper : ∀ v ∈ s.alive, ∀ p, v.madeFor = some p → s.Owns p v ∨ s.Hands p v := by
    intro v member p made
    rcases own.made v member with default | ⟨q, same, either⟩
    · rw [made] at default
      cases default
    · obtain rfl := Option.some.inj (made.symm.trans same)
      exact either
  constructor
  · have total := books.shares.length_eq
    rw [List.length_append, List.length_range, ← books.count] at total
    exact total
  · have distinct := (List.nodup_append'.mp books.nodup).2.1
    exact ⟨distinct, fun p created => books_destroyed books created⟩
  · intro p member flag
    rcases books.prompt p member flag with pending | scheduling | ⟨cursor, walking, _⟩
    · exact .inl pending
    · exact .inr (.inl scheduling)
    · exact .inr (.inr (Option.isSome_of_eq_some walking))
  · intro v member dynamic
    obtain ⟨p, made⟩ : ∃ p, v.madeFor = some p := by
      rw [own.kinds v member] at dynamic
      exact Option.isSome_iff_exists.mp (by simpa using dynamic)
    have either := keeper v member p made
    refine ⟨p, made, lives p v either, either, ?_⟩
    intro q owns
    exact Option.some.inj ((own.owner owns).symm.trans made)
  · intro v member p gone made
    have there := lives p v (keeper v member p made)
    have created : p < s.created :=
      List.mem_range.mp (books.shares.mem_iff.mp (List.mem_append_right _ gone))
    exact (books_destroyed books created).mp there gone
  · intro p sf found asked v member made
    refine (keeper v member p made).resolve_left ?_
    intro owns
    obtain ⟨_, again, has⟩ := Option.bind_eq_some_iff.mp owns
    obtain rfl := Option.some.inj (found.symm.trans again)
    have sound := own.sound p sf found
    rw [sound.inactive (sound.asked.symm.trans asked)] at has
    cases has
  · intro c saved
    have listed := books.cursor c saved
    exact ⟨listed, (books.heap c).mpr (.inl (SfBooks.live_of_listed listed))⟩

def createsActive (p : Nat) (sfnum : BitVec 32) : List SfEvent :=
  [.portNew true sfnum true true, .listAdd, .stateSet p .active, .initTask true, .initTask true,
    .initTask true, .initTask true, .initTask true, .finish]

/-- The cleanup task destroys a subfunction while another one is created. -/
theorem subfunctions_own_run : ∃ s : SfAdapter, SfOwnership s ∧ s.destroyed = [0] ∧
    s.alive.map SfVport.madeFor = [some 1, none] := by
  have run : (execIf (step ⟨false, false, 4, 1⟩) ok (start ⟨false, false, 4, 1⟩)
      (createsActive 0 7 ++ [.portDel 0 1, .schedule, .portNew true 7 true true, .cleanup,
        .listAdd, .destroy, .destroy, .destroy, .destroy, .destroy, .destroy, .stateSet 1 .active,
        .initTask true, .initTask true, .initTask true, .initTask true, .initTask true, .finish,
        .destroy, .destroy, .walkOn])).map
          (fun s => (s.destroyed, s.alive.map SfVport.madeFor)) = some ([0], [some 1, none]) := by
    decide +kernel
  obtain ⟨s, steps, ends⟩ := Option.map_eq_some_iff.mp run
  obtain ⟨destroyed, alive⟩ := Prod.mk.inj ends
  exact ⟨s, subfunctions_own (Reachable.execIf (.start rfl) steps), destroyed, alive⟩

/-- An active subfunction is asked to be inactive: it gets a second vport, stays active, and nobody
owns the first one. -/
theorem subfunction_vport_orphaned : ∃ s : SfAdapter,
    Reachable (step ⟨true, true, 4, 1⟩) anyStep (· = start ⟨true, true, 4, 1⟩) s ∧
      s.op = .idle ∧ s.ret.isOk ∧ (s.sfs 0).map (·.state) = some .active ∧ ¬ SfOwnership s := by
  have run : (exec (step ⟨true, true, 4, 1⟩) (start ⟨true, true, 4, 1⟩)
      (createsActive 0 7 ++ [.stateSet 0 .inactive, .initTask true, .initTask true, .initTask true,
        .initTask true, .initTask true, .finish])).map
          (fun s => (s.op, s.ret.isOk, s.sfs 0, s.alive)) =
        some (.idle, true, some ⟨1, 7, false, .active, some ⟨2, 2, false, some 0⟩, .inactive⟩,
          [⟨2, 2, false, some 0⟩, ⟨1, 1, false, some 0⟩, ⟨0, 0, true, none⟩]) := by
    decide +kernel
  obtain ⟨s, steps, ends⟩ := Option.map_eq_some_iff.mp run
  simp only [Prod.mk.injEq] at ends
  obtain ⟨op, ret, sf, alive⟩ := ends
  refine ⟨s, Reachable.exec (.start rfl) steps, op, ret, by rw [sf]; rfl, ?_⟩
  intro claim
  obtain ⟨state, next, task, change, _⟩ := claim.deactivated 0 _ sf rfl ⟨1, 1, false, some 0⟩
    (by rw [alive]; simp) rfl
  rw [op] at change
  cases change

end SfAdapter

end Idpf
