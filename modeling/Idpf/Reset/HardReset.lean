import Idpf.General.Transition

/-! Hard resets: the flags of the adapter and the work that sets and clears them. After a reset
nobody works on any more, the driver is ready for the next one only if nothing has failed. -/
namespace Idpf
open General

/-- How far `idpf_vc_event_task` is in `idpf_init_hard_reset`: before the cause is looked at, in
`idpf_wait_on_reset_detection`, in `idpf_check_reset_complete`, and in `idpf_reset_recover` before
the mailbox is initialised, in `idpf_vc_core_init`, and waiting for the vports. -/
inductive HardReset where
  | prepare
  | detect
  | check
  | recover
  | coreInit
  | wait
  deriving DecidableEq, Repr

/-- The flags that resets go by, `hw.arq`, which of the tasks are queued, and the run of
`idpf_vc_event_task`. -/
structure ResetSystem where
  hrFuncReset : Bool
  hrDrvLoad : Bool
  hrResetInProg : Bool
  removeInProg : Bool
  pciCbReset : Bool
  corerInProg : Bool
  vcCoreInit : Bool
  arq : Bool
  servTask : Bool
  vcEventTask : Bool
  initTask : Bool
  hardReset : Option HardReset
  deriving DecidableEq, Repr

/-- How `idpf_check_reset_complete` ends. -/
inductive ResetWait where
  | complete
  | corerTimeout
  | removed
  | timeout
  deriving DecidableEq, Repr

/-- How `idpf_vc_core_init` ends; `again` is -EAGAIN. -/
inductive CoreInit where
  | success
  | again
  | failed
  deriving DecidableEq, Repr

/-- How a run of `idpf_init_task` ends; `more` where default vports are still to be created. -/
inductive InitEnd where
  | more
  | success
  | failed
  deriving DecidableEq, Repr

/-- A task runs up to where it waits, with what it reads from the device. `reset` is
`idpf_tx_timeout` and `idpf_idc_request_reset`. -/
inductive ResetOp where
  | service (regs : Bool)
  | reset
  | mbIntr (enabled : Bool)
  | vcEvent
  | prepare (regs : Bool)
  | detect (detected : Bool)
  | check (how : ResetWait)
  | recover (mailbox : Bool)
  | coreInit (how : CoreInit)
  | waited
  | init (how : InitEnd)
  | remove
  deriving DecidableEq, Repr

namespace ResetSystem

/-- `idpf_is_reset_detected`. -/
def isResetDetected (s : ResetSystem) (regs : Bool) : Bool := s.corerInProg || !s.arq || regs

/-- `idpf_is_reset_in_prog`. -/
def isResetInProg (s : ResetSystem) : Bool := s.hrResetInProg || s.hrFuncReset || s.hrDrvLoad

/-- `idpf_service_task`. -/
def serviceTask (s : ResetSystem) (regs : Bool) : ResetSystem :=
  if s.isResetDetected regs ∧ s.isResetInProg = false ∧ s.removeInProg = false then
    { s with
      hrFuncReset := true
      vcEventTask := true
      servTask := false }
  else { s with servTask := true }

/-- A reset that the driver itself or RDMA asks for. -/
def requestReset (s : ResetSystem) : ResetSystem :=
  if s.isResetInProg then s
  else { s with
    hrFuncReset := true
    vcEventTask := true }

/-- `idpf_mb_intr_clean`, `enabled` being whether the send queue is. -/
def mbIntrClean (s : ResetSystem) (enabled : Bool) : ResetSystem :=
  if s.corerInProg then { s with corerInProg := false }
  else { s with
    corerInProg := s.arq && !enabled
    servTask := true }

/-- `idpf_vc_event_task` up to `idpf_init_hard_reset`. -/
def vcEvent (s : ResetSystem) : ResetSystem :=
  if s.removeInProg then { s with vcEventTask := false }
  else if s.hrFuncReset ∨ s.hrDrvLoad ∨ s.pciCbReset then
    { s with
      vcEventTask := false
      hrResetInProg := true
      hardReset := some .prepare }
  else { s with vcEventTask := false }

/-- `idpf_init_hard_reset` as far as the reset is triggered. -/
def prepare (s : ResetSystem) (regs : Bool) : ResetSystem :=
  if s.pciCbReset then
    { s with
      pciCbReset := false
      hardReset := some .check }
  else if s.hrDrvLoad then { s with hardReset := some .check }
  else if s.hrFuncReset then
    { s with hardReset := some (if s.isResetDetected regs then .check else .detect) }
  else { s with hardReset := none }

/-- `idpf_vc_core_deinit`, then `idpf_deinit_dflt_mbx`. -/
def coreDeinit (s : ResetSystem) : ResetSystem :=
  if s.vcCoreInit then
    { s with
      initTask := false
      servTask := false
      vcCoreInit := false
      arq := false }
  else { s with arq := false }

/-- `idpf_check_reset_complete` and what follows on it. -/
def checkComplete (s : ResetSystem) : ResetWait → ResetSystem
  | .complete =>
    let s := if s.hrFuncReset then s.coreDeinit else s
    { s with
      hrFuncReset := false
      hardReset := some .recover }
  | .corerTimeout => { s with
      corerInProg := false
      hardReset := none }
  | .removed => { s with hardReset := none }
  | .timeout => { s with
      hrResetInProg := false
      hardReset := none }

/-- `idpf_reset_recover` up to `idpf_vc_core_init`. -/
def recover (s : ResetSystem) (mailbox : Bool) : ResetSystem :=
  if mailbox then
    { s with
      arq := true
      servTask := true
      hardReset := some .coreInit }
  else { s with hardReset := none }

/-- `idpf_vc_core_init`, and where it fails the end of `idpf_reset_recover`. -/
def coreInitEnd (s : ResetSystem) : CoreInit → ResetSystem
  | .success => { s with
      initTask := true
      vcCoreInit := true
      hardReset := some .wait }
  | .again => { s with
      hrDrvLoad := true
      vcEventTask := true
      servTask := false
      arq := false
      hardReset := none }
  | .failed => { s with
      servTask := false
      arq := false
      hardReset := none }

/-- `idpf_init_task`. -/
def initEnd (s : ResetSystem) : InitEnd → ResetSystem
  | .more => s
  | .success => { s with
      initTask := false
      hrResetInProg := false
      hrDrvLoad := false }
  | .failed => { s with
      initTask := false
      servTask := if s.hrDrvLoad then false else s.servTask
      hrDrvLoad := false
      hrResetInProg := false }

/-- What the run of the event task has to be for the step. -/
def at? (s : ResetSystem) (phase : HardReset) (t : ResetSystem) : Option ResetSystem :=
  if s.hardReset = some phase then some t else none

def step (s : ResetSystem) : ResetOp → Option ResetSystem
  | .service regs => if s.servTask then some (s.serviceTask regs) else none
  | .reset => some s.requestReset
  | .mbIntr enabled =>
    if s.vcCoreInit ∨ s.hardReset = some .coreInit then some (s.mbIntrClean enabled) else none
  | .vcEvent => if s.vcEventTask ∧ s.hardReset = none then some s.vcEvent else none
  | .prepare regs => s.at? .prepare (s.prepare regs)
  | .detect detected =>
    s.at? .detect { s with hardReset := if detected then some .check else none }
  | .check how =>
    if how = .corerTimeout ∧ s.corerInProg = false ∨ how = .removed ∧ s.removeInProg = false then
      none
    else s.at? .check (s.checkComplete how)
  | .recover mailbox => s.at? .recover (s.recover mailbox)
  | .coreInit how =>
    if how = .again ∧ s.removeInProg then none else s.at? .coreInit (s.coreInitEnd how)
  | .waited => if s.hrResetInProg then none else s.at? .wait { s with hardReset := none }
  | .init how => if s.initTask then some (s.initEnd how) else none
  | .remove => some { s with
      removeInProg := true
      vcEventTask := false }

/-- The end of `idpf_probe`: the first reset is queued. -/
def probed : ResetSystem where
  hrFuncReset := false
  hrDrvLoad := true
  hrResetInProg := false
  removeInProg := false
  pciCbReset := false
  corerInProg := false
  vcCoreInit := false
  arq := false
  servTask := false
  vcEventTask := true
  initTask := false
  hardReset := none

def start (s : ResetSystem) : Prop := s = probed

/-- Nothing fails for good: a triggered reset is detected and ends in time, the mailbox is
initialised, the core is or is tried again, and the vports fail only after driver load. -/
def stepOk (s : ResetSystem) (op : ResetOp) : Bool :=
  s.removeInProg || match op with
    | .detect detected => detected
    | .check how => how == .complete
    | .recover mailbox => mailbox
    | .coreInit how => how != .failed
    | .init how => how != .failed || !s.hrDrvLoad
    | _ => true

end ResetSystem

/-- With no reset work queued or running the flags are clear and the service task is queued. -/
def Unwedged (s : ResetSystem) : Prop :=
  s.removeInProg = false → s.vcEventTask = false → s.hardReset = none → s.initTask = false →
    s.hrResetInProg = false ∧ s.hrFuncReset = false ∧ s.hrDrvLoad = false ∧ s.servTask = true

/-- Where a run is in which nothing has failed for good: nobody works on a reset, one is due, the
event task has not armed the service task again, it initialises the core, the vports are being
created, or they are there and the event task is to end. -/
inductive ResetMode (s : ResetSystem) : Prop
  | idle (run : s.hardReset = none) (event : s.vcEventTask = false) (init : s.initTask = false)
      (inProg : s.hrResetInProg = false) (func : s.hrFuncReset = false)
      (load : s.hrDrvLoad = false) (serv : s.servTask = true)
  | due (run : s.hardReset = none) (event : s.vcEventTask = true) (init : s.initTask = false)
      (cause : s.hrFuncReset = true ∨ s.hrDrvLoad = true)
  | early (event : s.vcEventTask = false) (init : s.initTask = false)
      (inProg : s.hrResetInProg = true)
      (run : s.hardReset = some .prepare ∧ (s.hrFuncReset = true ∨ s.hrDrvLoad = true) ∨
        s.hardReset = some .detect ∨ s.hardReset = some .check ∨
        s.hardReset = some .recover ∧ s.hrFuncReset = false)
  | core (run : s.hardReset = some .coreInit) (event : s.vcEventTask = false)
      (init : s.initTask = false) (inProg : s.hrResetInProg = true)
      (func : s.hrFuncReset = false) (serv : s.servTask = true)
  | vports (run : s.hardReset = some .wait) (event : s.vcEventTask = false)
      (init : s.initTask = true) (inProg : s.hrResetInProg = true)
      (func : s.hrFuncReset = false) (serv : s.servTask = true)
  | opened (run : s.hardReset = some .wait) (init : s.initTask = false)
      (inProg : s.hrResetInProg = false) (load : s.hrDrvLoad = false)
      (next : s.vcEventTask = true ∧ s.hrFuncReset = true ∨
        s.vcEventTask = false ∧ s.hrFuncReset = false ∧ s.servTask = true)

theorem ResetSystem.isResetInProg_eq_false {s : ResetSystem} : s.isResetInProg = false ↔
    s.hrResetInProg = false ∧ s.hrFuncReset = false ∧ s.hrDrvLoad = false := by
  unfold ResetSystem.isResetInProg
  rw [Bool.or_eq_false_iff, Bool.or_eq_false_iff, and_assoc]

theorem ResetSystem.at?_eq {s t u : ResetSystem} {phase : HardReset}
    (h : s.at? phase t = some u) : s.hardReset = some phase ∧ t = u := by
  obtain ⟨run, eq⟩ := Option.ite_none_right_eq_some.mp h
  exact ⟨run, Option.some.inj eq⟩

namespace ResetMode

variable {s : ResetSystem}

theorem arm (h : ResetMode s) (corer : Bool) :
    ResetMode { s with
      corerInProg := corer
      servTask := true } := by
  cases h with
  | idle run event init inProg func load serv => exact .idle run event init inProg func load rfl
  | due run event init cause => exact .due run event init cause
  | early event init inProg run => exact .early event init inProg run
  | core run event init inProg func serv => exact .core run event init inProg func rfl
  | vports run event init inProg func serv => exact .vports run event init inProg func rfl
  | opened run init inProg load next =>
    exact .opened run init inProg load (next.imp id fun rest => ⟨rest.1, rest.2.1, rfl⟩)

theorem corer (h : ResetMode s) : ResetMode { s with corerInProg := false } := by
  cases h with
  | idle run event init inProg func load serv => exact .idle run event init inProg func load serv
  | due run event init cause => exact .due run event init cause
  | early event init inProg run => exact .early event init inProg run
  | core run event init inProg func serv => exact .core run event init inProg func serv
  | vports run event init inProg func serv => exact .vports run event init inProg func serv
  | opened run init inProg load next => exact .opened run init inProg load next

theorem hand (h : ResetMode s) (quiet : s.isResetInProg = false) (serv : Bool) :
    ResetMode { s with
      hrFuncReset := true
      vcEventTask := true
      servTask := serv } := by
  obtain ⟨clear, -, -⟩ := ResetSystem.isResetInProg_eq_false.mp quiet
  cases h with
  | idle run event init inProg func load _ => exact .due run rfl init (Or.inl rfl)
  | due run event init cause => exact .due run rfl init (Or.inl rfl)
  | early event init inProg run => exact Bool.noConfusion (clear.symm.trans inProg)
  | core run event init inProg func _ => exact Bool.noConfusion (clear.symm.trans inProg)
  | vports run event init inProg func _ => exact Bool.noConfusion (clear.symm.trans inProg)
  | opened run init inProg load next => exact .opened run init inProg load (Or.inl ⟨rfl, rfl⟩)

theorem service (h : ResetMode s) (regs : Bool) : ResetMode (s.serviceTask regs) := by
  unfold ResetSystem.serviceTask
  by_cases due : s.isResetDetected regs = true ∧ s.isResetInProg = false ∧
      s.removeInProg = false
  · rw [if_pos due]
    exact h.hand due.2.1 false
  · rw [if_neg due]
    exact h.arm s.corerInProg

theorem reset (h : ResetMode s) : ResetMode s.requestReset := by
  unfold ResetSystem.requestReset
  cases quiet : s.isResetInProg with
  | true => exact h
  | false => exact h.hand quiet s.servTask

theorem mbIntr (h : ResetMode s) (enabled : Bool) : ResetMode (s.mbIntrClean enabled) := by
  unfold ResetSystem.mbIntrClean
  by_cases corer : s.corerInProg = true
  · rw [if_pos corer]
    exact h.corer
  · rw [if_neg corer]
    exact h.arm _

theorem cause_of_queued (h : ResetMode s) (queued : s.vcEventTask = true)
    (none : s.hardReset = none) :
    s.initTask = false ∧ (s.hrFuncReset = true ∨ s.hrDrvLoad = true) := by
  cases h with
  | idle _ event => exact Bool.noConfusion (event.symm.trans queued)
  | due _ _ init cause => exact ⟨init, cause⟩
  | early event => exact Bool.noConfusion (event.symm.trans queued)
  | core _ event => exact Bool.noConfusion (event.symm.trans queued)
  | vports _ event => exact Bool.noConfusion (event.symm.trans queued)
  | opened run => exact absurd (run.symm.trans none) (Option.some_ne_none _)

theorem vcEvent (h : ResetMode s) (stay : s.removeInProg = false) (queued : s.vcEventTask = true)
    (none : s.hardReset = none) : ResetMode s.vcEvent := by
  obtain ⟨init, cause⟩ := h.cause_of_queued queued none
  unfold ResetSystem.vcEvent
  rw [stay, if_neg Bool.false_ne_true, if_pos (cause.imp id Or.inl)]
  exact .early rfl init rfl (Or.inl ⟨rfl, cause⟩)

/-- The run of the event task before the service task is armed. -/
theorem early_of_run (h : ResetMode s) {phase : HardReset} (run : s.hardReset = some phase)
    (start : phase ≠ .coreInit) (late : phase ≠ .wait) :
    s.vcEventTask = false ∧ s.initTask = false ∧ s.hrResetInProg = true ∧
      (phase = .prepare → s.hrFuncReset = true ∨ s.hrDrvLoad = true) ∧
      (phase = .recover → s.hrFuncReset = false) := by
  have same : ∀ {other}, s.hardReset = some other → phase = other :=
    fun eq => Option.some.inj (run.symm.trans eq)
  cases h with
  | idle none => exact absurd (run.symm.trans none) (Option.some_ne_none _)
  | due none => exact absurd (run.symm.trans none) (Option.some_ne_none _)
  | early event init inProg stage =>
    refine ⟨event, init, inProg, ?_, ?_⟩
    · rintro rfl
      rcases stage with ⟨-, cause⟩ | eq | eq | ⟨eq, -⟩
      · exact cause
      · exact HardReset.noConfusion (same eq)
      · exact HardReset.noConfusion (same eq)
      · exact HardReset.noConfusion (same eq)
    · rintro rfl
      rcases stage with ⟨eq, -⟩ | eq | eq | ⟨-, func⟩
      · exact HardReset.noConfusion (same eq)
      · exact HardReset.noConfusion (same eq)
      · exact HardReset.noConfusion (same eq)
      · exact func
  | core eq => exact absurd (same eq) start
  | vports eq => exact absurd (same eq) late
  | opened eq => exact absurd (same eq) late

theorem prepare (h : ResetMode s) (run : s.hardReset = some .prepare) (regs : Bool) :
    ResetMode (s.prepare regs) := by
  obtain ⟨event, init, inProg, cause, -⟩ := h.early_of_run run (by decide) (by decide)
  unfold ResetSystem.prepare
  by_cases pci : s.pciCbReset = true
  · rw [if_pos pci]
    exact .early event init inProg (Or.inr (Or.inr (Or.inl rfl)))
  rw [if_neg pci]
  by_cases load : s.hrDrvLoad = true
  · rw [if_pos load]
    exact .early event init inProg (Or.inr (Or.inr (Or.inl rfl)))
  rw [if_neg load, if_pos ((cause rfl).resolve_right load)]
  by_cases detected : s.isResetDetected regs = true
  · rw [if_pos detected]
    exact .early event init inProg (Or.inr (Or.inr (Or.inl rfl)))
  · rw [if_neg detected]
    exact .early event init inProg (Or.inr (Or.inl rfl))

theorem detect (h : ResetMode s) (run : s.hardReset = some .detect) :
    ResetMode { s with hardReset := some .check } := by
  obtain ⟨event, init, inProg, -, -⟩ := h.early_of_run run (by decide) (by decide)
  exact .early event init inProg (Or.inr (Or.inr (Or.inl rfl)))

theorem check (h : ResetMode s) (run : s.hardReset = some .check) :
    ResetMode (s.checkComplete .complete) := by
  obtain ⟨event, init, inProg, -, -⟩ := h.early_of_run run (by decide) (by decide)
  unfold ResetSystem.checkComplete
  by_cases func : s.hrFuncReset = true
  · rw [if_pos func]
    unfold ResetSystem.coreDeinit
    by_cases core : s.vcCoreInit = true
    · rw [if_pos core]
      exact .early event rfl inProg (Or.inr (Or.inr (Or.inr ⟨rfl, rfl⟩)))
    · rw [if_neg core]
      exact .early event init inProg (Or.inr (Or.inr (Or.inr ⟨rfl, rfl⟩)))
  · rw [if_neg func]
    exact .early event init inProg (Or.inr (Or.inr (Or.inr ⟨rfl, rfl⟩)))

theorem recover (h : ResetMode s) (run : s.hardReset = some .recover) :
    ResetMode (s.recover true) := by
  obtain ⟨event, init, inProg, -, func⟩ := h.early_of_run run (by decide) (by decide)
  exact .core rfl event init inProg (func rfl) rfl

theorem coreInit (h : ResetMode s) (run : s.hardReset = some .coreInit) {how : CoreInit}
    (ok : how ≠ .failed) : ResetMode (s.coreInitEnd how) := by
  have same : ∀ {other}, s.hardReset = some other → HardReset.coreInit = other :=
    fun eq => Option.some.inj (run.symm.trans eq)
  cases h with
  | idle none => exact absurd (run.symm.trans none) (Option.some_ne_none _)
  | due none => exact absurd (run.symm.trans none) (Option.some_ne_none _)
  | early _ _ _ stage =>
    rcases stage with ⟨eq, -⟩ | eq | eq | ⟨eq, -⟩
    · exact HardReset.noConfusion (same eq)
    · exact HardReset.noConfusion (same eq)
    · exact HardReset.noConfusion (same eq)
    · exact HardReset.noConfusion (same eq)
  | core _ event init inProg func serv =>
    cases how with
    | success => exact .vports rfl event rfl inProg func serv
    | again => exact .due rfl rfl init (Or.inr rfl)
    | failed => exact absurd rfl ok
  | vports eq => exact HardReset.noConfusion (same eq)
  | opened eq => exact HardReset.noConfusion (same eq)

theorem init (h : ResetMode s) (queued : s.initTask = true) {how : InitEnd}
    (ok : how ≠ .failed ∨ s.hrDrvLoad = false) : ResetMode (s.initEnd how) := by
  cases h with
  | idle _ _ none => exact Bool.noConfusion (none.symm.trans queued)
  | due _ _ none => exact Bool.noConfusion (none.symm.trans queued)
  | early _ none => exact Bool.noConfusion (none.symm.trans queued)
  | core _ _ none => exact Bool.noConfusion (none.symm.trans queued)
  | vports run event init inProg func serv =>
    cases how with
    | more => exact .vports run event init inProg func serv
    | success => exact .opened run rfl rfl rfl (Or.inr ⟨event, func, serv⟩)
    | failed =>
      have load := ok.resolve_left fun differs => differs rfl
      unfold ResetSystem.initEnd
      rw [load]
      exact .opened run rfl rfl rfl (Or.inr ⟨event, func, serv⟩)
  | opened _ none => exact Bool.noConfusion (none.symm.trans queued)

theorem waited (h : ResetMode s) (run : s.hardReset = some .wait)
    (clear : s.hrResetInProg = false) : ResetMode { s with hardReset := none } := by
  cases h with
  | idle none => exact absurd (run.symm.trans none) (Option.some_ne_none _)
  | due none => exact absurd (run.symm.trans none) (Option.some_ne_none _)
  | early _ _ inProg => exact Bool.noConfusion (clear.symm.trans inProg)
  | core _ _ _ inProg => exact Bool.noConfusion (clear.symm.trans inProg)
  | vports _ _ _ inProg => exact Bool.noConfusion (clear.symm.trans inProg)
  | opened _ init inProg load next =>
    rcases next with ⟨event, func⟩ | ⟨event, func, serv⟩
    · exact .due rfl event init (Or.inl func)
    · exact .idle rfl event init inProg func load serv

theorem unwedged (h : ResetMode s) : Unwedged s := by
  intro _ event none init
  cases h with
  | idle _ _ _ inProg func load serv => exact ⟨inProg, func, load, serv⟩
  | due _ queued => exact Bool.noConfusion (event.symm.trans queued)
  | early _ _ _ stage =>
    rcases stage with ⟨eq, -⟩ | eq | eq | ⟨eq, -⟩
    all_goals exact absurd (eq.symm.trans none) (Option.some_ne_none _)
  | core run => exact absurd (run.symm.trans none) (Option.some_ne_none _)
  | vports run => exact absurd (run.symm.trans none) (Option.some_ne_none _)
  | opened run => exact absurd (run.symm.trans none) (Option.some_ne_none _)

end ResetMode

theorem ResetSystem.removeInProg_step {s t : ResetSystem} {op : ResetOp} (step : s.step op = some t)
    (remove : s.removeInProg = true) : t.removeInProg = true := by
  have atPhase : ∀ {phase u}, s.at? phase u = some t → u.removeInProg = true →
      t.removeInProg = true := by
    intro phase u run kept
    rw [← (at?_eq run).2]
    exact kept
  cases op with
  | service regs =>
    obtain ⟨-, eq⟩ := Option.ite_none_right_eq_some.mp step
    obtain rfl := Option.some.inj eq
    unfold serviceTask
    split <;> exact remove
  | reset =>
    obtain rfl := Option.some.inj step
    unfold requestReset
    split <;> exact remove
  | mbIntr enabled =>
    obtain ⟨-, eq⟩ := Option.ite_none_right_eq_some.mp step
    obtain rfl := Option.some.inj eq
    unfold mbIntrClean
    split <;> exact remove
  | vcEvent =>
    obtain ⟨-, eq⟩ := Option.ite_none_right_eq_some.mp step
    obtain rfl := Option.some.inj eq
    unfold vcEvent
    rw [if_pos remove]
    exact remove
  | prepare regs =>
    apply atPhase step
    unfold prepare
    split
    · exact remove
    · split
      · exact remove
      · split <;> exact remove
  | detect detected => exact atPhase step remove
  | check how =>
    obtain ⟨-, run⟩ := Option.ite_none_left_eq_some.mp step
    apply atPhase run
    cases how with
    | complete =>
      change ResetSystem.removeInProg (if s.hrFuncReset = true then s.coreDeinit else s) = true
      unfold coreDeinit
      split
      · split <;> exact remove
      · exact remove
    | corerTimeout => exact remove
    | removed => exact remove
    | timeout => exact remove
  | recover mailbox =>
    apply atPhase step
    unfold recover
    split <;> exact remove
  | coreInit how =>
    obtain ⟨-, run⟩ := Option.ite_none_left_eq_some.mp step
    apply atPhase run
    cases how <;> exact remove
  | waited =>
    obtain ⟨-, run⟩ := Option.ite_none_left_eq_some.mp step
    exact atPhase run remove
  | init how =>
    obtain ⟨-, eq⟩ := Option.ite_none_right_eq_some.mp step
    obtain rfl := Option.some.inj eq
    cases how <;> exact remove
  | remove =>
    obtain rfl := Option.some.inj step
    rfl

theorem ResetMode.step {s t : ResetSystem} {op : ResetOp} (h : s.removeInProg = true ∨ ResetMode s)
    (ok : s.stepOk op = true) (step : s.step op = some t) :
    t.removeInProg = true ∨ ResetMode t := by
  by_cases remove : s.removeInProg = true
  · exact Or.inl (ResetSystem.removeInProg_step step remove)
  have mode := h.resolve_left remove
  rw [Bool.not_eq_true] at remove
  unfold ResetSystem.stepOk at ok
  rw [remove, Bool.false_or] at ok
  cases op with
  | service regs =>
    obtain ⟨-, eq⟩ := Option.ite_none_right_eq_some.mp step
    obtain rfl := Option.some.inj eq
    exact Or.inr (mode.service regs)
  | reset =>
    obtain rfl := Option.some.inj step
    exact Or.inr mode.reset
  | mbIntr enabled =>
    obtain ⟨-, eq⟩ := Option.ite_none_right_eq_some.mp step
    obtain rfl := Option.some.inj eq
    exact Or.inr (mode.mbIntr enabled)
  | vcEvent =>
    obtain ⟨⟨queued, none⟩, eq⟩ := Option.ite_none_right_eq_some.mp step
    obtain rfl := Option.some.inj eq
    exact Or.inr (mode.vcEvent remove queued none)
  | prepare regs =>
    obtain ⟨run, rfl⟩ := ResetSystem.at?_eq step
    exact Or.inr (mode.prepare run regs)
  | detect detected =>
    obtain ⟨run, rfl⟩ := ResetSystem.at?_eq step
    obtain rfl : detected = true := ok
    exact Or.inr (mode.detect run)
  | check how =>
    obtain ⟨-, step⟩ := Option.ite_none_left_eq_some.mp step
    obtain ⟨run, rfl⟩ := ResetSystem.at?_eq step
    obtain rfl := eq_of_beq ok
    exact Or.inr (mode.check run)
  | recover mailbox =>
    obtain ⟨run, rfl⟩ := ResetSystem.at?_eq step
    obtain rfl : mailbox = true := ok
    exact Or.inr (mode.recover run)
  | coreInit how =>
    obtain ⟨-, step⟩ := Option.ite_none_left_eq_some.mp step
    obtain ⟨run, rfl⟩ := ResetSystem.at?_eq step
    exact Or.inr (mode.coreInit run (ne_of_beq_false (Bool.not_eq_true' _ ▸ ok)))
  | waited =>
    obtain ⟨clear, step⟩ := Option.ite_none_left_eq_some.mp step
    obtain ⟨run, rfl⟩ := ResetSystem.at?_eq step
    exact Or.inr (mode.waited run (Bool.not_eq_true _ ▸ clear))
  | init how =>
    obtain ⟨queued, eq⟩ := Option.ite_none_right_eq_some.mp step
    obtain rfl := Option.some.inj eq
    refine Or.inr (mode.init queued ?_)
    simpa using ok
  | remove =>
    obtain rfl := Option.some.inj step
    exact Or.inl rfl

/-- In a run in which nothing fails for good the driver is ready for the next reset whenever no
reset work is left. -/
theorem ResetSystem.unwedged_of_reachable {s : ResetSystem}
    (h : Reachable ResetSystem.step (fun s op => s.stepOk op = true) ResetSystem.start s) :
    Unwedged s := by
  have mode := h.invariant (I := fun s => s.removeInProg = true ∨ ResetMode s)
    (fun _ init => by
      subst init
      exact Or.inr (.due rfl rfl rfl (Or.inr rfl)))
    fun _ _ _ => ResetMode.step
  rcases mode with remove | mode
  · intro stay
    exact Bool.noConfusion (stay.symm.trans remove)
  · exact mode.unwedged

theorem ResetSystem.unwedged_of_reachable_recovered : ∃ s : ResetSystem, Unwedged s ∧
    s.removeInProg = false ∧ s.vcEventTask = false ∧ s.hardReset = none ∧ s.initTask = false ∧
    s.vcCoreInit = true := by
  have run : (execIf ResetSystem.step ResetSystem.stepOk ResetSystem.probed
      [.vcEvent, .prepare false, .check .complete, .recover true, .coreInit .again,
        .vcEvent, .prepare false, .check .complete, .recover true, .coreInit .success,
        .service false, .init .more, .init .success, .waited, .mbIntr false, .service false,
        .mbIntr true, .vcEvent, .prepare false, .detect true, .check .complete, .recover true,
        .coreInit .success, .init .failed, .waited, .service false]).map
      (fun s => (s.removeInProg, s.vcEventTask, s.hardReset, s.initTask, s.vcCoreInit)) =
      some (false, false, none, false, true) := by
    decide +kernel
  obtain ⟨s, steps, eq⟩ := Option.map_eq_some_iff.mp run
  have reached : Reachable ResetSystem.step (fun s op => s.stepOk op = true) ResetSystem.start s :=
    Reachable.execIf (.start rfl) steps
  obtain ⟨remove, event, none, init, core⟩ := by simpa only [Prod.mk.injEq] using eq
  exact ⟨s, ResetSystem.unwedged_of_reachable reached, remove, event, none, init, core⟩

/-- A reset that times out leaves its flag set and no task queued, and so does a driver load whose
vports fail leave no task queued. -/
theorem timed_out_reset_wedges :
    (∃ s : ResetSystem, Reachable ResetSystem.step anyStep ResetSystem.start s ∧ ¬ Unwedged s ∧
      s.hrFuncReset = true ∧ s.servTask = false) ∧
    ∃ s : ResetSystem, Reachable ResetSystem.step anyStep ResetSystem.start s ∧ ¬ Unwedged s ∧
      s.hrFuncReset = false ∧ s.servTask = false := by
  constructor
  · have run : (exec ResetSystem.step ResetSystem.probed
        [.vcEvent, .prepare false, .check .complete, .recover true, .coreInit .success,
          .init .success, .waited, .service true, .vcEvent, .prepare true, .check .timeout]).map
        (fun s => (s.removeInProg, s.vcEventTask, s.hardReset, s.initTask, s.hrFuncReset,
          s.servTask)) = some (false, false, none, false, true, false) := by
      decide +kernel
    obtain ⟨s, steps, eq⟩ := Option.map_eq_some_iff.mp run
    obtain ⟨remove, event, none, init, func, serv⟩ := by simpa only [Prod.mk.injEq] using eq
    refine ⟨s, Reachable.exec (.start rfl) steps, ?_, func, serv⟩
    intro ready
    obtain ⟨-, clear, -, -⟩ := ready remove event none init
    exact Bool.noConfusion (clear.symm.trans func)
  · have run : (exec ResetSystem.step ResetSystem.probed
        [.vcEvent, .prepare false, .check .complete, .recover true, .coreInit .success,
          .init .failed, .waited]).map
        (fun s => (s.removeInProg, s.vcEventTask, s.hardReset, s.initTask, s.hrFuncReset,
          s.servTask)) = some (false, false, none, false, false, false) := by
      decide +kernel
    obtain ⟨s, steps, eq⟩ := Option.map_eq_some_iff.mp run
    obtain ⟨remove, event, none, init, func, serv⟩ := by simpa only [Prod.mk.injEq] using eq
    refine ⟨s, Reachable.exec (.start rfl) steps, ?_, func, serv⟩
    intro ready
    obtain ⟨-, -, -, queued⟩ := ready remove event none init
    exact Bool.noConfusion (serv.symm.trans queued)

end Idpf
