import Mathlib.Logic.Function.Basic
import Mathlib.Order.Basic
import Idpf.General.Transition

/-! The polls of a vector and its interrupt: the queues are polled with the interrupt off, and it is
turned on again when they have all been found empty. -/
namespace Idpf
open General

/-- The fields of the `dyn_ctl` register, as in `struct idpf_intr_reg`. -/
structure DynCtlFields where
  dynCtlIntenaM : Nat
  dynCtlIntenaMskM : Nat
  dynCtlItridxS : Nat
  dynCtlIntrvlS : Nat
  dynCtlWbOnItrM : Nat
  dynCtlSwintTrigM : Nat
  dynCtlSwItridxEnaM : Nat

/-- The fields set by `idpf_intr_reg_init`. -/
def pfDynCtlFields : DynCtlFields := ⟨1 <<< 0, 1 <<< 31, 3, 5, 1 <<< 30, 1 <<< 2, 1 <<< 24⟩

/-- The fields set by `idpf_vf_intr_reg_init`. -/
def vfDynCtlFields : DynCtlFields := ⟨1 <<< 0, 1 <<< 31, 3, 5, 1 <<< 30, 1 <<< 2, 1 <<< 24⟩

def dynCtlFields (vf : Bool) : DynCtlFields := if vf then vfDynCtlFields else pfDynCtlFields

namespace DynCtlFields

variable (r : DynCtlFields)

/-- `idpf_vport_intr_buildreg_itr`: with `wb_on_itr` a software interrupt is triggered, at
`IDPF_ITR_20K`; `IDPF_NO_ITR_UPDATE_IDX` is 3. -/
def buildregItr (wbOnItr : Bool) : Nat :=
  let itrVal := r.dynCtlIntenaM
  let itrVal := if wbOnItr then itrVal ||| (r.dynCtlSwintTrigM ||| r.dynCtlSwItridxEnaM) else itrVal
  let type := if wbOnItr then 2 else 3
  let itr := if wbOnItr then 0x32 else 0
  itrVal ||| (type <<< r.dynCtlItridxS ||| (itr &&& 0x1FFE) <<< (r.dynCtlIntrvlS - 1))

/-- What `idpf_vport_intr_set_wb_on_itr` writes. -/
def wbOnItrVal : Nat := r.dynCtlWbOnItrM ||| 3 <<< r.dynCtlItridxS ||| r.dynCtlIntenaMskM

end DynCtlFields

/-- What the device keeps for a vector: whether it may interrupt, whether it writes completions back
without, and whether there is a cause for an interrupt. -/
structure DynCtl where
  intena : Bool
  wbOnItr : Bool
  pba : Bool
  deriving DecidableEq, Repr

/-- A write to `dyn_ctl`. `INTENA_MSK` has the device keep the enable bit, `CLEARPBA` drops the
cause and `SWINT_TRIG` is one. -/
def DynCtl.write (d : DynCtl) (v : Nat) : DynCtl where
  intena := if v.testBit 31 then d.intena else v.testBit 0
  wbOnItr := v.testBit 30
  pba := d.pba && !v.testBit 1 || v.testBit 2

/-- NAPI, with the queue that a poll cleans next and whether all before it were cleaned. -/
inductive NapiPhase where
  | idle | scheduled
  | polling (i : Nat) (complete : Bool)
  deriving DecidableEq, Repr

/-- Where `idpf_vport_intr_update_itr_ena_irq` is after a poll. -/
inductive IrqEnable where
  | no | due
  | built (intval : Nat)
  deriving DecidableEq, Repr

/-- How the cleaning of a queue ends. -/
inductive CleanEnd where
  | empty | budget | noSkb
  deriving DecidableEq, Repr

/-- The queues of a vector, the Rx queues first, and whether it is one of a function or of a virtual
function. -/
structure NapiCfg where
  numRxq : Nat
  numTxq : Nat
  vf : Bool

/-- `struct idpf_q_vector` with its part of the device. `irq` is an interrupt on its way to the
handler, `ready` has the completions not yet taken, and `stuck` tells that the last pass over a
queue ended without an skb. -/
structure NapiVector where
  ctl : DynCtl
  irq : Bool
  wbOnItr : Bool
  napi : NapiPhase
  missed : Bool
  enable : IrqEnable
  pollMode : Bool
  ready : Nat → Nat
  stuck : Nat → Bool

/-- The device writes a completion back or interrupts; the handler runs, somebody else schedules, a
poll begins, cleans a queue and ends, `again` if the stack polls on; the two accesses that turn the
interrupt on; the queues are to be disabled; netpoll. -/
inductive NapiOp where
  | writeBack (i : Nat)
  | fire
  | cleanQueues
  | schedule
  | poll
  | clean (k : Nat) (stop : CleanEnd)
  | complete (again : Bool)
  | buildreg
  | writeIntr
  | setPollMode
  | netpoll (i k : Nat)
  deriving DecidableEq, Repr

namespace NapiCfg

variable (c : NapiCfg)

def reg : DynCtlFields := dynCtlFields c.vf

def numQ : Nat := c.numRxq + c.numTxq

end NapiCfg

namespace NapiVector

variable (c : NapiCfg) (s : NapiVector)

/-- A completion becomes a cause unless the device is to write back without interrupts. -/
def writeBack (i : Nat) : NapiVector :=
  { s with
    ready := Function.update s.ready i (s.ready i + 1)
    ctl := { s.ctl with pba := s.ctl.pba || !(s.ctl.wbOnItr && !s.ctl.intena) } }

/-- `napi_schedule`. -/
def napiSchedule : NapiVector :=
  match s.napi with
  | .idle => { s with napi := .scheduled }
  | _ => { s with missed := true }

/-- `idpf_vport_intr_set_wb_on_itr` -/
def setWbOnItr : NapiVector :=
  if s.wbOnItr then s else { s with wbOnItr := true, ctl := s.ctl.write c.reg.wbOnItrVal }

/-- The cleaning of queue `i`, which takes `k` completions. -/
def clean (i : Nat) (done : Bool) (k : Nat) (stop : CleanEnd) : NapiVector :=
  { s with
    ready := Function.update s.ready i (s.ready i - k)
    stuck := Function.update s.stuck i (decide (stop = .noSkb))
    napi := .polling (i + 1) (done && decide (stop ≠ .budget)) }

/-- How cleaning a queue may end: it was empty in the end, or Rx found no memory. -/
def mayEnd (i k : Nat) : CleanEnd → Bool
  | .empty => decide (k = s.ready i)
  | .budget => decide (k ≤ s.ready i)
  | .noSkb => decide (i < c.numRxq) && decide (k < s.ready i)

/-- The end of `idpf_vport_splitq_napi_poll`. A poll that returns its budget is polled on. That of
`idpf_vport_singleq_napi_poll` does not test for the poll mode, which its queues never have. -/
def complete (done again : Bool) : NapiVector :=
  if !done then { s.setWbOnItr c with napi := .scheduled }
  else if decide (0 < c.numTxq) && s.pollMode then { s with napi := .scheduled }
  else if s.missed || again then { s.setWbOnItr c with missed := false, napi := .scheduled }
  else { s with napi := .idle, enable := .due }

def step (c : NapiCfg) (s : NapiVector) : NapiOp → Option NapiVector
  | .writeBack i => if i < c.numQ then some (s.writeBack i) else none
  | .fire =>
    if s.ctl.intena && s.ctl.pba then
      some { s with ctl := { s.ctl with intena := false, pba := false }, irq := true }
    else none
  | .cleanQueues => if s.irq then some ({ s with irq := false } : NapiVector).napiSchedule else none
  | .schedule => some s.napiSchedule
  | .poll =>
    match s.napi with
    | .scheduled => some { s with napi := .polling 0 true }
    | _ => none
  | .clean k stop =>
    match s.napi with
    | .polling i done =>
      if i < c.numQ ∧ s.mayEnd c i k stop = true then some (s.clean i done k stop) else none
    | _ => none
  | .complete again =>
    match s.napi with
    | .polling i done => if i = c.numQ then some (s.complete c done again) else none
    | _ => none
  | .buildreg =>
    match s.enable with
    | .due => some { s with enable := .built (c.reg.buildregItr s.wbOnItr) }
    | _ => none
  | .writeIntr =>
    match s.enable with
    | .built v => some { s with enable := .no, wbOnItr := false, ctl := s.ctl.write v }
    | _ => none
  | .setPollMode => some { s with pollMode := true }
  | .netpoll i k =>
    match s.napi with
    | .polling _ _ => none
    | _ =>
      if c.numRxq ≤ i ∧ i < c.numQ ∧ k ≤ s.ready i then
        some { s with ready := Function.update s.ready i (s.ready i - k) }
      else none

/-- NAPI has been enabled and the interrupt is about to be. -/
def start : NapiVector :=
  ⟨⟨false, false, false⟩, false, false, .idle, false, .due, false, fun _ => 0, fun _ => false⟩

/-- No poll begins before the one before it has turned the interrupt on. -/
def apart (s : NapiVector) : NapiOp → Bool
  | .poll => decide (s.enable = .no)
  | _ => true

/-- Nothing happens any more unless the device or somebody else begins it. -/
def atRest (s : NapiVector) : Bool :=
  decide (s.napi = .idle) && decide (s.enable = .no) && !s.irq && !(s.ctl.intena && s.ctl.pba)

/-- The poll at work has passed the queue and, so far, found an end to each. -/
def passed (s : NapiVector) (i : Nat) : Bool :=
  match s.napi with
  | .idle => true
  | .scheduled => false
  | .polling j done => done && decide (i < j)

variable {c : NapiCfg} {s t : NapiVector}

/-- Completions that a poll has passed by: some cause is on record, or the last pass over the queue
ended without an skb. -/
structure Sound (c : NapiCfg) (s : NapiVector) : Prop where
  wb : s.ctl.wbOnItr = s.wbOnItr
  built : ∀ v, s.enable = .built v → v = c.reg.buildregItr s.wbOnItr
  polling : ∀ i done, s.napi = .polling i done → s.enable = .no
  quiet : s.napi = .idle → s.missed = false ∧
    (s.enable = .no → s.wbOnItr = false ∧ (s.ctl.intena = true ∨ s.irq = true))
  announced : ∀ i < c.numQ, s.passed i = true → s.ready i ≠ 0 →
    s.stuck i = true ∨ s.ctl.pba = true ∨ s.irq = true ∨ s.missed = true ∨ s.wbOnItr = true
  stuck : ∀ i, s.stuck i = true → i < c.numRxq ∧ s.ready i ≠ 0

theorem write_buildregItr (c : NapiCfg) (d : DynCtl) (wbOnItr : Bool) :
    d.write (c.reg.buildregItr wbOnItr) = ⟨true, false, d.pba || wbOnItr⟩ := by
  have word (vf : Bool) : let v := (dynCtlFields vf).buildregItr wbOnItr
      v.testBit 31 = false ∧ v.testBit 0 = true ∧ v.testBit 30 = false ∧ v.testBit 1 = false ∧
        v.testBit 2 = wbOnItr := by
    cases vf <;> cases wbOnItr <;> decide
  obtain ⟨mask, intena, wb, clear, swint⟩ := word c.vf
  rw [DynCtl.write, NapiCfg.reg, mask, intena, wb, clear, swint]
  simp

theorem write_wbOnItrVal (c : NapiCfg) (d : DynCtl) :
    d.write c.reg.wbOnItrVal = { d with wbOnItr := true } := by
  have word (vf : Bool) : let v := (dynCtlFields vf).wbOnItrVal
      v.testBit 31 = true ∧ v.testBit 30 = true ∧ v.testBit 1 = false ∧ v.testBit 2 = false := by
    cases vf <;> decide
  obtain ⟨mask, wb, clear, swint⟩ := word c.vf
  rw [DynCtl.write, NapiCfg.reg, mask, wb, clear, swint]
  simp

theorem Sound.writeBack (sound : s.Sound c) (i : Nat) : (s.writeBack i).Sound c := by
  refine ⟨sound.wb, sound.built, sound.polling, sound.quiet, fun j inside passed ready => ?_,
    fun j stuck => ⟨(sound.stuck j stuck).1, ?_⟩⟩
  · change s.stuck j = true ∨ (s.ctl.pba || !(s.ctl.wbOnItr && !s.ctl.intena)) = true ∨ _
    by_cases same : j = i
    · -- Either it becomes a cause, or the mode of the vector ends with a software interrupt.
      cases latched : !(s.ctl.wbOnItr && !s.ctl.intena) with
      | true => exact .inr (.inl (Bool.or_true _))
      | false =>
          have mode : s.ctl.wbOnItr = true := by
            rw [Bool.not_eq_false', Bool.and_eq_true] at latched
            exact latched.1
          exact .inr (.inr (.inr (.inr (sound.wb ▸ mode))))
    · have before : s.ready j ≠ 0 := by
        rw [← Function.update_of_ne same (s.ready i + 1) s.ready]
        exact ready
      obtain stuck | pba | rest := sound.announced j inside passed before
      · exact .inl stuck
      · exact .inr (.inl (by rw [pba, Bool.true_or]))
      · exact .inr (.inr rest)
  · change Function.update s.ready i (s.ready i + 1) j ≠ 0
    by_cases same : j = i
    · rw [same, Function.update_self]
      exact Nat.succ_ne_zero _
    · rw [Function.update_of_ne same]
      exact (sound.stuck j stuck).2

theorem passed_polling {i j : Nat} (napi : s.napi = .polling i true) (before : j < i) :
    s.passed j = true := by
  unfold passed
  rw [napi]
  exact decide_eq_true before

theorem Sound.fire (sound : s.Sound c) :
    { s with ctl := { s.ctl with intena := false, pba := false }, irq := true }.Sound c := by
  refine ⟨sound.wb, sound.built, sound.polling, fun idle => ?_,
    fun _ _ _ _ => .inr (.inr (.inl rfl)), sound.stuck⟩
  obtain ⟨missed, off⟩ := sound.quiet idle
  exact ⟨missed, fun no => ⟨(off no).1, .inr rfl⟩⟩

theorem Sound.napiSchedule (sound : s.Sound c) : s.napiSchedule.Sound c := by
  unfold NapiVector.napiSchedule
  split
  · refine ⟨sound.wb, sound.built, nofun, nofun, ?_, sound.stuck⟩
    intro i _ passed
    exact absurd passed Bool.false_ne_true
  · next busy =>
    refine ⟨sound.wb, sound.built, sound.polling, fun idle => absurd idle busy, ?_, sound.stuck⟩
    exact fun _ _ _ _ => .inr (.inr (.inr (.inl rfl)))

theorem Sound.cleanQueues (sound : s.Sound c) :
    ({ s with irq := false } : NapiVector).napiSchedule.Sound c := by
  have sound' := sound.napiSchedule
  unfold NapiVector.napiSchedule at sound' ⊢
  dsimp only
  split
  · next idle =>
    rw [idle] at sound'
    refine ⟨sound'.wb, sound'.built, nofun, nofun, fun i _ passed => ?_, sound'.stuck⟩
    exact absurd passed Bool.false_ne_true
  · next busy =>
    refine ⟨sound.wb, sound.built, sound.polling, fun idle => absurd idle busy, ?_, sound.stuck⟩
    exact fun _ _ _ _ => .inr (.inr (.inr (.inl rfl)))

theorem Sound.poll (sound : s.Sound c) (apart : s.enable = .no) :
    { s with napi := .polling 0 true }.Sound c := by
  refine ⟨sound.wb, sound.built, fun _ _ _ => apart, nofun, fun i _ passed => ?_, sound.stuck⟩
  have past : (true && decide (i < 0)) = true := passed
  simp at past

theorem Sound.clean (sound : s.Sound c) {i k : Nat} {done : Bool} {stop : CleanEnd}
    (napi : s.napi = .polling i done) (may : s.mayEnd c i k stop = true) :
    (s.clean i done k stop).Sound c := by
  have off := sound.polling i done napi
  refine ⟨sound.wb, sound.built, fun _ _ _ => off, nofun, fun j inside passed ready => ?_,
    fun j stuck => ?_⟩
  · have past : ((done && decide (stop ≠ .budget)) && decide (j < i + 1)) = true := passed
    rw [Bool.and_eq_true, Bool.and_eq_true] at past
    obtain ⟨⟨done, whole⟩, before⟩ := past
    change Function.update s.ready i (s.ready i - k) j ≠ 0 at ready
    change Function.update s.stuck i (decide (stop = .noSkb)) j = true ∨ _
    by_cases same : j = i
    · subst same
      rw [Function.update_self] at ready ⊢
      cases stop with
      | empty =>
          obtain rfl := of_decide_eq_true may
          exact absurd (Nat.sub_self _) ready
      | budget => exact absurd rfl (of_decide_eq_true whole)
      | noSkb => exact .inl rfl
    · rw [Function.update_of_ne same] at ready ⊢
      rw [done] at napi
      have next := of_decide_eq_true before
      exact sound.announced j inside (passed_polling napi (by omega)) ready
  · change Function.update s.stuck i (decide (stop = .noSkb)) j = true at stuck
    change _ ∧ Function.update s.ready i (s.ready i - k) j ≠ 0
    by_cases same : j = i
    · subst same
      rw [Function.update_self] at stuck ⊢
      obtain rfl := of_decide_eq_true stuck
      obtain ⟨rx, less⟩ := Bool.and_eq_true_iff.mp may
      exact ⟨of_decide_eq_true rx, Nat.sub_ne_zero_of_lt (of_decide_eq_true less)⟩
    · rw [Function.update_of_ne same] at stuck ⊢
      exact sound.stuck j stuck

theorem setWbOnItr_eq (sound : s.Sound c) :
    s.setWbOnItr c = { s with wbOnItr := true, ctl := { s.ctl with wbOnItr := true } } := by
  unfold setWbOnItr
  split
  · next on =>
    have both := sound.wb.trans on
    obtain ⟨⟨intena, wb, pba⟩, irq, mode, napi, missed, enable, pollMode, ready, stuck⟩ := s
    obtain rfl : wb = true := both
    obtain rfl : mode = true := on
    rfl
  · rw [write_wbOnItrVal]

theorem Sound.again (sound : s.Sound c) (off : s.enable = .no) (missed : Bool) :
    { s.setWbOnItr c with missed := missed, napi := .scheduled }.Sound c := by
  rw [setWbOnItr_eq sound]
  refine ⟨rfl, fun v built => ?_, nofun, nofun, ?_, sound.stuck⟩
  · exact IrqEnable.noConfusion (off.symm.trans built)
  · intro i _ passed
    exact absurd passed Bool.false_ne_true

theorem Sound.complete (sound : s.Sound c) {done : Bool}
    (napi : s.napi = .polling c.numQ done) (again : Bool) : (s.complete c done again).Sound c := by
  have off := sound.polling _ done napi
  unfold NapiVector.complete
  split
  · have next := sound.again off (s.setWbOnItr c).missed
    exact next
  · next whole =>
    split
    · refine ⟨sound.wb, sound.built, nofun, nofun, fun i _ passed => ?_, sound.stuck⟩
      exact absurd passed Bool.false_ne_true
    · split
      · exact sound.again off false
      · next last =>
        have all : done = true := by simpa using whole
        have heard : s.missed = false := by
          rw [Bool.or_eq_true, not_or] at last
          exact Bool.eq_false_iff.mpr last.1
        refine ⟨sound.wb, nofun, nofun, fun _ => ⟨heard, nofun⟩, fun i inside _ ready => ?_,
          sound.stuck⟩
        rw [all] at napi
        exact sound.announced i inside (passed_polling napi inside) ready

theorem Sound.buildreg (sound : s.Sound c) (due : s.enable = .due) :
    { s with enable := .built (c.reg.buildregItr s.wbOnItr) }.Sound c := by
  refine ⟨sound.wb, ?_, fun i done napi => ?_, fun idle => ⟨(sound.quiet idle).1, nofun⟩,
    sound.announced, sound.stuck⟩
  · rintro _ ⟨⟩
    rfl
  · exact IrqEnable.noConfusion (due.symm.trans (sound.polling i done napi))

/-- The interrupt is on; what came in the mode that is left has become a cause. -/
theorem Sound.writeIntr (sound : s.Sound c) {v : Nat} (built : s.enable = .built v) :
    { s with enable := .no, wbOnItr := false, ctl := s.ctl.write v }.Sound c := by
  obtain rfl := sound.built v built
  rw [write_buildregItr]
  refine ⟨rfl, nofun, fun _ _ _ => rfl, fun idle => ?_, fun i inside passed ready => ?_,
    sound.stuck⟩
  · exact ⟨(sound.quiet idle).1, fun _ => ⟨rfl, .inl rfl⟩⟩
  · obtain stuck | pba | irq | missed | mode := sound.announced i inside passed ready
    · exact .inl stuck
    · exact .inr (.inl (by rw [pba, Bool.true_or]))
    · exact .inr (.inr (.inl irq))
    · exact .inr (.inr (.inr (.inl missed)))
    · exact .inr (.inl (by rw [mode, Bool.or_true]))

/-- Completions that netpoll takes are Tx completions. -/
theorem Sound.netpoll (sound : s.Sound c) {i k : Nat} (tx : c.numRxq ≤ i) :
    { s with ready := Function.update s.ready i (s.ready i - k) }.Sound c := by
  refine ⟨sound.wb, sound.built, sound.polling, sound.quiet, fun j inside passed ready => ?_,
    fun j stuck => ⟨(sound.stuck j stuck).1, ?_⟩⟩
  · refine sound.announced j inside passed fun none => ready ?_
    change Function.update s.ready i (s.ready i - k) j = 0
    by_cases same : j = i
    · subst same
      rw [Function.update_self, none, Nat.zero_sub]
    · rw [Function.update_of_ne same, none]
  · obtain ⟨rx, some⟩ := sound.stuck j stuck
    change Function.update s.ready i (s.ready i - k) j ≠ 0
    rw [Function.update_of_ne (by omega)]
    exact some

theorem Sound.step (sound : s.Sound c) {op : NapiOp} (apart : s.apart op = true)
    (step : s.step c op = some t) : t.Sound c := by
  unfold NapiVector.step at step
  cases op with
  | writeBack i =>
      obtain ⟨-, step⟩ := Option.ite_none_right_eq_some.mp step
      obtain rfl := Option.some.inj step
      exact sound.writeBack i
  | fire =>
      obtain ⟨-, step⟩ := Option.ite_none_right_eq_some.mp step
      obtain rfl := Option.some.inj step
      exact sound.fire
  | cleanQueues =>
      obtain ⟨-, step⟩ := Option.ite_none_right_eq_some.mp step
      obtain rfl := Option.some.inj step
      exact sound.cleanQueues
  | schedule =>
      obtain rfl := Option.some.inj step
      exact sound.napiSchedule
  | poll =>
      dsimp only at step
      split at step
      · obtain rfl := Option.some.inj step
        exact sound.poll (of_decide_eq_true apart)
      · cases step
  | clean k stop =>
      dsimp only at step
      split at step
      · next i done napi =>
        obtain ⟨⟨-, may⟩, step⟩ := Option.ite_none_right_eq_some.mp step
        obtain rfl := Option.some.inj step
        exact sound.clean napi may
      · cases step
  | complete again =>
      dsimp only at step
      split at step
      · next i done napi =>
        obtain ⟨rfl, whole⟩ := Option.ite_none_right_eq_some.mp step
        obtain rfl := Option.some.inj whole
        exact sound.complete napi again
      · cases step
  | buildreg =>
      dsimp only at step
      split at step
      · next due =>
        obtain rfl := Option.some.inj step
        exact sound.buildreg due
      · cases step
  | writeIntr =>
      dsimp only at step
      split at step
      · next v built =>
        obtain rfl := Option.some.inj step
        exact sound.writeIntr built
      · cases step
  | setPollMode =>
      obtain rfl := Option.some.inj step
      exact ⟨sound.wb, sound.built, sound.polling, sound.quiet, sound.announced, sound.stuck⟩
  | netpoll i k =>
      dsimp only at step
      split at step
      · cases step
      · obtain ⟨⟨tx, -⟩, step⟩ := Option.ite_none_right_eq_some.mp step
        obtain rfl := Option.some.inj step
        exact sound.netpoll tx

theorem start_sound (c : NapiCfg) : start.Sound c :=
  ⟨rfl, nofun, nofun, fun _ => ⟨rfl, nofun⟩, fun _ _ _ ready => absurd rfl ready, nofun⟩

/-- A vector at rest has completions left on exactly the queues whose last pass ended without an
skb; in particular none is forgotten because it came while the interrupt was off. -/
theorem left_at_rest_iff
    (h : Reachable (NapiVector.step c) (fun s op => s.apart op = true) (· = start) s)
    (rest : s.atRest = true) {i : Nat} (inside : i < c.numQ) :
    s.ready i ≠ 0 ↔ s.stuck i = true := by
  have sound : s.Sound c := by
    refine h.invariant (I := Sound c) ?_ fun s op t sound apart step => sound.step apart step
    rintro _ rfl
    exact start_sound c
  simp only [atRest, Bool.and_eq_true, decide_eq_true_eq, Bool.not_eq_true'] at rest
  obtain ⟨⟨⟨idle, no⟩, irq⟩, still⟩ := rest
  obtain ⟨missed, off⟩ := sound.quiet idle
  obtain ⟨mode, on⟩ := off no
  have intena : s.ctl.intena = true := on.resolve_right fun some => by
    rw [irq] at some
    cases some
  have none : s.ctl.pba = false := by rwa [intena, Bool.true_and] at still
  refine ⟨fun ready => ?_, fun stuck => (sound.stuck i stuck).2⟩
  have passed : s.passed i = true := by rw [NapiVector.passed, idle]
  have told := sound.announced i inside passed ready
  simpa [none, irq, missed, mode] using told

/-- A queue is passed for want of an skb, and another one gets a completion while the interrupt is
off. -/
theorem left_at_rest_iff_noSkb :
    ∃ s, execIf (NapiVector.step ⟨1, 1, false⟩) apart start
        [.buildreg, .writeIntr, .writeBack 0, .fire, .cleanQueues, .poll, .clean 0 .noSkb,
          .clean 0 .empty, .writeBack 1, .complete false, .buildreg, .writeIntr, .fire,
          .cleanQueues, .poll, .clean 0 .noSkb, .clean 1 .empty, .complete false, .buildreg,
          .writeIntr] = some s ∧
      s.ready 0 ≠ 0 ∧ s.ready 1 = 0 := by
  have seen : (execIf (NapiVector.step ⟨1, 1, false⟩) apart start
      [.buildreg, .writeIntr, .writeBack 0, .fire, .cleanQueues, .poll, .clean 0 .noSkb,
        .clean 0 .empty, .writeBack 1, .complete false, .buildreg, .writeIntr, .fire, .cleanQueues,
        .poll, .clean 0 .noSkb, .clean 1 .empty, .complete false, .buildreg, .writeIntr]).map
      (fun s => (s.atRest, s.stuck 0, s.stuck 1)) = some (true, true, false) := by decide +kernel
  obtain ⟨s, run, ends⟩ := Option.map_eq_some_iff.mp seen
  simp only [Prod.mk.injEq] at ends
  obtain ⟨rest, first, second⟩ := ends
  have reached : Reachable (NapiVector.step ⟨1, 1, false⟩) (fun s op => apart s op = true)
      (· = start) s := Reachable.execIf (.start rfl) run
  refine ⟨s, run, (left_at_rest_iff reached rest (by decide)).mpr first, ?_⟩
  by_contra ready
  have stuck := (left_at_rest_iff reached rest (show 1 < NapiCfg.numQ ⟨1, 1, false⟩ by decide)).mp
    ready
  rw [second] at stuck
  cases stuck

/-- A poll that reads `wb_on_itr` before another poll sets it, and writes after: a completion that
came in between is forgotten. -/
theorem overlapping_poll_forgets :
    ∃ s, exec (NapiVector.step ⟨1, 0, false⟩) start
        [.buildreg, .schedule, .poll, .clean 0 .empty, .complete true, .poll, .clean 0 .empty,
          .writeBack 0, .writeIntr, .complete false, .buildreg, .writeIntr] = some s ∧
      s.atRest = true ∧ s.ready 0 = 1 ∧ s.stuck 0 = false :=
  ⟨_, rfl, by decide, by decide, by decide⟩

end NapiVector

end Idpf
