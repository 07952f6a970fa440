import Idpf.Vport.Open

/-! Opens that fail, opens that succeed and stops, in any order: the vport is up with everything or
down with nothing. -/
namespace Idpf
open General
namespace OpenVport

/-- The vport is down, but for the memory that is held. -/
structure Started (h : List VportPtr) (s : OpenVport) : Prop where
  held : s.held = h
  rest : { s with held := [] }.Down
  up : s.up = false
  stuck : s.stuck = false
  badFree : s.badFree = false

/-- What an open that fails has to leave. -/
structure Failed (s : OpenVport) : Prop where
  down : s.Down
  up : s.up = false
  stuck : s.stuck = false
  badFree : s.badFree = false
  ret : s.ret = .failed

/-- The vectors are armed: all the memory is held, all instances are enabled, and the interrupts of
the vectors with queues are requested and enabled. -/
structure Armed (s : OpenVport) : Prop where
  held : s.held = s.rsrc.intrAllocs ++ s.rsrc.queueAllocs ++ s.rsrc.rxBufsAllocs
  napi : ∀ v, s.napi v = if v < s.rsrc.numQVectors then .enabled else .none
  irq : ∀ v, s.irq v = (v < s.rsrc.numQVectors && s.rsrc.used v)
  irqOn : ∀ v, s.irqOn v = (v < s.rsrc.numQVectors && s.rsrc.used v)
  stuck : s.stuck = false
  badFree : s.badFree = false

/-- The device has been told nothing. -/
structure Quiet (s : OpenVport) : Prop where
  mapped : ∀ q, s.mapped q = false
  enabled : s.enabled = false
  vportOn : s.vportOn = false
  filters : ∀ i, s.filters i = false

variable {s : OpenVport} {c : VportSizes} {r : OpenRun}

theorem Started.toIntrRel (started : s.Started s.rsrc.intrAllocs) : s.toIntrRel.Failed := by
  have nothing : s.rsrc.intrRel s.held = [] :=
    (congrArg s.rsrc.intrRel started.held).trans VportSizes.intrRel_intrAllocs
  have rest := started.rest
  constructor
  · exact ⟨nothing, rest.napi, rest.irq, rest.irqOn, rest.mapped, rest.enabled, rest.vportOn,
      rest.filters, rest.carrier⟩
  · exact started.up
  · exact started.stuck
  · exact started.badFree
  · rfl

theorem Started.toQueuesRel {h : List VportPtr} (started : s.Started h)
    (released : s.rsrc.queuesRel s.pools h = s.rsrc.intrAllocs) : s.toQueuesRel.Failed := by
  apply Started.toIntrRel
  have rest := started.rest
  constructor
  · exact (congrArg (s.rsrc.queuesRel s.pools) started.held).trans released
  · exact ⟨rfl, rest.napi, rest.irq, rest.irqOn, rest.mapped, rest.enabled, rest.vportOn,
      rest.filters, rest.carrier⟩
  · exact started.up
  · exact started.stuck
  · exact started.badFree

/-- `idpf_vport_intr_deinit` takes all back where each vector has a queue. -/
theorem Armed.intrDeinit (armed : s.Armed) (quiet : s.Quiet) (down : s.up = false)
    (carrier : s.carrier = false) (used : (List.range s.rsrc.numQVectors).all s.rsrc.used = true) :
    s.intrDeinit.Started s.held ∧ s.intrDeinit.rsrc = s.rsrc ∧
      s.intrDeinit.pools = s.pools := by
  have enabled : ¬ ((List.range s.rsrc.numQVectors).any fun v => s.napi v ≠ .enabled) = true := by
    intro some
    obtain ⟨v, low, other⟩ := List.any_eq_true.mp some
    have napi := armed.napi v
    rw [if_pos (List.mem_range.mp low)] at napi
    exact of_decide_eq_true other napi
  have granted : ((List.range s.rsrc.numQVectors).any fun v => !s.irq v) = false := by
    apply List.any_eq_false.mpr
    intro v low ungranted
    have irq := armed.irq v
    rw [List.all_eq_true.mp used v low, decide_eq_true (List.mem_range.mp low)] at irq
    rw [irq] at ungranted
    exact Bool.noConfusion ungranted
  unfold OpenVport.intrDeinit
  dsimp only
  rw [if_neg enabled]
  refine ⟨⟨rfl, ?_, down, armed.stuck, ?_⟩, rfl, rfl⟩
  · constructor
    · rfl
    · intro v
      change (if v < s.rsrc.numQVectors then NapiState.none else s.napi v) = .none
      split
      · rfl
      next outside => exact (armed.napi v).trans (if_neg outside)
    · intro v
      change (if v < s.rsrc.numQVectors then false else s.irq v) = false
      split
      · rfl
      next outside =>
        rw [armed.irq v, decide_eq_false outside]
        rfl
    · intro v
      change (if v < s.rsrc.numQVectors then false else s.irqOn v) = false
      split
      · rfl
      next outside =>
        rw [armed.irqOn v, decide_eq_false outside]
        rfl
    · exact quiet.mapped
    · exact quiet.enabled
    · exact quiet.vportOn
    · exact quiet.filters
    · exact carrier
  · change (s.badFree || (List.range s.rsrc.numQVectors).any fun v => !s.irq v) = false
    rw [armed.badFree, granted]
    rfl

/-- The vectors are armed and can be taken back with all the memory. -/
structure Undoable (s : OpenVport) : Prop where
  armed : s.Armed
  up : s.up = false
  carrier : s.carrier = false
  used : (List.range s.rsrc.numQVectors).all s.rsrc.used = true
  plain : s.pools = true → s.rsrc.pooled = false

/-- What the device is told does not matter for it. -/
theorem Undoable.told (undo : s.Undoable) (mapped : Nat → Bool) (enabled vportOn : Bool)
    (filters : Nat → Bool) :
    { s with
      mapped := mapped
      enabled := enabled
      vportOn := vportOn
      filters := filters }.Undoable :=
  have a := undo.armed
  ⟨⟨a.held, a.napi, a.irq, a.irqOn, a.stuck, a.badFree⟩, undo.up, undo.carrier, undo.used,
    undo.plain⟩

theorem Undoable.toIntrDeinit (undo : s.Undoable) (quiet : s.Quiet) : s.toIntrDeinit.Failed := by
  obtain ⟨started, rsrc, pools⟩ := undo.armed.intrDeinit quiet undo.up undo.carrier undo.used
  unfold OpenVport.toIntrDeinit
  dsimp only
  rw [if_neg (Bool.eq_false_iff.mp started.stuck)]
  apply started.toQueuesRel
  rw [rsrc, pools, undo.armed.held]
  exact VportSizes.queuesRel_buffers undo.plain

/-- The end of a stop. -/
theorem Undoable.released (undo : s.Undoable) (quiet : s.Quiet) :
    (if s.intrDeinit.stuck then s.intrDeinit
      else { s.intrDeinit with
        held := s.intrDeinit.rsrc.intrRel
          (s.intrDeinit.rsrc.queuesRel s.intrDeinit.pools s.intrDeinit.held) }).Started [] := by
  obtain ⟨started, rsrc, pools⟩ := undo.armed.intrDeinit quiet undo.up undo.carrier undo.used
  rw [if_neg (Bool.eq_false_iff.mp started.stuck)]
  have rest := started.rest
  constructor
  · change s.intrDeinit.rsrc.intrRel
      (s.intrDeinit.rsrc.queuesRel s.intrDeinit.pools s.intrDeinit.held) = []
    rw [started.held, rsrc, pools, undo.armed.held, VportSizes.queuesRel_buffers undo.plain]
    exact VportSizes.intrRel_intrAllocs
  · exact ⟨rfl, rest.napi, rest.irq, rest.irqOn, rest.mapped, rest.enabled, rest.vportOn,
      rest.filters, rest.carrier⟩
  · exact started.up
  · exact started.stuck
  · exact started.badFree

/-- The queues that the device has mapped are reached by the unmapping. -/
def Unmapped (s : OpenVport) (u : UndoMsgs) : Prop :=
  ∀ q, s.mapped q = true → u.unmap.acts mapsPerMsg s.rsrc.numMapped q = true

theorem unmap_mapped {u : UndoMsgs} (all : s.Unmapped u) (q : Nat) :
    (s.unmap u.unmap).mapped q = false := by
  change (s.mapped q && !u.unmap.acts mapsPerMsg s.rsrc.numMapped q) = false
  cases here : s.mapped q with
  | false => rfl
  | true =>
      rw [all q here]
      rfl

theorem Undoable.toUnmap {u : UndoMsgs} (undo : s.Undoable) (all : s.Unmapped u)
    (enabled : s.enabled = false) (vportOn : s.vportOn = false)
    (filters : ∀ i, s.filters i = false) : (s.toUnmap u).Failed :=
  Undoable.toIntrDeinit (undo.told _ s.enabled s.vportOn s.filters)
    ⟨unmap_mapped all, enabled, vportOn, filters⟩

theorem Undoable.toDisableQueues {u : UndoMsgs} (undo : s.Undoable) (all : s.Unmapped u)
    (disabled : u.disableQueues = true) (vportOn : s.vportOn = false)
    (filters : ∀ i, s.filters i = false) : (s.toDisableQueues u).Failed := by
  apply Undoable.toUnmap (undo.told s.mapped _ s.vportOn s.filters)
  · exact all
  · change (s.enabled && !u.disableQueues) = false
    rw [disabled]
    exact Bool.and_false _
  · exact vportOn
  · exact filters

theorem Undoable.toDisableVport {u : UndoMsgs} (undo : s.Undoable) (all : s.Unmapped u)
    (queues : u.disableQueues = true) (vport : u.disableVport = true)
    (filters : ∀ i, s.filters i = false) : (s.toDisableVport u).Failed := by
  apply Undoable.toDisableQueues (undo.told s.mapped s.enabled _ s.filters)
  · exact all
  · exact queues
  · change (s.vportOn && !u.disableVport) = false
    rw [vport]
    exact Bool.and_false _
  · exact filters

/-- What an open has to leave: the vport up with everything, or down with nothing and an error. -/
structure Opened (s : OpenVport) : Prop where
  ready : s.Ready
  up : s.up = true
  stuck : s.stuck = false
  badFree : s.badFree = false
  ret : s.ret = .opened
  listed : ∀ i, s.filters i = true → i < s.numMacs

/-- An open that has enabled its interrupts. -/
structure Launched (r : OpenRun) (s : OpenVport) : Prop where
  rsrc : s.rsrc = r.rsrc
  armed : s.Armed
  up : s.up = false
  carrier : s.carrier = false
  macFilter : s.macFilter = r.macFilter
  numMacs : s.numMacs = r.numMacs
  xdp : r.xdpDone = true → s.xdpReady = s.rsrc.numRxqs
  pools : s.pools = (r.xdpDone && r.xdpProg)

theorem Launched.told (launched : s.Launched r) (mapped : Nat → Bool) (enabled vportOn : Bool)
    (filters : Nat → Bool) :
    { s with
      mapped := mapped
      enabled := enabled
      vportOn := vportOn
      filters := filters }.Launched r :=
  have a := launched.armed
  ⟨launched.rsrc, ⟨a.held, a.napi, a.irq, a.irqOn, a.stuck, a.badFree⟩, launched.up,
    launched.carrier, launched.macFilter, launched.numMacs, launched.xdp, launched.pools⟩

theorem Launched.undoable (launched : s.Launched r) (fine : r.releasable = true) : s.Undoable := by
  obtain ⟨used, plain⟩ := Bool.and_eq_true_iff.mp fine
  constructor
  · exact launched.armed
  · exact launched.up
  · exact launched.carrier
  · rw [launched.rsrc]
    exact used
  · intro set
    rw [launched.pools] at set
    rw [set, Bool.true_and] at plain
    rw [launched.rsrc]
    exact Bool.not_eq_true' _ ▸ plain

theorem Launched.unmapped (launched : s.Launched r)
    (mapped : ∀ q, s.mapped q = decide (q < s.rsrc.numMapped)) (fine : r.unmaps = true) :
    s.Unmapped r.undo := by
  intro q here
  rw [mapped q] at here
  rw [launched.rsrc] at here ⊢
  exact List.all_eq_true.mp fine q (List.mem_range.mpr (of_decide_eq_true here))

theorem Launched.openFinish (launched : s.Launched r)
    (mapped : ∀ q, s.mapped q = decide (q < s.rsrc.numMapped)) (enabled : s.enabled = true)
    (vportOn : s.vportOn = true) (filters : ∀ i, s.filters i = false)
    (fine : (if r.rss then r.xdpDone
      else r.releasable && r.unmaps && r.undo.disableQueues && r.undo.disableVport &&
        !(r.macFilter && (List.range r.numMacs).any
          (r.addMacs.acts filtersPerMsg r.numMacs))) = true) :
    (s.openFinish r).Failed ∨ (s.openFinish r).Opened := by
  unfold OpenVport.openFinish
  dsimp only
  cases rss : r.rss with
  | true =>
      rw [if_neg (Bool.not_true ▸ Bool.false_ne_true)]
      rw [rss, if_pos rfl] at fine
      have a := launched.armed
      apply Or.inr
      constructor
      · exact ⟨a.held, a.napi, a.irq, a.irqOn, launched.xdp fine, mapped, enabled, vportOn⟩
      · rfl
      · exact a.stuck
      · exact a.badFree
      · rfl
      · intro i here
        have added := (Bool.or_eq_true_iff.mp here).resolve_left fun before =>
          Bool.noConfusion ((filters i).symm.trans before)
        have inside := (Bool.and_eq_true_iff.mp (Bool.and_eq_true_iff.mp added).2).1
        rw [launched.numMacs]
        exact of_decide_eq_true inside
  | false =>
      rw [if_pos Bool.not_false]
      rw [rss, if_neg Bool.false_ne_true] at fine
      simp only [Bool.and_eq_true, Bool.not_eq_true'] at fine
      obtain ⟨⟨⟨⟨releasable, unmaps⟩, queues⟩, vport⟩, unprogrammed⟩ := fine
      apply Or.inl
      have undo := (launched.told s.mapped s.enabled s.vportOn fun i => s.filters i ||
        (r.macFilter && r.addMacs.acts filtersPerMsg r.numMacs i)).undoable releasable
      apply undo.toDisableVport (launched.unmapped mapped unmaps) queues vport
      intro i
      change (s.filters i || (r.macFilter && r.addMacs.acts filtersPerMsg r.numMacs i)) = false
      rw [filters i, Bool.false_or]
      cases cap : r.macFilter with
      | false => rfl
      | true =>
          rw [cap, Bool.true_and] at unprogrammed
          rw [Bool.true_and]
          by_cases low : i < r.numMacs
          · exact Bool.eq_false_iff.mpr
              (List.any_eq_false.mp unprogrammed i (List.mem_range.mpr low))
          · unfold Served.acts
            rw [decide_eq_false low]
            rfl

theorem Launched.openEnable (launched : s.Launched r)
    (mapped : ∀ q, s.mapped q = decide (q < s.rsrc.numMapped)) (enabled : s.enabled = false)
    (vportOn : s.vportOn = false) (filters : ∀ i, s.filters i = false)
    (fine : r.enableOk = true) : (s.openEnable r).Failed ∨ (s.openEnable r).Opened := by
  unfold OpenRun.enableOk at fine
  unfold OpenVport.openEnable
  cases queues : r.enableQueues with
  | failed done =>
      rw [queues] at fine
      simp only [Bool.and_eq_true, Bool.not_eq_true'] at fine
      obtain ⟨⟨releasable, unmaps⟩, undone⟩ := fine
      have undo := (launched.told s.mapped (s.enabled || done) s.vportOn s.filters).undoable
        releasable
      apply Or.inl
      apply undo.toUnmap (launched.unmapped mapped unmaps)
      · change (s.enabled || done) = false
        rw [enabled, undone]
        rfl
      · exact vportOn
      · exact filters
  | accepted =>
      rw [queues] at fine
      dsimp only at fine ⊢
      cases vport : r.enableVport with
      | failed done =>
          rw [vport] at fine
          simp only [Bool.and_eq_true, Bool.not_eq_true'] at fine
          obtain ⟨⟨⟨releasable, unmaps⟩, disabled⟩, undone⟩ := fine
          have undo := (launched.told s.mapped true (s.vportOn || done) s.filters).undoable
            releasable
          apply Or.inl
          apply undo.toDisableQueues (launched.unmapped mapped unmaps) disabled
          · change (s.vportOn || done) = false
            rw [vportOn, undone]
            rfl
          · exact filters
      | accepted =>
          rw [vport] at fine
          exact (launched.told s.mapped true true s.filters).openFinish mapped rfl rfl filters fine

theorem acts_of_okay {m : Served} {per total : Nat} (okay : m.okay per total = true)
    (room : 0 < per) (q : Nat) : m.acts per total q = decide (q < total) := by
  unfold Served.okay at okay
  unfold Served.acts
  by_cases low : q < total
  · rw [decide_eq_true low, Bool.true_and]
    cases fails : m.fails with
    | none => rfl
    | some k =>
        rw [fails] at okay
        have enough : (total + per - 1) / per ≤ k := of_decide_eq_true okay
        have before : q / per < k := by
          apply lt_of_lt_of_le _ enough
          apply (Nat.div_lt_iff_lt_mul room).mpr
          have cover := Nat.lt_mul_div_succ (total + per - 1) room
          rw [Nat.mul_add, Nat.mul_comm] at cover
          omega
        simp only [decide_eq_true before, Bool.true_or]
  · rw [decide_eq_false low, Bool.false_and]

theorem Launched.openMap (launched : s.Launched r) (quiet : s.Quiet) (fine : r.mapOk = true) :
    (s.openMap r).Failed ∨ (s.openMap r).Opened := by
  unfold OpenRun.mapOk at fine
  unfold OpenVport.openMap
  dsimp only at fine ⊢
  rw [← launched.rsrc] at fine
  split at fine
  · exact Bool.noConfusion fine
  next tx =>
    rw [if_neg tx]
    split at fine
    next refused =>
      rw [if_pos refused]
      exact .inl ((launched.undoable fine).toIntrDeinit quiet)
    next configured =>
      rw [if_neg configured]
      split at fine
      · exact Bool.noConfusion fine
      next rx =>
        rw [if_neg rx]
        split at fine
        next refused =>
          rw [if_pos refused]
          exact .inl ((launched.undoable fine).toIntrDeinit quiet)
        next configured =>
          rw [if_neg configured]
          split at fine
          · exact Bool.noConfusion fine
          next queues =>
            rw [if_neg queues]
            split at fine
            next okay =>
              rw [if_pos okay]
              apply Launched.openEnable (launched.told _ s.enabled s.vportOn s.filters)
              · intro q
                change (s.mapped q || r.map.acts mapsPerMsg s.rsrc.numMapped q) =
                  decide (q < s.rsrc.numMapped)
                rw [quiet.mapped q, Bool.false_or]
                exact acts_of_okay okay (by decide) q
              · exact quiet.enabled
              · exact quiet.vportOn
              · exact quiet.filters
              · exact fine
            next refused =>
              rw [if_neg refused]
              obtain ⟨releasable, unmapped⟩ := Bool.and_eq_true_iff.mp fine
              have undo := (launched.told (fun q => s.mapped q ||
                r.map.acts mapsPerMsg s.rsrc.numMapped q) s.enabled s.vportOn s.filters).undoable
                releasable
              apply Or.inl
              apply undo.toIntrDeinit
              refine ⟨?_, quiet.enabled, quiet.vportOn, quiet.filters⟩
              intro q
              change (s.mapped q || r.map.acts mapsPerMsg s.rsrc.numMapped q) = false
              rw [quiet.mapped q, Bool.false_or]
              by_cases low : q < s.rsrc.numMapped
              · have undone := List.all_eq_true.mp unmapped q (List.mem_range.mpr low)
                exact Bool.not_eq_true' _ ▸ undone
              · unfold Served.acts
                rw [decide_eq_false low]
                rfl

/-- The state before the interrupts are set up: the queues are there, and nothing else is. -/
structure Queued (r : OpenRun) (s : OpenVport) : Prop where
  rsrc : s.rsrc = r.rsrc
  started : s.Started (r.rsrc.intrAllocs ++ r.rsrc.queueAllocs)
  macFilter : s.macFilter = r.macFilter
  numMacs : s.numMacs = r.numMacs
  pools : s.pools = false

theorem Queued.toQueuesRel (queued : s.Queued r) : s.toQueuesRel.Failed := by
  apply queued.started.toQueuesRel
  rw [queued.rsrc, queued.pools]
  exact VportSizes.queuesRel_queues fun this => Bool.noConfusion this

theorem setNapi_setNapi (s : OpenVport) (state : NapiState) (none : ∀ v, s.napi v = .none) :
    (s.setNapi state).setNapi .none = s := by
  have same : ((s.setNapi state).setNapi .none).napi = s.napi := by
    funext v
    change (if v < s.rsrc.numQVectors then NapiState.none
      else if v < s.rsrc.numQVectors then state else s.napi v) = s.napi v
    split
    · exact (none v).symm
    · rfl
  calc (s.setNapi state).setNapi .none
      = { s with napi := ((s.setNapi state).setNapi .none).napi } := rfl
    _ = s := by rw [same]

theorem requestIrqs_freeIrqs (s : OpenVport) {n : Nat} (none : ∀ v, s.irq v = false)
    (used : (List.range n).all s.rsrc.used = true) : (s.requestIrqs n).freeIrqs n = s := by
  have same : ((s.requestIrqs n).freeIrqs n).irq = s.irq := by
    funext v
    change (if v < n then false else if v < n then s.irq v || s.rsrc.used v else s.irq v) = s.irq v
    split
    · exact (none v).symm
    · rfl
  have granted : ((s.requestIrqs n).freeIrqs n).badFree = s.badFree := by
    have all : ((List.range n).any fun v => !(s.requestIrqs n).irq v) = false := by
      apply List.any_eq_false.mpr
      intro v member ungranted
      have irq : (s.requestIrqs n).irq v = (s.irq v || s.rsrc.used v) :=
        if_pos (List.mem_range.mp member)
      rw [irq, List.all_eq_true.mp used v member, Bool.or_true] at ungranted
      exact Bool.noConfusion ungranted
    change (s.badFree || (List.range n).any fun v => !(s.requestIrqs n).irq v) = s.badFree
    rw [all, Bool.or_false]
  calc (s.requestIrqs n).freeIrqs n
      = { s with
          irq := ((s.requestIrqs n).freeIrqs n).irq
          badFree := ((s.requestIrqs n).freeIrqs n).badFree } := rfl
    _ = s := by rw [same, granted]

/-- The request for vector `v` is refused. -/
def Refused (s : OpenVport) (fails : Option Nat) (v : Nat) : Prop :=
  fails = some v ∧ (v < s.rsrc.numQVectors && s.rsrc.used v) = true

/-- An interrupt is refused, with queues for all vectors before it: those granted are freed. -/
theorem intrReqIrq_failed {fails : Option Nat} (none : ∀ v, s.irq v = false)
    (fine : ∀ v, s.Refused fails v → (List.range v).all s.rsrc.used = true)
    (failed : (s.intrReqIrq fails).2 = false) : (s.intrReqIrq fails).1 = s := by
  cases fails with
  | none => exact Bool.noConfusion failed
  | some v =>
      unfold intrReqIrq at failed ⊢
      dsimp only at failed ⊢
      split
      next refused => exact requestIrqs_freeIrqs s none (fine v ⟨rfl, refused⟩)
      next granted =>
        rw [if_neg granted] at failed
        exact Bool.noConfusion failed

theorem intrReqIrq_granted {fails : Option Nat} (granted : (s.intrReqIrq fails).2 = true) :
    (s.intrReqIrq fails).1 = s.requestIrqs s.rsrc.numQVectors ∧ ∀ v, ¬ s.Refused fails v := by
  cases fails with
  | none => exact ⟨rfl, fun v refused => absurd refused.1.symm (Option.some_ne_none v)⟩
  | some v =>
      unfold intrReqIrq at granted ⊢
      dsimp only at granted ⊢
      split
      next refused =>
        rw [if_pos refused] at granted
        exact Bool.noConfusion granted
      next other =>
        constructor
        · rfl
        · intro w refused
          obtain rfl := Option.some.inj refused.1
          exact other refused.2

/-- `idpf_vport_intr_init` that fails leaves the vport as it was. -/
theorem Queued.intrInit_failed (queued : s.Queued r)
    (fine : r.vecIdx = true → r.intrRegs = true → ∀ v, s.Refused r.irqFails v →
      (List.range v).all s.rsrc.used = true)
    (failed : (s.intrInit r).2 = false) : (s.intrInit r).1 = s := by
  have none := queued.started.rest.napi
  have added := setNapi_setNapi s .disabled none
  unfold OpenVport.intrInit at failed ⊢
  dsimp only at failed ⊢
  split
  · rfl
  next vecIdx =>
    rw [if_neg vecIdx] at failed
    split
    · exact added
    next regs =>
      rw [if_neg regs] at failed
      simp only [Bool.not_eq_true', Bool.not_eq_false] at vecIdx regs
      cases granted : ((s.setNapi .disabled).intrReqIrq r.irqFails).2 with
      | true =>
          rw [granted, if_pos rfl] at failed
          exact Bool.noConfusion (granted.symm.trans failed)
      | false =>
          rw [if_neg Bool.false_ne_true]
          have same : ((s.setNapi .disabled).intrReqIrq r.irqFails).1 = s.setNapi .disabled :=
            intrReqIrq_failed queued.started.rest.irq (fine vecIdx regs) granted
          exact (congrArg (·.setNapi NapiState.none) same).trans added

/-- What `idpf_vport_intr_init` has done when it succeeds. -/
structure IntrDone (s : OpenVport) (r : OpenRun) : Prop where
  vecIdx : r.vecIdx = true
  intrRegs : r.intrRegs = true
  granted : ∀ v, ¬ s.Refused r.irqFails v
  result : (s.intrInit r).1 = (s.setNapi .disabled).requestIrqs s.rsrc.numQVectors

theorem intrInit_done (done : (s.intrInit r).2 = true) : s.IntrDone r := by
  unfold OpenVport.intrInit at done
  dsimp only at done
  split at done
  · exact Bool.noConfusion done
  next vecIdx =>
    split at done
    · exact Bool.noConfusion done
    next regs =>
      cases granted : ((s.setNapi .disabled).intrReqIrq r.irqFails).2 with
      | false =>
          rw [granted, if_neg Bool.false_ne_true] at done
          exact Bool.noConfusion done
      | true =>
          obtain ⟨result, unrefused⟩ := intrReqIrq_granted granted
          constructor
          · simpa only [Bool.not_eq_true', Bool.not_eq_false] using vecIdx
          · simpa only [Bool.not_eq_true', Bool.not_eq_false] using regs
          · exact unrefused
          · unfold OpenVport.intrInit
            dsimp only
            rw [if_neg vecIdx, if_neg regs, if_pos granted]
            exact result

/-- What `idpf_vport_xdp_init` changes. -/
theorem xdpInit_spec (s : OpenVport) (r : OpenRun) (same : s.rsrc = r.rsrc)
    (unset : s.pools = false) : ∃ n, (r.xdpDone = true → n = s.rsrc.numRxqs) ∧
      s.xdpInit r = { s with
        xdpReady := n
        pools := r.xdpDone && r.xdpProg } := by
  unfold xdpInit OpenRun.xdpDone
  cases r.xdpFails with
  | none => exact ⟨s.rsrc.numRxqs, fun _ => rfl, rfl⟩
  | some k =>
      dsimp only [Option.all_some]
      rw [← same]
      split
      next early =>
        have undone : decide (s.rsrc.numRxqs ≤ k) = false := decide_eq_false (by omega)
        rw [undone]
        exact ⟨k, fun this => Bool.noConfusion this, by rw [Bool.false_and, ← unset]⟩
      next late =>
        have done : decide (s.rsrc.numRxqs ≤ k) = true := decide_eq_true (by omega)
        rw [done]
        exact ⟨s.rsrc.numRxqs, fun _ => rfl, by rw [Bool.true_and]⟩

theorem flag_used {flag : Nat → Bool} (none : ∀ v, flag v = false) (c : VportSizes) (v : Nat) :
    (if v < c.numQVectors then flag v || c.used v else flag v) =
      (v < c.numQVectors && c.used v) := by
  split
  next low => rw [none v, decide_eq_true low, Bool.false_or, Bool.true_and]
  next outside => rw [none v, decide_eq_false outside, Bool.false_and]

theorem Queued.armed (queued : s.Queued r) (n : Nat) (pools : Bool) :
    ({ (s.setNapi .disabled).requestIrqs s.rsrc.numQVectors with
      held := s.held ++ s.rsrc.rxBufsAllocs
      xdpReady := n
      pools := pools }.intrEna).Armed := by
  have started := queued.started
  constructor
  · change s.held ++ s.rsrc.rxBufsAllocs =
      s.rsrc.intrAllocs ++ s.rsrc.queueAllocs ++ s.rsrc.rxBufsAllocs
    rw [started.held, queued.rsrc]
  · intro v
    change (if v < s.rsrc.numQVectors then NapiState.enabled
      else if v < s.rsrc.numQVectors then .disabled else s.napi v) =
        if v < s.rsrc.numQVectors then .enabled else .none
    split
    · rfl
    · exact started.rest.napi v
  · exact flag_used started.rest.irq s.rsrc
  · exact flag_used started.rest.irqOn s.rsrc
  · exact started.stuck
  · exact started.badFree

theorem Queued.launched (queued : s.Queued r) (n : Nat)
    (ready : r.xdpDone = true → n = s.rsrc.numRxqs) :
    ({ (s.setNapi .disabled).requestIrqs s.rsrc.numQVectors with
      held := s.held ++ s.rsrc.rxBufsAllocs
      xdpReady := n
      pools := r.xdpDone && r.xdpProg }.intrEna).Launched r :=
  ⟨queued.rsrc, queued.armed n _, queued.started.up, queued.started.rest.carrier,
    queued.macFilter, queued.numMacs, ready, rfl⟩

/-- Where the setting up of the interrupts fails, what was done of it is undone. -/
theorem Queued.irq_fine (queued : s.Queued r)
    (fine : r.vecIdx = true → r.intrRegs = true → r.irqsGranted = true ∨ r.irqOk = true) :
    r.vecIdx = true → r.intrRegs = true → ∀ v, s.Refused r.irqFails v →
      (List.range v).all s.rsrc.used = true := by
  intro vecIdx regs v refused
  obtain ⟨fails, low⟩ := refused
  rw [queued.rsrc] at low ⊢
  cases fine vecIdx regs with
  | inl granted =>
      unfold OpenRun.irqsGranted at granted
      rw [fails, Option.all_some, low] at granted
      exact Bool.noConfusion granted
  | inr ok =>
      unfold OpenRun.irqOk at ok
      rw [fails, Option.all_some, low] at ok
      exact ok

theorem alloc_done {ps held : List VportPtr} (none : r.failsIn ps = false) :
    VportSizes.alloc ps r.fail held = (held ++ ps, true) := by
  have all : (VportSizes.alloc ps r.fail held).2 = true := by
    apply List.all_eq_true.mpr
    intro p member
    apply decide_eq_true
    intro same
    have fails : r.failsIn ps = true := by
      unfold OpenRun.failsIn
      rw [← same, Option.any_some]
      exact decide_eq_true member
    exact Bool.noConfusion (none.symm.trans fails)
  exact Prod.ext (VportSizes.alloc_all all) all

theorem Queued.openInit (queued : s.Queued r)
    (fine : (if !r.ids then true
      else if !r.vecIdx then true
      else if !r.intrRegs then true
      else if !r.irqsGranted then r.irqOk
      else r.queueRegs && !r.failsIn r.rsrc.rxBufsAllocs && r.bufs && r.mapOk) = true) :
    (s.openInit r).Failed ∨ (s.openInit r).Opened := by
  unfold OpenVport.openInit
  dsimp only
  split at fine
  next ids =>
    rw [if_pos ids]
    exact .inl queued.toQueuesRel
  next ids =>
    rw [if_neg ids]
    cases done : (s.intrInit r).2 with
    | false =>
        rw [if_pos Bool.not_false, queued.intrInit_failed _ done]
        · exact .inl queued.toQueuesRel
        · apply queued.irq_fine
          intro vecIdx regs
          rw [vecIdx, regs] at fine
          cases granted : r.irqsGranted with
          | true => exact .inl rfl
          | false =>
              rw [granted] at fine
              exact .inr fine
    | true =>
        have intr := intrInit_done done
        have granted : r.irqsGranted = true := by
          unfold OpenRun.irqsGranted
          cases fails : r.irqFails with
          | none => rfl
          | some v =>
              rw [Option.all_some]
              apply Bool.not_eq_true' _ ▸ Bool.eq_false_iff.mpr
              intro low
              exact intr.granted v ⟨fails, queued.rsrc ▸ low⟩
        rw [intr.vecIdx, intr.intrRegs, granted] at fine
        have fine : (r.queueRegs && !r.failsIn r.rsrc.rxBufsAllocs && r.bufs && r.mapOk) = true :=
          fine
        simp only [Bool.and_eq_true, Bool.not_eq_true'] at fine
        obtain ⟨⟨⟨regs, allocs⟩, bufs⟩, mapOk⟩ := fine
        rw [← queued.rsrc] at allocs
        rw [regs, alloc_done allocs, bufs, intr.result]
        simp only [Bool.not_true, Bool.false_eq_true, if_false, Bool.and_self]
        obtain ⟨n, ready, same⟩ := xdpInit_spec
          { (s.setNapi .disabled).requestIrqs s.rsrc.numQVectors with
            held := s.held ++ s.rsrc.rxBufsAllocs } r queued.rsrc queued.pools
        have rest := queued.started.rest
        have opened := (queued.launched n ready).openMap
          ⟨rest.mapped, rest.enabled, rest.vportOn, rest.filters⟩ mapOk
        have start : { (s.setNapi .disabled).requestIrqs s.rsrc.numQVectors with
            held := ((s.setNapi .disabled).requestIrqs s.rsrc.numQVectors).held ++
              s.rsrc.rxBufsAllocs }.xdpInit r = _ := same
        rw [start]
        exact opened

theorem failsIn_eq_false {ps : List VportPtr} (unfailed : ∀ p ∈ ps, r.fail ≠ some p) :
    r.failsIn ps = false := by
  unfold OpenRun.failsIn
  cases fails : r.fail with
  | none => rfl
  | some p => exact decide_eq_false fun member => unfailed p member fails

/-- A vport that is down, with what an open has allocated. -/
theorem Down.started (down : s.Down) (up : s.up = false) (stuck : s.stuck = false)
    (released : s.badFree = false) (r : OpenRun) (h : List VportPtr) :
    { s with
      rsrc := r.rsrc
      held := h
      pools := false
      macFilter := r.macFilter
      numMacs := r.numMacs
      carrier := false }.Started h :=
  ⟨rfl, ⟨rfl, down.napi, down.irq, down.irqOn, down.mapped, down.enabled, down.vportOn,
    down.filters, rfl⟩, up, stuck, released⟩

theorem Down.openVport (down : s.Down) (up : s.up = false) (stuck : s.stuck = false)
    (released : s.badFree = false) (fine : r.ok = true) :
    (s.openVport r).Failed ∨ (s.openVport r).Opened := by
  have started := down.started up stuck released r
  obtain ⟨taken, undone⟩ := VportSizes.intrAlloc_spec (c := r.rsrc) r.fail
  unfold OpenRun.ok at fine
  unfold OpenVport.openVport
  dsimp only
  rw [if_neg (Bool.eq_false_iff.mp up), down.held]
  have divides : ¬ (r.fail ≠ some .qVectors ∧ r.rsrc.numQVectors = 0) := by
    intro both
    rw [if_neg both.1, if_pos both.2] at fine
    exact Bool.noConfusion fine
  rw [if_neg divides]
  cases vecs : (r.rsrc.intrAlloc r.fail []).2 with
  | false =>
      apply Or.inl
      rw [if_pos Bool.not_false, undone vecs]
      exact ⟨⟨rfl, down.napi, down.irq, down.irqOn, down.mapped, down.enabled, down.vportOn,
        down.filters, rfl⟩, up, stuck, released, rfl⟩
  | true =>
      have unfailed := fun p member => VportSizes.intrAlloc_unfailed (p := p) vecs member
      have array : r.fail ≠ some .qVectors := unfailed _ List.mem_cons_self
      have some : r.rsrc.numQVectors ≠ 0 := fun none => divides ⟨array, none⟩
      rw [if_neg array, if_neg some, failsIn_eq_false unfailed, if_neg Bool.false_ne_true] at fine
      split at fine
      · exact Bool.noConfusion fine
      next survived =>
        rw [if_neg (Bool.not_true ▸ Bool.false_ne_true), if_neg survived, taken vecs]
        obtain ⟨all, nothing⟩ :=
          VportSizes.queueAllocAll_spec VportSizes.vecsOnly_intrAllocs r.fail
        cases queues : (r.rsrc.queueAllocAll r.fail r.rsrc.intrAllocs).2 with
        | false =>
            rw [if_pos Bool.not_false, nothing queues]
            exact .inl (started _).toIntrRel
        | true =>
            rw [if_neg (Bool.not_true ▸ Bool.false_ne_true), all queues]
            rw [failsIn_eq_false fun p member =>
              VportSizes.queueAllocAll_unfailed (p := p) queues member,
              if_neg Bool.false_ne_true] at fine
            exact Queued.openInit ⟨rfl, started _, rfl, rfl, rfl⟩ fine

/-- A vport that is up, with filters of its list only. -/
structure Running (s : OpenVport) : Prop where
  ready : s.Ready
  up : s.up = true
  stuck : s.stuck = false
  badFree : s.badFree = false
  listed : ∀ i, s.filters i = true → i < s.numMacs

/-- The vectors of a vport that runs can be taken back, once it is no longer up. -/
theorem Running.undoable (running : s.Running)
    (used : (List.range s.rsrc.numQVectors).all s.rsrc.used = true)
    (plain : s.pools = true → s.rsrc.pooled = false) :
    { s with
      carrier := false
      up := false
      ret := .none }.Undoable where
  armed := ⟨running.ready.held, running.ready.napi, running.ready.irq, running.ready.irqOn,
    running.stuck, running.badFree⟩
  up := rfl
  carrier := rfl
  used := used
  plain := plain

theorem Running.stop {r : StopRun} (running : s.Running) (fine : s.stopOk r = true) :
    (s.stop r).Started [] := by
  simp only [stopOk, Bool.and_eq_true, Bool.or_eq_true] at fine
  obtain ⟨⟨used, poolless⟩, told⟩ := fine
  have plain : s.pools = true → s.rsrc.pooled = false := by
    intro set
    rw [set, Bool.true_and] at poolless
    exact Bool.not_eq_true' _ ▸ poolless
  have undo := running.undoable used plain
  unfold OpenVport.stop
  dsimp only
  rw [running.up, if_neg (Bool.not_true ▸ Bool.false_ne_true)]
  cases corer : r.corer with
  | true =>
      rw [if_pos rfl]
      apply (undo.told _ false false _).released
      constructor
      · exact fun _ => rfl
      · rfl
      · rfl
      · exact fun _ => rfl
  | false =>
      rw [if_neg Bool.false_ne_true]
      obtain ⟨⟨⟨vport, queues⟩, unmaps⟩, removed⟩ :=
        told.resolve_left fun set => Bool.noConfusion (corer.symm.trans set)
      apply (undo.told _ (s.enabled && !r.undo.disableQueues)
        (s.vportOn && !r.undo.disableVport) _).released
      constructor
      · apply unmap_mapped (s := s)
        intro q here
        rw [running.ready.mapped q] at here
        exact List.all_eq_true.mp unmaps q (List.mem_range.mpr (of_decide_eq_true here))
      · change (s.enabled && !r.undo.disableQueues) = false
        rw [queues]
        exact Bool.and_false _
      · change (s.vportOn && !r.undo.disableVport) = false
        rw [vport]
        exact Bool.and_false _
      · intro i
        change (s.filters i && !(s.macFilter && r.delMacs.acts filtersPerMsg s.numMacs i)) = false
        cases here : s.filters i with
        | false => rfl
        | true =>
            have gone := List.all_eq_true.mp removed i (List.mem_range.mpr (running.listed i here))
            rw [here, Bool.not_true, Bool.false_or] at gone
            rw [gone]
            rfl

theorem intrDeinit_ret (s : OpenVport) : s.intrDeinit.ret = s.ret := by
  unfold intrDeinit
  dsimp only
  split
  · rfl
  · rfl

theorem released_ret (s : OpenVport) (h : List VportPtr) :
    (if s.intrDeinit.stuck then s.intrDeinit else { s.intrDeinit with held := h }).ret = s.ret := by
  split
  · exact intrDeinit_ret s
  · exact intrDeinit_ret s

theorem stop_ret (s : OpenVport) (r : StopRun) : (s.stop r).ret = .none := by
  unfold stop
  dsimp only
  split
  · rfl
  · cases r.corer with
    | true => exact released_ret _ _
    | false => exact released_ret _ _

/-- Up and running, or down with nothing. -/
structure Inv (s : OpenVport) : Prop where
  kept : s.Kept
  listed : ∀ i, s.filters i = true → i < s.numMacs

theorem Started.down (started : s.Started []) : s.Down :=
  have rest := started.rest
  ⟨started.held, rest.napi, rest.irq, rest.irqOn, rest.mapped, rest.enabled, rest.vportOn,
    rest.filters, rest.carrier⟩

theorem Inv.of_down (down : s.Down) (up : s.up = false) (stuck : s.stuck = false)
    (released : s.badFree = false) (ret : s.ret ≠ .opened ∧ s.ret ≠ .busy) : s.Inv where
  kept :=
    { returned := stuck
      released := released
      down := fun _ => down
      ready := fun set => Bool.noConfusion (up.symm.trans set)
      failed := fun _ => up
      opened := fun opened => absurd opened (not_or.mpr ret) }
  listed := fun i here => Bool.noConfusion ((down.filters i).symm.trans here)

theorem Failed.inv (failed : s.Failed) : s.Inv := by
  apply Inv.of_down failed.down failed.up failed.stuck failed.badFree
  rw [failed.ret]
  exact ⟨fun same => OpenRet.noConfusion same, fun same => OpenRet.noConfusion same⟩

theorem Opened.inv (opened : s.Opened) : s.Inv where
  kept :=
    { returned := opened.stuck
      released := opened.badFree
      down := fun clear => Bool.noConfusion (opened.up.symm.trans clear)
      ready := fun _ => opened.ready
      failed := fun failed => OpenRet.noConfusion (opened.ret.symm.trans failed)
      opened := fun _ => opened.up }
  listed := opened.listed

theorem Inv.running (inv : s.Inv) (up : s.up = true) : s.Running :=
  ⟨inv.kept.ready up, up, inv.kept.returned, inv.kept.released, inv.listed⟩

theorem Inv.openVport (inv : s.Inv) (fine : (s.up || r.ok) = true) : (s.openVport r).Inv := by
  have kept := inv.kept
  cases up : s.up with
  | true =>
      have ready := kept.ready up
      have busy : s.openVport r = { s with ret := .busy } := if_pos up
      rw [busy]
      constructor
      · constructor
        · exact kept.returned
        · exact kept.released
        · exact fun clear => Bool.noConfusion (up.symm.trans clear)
        · exact fun _ => ⟨ready.held, ready.napi, ready.irq, ready.irqOn, ready.xdp, ready.mapped,
            ready.enabled, ready.vportOn⟩
        · exact fun failed => OpenRet.noConfusion failed
        · exact fun _ => up
      · exact inv.listed
  | false =>
      rw [up, Bool.false_or] at fine
      cases (kept.down up).openVport up kept.returned kept.released fine with
      | inl failed => exact failed.inv
      | inr opened => exact opened.inv

theorem Inv.stop (inv : s.Inv) {r : StopRun} (fine : (!s.up || s.stopOk r) = true) :
    (s.stop r).Inv := by
  have ret : (s.stop r).ret ≠ .opened ∧ (s.stop r).ret ≠ .busy := by
    rw [stop_ret]
    exact ⟨fun same => OpenRet.noConfusion same, fun same => OpenRet.noConfusion same⟩
  cases up : s.up with
  | true =>
      rw [up, Bool.not_true, Bool.false_or] at fine
      have started := (inv.running up).stop fine
      exact .of_down started.down started.up started.stuck started.badFree ret
  | false =>
      have down := inv.kept.down up
      have unchanged : s.stop r = { s with ret := .none } := by
        unfold OpenVport.stop
        dsimp only
        rw [up, if_pos Bool.not_false]
      rw [unchanged] at ret ⊢
      exact .of_down ⟨down.held, down.napi, down.irq, down.irqOn, down.mapped, down.enabled,
        down.vportOn, down.filters, down.carrier⟩ up inv.kept.returned inv.kept.released ret

theorem Inv.step (inv : s.Inv) {op : OpenOp} {s' : OpenVport} (fine : s.ok op = true)
    (next : s.step op = some s') : s'.Inv := by
  unfold OpenVport.step at next
  rw [inv.kept.returned, if_neg Bool.false_ne_true] at next
  cases op with
  | openVport r =>
      obtain rfl := Option.some.inj next
      exact inv.openVport fine
  | stop r =>
      obtain rfl := Option.some.inj next
      exact inv.stop fine

def Init (s : OpenVport) : Prop := ∃ c, s = start c

theorem inv_start (c : VportSizes) : (start c).Inv := by
  apply Inv.of_down
  · exact ⟨rfl, fun _ => rfl, fun _ => rfl, fun _ => rfl, fun _ => rfl, rfl, rfl, fun _ => rfl, rfl⟩
  · rfl
  · rfl
  · rfl
  · exact ⟨fun same => OpenRet.noConfusion same, fun same => OpenRet.noConfusion same⟩

/-- In a run whose steps all meet the condition the vport is up with everything or as after a stop,
and no call hangs or releases what is not there. -/
theorem open_unwinds (run : Reachable step (fun s op => s.ok op = true) Init s) : s.Kept := by
  have inv : s.Inv := run.invariant
    (fun _ init => by
      obtain ⟨c, rfl⟩ := init
      exact inv_start c)
    fun _ _ _ inv fine next => inv.step fine next
  exact inv.kept

def oneQueue : VportSizes where
  numQVectors := 1
  numTxqGrp := 1
  numTxq := 1
  numRxqGrp := 1
  numRxq := 1
  numBufqsPerQgrp := 1
  txqSplit := true
  rxqSplit := true
  flowSchEn := true
  hsplitEn := false
  zeroCopy := []

def smooth : OpenRun where
  rsrc := oneQueue
  fail := none
  ids := true
  vecIdx := true
  intrRegs := true
  irqFails := none
  queueRegs := true
  bufs := true
  xdpProg := false
  xdpFails := none
  configTx := true
  configRx := true
  map := ⟨none, true⟩
  enableQueues := .accepted
  enableVport := .accepted
  macFilter := true
  numMacs := 1
  addMacs := ⟨none, true⟩
  rss := true
  linkUp := true
  undo := ⟨true, true, ⟨none, true⟩⟩

/-- Opens fail at the allocation of a ring, at an interrupt, and at the setting up of RSS, and a
stop comes before and after the open that succeeds. -/
theorem open_unwinds_run : ∃ s, Reachable step (fun s op => s.ok op = true) Init s ∧
    s.ret = .busy ∧ s.Kept := by
  obtain ⟨s, run, busy⟩ : ∃ s, execIf step ok (start oneQueue)
      [.openVport { smooth with fail := some (.txRing 0 0) },
        .stop ⟨false, ⟨true, true, ⟨none, true⟩⟩, ⟨none, true⟩⟩,
        .openVport { smooth with irqFails := some 0 },
        .openVport smooth,
        .stop ⟨false, ⟨true, true, ⟨none, true⟩⟩, ⟨none, true⟩⟩,
        .openVport { smooth with
          rss := false
          numMacs := 0 },
        .openVport smooth, .openVport smooth] = some s ∧ s.ret = .busy := by
    apply Option.map_eq_some_iff.mp
    decide +kernel
  have init : Init (start oneQueue) := ⟨oneQueue, rfl⟩
  have reached := Reachable.execIf (.start init) run
  exact ⟨s, reached, busy, open_unwinds reached⟩

/-- The setting up of RSS fails after the MAC filter of the list was added again: the vport is down,
and the device still has the filter. -/
theorem failed_open_keeps_filters :
    ¬ ∀ s, Reachable step anyStep Init s → s.Kept := by
  intro claim
  obtain ⟨s, run, seen⟩ : ∃ s, exec step (start oneQueue)
      [.openVport { smooth with rss := false }] = some s ∧
        (s.up, s.filters 0) = (false, true) := by
    apply Option.map_eq_some_iff.mp
    decide +kernel
  obtain ⟨up, here⟩ := Prod.mk.inj seen
  have init : Init (start oneQueue) := ⟨oneQueue, rfl⟩
  have kept := claim s (Reachable.exec (.start init) run)
  exact Bool.noConfusion (here.symm.trans ((kept.down up).filters 0))

end OpenVport

end Idpf
