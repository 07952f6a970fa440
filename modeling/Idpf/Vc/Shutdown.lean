import Idpf.Vc.Moves

/-! The shutdown of the transaction manager: what it leaves of the slots, and how the calls it has
met return. A waiter whose completion is armed after it has been signalled for good is not
reached. -/
namespace Idpf
open General

/-- The call has set its slot up and not sent its request. -/
def VcPhase.unsent : VcPhase → Bool
  | .entered _ | .armed _ | .cookied _ _ => true
  | _ => false

namespace VcSystem

/-- When a slot is signalled for good no synchronous call is about to arm it, and when the shutdown
ends no asynchronous call is on its way to send. -/
def shutdownOk (s : VcSystem) : VcOp → Bool
  | .wakeAll =>
    match s.ctl with
    | .wakeAll i => (List.range s.started).all fun t =>
        decide ((s.calls t).phase = .entered i → (s.calls t).params.async = true)
    | _ => true
  | .shutEnd => (List.range s.started).all fun t =>
      decide ((s.calls t).params.async = true → (s.calls t).phase.unsent = false)
  | _ => true

/-- A slot that is shut down and signalled for good, and that no call will arm. -/
structure Dead (s : VcSystem) (i : Nat) : Prop where
  state : (s.mngr.ring i).state = .shutdown
  signalled : (s.mngr.ring i).completed = .all
  unarmed : ∀ t, (s.calls t).phase = .entered i → (s.calls t).params.async = true

structure Calls (s : VcSystem) : Prop where
  bound : ∀ t i, (s.calls t).phase.slot = some i → i < vcXnRingLen
  fresh : ∀ t, s.started ≤ t → (s.calls t).phase.slot = none
  sync : ∀ t i, (s.calls t).phase = .waiting i ∨ (s.calls t).phase = .woken i →
    (s.calls t).params.async = false

variable {s s' : VcSystem} {t i j : Nat} {c : VcCall} {xn : VcXn}

theorem Calls.update (calls : s.Calls) {old : VcPhase} (place : (s.calls t).phase = old)
    (holds : old.slot = some i) (next : s'.calls = Function.update s.calls t c)
    (started : s'.started = s.started) (slot : ∀ j, c.phase.slot = some j → j = i)
    (sync : ∀ j, c.phase = .waiting j ∨ c.phase = .woken j → c.params.async = false) :
    s'.Calls := by
  have self : s'.calls t = c := by
    rw [next, Function.update_self]
  have other (u : Nat) (ne : u ≠ t) : s'.calls u = s.calls u := by
    rw [next, Function.update_of_ne ne]
  rw [← place] at holds
  constructor
  · intro u j h
    by_cases same : u = t
    · subst same
      rw [self] at h
      rw [slot j h]
      exact calls.bound u i holds
    · rw [other u same] at h
      exact calls.bound u j h
  · intro u later
    rw [started] at later
    by_cases same : u = t
    · subst same
      exact absurd ((calls.fresh u later).symm.trans holds).symm (Option.some_ne_none i)
    · rw [other u same]
      exact calls.fresh u later
  · intro u j h
    by_cases same : u = t
    · subst same
      rw [self] at h ⊢
      exact sync j h
    · rw [other u same] at h ⊢
      exact calls.sync u j h

theorem Calls.begin (calls : s.Calls) (next : s'.calls = Function.update s.calls s.started c)
    (started : s'.started = s.started + 1) (slot : ∀ j, c.phase.slot = some j → j < vcXnRingLen)
    (sync : ∀ j, ¬(c.phase = .waiting j ∨ c.phase = .woken j)) : s'.Calls := by
  have self : s'.calls s.started = c := by
    rw [next, Function.update_self]
  have other (u : Nat) (ne : u ≠ s.started) : s'.calls u = s.calls u := by
    rw [next, Function.update_of_ne ne]
  constructor
  · intro u j h
    by_cases same : u = s.started
    · rw [same, self] at h
      exact slot j h
    · rw [other u same] at h
      exact calls.bound u j h
  · intro u later
    rw [started] at later
    rw [other u (Nat.ne_of_gt later)]
    exact calls.fresh u (Nat.le_of_succ_le later)
  · intro u j h
    by_cases same : u = s.started
    · rw [same, self] at h
      exact absurd h (sync j)
    · rw [other u same] at h ⊢
      exact calls.sync u j h

theorem Calls.unmoved (calls : s.Calls) (same : s'.calls = s.calls)
    (started : s'.started = s.started) : s'.Calls := by
  refine ⟨?_, ?_, ?_⟩
  · rw [same]
    exact calls.bound
  · rw [same, started]
    exact calls.fresh
  · rw [same]
    exact calls.sync

theorem Calls.end_pending (calls : s.Calls) (same : s'.calls = (s.endPending i).calls)
    (started : s'.started = s.started) : s'.Calls := by
  constructor
  · intro t j h
    rw [same] at h
    rcases endPending_calls s t i with ⟨kept, _⟩ | ⟨_, gone⟩
    · rw [kept] at h
      exact calls.bound t j h
    · rw [gone] at h
      exact absurd h.symm (Option.some_ne_none j)
  · intro t later
    rw [started] at later
    rw [same]
    rcases endPending_calls s t i with ⟨kept, _⟩ | ⟨_, gone⟩
    · rw [kept]
      exact calls.fresh t later
    · rw [gone]
      rfl
  · intro t j h
    rw [same] at h ⊢
    rcases endPending_calls s t i with ⟨kept, _⟩ | ⟨_, gone⟩
    · rw [kept] at h ⊢
      exact calls.sync t j h
    · rw [gone] at h
      exact (h.elim VcPhase.noConfusion VcPhase.noConfusion)

theorem Calls.step {op : VcOp} (calls : s.Calls) (move : Move s op s') : s'.Calls := by
  cases move with
  | execFull =>
    exact calls.begin (Function.update_idem _ _ _) rfl
      (fun j h => absurd h.symm (Option.some_ne_none j))
      fun _ h => h.elim VcPhase.noConfusion VcPhase.noConfusion
  | exec bound =>
    refine calls.begin rfl rfl (fun j h => ?_)
      fun _ h => h.elim VcPhase.noConfusion VcPhase.noConfusion
    rw [← Option.some.inj h]
    exact bound
  | enterShut place =>
    exact calls.update place rfl rfl rfl (fun j h => absurd h.symm (Option.some_ne_none j))
      fun _ h => h.elim VcPhase.noConfusion VcPhase.noConfusion
  | enter place =>
    exact calls.update place rfl rfl rfl (fun j h => (Option.some.inj h).symm)
      fun _ h => h.elim VcPhase.noConfusion VcPhase.noConfusion
  | armAsync place =>
    exact calls.update place rfl rfl rfl (fun j h => (Option.some.inj h).symm)
      fun _ h => h.elim VcPhase.noConfusion VcPhase.noConfusion
  | arm place =>
    exact calls.update place rfl rfl rfl (fun j h => (Option.some.inj h).symm)
      fun _ h => h.elim VcPhase.noConfusion VcPhase.noConfusion
  | cookie place =>
    exact calls.update place rfl rfl rfl (fun j h => (Option.some.inj h).symm)
      fun _ h => h.elim VcPhase.noConfusion VcPhase.noConfusion
  | sendFailed place =>
    exact calls.update place rfl rfl rfl (fun j h => (Option.some.inj h).symm)
      fun _ h => h.elim VcPhase.noConfusion VcPhase.noConfusion
  | send place done =>
    refine calls.update place rfl rfl rfl (fun j h => ?_) fun j h => ?_
    · rcases done with ⟨_, ⟨_, rfl⟩ | ⟨_, rfl⟩⟩ | ⟨_, rfl⟩
      · exact (Option.some.inj h).symm
      · exact absurd h.symm (Option.some_ne_none j)
      · exact (Option.some.inj h).symm
    · rcases done with ⟨_, ⟨_, rfl⟩ | ⟨_, rfl⟩⟩ | ⟨sync, rfl⟩
      · exact h.elim VcPhase.noConfusion VcPhase.noConfusion
      · exact h.elim VcPhase.noConfusion VcPhase.noConfusion
      · exact sync
  | fail place =>
    exact calls.update place rfl rfl rfl (fun j h => absurd h.symm (Option.some_ne_none j))
      fun _ h => h.elim VcPhase.noConfusion VcPhase.noConfusion
  | wake place =>
    exact calls.update place rfl rfl rfl (fun j h => (Option.some.inj h).symm)
      fun _ _ => calls.sync _ _ (.inl place)
  | elapse place =>
    exact calls.update place rfl rfl rfl (fun j h => (Option.some.inj h).symm)
      fun _ _ => calls.sync _ _ (.inl place)
  | finishShut place =>
    exact calls.update place rfl rfl rfl (fun j h => absurd h.symm (Option.some_ne_none j))
      fun _ h => h.elim VcPhase.noConfusion VcPhase.noConfusion
  | finish place =>
    exact calls.update place rfl rfl rfl (fun j h => absurd h.symm (Option.some_ne_none j))
      fun _ h => h.elim VcPhase.noConfusion VcPhase.noConfusion
  | recvAsync => exact calls.end_pending rfl rfl
  | sweep => exact calls.end_pending rfl rfl
  | _ => exact calls.unmoved rfl rfl

theorem update_shut {ring : Nat → VcXn} (shut : (ring i).state = .shutdown)
    (next : (ring j).state = .shutdown → xn.state = .shutdown) :
    (Function.update ring j xn i).state = .shutdown := by
  by_cases same : i = j
  · subst same
    rw [Function.update_self]
    exact next shut
  · rw [Function.update_of_ne same]
    exact shut

theorem update_all {ring : Nat → VcXn} (all : (ring i).completed = .all)
    (next : (ring j).completed = .all → xn.completed = .all) :
    (Function.update ring j xn i).completed = .all := by
  by_cases same : i = j
  · subst same
    rw [Function.update_self]
    exact next all
  · rw [Function.update_of_ne same]
    exact all

theorem releaseBufs_shutdown {xn : VcXn} (shut : xn.state = .shutdown) :
    xn.releaseBufs.state = .shutdown := by
  simp [VcXn.releaseBufs, shut]

theorem Move.shut {op : VcOp} (move : Move s op s') (shut : (s.mngr.ring i).state = .shutdown)
    (init : op ≠ .initSlot) : (s'.mngr.ring i).state = .shutdown := by
  cases move with
  | exec => exact update_shut shut id
  | enter _ opened => exact update_shut shut fun h => absurd h opened
  | arm => exact update_shut shut id
  | fail => exact update_shut shut releaseBufs_shutdown
  | wake => exact update_shut shut id
  | finish => exact update_shut shut releaseBufs_shutdown
  | recvFailed _ _ _ _ waiting =>
    exact update_shut shut fun h => VcXnState.noConfusion (waiting.symm.trans h)
  | recvSuccess _ _ _ _ waiting =>
    exact update_shut shut fun h => VcXnState.noConfusion (waiting.symm.trans h)
  | recvAsync => exact update_shut (update_shut shut id) releaseBufs_shutdown
  | signal => exact update_shut shut id
  | sweep => exact update_shut shut fun _ => rfl
  | wakeAll => exact update_shut shut id
  | initSlot => exact absurd rfl init
  | _ => exact shut

/-- A slot stays signalled for good unless it is initialised, or armed. -/
theorem Move.all {op : VcOp} (move : Move s op s') (all : (s.mngr.ring i).completed = .all)
    (init : op ≠ .initSlot)
    (unarmed : ∀ t, (s.calls t).phase = .entered i → (s.calls t).params.async = true) :
    (s'.mngr.ring i).completed = .all := by
  cases move with
  | exec => exact update_all all id
  | enter => exact update_all all id
  | @arm t j place sync =>
    have other : i ≠ j := by
      rintro rfl
      exact Bool.noConfusion (sync.symm.trans (unarmed t place))
    exact (congrArg VcXn.completed (Function.update_of_ne other _ _)).trans all
  | fail => exact update_all all id
  | wake => exact update_all all fun h => by rw [h]; rfl
  | finish => exact update_all all id
  | recvFailed => exact update_all all id
  | recvSuccess => exact update_all all id
  | recvAsync => exact update_all (update_all all id) id
  | signal => exact update_all all fun h => by rw [h]; rfl
  | sweep => exact update_all all id
  | wakeAll => exact update_all all fun _ => rfl
  | initSlot => exact absurd rfl init
  | _ => exact all

/-- What a step may do to a call. -/
inductive Goes (s : VcSystem) (t : Nat) (d : VcCall) : Prop
  | kept (same : d = s.calls t)
  | entered (i : Nat) (place : (s.calls t).phase = .popped i)
      (opened : (s.mngr.ring i).state ≠ .shutdown) (phase : d.phase = .entered i)
      (params : d.params = (s.calls t).params)
  | onward (unsent : (s.calls t).phase.unsent = true) (later : ∀ i, d.phase ≠ .entered i)
      (params : d.params = (s.calls t).params)
  | past (sent : d.phase.unsent = false)

theorem Goes.of_update {u : Nat} (calls : s'.calls = Function.update s.calls u c)
    (goes : Goes s u c) (t : Nat) : Goes s t (s'.calls t) := by
  by_cases same : t = u
  · subst same
    rw [calls, Function.update_self]
    exact goes
  · rw [calls, Function.update_of_ne same]
    exact .kept rfl

theorem Goes.of_end (calls : s'.calls = (s.endPending j).calls) (t : Nat) :
    Goes s t (s'.calls t) := by
  rw [calls]
  rcases endPending_calls s t j with ⟨same, _⟩ | ⟨_, gone⟩
  · exact .kept same
  · refine .past ?_
    rw [gone]
    rfl

theorem Move.goes {op : VcOp} (move : Move s op s') (t : Nat) : Goes s t (s'.calls t) := by
  cases move with
  | execFull => exact .of_update (Function.update_idem _ _ _) (.past rfl) t
  | exec => exact .of_update rfl (.past rfl) t
  | enterShut => exact .of_update rfl (.past rfl) t
  | enter place opened =>
    refine .of_update rfl ?_ t
    exact .entered _ place opened rfl rfl
  | armAsync place =>
    refine .of_update rfl ?_ t
    exact .onward (by rw [place]; rfl) (fun _ => VcPhase.noConfusion) rfl
  | arm place =>
    refine .of_update rfl ?_ t
    exact .onward (by rw [place]; rfl) (fun _ => VcPhase.noConfusion) rfl
  | cookie place =>
    refine .of_update rfl ?_ t
    exact .onward (by rw [place]; rfl) (fun _ => VcPhase.noConfusion) rfl
  | sendFailed => exact .of_update rfl (.past rfl) t
  | send place done =>
    refine .of_update rfl (.past ?_) t
    rcases done with ⟨_, ⟨_, rfl⟩ | ⟨_, rfl⟩⟩ | ⟨_, rfl⟩
    · rfl
    · rfl
    · rfl
  | fail => exact .of_update rfl (.past rfl) t
  | wake => exact .of_update rfl (.past rfl) t
  | elapse => exact .of_update rfl (.past rfl) t
  | finishShut => exact .of_update rfl (.past rfl) t
  | finish => exact .of_update rfl (.past rfl) t
  | recvAsync => exact .of_end rfl t
  | sweep => exact .of_end rfl t
  | _ => exact .kept rfl

theorem Dead.step {op : VcOp} (dead : s.Dead i) (move : Move s op s') (init : op ≠ .initSlot) :
    s'.Dead i where
  state := move.shut dead.state init
  signalled := move.all dead.signalled init dead.unarmed
  unarmed t h := by
    cases move.goes t with
    | kept same =>
      rw [same] at h ⊢
      exact dead.unarmed t h
    | entered j _ opened phase =>
      rw [phase] at h
      obtain rfl := VcPhase.entered.inj h
      exact absurd dead.state opened
    | onward _ later => exact absurd h (later i)
    | past sent =>
      rw [h] at sent
      exact Bool.noConfusion sent

/-- A shutdown that has ended stays ended until the next initialisation. -/
structure Down (s : VcSystem) : Prop where
  idle : s.ctl = .idle
  inactive : s.mngr.active = false
  dead : ∀ i, i < vcXnRingLen → s.Dead i
  sent : ∀ t, (s.calls t).params.async = true → (s.calls t).phase.unsent = false

structure Stops (s : VcSystem) : Prop where
  swept : ∀ k, s.ctl = .sweep k ∨ s.ctl = .wakeAll k → ∀ i, i < k → s.Dead i
  shut : ∀ k, s.ctl = .wakeAll k → (s.mngr.ring k).state = .shutdown
  down : s.down = true → s.Down

theorem Down.step {op : VcOp} (down : s.Down) (calls : s.Calls) (move : Move s op s')
    (still : s'.down = true) : s'.Down := by
  have init : op ≠ .initSlot := by
    rintro rfl
    cases move with
    | initSlot place => exact VcCtl.noConfusion (place.symm.trans down.idle)
  have ctl : s'.ctl = .idle ∧ s'.mngr.active = false := by
    cases move with
    | shutdown _ active => exact Bool.noConfusion (active.symm.trans down.inactive)
    | sweep place => exact VcCtl.noConfusion (place.symm.trans down.idle)
    | wakeAll place => exact VcCtl.noConfusion (place.symm.trans down.idle)
    | shutEnd => exact ⟨rfl, rfl⟩
    | init => exact Bool.noConfusion still
    | initSlot => exact absurd rfl init
    | initEnd place => exact VcCtl.noConfusion (place.symm.trans down.idle)
    | _ => exact ⟨down.idle, down.inactive⟩
  refine ⟨ctl.1, ctl.2, fun i bound => (down.dead i bound).step move init, fun t async => ?_⟩
  cases move.goes t with
  | kept same =>
    rw [same] at async ⊢
    exact down.sent t async
  | entered i place opened =>
    exact absurd (down.dead i (calls.bound t i (by rw [place]; rfl))).state opened
  | onward unsent _ params =>
    rw [params] at async
    rw [down.sent t async] at unsent
    exact Bool.noConfusion unsent
  | past sent => exact sent

theorem Stops.step {op : VcOp} (stops : s.Stops) (calls : s.Calls)
    (ok : s.shutdownOk op = true) (move : Move s op s') : s'.Stops := by
  have down (same : s'.down = s.down) (still : s'.down = true) : s'.Down :=
    (stops.down (same.symm.trans still)).step calls move still
  have keep (ctl : s'.ctl = s.ctl) (same : s'.down = s.down) (init : op ≠ .initSlot) : s'.Stops := by
    refine ⟨fun k h i lt => ?_, fun k h => ?_, down same⟩
    · rw [ctl] at h
      exact (stops.swept k h i lt).step move init
    · rw [ctl] at h
      exact move.shut (stops.shut k h) init
  have whole := move
  cases move with
  | shutdown idle active =>
    refine ⟨fun k h i lt => ?_, fun k h => VcCtl.noConfusion h, down rfl⟩
    rcases h with h | h
    · obtain rfl := VcCtl.sweep.inj h
      exact absurd lt (Nat.not_lt_zero i)
    · exact VcCtl.noConfusion h
  | @sweep j place bound =>
    refine ⟨fun k h i lt => ?_, fun k h => ?_, down rfl⟩
    · rcases h with h | h
      · exact VcCtl.noConfusion h
      · obtain rfl := VcCtl.wakeAll.inj h
        exact (stops.swept _ (.inl place) i lt).step whole VcOp.noConfusion
    · obtain rfl := VcCtl.wakeAll.inj h
      change (Function.update s.mngr.ring j _ j).state = .shutdown
      rw [Function.update_self]
      rfl
  | @wakeAll j place =>
    refine ⟨fun k h i lt => ?_, fun k h => VcCtl.noConfusion h, down rfl⟩
    rcases h with h | h
    · obtain rfl := VcCtl.sweep.inj h
      rcases Nat.lt_succ_iff_lt_or_eq.mp lt with less | rfl
      · exact (stops.swept _ (.inr place) i less).step whole VcOp.noConfusion
      · refine ⟨whole.shut (stops.shut _ place) VcOp.noConfusion, ?_, fun t entered => ?_⟩
        · change (Function.update s.mngr.ring i _ i).completed = .all
          rw [Function.update_self]
        have started : t < s.started := by
          apply Nat.lt_of_not_le
          intro later
          have slot := calls.fresh t later
          rw [show (s.calls t).phase = .entered i from entered] at slot
          exact absurd slot (Option.some_ne_none i)
        simp only [shutdownOk, place] at ok
        exact of_decide_eq_true (List.all_eq_true.mp ok t (List.mem_range.mpr started)) entered
    · exact VcCtl.noConfusion h
  | shutEnd place =>
    refine ⟨fun k h => ?_, fun k h => VcCtl.noConfusion h, fun _ => ⟨rfl, rfl, fun i lt => ?_, ?_⟩⟩
    · exact h.elim VcCtl.noConfusion VcCtl.noConfusion
    · exact (stops.swept _ (.inl place) i lt).step whole VcOp.noConfusion
    · intro t async
      by_cases started : t < s.started
      · exact of_decide_eq_true (List.all_eq_true.mp ok t (List.mem_range.mpr started)) async
      · have slot := calls.fresh t (Nat.le_of_not_lt started)
        change (s.calls t).phase.unsent = false
        cases phase : (s.calls t).phase <;> rw [phase] at slot <;>
          first | rfl | exact absurd slot (Option.some_ne_none _)
  | init =>
    refine ⟨fun k h => ?_, fun k h => VcCtl.noConfusion h, fun h => Bool.noConfusion h⟩
    exact h.elim VcCtl.noConfusion VcCtl.noConfusion
  | initSlot place =>
    refine ⟨fun k h => ?_, fun k h => VcCtl.noConfusion h, down rfl⟩
    exact h.elim VcCtl.noConfusion VcCtl.noConfusion
  | initEnd =>
    refine ⟨fun k h => ?_, fun k h => VcCtl.noConfusion h, down rfl⟩
    exact h.elim VcCtl.noConfusion VcCtl.noConfusion
  | _ => exact keep rfl rfl VcOp.noConfusion

/-- The call can go on to return an error, without its timeout. -/
def Ends (s : VcSystem) (t : Nat) : Prop :=
  ∃ ops s' r, .elapse t ∉ ops ∧ General.exec step s ops = some s' ∧
    (s'.calls t).phase = .returned r ∧ r.isErr = true

theorem Ends.now {op : VcOp} {r : VcRet} (moved : s.step op = some s') (other : .elapse t ≠ op)
    (phase : (s'.calls t).phase = .returned r) (err : r.isErr = true) : s.Ends t := by
  refine ⟨[op], s', r, fun h => other (List.mem_singleton.mp h), ?_, phase, err⟩
  rw [exec_cons moved]
  rfl

theorem Ends.next {op : VcOp} (moved : s.step op = some s') (other : .elapse t ≠ op)
    (ends : s'.Ends t) : s.Ends t := by
  obtain ⟨ops, last, r, calm, run, phase, err⟩ := ends
  refine ⟨op :: ops, last, r, fun h => ?_, ?_, phase, err⟩
  · rcases List.mem_cons.mp h with same | later
    · exact other same
    · exact calm later
  · rw [exec_cons moved]
    exact run

theorem goTo_phase (s : VcSystem) (t : Nat) (phase : VcPhase) :
    ((s.goTo t phase).calls t).phase = phase := by
  simp only [goTo, setCall, Function.update_self]

theorem goTo_params (s : VcSystem) (t : Nat) (phase : VcPhase) :
    ((s.goTo t phase).calls t).params = (s.calls t).params := by
  simp only [goTo, setCall, Function.update_self]

theorem ends_woken (place : (s.calls t).phase = .woken i)
    (shut : (s.mngr.ring i).state = .shutdown) : s.Ends t := by
  have finish : s.mngr.finish i = (s.mngr, .enxio) := by
    simp only [VcXnManager.finish, shut]
  have moved : s.step (.finish t) = some (s.ret t .enxio) := by
    simp only [VcSystem.step, place, finish]
  exact .now moved VcOp.noConfusion (goTo_phase s t _) rfl

theorem ends_waiting (place : (s.calls t).phase = .waiting i)
    (shut : (s.mngr.ring i).state = .shutdown) (all : (s.mngr.ring i).completed = .all) :
    s.Ends t := by
  have done : (s.mngr.ring i).completed.done = true := by
    rw [all]
    rfl
  have moved : s.step (.wake t) =
      some (({ s with
        mngr := s.mngr.setXn i { s.mngr.ring i with
          completed := (s.mngr.ring i).completed.consume } }.goTo t (.woken i)).note
        (.woken t (s.mngr.ring i).completed.pending)) := by
    simp only [VcSystem.step, place, if_pos done]
  refine .next moved VcOp.noConfusion (ends_woken (i := i) (goTo_phase _ t _) ?_)
  exact update_shut (j := i) shut id

theorem ends_cookied {c : Nat} (place : (s.calls t).phase = .cookied i c)
    (sync : (s.calls t).params.async = false) (shut : (s.mngr.ring i).state = .shutdown)
    (all : (s.mngr.ring i).completed = .all) : s.Ends t := by
  have moved : s.step (.send t .dropped) = some (s.goTo t (.waiting i)) := by
    simp [VcSystem.step, place, send, sync]
  exact .next moved VcOp.noConfusion (ends_waiting (goTo_phase s t _) shut all)

theorem ends_armed (place : (s.calls t).phase = .armed i)
    (sync : (s.calls t).params.async = false) (shut : (s.mngr.ring i).state = .shutdown)
    (all : (s.mngr.ring i).completed = .all) : s.Ends t := by
  have moved : s.step (.cookie t) =
      some (s.goTo t (.cookied i (vcCookie (s.mngr.ring i).salt i))) := by
    simp only [VcSystem.step, place]
  refine .next moved VcOp.noConfusion (ends_cookied (goTo_phase s t _) ?_ shut all)
  exact (congrArg _ (goTo_params s t _)).trans sync

theorem Down.ends (down : s.Down) (calls : s.Calls) (active : (s.calls t).active.isSome = true) :
    s.Ends t := by
  have dead {i : Nat} (slot : (s.calls t).phase.slot = some i) : s.Dead i :=
    down.dead i (calls.bound t i slot)
  have sync (unsent : (s.calls t).phase.unsent = true) : (s.calls t).params.async = false := by
    apply Bool.eq_false_iff.mpr
    intro async
    exact Bool.noConfusion (unsent.symm.trans (down.sent t async))
  cases place : (s.calls t).phase with
  | popped i =>
    have shut := (dead (by rw [place]; rfl)).state
    have moved : s.step (.enter t) = some (s.ret t .enxio) := by
      simp only [VcSystem.step, place, enter, if_pos shut]
    exact .now moved VcOp.noConfusion (goTo_phase s t _) rfl
  | entered i =>
    have async := (dead (by rw [place]; rfl)).unarmed t place
    exact Bool.noConfusion (async.symm.trans (sync (by rw [place]; rfl)))
  | armed i =>
    have dead := dead (by rw [place]; rfl)
    exact ends_armed place (sync (by rw [place]; rfl)) dead.state dead.signalled
  | cookied i c =>
    have dead := dead (by rw [place]; rfl)
    exact ends_cookied place (sync (by rw [place]; rfl)) dead.state dead.signalled
  | waiting i =>
    have dead := dead (by rw [place]; rfl)
    exact ends_waiting place dead.state dead.signalled
  | woken i => exact ends_woken place (dead (by rw [place]; rfl)).state
  | failing i e =>
    have moved : s.step (.fail t) =
        some ({ s with mngr := s.mngr.pushFree i }.ret t (.send e)) := by
      simp only [VcSystem.step, place]
    exact .now moved VcOp.noConfusion (goTo_phase _ t _) rfl
  | pending i =>
    rw [VcCall.active, place] at active
    exact Bool.noConfusion active
  | returned r =>
    rw [VcCall.active, place] at active
    exact Bool.noConfusion active

/-- With the manager shut down: every slot is shut down and signalled for good, no timeout elapses,
a call that returns returns an error, and each one that is under way can. -/
structure Silenced (s : VcSystem) : Prop where
  signalled : ∀ i, i < vcXnRingLen →
    (s.mngr.ring i).state = .shutdown ∧ (s.mngr.ring i).completed = .all
  untimed : ∀ t, s.step (.elapse t) = none
  error : ∀ op s' t r, s.step op = some s' → .returned t r ∈ s'.log →
    .returned t r ∈ s.log ∨ r.isErr = true
  ends : ∀ t, (s.calls t).active.isSome = true → s.Ends t

theorem Move.returned {op : VcOp} {r : VcRet} (move : Move s op s')
    (h : .returned t r ∈ s'.log) : .returned t r ∈ s.log ∨ r.isErr = true ∨
      ((s.calls t).phase.unsent = true ∧ (s.calls t).params.async = true) ∨
      ∃ i, (s.calls t).phase = .woken i ∧ (s.mngr.ring i).state ≠ .shutdown := by
  have last {e : VcEvent} (h : .returned t r ∈ s.log ++ [e]) :
      .returned t r ∈ s.log ∨ .returned t r = e :=
    (List.mem_append.mp h).imp_right List.mem_singleton.mp
  cases move with
  | execFull =>
    refine (last h).imp_right fun same => .inl ?_
    rw [(VcEvent.returned.inj same).2]
    rfl
  | exec => exact (last h).imp_right fun other => VcEvent.noConfusion other
  | enterShut =>
    refine (last h).imp_right fun same => .inl ?_
    rw [(VcEvent.returned.inj same).2]
    rfl
  | @send u i c res phase place done =>
    rw [List.append_assoc] at h
    rcases List.mem_append.mp h with before | now
    · exact .inl before
    · rcases mem_sent now with other | ⟨async, same⟩
      · exact VcEvent.noConfusion other
      · obtain ⟨rfl, _⟩ := VcEvent.returned.inj same
        exact .inr (.inr (.inl ⟨by rw [place]; rfl, async⟩))
  | fail =>
    refine (last h).imp_right fun same => .inl ?_
    rw [(VcEvent.returned.inj same).2]
    rfl
  | wake => exact (last h).imp_right fun other => VcEvent.noConfusion other
  | elapse => exact (last h).imp_right fun other => VcEvent.noConfusion other
  | finishShut =>
    refine (last h).imp_right fun same => .inl ?_
    rw [(VcEvent.returned.inj same).2]
    rfl
  | finish place opened =>
    refine (last h).imp_right fun same => ?_
    obtain ⟨rfl, _⟩ := VcEvent.returned.inj same
    exact .inr (.inr ⟨_, place, opened⟩)
  | recvFailed => exact (last h).imp_right fun other => VcEvent.noConfusion other
  | recvSuccess _ _ _ _ _ _ _ buffer =>
    rcases List.mem_append.mp h with old | new
    · exact .inl old
    · rcases List.mem_cons.mp new with other | written
      · exact VcEvent.noConfusion other
      · obtain ⟨_, _, other⟩ := buffer _ written
        exact VcEvent.noConfusion other
  | _ => exact .inl h

theorem Down.silenced (down : s.Down) (calls : s.Calls) : s.Silenced where
  signalled i bound := ⟨(down.dead i bound).state, (down.dead i bound).signalled⟩
  untimed t := by
    cases place : (s.calls t).phase with
    | waiting i =>
      have all := (down.dead i (calls.bound t i (by rw [place]; rfl))).signalled
      simp [VcSystem.step, place, all, Completion.done]
    | _ => simp only [VcSystem.step, place]
  error op s' t r moved h := by
    rcases (move_of_step moved).returned h with old | err | ⟨unsent, async⟩ | ⟨i, place, opened⟩
    · exact .inl old
    · exact .inr err
    · exact Bool.noConfusion (unsent.symm.trans (down.sent t async))
    · exact absurd (down.dead i (calls.bound t i (by rw [place]; rfl))).state opened
  ends _ := down.ends calls

/-- In a run in which no slot is signalled for good while a call is about to arm it, and no shutdown
ends while an asynchronous call is on its way to send, a shutdown reaches every call. -/
theorem silenced_of_reachable
    (h : Reachable step (fun s op => s.shutdownOk op = true) (fun s => s = vcInit) s) :
    s.down = true → s.Silenced := by
  have both : s.Stops ∧ s.Calls := by
    apply h.invariant (I := fun s => s.Stops ∧ s.Calls)
    · rintro s rfl
      refine ⟨⟨fun k h => ?_, fun k h => VcCtl.noConfusion h, fun h => Bool.noConfusion h⟩,
        ⟨fun t i h => absurd h.symm (Option.some_ne_none i), fun _ _ => rfl, fun t i h => ?_⟩⟩
      · exact h.elim VcCtl.noConfusion VcCtl.noConfusion
      · exact h.elim VcPhase.noConfusion VcPhase.noConfusion
    · rintro s op s' ⟨stops, calls⟩ ok moved
      have move := move_of_step moved
      exact ⟨stops.step calls ok move, calls.step move⟩
  intro down
  exact (both.1.down down).silenced both.2

/-- A shutdown meets two waiters, one of which has not sent its request. -/
theorem silenced_of_reachable_waiters :
    ∃ s, Reachable step (fun s op => s.shutdownOk op = true) (fun s => s = vcInit) s ∧
      s.down = true ∧ (s.calls 0).phase = .waiting 0 ∧ (s.calls 1).phase = .armed 1 ∧
      s.Silenced := by
  have run : (execIf step shutdownOk vcInit (vcXnInit ++ [.exec {}, .exec {}, .enter 0, .arm 0,
      .cookie 0, .send 0 .handed, .enter 1, .arm 1] ++ vcXnShutdown)).map
      (fun s => (s.down, (s.calls 0).phase, (s.calls 1).phase)) =
      some (true, .waiting 0, .armed 1) := by decide +kernel
  obtain ⟨s, steps, eq⟩ := Option.map_eq_some_iff.mp run
  obtain ⟨down, phases⟩ := Prod.mk.inj eq
  obtain ⟨first, second⟩ := Prod.mk.inj phases
  have reached : Reachable step (fun s op => s.shutdownOk op = true) (fun s => s = vcInit) s :=
    Reachable.execIf (.start rfl) steps
  exact ⟨s, reached, down, first, second, silenced_of_reachable reached down⟩

/-- The shutdown runs between the unlock of a slot and its `reinit_completion`. The call then waits
until its timeout elapses. -/
theorem late_arm_waits :
    ¬∀ s, Reachable step anyStep (fun s => s = vcInit) s → s.down = true → s.Silenced := by
  intro claim
  have run : (General.exec step vcInit (vcXnInit ++ [.exec {}, .enter 0] ++ vcXnShutdown ++
      [.arm 0, .cookie 0, .send 0 .handed])).map
      (fun s => (s.down, (s.step (.elapse 0)).isSome)) = some (true, true) := by decide +kernel
  obtain ⟨s, steps, eq⟩ := Option.map_eq_some_iff.mp run
  obtain ⟨down, waits⟩ := Prod.mk.inj eq
  have silenced := claim s (Reachable.exec (.start rfl) steps) down
  rw [silenced.untimed 0] at waits
  exact Bool.noConfusion waits

end VcSystem

end Idpf
