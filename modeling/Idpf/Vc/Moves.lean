import Idpf.Vc.Transaction

/-! What each step of the transaction system does, one rule for each way a function of the source
can go. -/
namespace Idpf
open General

namespace VcSystem

/-- The states a step can lead into. -/
inductive Move (s : VcSystem) : VcOp → VcSystem → Prop
  | execFull {params : VcXnParams} :
      Move s (.exec params)
        ({ s.setCall s.started { params } with started := s.started + 1 }.ret s.started .enospc)
  | exec {params : VcXnParams} {i : Nat} (bound : i < vcXnRingLen)
      (free : s.mngr.freeXnBm i = true) :
      Move s (.exec params)
        ({ s.setCall s.started { params, phase := .popped i, salt := s.mngr.salt } with
          mngr := { (s.mngr.setFree i false).setXn i
              { s.mngr.ring i with salt := s.mngr.salt } with
            salt := (s.mngr.salt + 1) % 256 }
          started := s.started + 1 }.note (.began s.started i s.mngr.salt))
  | enterShut {t i : Nat} (place : (s.calls t).phase = .popped i)
      (shut : (s.mngr.ring i).state = .shutdown) : Move s (.enter t) (s.ret t .enxio)
  | enter {t i : Nat} (place : (s.calls t).phase = .popped i)
      (opened : (s.mngr.ring i).state ≠ .shutdown) :
      Move s (.enter t)
        ({ s with mngr := s.mngr.setXn i ((s.mngr.ring i).setUp t (s.calls t).params) }.goTo t
          (.entered i))
  | armAsync {t i : Nat} (place : (s.calls t).phase = .entered i)
      (async : (s.calls t).params.async = true) : Move s (.arm t) (s.goTo t (.armed i))
  | arm {t i : Nat} (place : (s.calls t).phase = .entered i)
      (sync : (s.calls t).params.async = false) :
      Move s (.arm t)
        ({ s with mngr := s.mngr.setXn i { s.mngr.ring i with completed := .reinit } }.goTo t
          (.armed i))
  | cookie {t i : Nat} (place : (s.calls t).phase = .armed i) :
      Move s (.cookie t) (s.goTo t (.cookied i (vcCookie (s.mngr.ring i).salt i)))
  | sendFailed {t i c e : Nat} (place : (s.calls t).phase = .cookied i c) :
      Move s (.send t (.failed e)) (s.goTo t (.failing i e))
  | send {t i c : Nat} {res : VcSend} {phase : VcPhase}
      (place : (s.calls t).phase = .cookied i c)
      (done : (s.calls t).params.async = true ∧
          (((s.mngr.ring i).state = .async ∧ phase = .pending i) ∨
            ((s.mngr.ring i).state ≠ .async ∧ phase = .returned (.size 0))) ∨
        (s.calls t).params.async = false ∧ phase = .waiting i) :
      Move s (.send t res)
        { s with
          calls := Function.update s.calls t { s.calls t with
            phase
            handed := if res = .handed then some c else (s.calls t).handed }
          log := s.log ++ (if res = .handed then [.handed t c] else []) ++
            if (s.calls t).params.async then [.returned t (.size 0)] else [] }
  | fail {t i e : Nat} (place : (s.calls t).phase = .failing i e) :
      Move s (.fail t) ({ s with mngr := s.mngr.pushFree i }.ret t (.send e))
  | wake {t i : Nat} (place : (s.calls t).phase = .waiting i)
      (done : (s.mngr.ring i).completed.done = true) :
      Move s (.wake t)
        (({ s with
          mngr := s.mngr.setXn i { s.mngr.ring i with
            completed := (s.mngr.ring i).completed.consume } }.goTo t (.woken i)).note
          (.woken t (s.mngr.ring i).completed.pending))
  | elapse {t i : Nat} (place : (s.calls t).phase = .waiting i)
      (undone : (s.mngr.ring i).completed.done = false) :
      Move s (.elapse t) ((s.goTo t (.woken i)).note (.elapsed t))
  | finishShut {t i : Nat} (place : (s.calls t).phase = .woken i)
      (shut : (s.mngr.ring i).state = .shutdown) : Move s (.finish t) (s.ret t .enxio)
  | finish {t i : Nat} {r : VcRet} (place : (s.calls t).phase = .woken i)
      (opened : (s.mngr.ring i).state ≠ .shutdown)
      (time : r = .etime ↔ (s.mngr.ring i).state = .waiting)
      (size : ∀ n, r = .size n →
        (s.mngr.ring i).state = .completedSuccess ∧ n = (s.mngr.ring i).replySz) :
      Move s (.finish t) ({ s with mngr := s.mngr.pushFree i }.ret t r)
  | recvDrop {m : VcMsg} {e : Int} (quiet : s.signalling = none) : Move s (.recv m e) s
  | recvMiss {m : VcMsg} {e : Int} (quiet : s.signalling = none) (genuine : s.genuine m = true)
      (bound : vcCookieIdx m.cookie < vcXnRingLen)
      (salt : (s.mngr.ring (vcCookieIdx m.cookie)).salt = vcCookieSalt m.cookie)
      (not_waiting : (s.mngr.ring (vcCookieIdx m.cookie)).state ≠ .waiting)
      (not_async : (s.mngr.ring (vcCookieIdx m.cookie)).state ≠ .async) :
      Move s (.recv m e) { s with signalling := some (vcCookieIdx m.cookie, m) }
  | recvFailed {m : VcMsg} {e : Int} (quiet : s.signalling = none) (genuine : s.genuine m = true)
      (bound : vcCookieIdx m.cookie < vcXnRingLen)
      (salt : (s.mngr.ring (vcCookieIdx m.cookie)).salt = vcCookieSalt m.cookie)
      (waiting : (s.mngr.ring (vcCookieIdx m.cookie)).state = .waiting) :
      Move s (.recv m e)
        { s with
          mngr := s.mngr.setXn (vcCookieIdx m.cookie)
            { s.mngr.ring (vcCookieIdx m.cookie) with replySz := 0, state := .completedFailed }
          signalling := some (vcCookieIdx m.cookie, m)
          log := s.log ++ [.completed (s.mngr.ring (vcCookieIdx m.cookie)).holder m] }
  | recvSuccess {m : VcMsg} {e : Int} {wrote : List VcEvent} (quiet : s.signalling = none)
      (genuine : s.genuine m = true) (bound : vcCookieIdx m.cookie < vcXnRingLen)
      (salt : (s.mngr.ring (vcCookieIdx m.cookie)).salt = vcCookieSalt m.cookie)
      (waiting : (s.mngr.ring (vcCookieIdx m.cookie)).state = .waiting)
      (opcode : m.chnlOpcode = (s.mngr.ring (vcCookieIdx m.cookie)).vcOp)
      (success : m.chnlRetval = 0)
      (buffer : ∀ e ∈ wrote, ∃ b, (s.mngr.ring (vcCookieIdx m.cookie)).reply = some b ∧
        e = .wrote b.call m (s.calls b.call).active) :
      Move s (.recv m e)
        { s with
          mngr := s.mngr.setXn (vcCookieIdx m.cookie)
            { s.mngr.ring (vcCookieIdx m.cookie) with
              replySz := m.dataLen, state := .completedSuccess }
          signalling := some (vcCookieIdx m.cookie, m)
          log := s.log ++ .completed (s.mngr.ring (vcCookieIdx m.cookie)).holder m :: wrote }
  | recvAsync {m : VcMsg} {e : Int} {len : Nat} (quiet : s.signalling = none)
      (genuine : s.genuine m = true) (bound : vcCookieIdx m.cookie < vcXnRingLen)
      (salt : (s.mngr.ring (vcCookieIdx m.cookie)).salt = vcCookieSalt m.cookie)
      (async : (s.mngr.ring (vcCookieIdx m.cookie)).state = .async) :
      Move s (.recv m e)
        ({ s with
          mngr := (s.mngr.setXn (vcCookieIdx m.cookie)
            { s.mngr.ring (vcCookieIdx m.cookie) with replySz := len }).pushFree
            (vcCookieIdx m.cookie) }.endPending (vcCookieIdx m.cookie))
  | signal {i : Nat} {m : VcMsg} (due : s.signalling = some (i, m)) :
      Move s .signal
        { s with
          mngr := s.mngr.setXn i { s.mngr.ring i with
            completed := (s.mngr.ring i).completed.complete m }
          signalling := none }
  | shutdown (idle : s.ctl = .idle) (active : s.mngr.active = true) :
      Move s .shutdown { s with mngr := s.mngr.zero, ctl := .sweep 0 }
  | sweep {i : Nat} (place : s.ctl = .sweep i) (bound : i < vcXnRingLen) :
      Move s .sweep (s.sweepSlot i)
  | wakeAll {i : Nat} (place : s.ctl = .wakeAll i) :
      Move s .wakeAll
        { s with
          mngr := s.mngr.setXn i { s.mngr.ring i with completed := .all }
          ctl := .sweep (i + 1) }
  | shutEnd (place : s.ctl = .sweep vcXnRingLen) :
      Move s .shutEnd { s with mngr := { s.mngr with active := false }, ctl := .idle, down := true }
  | init (idle : s.ctl = .idle) (inactive : s.mngr.active = false) :
      Move s .init { s with ctl := .init 0, down := false }
  | initSlot {i : Nat} (place : s.ctl = .init i) (bound : i < vcXnRingLen) :
      Move s .initSlot { s with mngr := s.mngr.initSlot i, ctl := .init (i + 1) }
  | initEnd (place : s.ctl = .init vcXnRingLen) :
      Move s .initEnd { s with mngr := s.mngr.fill, ctl := .idle }

variable {s s' : VcSystem}

theorem move_exec (s : VcSystem) (params : VcXnParams) :
    Move s (.exec params) (s.exec params) := by
  unfold exec VcXnManager.popFree
  cases found : (List.range vcXnRingLen).find? s.mngr.freeXnBm with
  | none => exact .execFull
  | some i =>
    have bound := List.mem_range.mp (List.mem_of_find?_eq_some found)
    exact .exec bound (List.find?_some found)

theorem move_enter {t i : Nat} (phase : (s.calls t).phase = .popped i) :
    Move s (.enter t) (s.enter t i) := by
  unfold enter
  split
  case isTrue shut => exact .enterShut phase shut
  case isFalse opened => exact .enter phase opened

theorem move_arm {t i : Nat} (phase : (s.calls t).phase = .entered i) :
    Move s (.arm t) (s.arm t i) := by
  unfold arm
  split
  case isTrue async => exact .armAsync phase async
  case isFalse sync => exact .arm phase (Bool.eq_false_iff.mpr sync)

theorem move_send {t i c : Nat} {res : VcSend} (phase : (s.calls t).phase = .cookied i c) :
    Move s (.send t res) (s.send t i c res) := by
  cases res with
  | failed e => exact .sendFailed phase
  | handed =>
    cases async : (s.calls t).params.async with
    | false => simpa [send, async, goTo, setCall, note] using
        @Move.send s t i c .handed _ phase (.inr ⟨async, rfl⟩)
    | true =>
      by_cases live : (s.mngr.ring i).state = .async
      · simpa [send, async, live, goTo, setCall, note] using
          @Move.send s t i c .handed _ phase (.inl ⟨async, .inl ⟨live, rfl⟩⟩)
      · simpa [send, async, live, goTo, setCall, note] using
          @Move.send s t i c .handed _ phase (.inl ⟨async, .inr ⟨live, rfl⟩⟩)
  | dropped =>
    cases async : (s.calls t).params.async with
    | false => simpa [send, async, goTo, setCall, note] using
        @Move.send s t i c .dropped _ phase (.inr ⟨async, rfl⟩)
    | true =>
      by_cases live : (s.mngr.ring i).state = .async
      · simpa [send, async, live, goTo, setCall, note] using
          @Move.send s t i c .dropped _ phase (.inl ⟨async, .inl ⟨live, rfl⟩⟩)
      · simpa [send, async, live, goTo, setCall, note] using
          @Move.send s t i c .dropped _ phase (.inl ⟨async, .inr ⟨live, rfl⟩⟩)

theorem move_finish {t i : Nat} (phase : (s.calls t).phase = .woken i) :
    Move s (.finish t) ({ s with mngr := (s.mngr.finish i).1 }.ret t (s.mngr.finish i).2) := by
  unfold VcXnManager.finish
  split
  case h_1 shut => exact .finishShut phase shut
  all_goals
    apply Move.finish phase
    all_goals simp_all

/-- A reply that no waiter takes. -/
theorem recv_unheard {m : VcMsg} {e : Int} {mngr : VcXnManager} {err : Int} {signal : Option Nat}
    (reply : s.mngr.forwardReply m e = { mngr, err, signal })
    (not_waiting : signal = none ∨ (s.mngr.ring (vcCookieIdx m.cookie)).state ≠ .waiting)
    (not_async : (s.mngr.ring (vcCookieIdx m.cookie)).state ≠ .async ∨
      (mngr.ring (vcCookieIdx m.cookie)).state ≠ .idle) :
    s.recv m e = { s with mngr, signalling := signal.map fun i => (i, m) } := by
  have unheard : ¬((s.mngr.ring (vcCookieIdx m.cookie)).state = .waiting ∧
      signal.isSome = true) := by
    rintro ⟨waiting, signalled⟩
    rcases not_waiting with rfl | other
    · exact Bool.noConfusion signalled
    · exact other waiting
  have live : ¬((s.mngr.ring (vcCookieIdx m.cookie)).state = .async ∧
      (mngr.ring (vcCookieIdx m.cookie)).state = .idle) := by
    rintro ⟨async, idle⟩
    exact not_async.elim (fun other => other async) fun other => other idle
  simp only [recv, reply, if_neg unheard, if_neg live, List.append_nil]

theorem forwardAsync_eq (mngr : VcXnManager) (i : Nat) (m : VcMsg) (e : Int) :
    ∃ len err, mngr.forwardAsync i m e =
      { mngr := (mngr.setXn i { mngr.ring i with replySz := len }).pushFree i, err } := by
  unfold VcXnManager.forwardAsync
  simp only
  split
  · exact ⟨_, _, rfl⟩
  · split
    · exact ⟨_, _, rfl⟩
    · split
      · exact ⟨_, _, rfl⟩
      · exact ⟨_, _, rfl⟩

theorem pushFree_idle {mngr : VcXnManager} {i : Nat} (opened : (mngr.ring i).state ≠ .shutdown) :
    ((mngr.pushFree i).ring i).state = .idle := by
  simp [VcXnManager.pushFree, VcXnManager.setXn, VcXnManager.setFree, VcXn.releaseBufs, opened]

theorem move_recv {m : VcMsg} {e : Int} (quiet : s.signalling = none)
    (genuine : s.genuine m = true) : Move s (.recv m e) (s.recv m e) := by
  have dropped {err : Int} (reply : s.mngr.forwardReply m e = { mngr := s.mngr, err })
      (live : (s.mngr.ring (vcCookieIdx m.cookie)).state ≠ .async ∨
        (s.mngr.ring (vcCookieIdx m.cookie)).state ≠ .idle) :
      Move s (.recv m e) (s.recv m e) := by
    rw [recv_unheard reply (.inl rfl) live, Option.map_none, ← quiet]
    exact .recvDrop quiet
  have live : (s.mngr.ring (vcCookieIdx m.cookie)).state ≠ .async ∨
      (s.mngr.ring (vcCookieIdx m.cookie)).state ≠ .idle := by
    by_cases async : (s.mngr.ring (vcCookieIdx m.cookie)).state = .async
    · exact .inr (async ▸ VcXnState.noConfusion)
    · exact .inl async
  by_cases bound : vcXnRingLen ≤ vcCookieIdx m.cookie
  · exact dropped (by simp only [VcXnManager.forwardReply, if_pos bound]; rfl) live
  by_cases salt : (s.mngr.ring (vcCookieIdx m.cookie)).salt = vcCookieSalt m.cookie
  case neg =>
    have other : (s.mngr.ring (vcCookieIdx m.cookie)).salt ≠ vcCookieSalt m.cookie := salt
    exact dropped (by simp only [VcXnManager.forwardReply, if_neg bound, if_pos other]; rfl) live
  have bounded := Nat.lt_of_not_le bound
  have matched : ¬(s.mngr.ring (vcCookieIdx m.cookie)).salt ≠ vcCookieSalt m.cookie :=
    fun other => other salt
  have missed {err : Int}
      (reply : s.mngr.forwardReply m e =
        { mngr := s.mngr, err, signal := some (vcCookieIdx m.cookie) })
      (not_waiting : (s.mngr.ring (vcCookieIdx m.cookie)).state ≠ .waiting)
      (not_async : (s.mngr.ring (vcCookieIdx m.cookie)).state ≠ .async) :
      Move s (.recv m e) (s.recv m e) := by
    rw [recv_unheard reply (.inr not_waiting) (.inl not_async)]
    exact .recvMiss quiet genuine bounded salt not_waiting not_async
  cases state : (s.mngr.ring (vcCookieIdx m.cookie)).state with
  | waiting =>
    by_cases bad : m.chnlOpcode ≠ (s.mngr.ring (vcCookieIdx m.cookie)).vcOp ∨ m.chnlRetval ≠ 0
    · have moved := Move.recvFailed (e := e) quiet genuine bounded salt state
      simpa only [recv, VcXnManager.forwardReply, if_neg bound, if_neg matched, state, if_pos bad,
        Option.map_some, Option.isSome_some, and_self, if_true, List.append_nil, reduceCtorEq,
        false_and, if_false] using moved
    · obtain ⟨opcode, success⟩ := not_or.mp bad
      cases filtered : (s.mngr.ring (vcCookieIdx m.cookie)).reply.filter
          fun b => b.len ≠ 0 ∧ m.dataLen ≠ 0 with
      | none =>
        have moved := @Move.recvSuccess s m e [] quiet genuine bounded salt state
          (not_not.mp opcode) (not_not.mp success) fun _ h => absurd h List.not_mem_nil
        simpa only [recv, VcXnManager.forwardReply, if_neg bound, if_neg matched, state,
          if_neg bad, filtered, Option.map_some, Option.isSome_some, and_self, if_true,
          List.append_nil, reduceCtorEq, false_and, if_false] using moved
      | some b =>
        have held := Option.mem_filter_iff.mp filtered
        have moved := @Move.recvSuccess s m e [.wrote b.call m (s.calls b.call).active] quiet
          genuine bounded salt state (not_not.mp opcode) (not_not.mp success)
          fun _ written => ⟨b, held.1, List.mem_singleton.mp written⟩
        simpa only [recv, VcXnManager.forwardReply, if_neg bound, if_neg matched, state,
          if_neg bad, filtered, Option.map_some, Option.isSome_some, and_self, if_true,
          List.append_assoc, List.singleton_append, reduceCtorEq, false_and, if_false] using moved
  | async =>
    obtain ⟨len, err, reply⟩ := forwardAsync_eq s.mngr (vcCookieIdx m.cookie) m e
    have idle : (((s.mngr.setXn (vcCookieIdx m.cookie)
        { s.mngr.ring (vcCookieIdx m.cookie) with replySz := len }).pushFree
          (vcCookieIdx m.cookie)).ring (vcCookieIdx m.cookie)).state = .idle := by
      apply pushFree_idle
      simp [VcXnManager.setXn, state]
    have forwarded : s.mngr.forwardReply m e =
        { mngr := (s.mngr.setXn (vcCookieIdx m.cookie)
            { s.mngr.ring (vcCookieIdx m.cookie) with replySz := len }).pushFree
            (vcCookieIdx m.cookie), err } := by
      simp only [VcXnManager.forwardReply, if_neg bound, if_neg matched, state, reply]
    have ended := @Move.recvAsync s m e len quiet genuine bounded salt state
    rw [recv, forwarded, if_pos ⟨state, idle⟩]
    simpa only [Option.map_none, Option.isSome_none, Bool.false_eq_true, and_false, if_false,
      List.append_nil, ← quiet] using ended
  | unset =>
    exact missed (by simp only [VcXnManager.forwardReply, if_neg bound, if_neg matched, state]; rfl)
      (state ▸ VcXnState.noConfusion) (state ▸ VcXnState.noConfusion)
  | idle =>
    exact missed (by simp only [VcXnManager.forwardReply, if_neg bound, if_neg matched, state]; rfl)
      (state ▸ VcXnState.noConfusion) (state ▸ VcXnState.noConfusion)
  | completedSuccess =>
    exact missed (by simp only [VcXnManager.forwardReply, if_neg bound, if_neg matched, state]; rfl)
      (state ▸ VcXnState.noConfusion) (state ▸ VcXnState.noConfusion)
  | completedFailed =>
    exact missed (by simp only [VcXnManager.forwardReply, if_neg bound, if_neg matched, state]; rfl)
      (state ▸ VcXnState.noConfusion) (state ▸ VcXnState.noConfusion)
  | shutdown =>
    exact missed (by simp only [VcXnManager.forwardReply, if_neg bound, if_neg matched, state]; rfl)
      (state ▸ VcXnState.noConfusion) (state ▸ VcXnState.noConfusion)

theorem move_of_step {op : VcOp} (h : s.step op = some s') : Move s op s' := by
  cases op with
  | exec params =>
    obtain rfl := Option.some.inj h
    exact move_exec s params
  | enter t =>
    cases phase : (s.calls t).phase <;> simp only [step, phase, reduceCtorEq] at h
    obtain rfl := Option.some.inj h
    exact move_enter phase
  | arm t =>
    cases phase : (s.calls t).phase <;> simp only [step, phase, reduceCtorEq] at h
    obtain rfl := Option.some.inj h
    exact move_arm phase
  | cookie t =>
    cases phase : (s.calls t).phase <;> simp only [step, phase, reduceCtorEq] at h
    obtain rfl := Option.some.inj h
    exact .cookie phase
  | send t res =>
    cases phase : (s.calls t).phase <;> simp only [step, phase, reduceCtorEq] at h
    obtain rfl := Option.some.inj h
    exact move_send phase
  | fail t =>
    cases phase : (s.calls t).phase <;> simp only [step, phase, reduceCtorEq] at h
    obtain rfl := Option.some.inj h
    exact .fail phase
  | wake t =>
    cases phase : (s.calls t).phase <;>
      simp only [step, phase, reduceCtorEq, Option.ite_none_right_eq_some] at h
    obtain rfl := Option.some.inj h.2
    exact .wake phase h.1
  | elapse t =>
    cases phase : (s.calls t).phase <;>
      simp only [step, phase, reduceCtorEq, Option.ite_none_left_eq_some] at h
    obtain rfl := Option.some.inj h.2
    exact .elapse phase (Bool.eq_false_iff.mpr h.1)
  | finish t =>
    cases phase : (s.calls t).phase <;> simp only [step, phase, reduceCtorEq] at h
    obtain rfl := Option.some.inj h
    exact move_finish phase
  | recv m e =>
    simp only [step, Option.ite_none_right_eq_some, Bool.and_eq_true] at h
    obtain ⟨⟨quiet, genuine⟩, same⟩ := h
    obtain rfl := Option.some.inj same
    exact move_recv (Option.isNone_iff_eq_none.mp quiet) genuine
  | signal =>
    cases due : s.signalling with
    | none => simp only [step, due, reduceCtorEq] at h
    | some p =>
      simp only [step, due] at h
      obtain rfl := Option.some.inj h
      exact .signal due
  | shutdown =>
    simp only [step, Option.ite_none_right_eq_some] at h
    obtain rfl := Option.some.inj h.2
    exact .shutdown h.1.1 h.1.2
  | sweep =>
    cases ctl : s.ctl <;>
      simp only [step, ctl, reduceCtorEq, Option.ite_none_right_eq_some] at h
    obtain rfl := Option.some.inj h.2
    exact .sweep ctl h.1
  | wakeAll =>
    cases ctl : s.ctl <;> simp only [step, ctl, reduceCtorEq] at h
    obtain rfl := Option.some.inj h
    exact .wakeAll ctl
  | shutEnd =>
    simp only [step, Option.ite_none_right_eq_some] at h
    obtain rfl := Option.some.inj h.2
    exact .shutEnd h.1
  | init =>
    simp only [step, Option.ite_none_right_eq_some] at h
    obtain rfl := Option.some.inj h.2
    exact .init h.1.1 h.1.2
  | initSlot =>
    cases ctl : s.ctl <;>
      simp only [step, ctl, reduceCtorEq, Option.ite_none_right_eq_some] at h
    obtain rfl := Option.some.inj h.2
    exact .initSlot ctl h.1
  | initEnd =>
    simp only [step, Option.ite_none_right_eq_some] at h
    obtain rfl := Option.some.inj h.2
    exact .initEnd h.1

/-- What a send writes down: the message is handed over, or an asynchronous call returns. -/
theorem mem_sent {t c : Nat} {res : VcSend} {async : Bool} {e : VcEvent}
    (h : e ∈ (if res = .handed then [VcEvent.handed t c] else []) ++
      if async then [VcEvent.returned t (.size 0)] else []) :
    e = .handed t c ∨ async = true ∧ e = .returned t (.size 0) := by
  rcases List.mem_append.mp h with handed | returned
  · split at handed
    · exact .inl (List.mem_singleton.mp handed)
    · exact absurd handed List.not_mem_nil
  · split at returned
    case isTrue async => exact .inr ⟨async, List.mem_singleton.mp returned⟩
    case isFalse => exact absurd returned List.not_mem_nil

theorem endPending_calls (s : VcSystem) (t i : Nat) :
    ((s.endPending i).calls t = s.calls t ∧ (s.calls t).phase ≠ .pending i) ∨
      (s.calls t).phase = .pending i ∧ ((s.endPending i).calls t).phase = .returned (.size 0) := by
  by_cases pending : (s.calls t).phase = .pending i
  · refine .inr ⟨pending, ?_⟩
    simp only [endPending, if_pos pending]
  · refine .inl ⟨?_, pending⟩
    simp only [endPending, if_neg pending]

end VcSystem

end Idpf
