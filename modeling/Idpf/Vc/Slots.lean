import Idpf.Vc.Moves

/-! Each slot of the transaction manager has one call at most: what a slot looks like that a call
holds, and what it looks like with none. -/
namespace Idpf
open General

namespace VcXnState

def quiet : VcXnState → Bool
  | .unset | .idle | .shutdown => true
  | _ => false

/-- The states of a slot whose call has to return a result. -/
def awaited : VcXnState → Bool
  | .waiting | .completedSuccess | .completedFailed | .shutdown => true
  | _ => false

end VcXnState

/-- The states a slot may be in under a call at this point. -/
def VcPhase.fits (async : Bool) (state : VcXnState) : VcPhase → Bool
  | .popped _ => state.quiet
  | .pending _ => async && decide (state = .async)
  | .waiting _ | .woken _ => !async && state.awaited
  | .returned _ => true
  | _ => decide (state = .shutdown) || if async then decide (state = .async) else state.awaited

/-- A slot as the call that holds it has left it. -/
structure VcCall.Fits (c : VcCall) (t i : Nat) (xn : VcXn) : Prop where
  bound : i < vcXnRingLen
  salt : xn.salt = c.salt
  state : c.phase.fits c.params.async xn.state = true
  owner : c.phase.begun = true → xn.holder = t
  reply : c.phase.begun = true → ∀ b, xn.reply = some b → b.call = t

/-- A reply is accepted for the call that waits. -/
theorem VcCall.Fits.replied {c : VcCall} {t i : Nat} {xn next : VcXn} (fits : c.Fits t i xn)
    (waiting : xn.state = .waiting) (awaited : next.state.awaited = true)
    (salt : next.salt = xn.salt) (holder : next.holder = xn.holder)
    (reply : next.reply = xn.reply) : c.Fits t i next := by
  refine ⟨fits.bound, salt.trans fits.salt, ?_, ?_, ?_⟩
  · have state := fits.state
    rw [waiting] at state
    cases phase : c.phase <;> cases async : c.params.async <;>
      simp_all [VcPhase.fits, VcXnState.quiet, VcXnState.awaited]
  · intro begun
    rw [holder]
    exact fits.owner begun
  · intro begun
    rw [reply]
    exact fits.reply begun

namespace VcSystem

def Holds (s : VcSystem) (t i : Nat) : Prop := (s.calls t).phase.slot = some i

/-- One slot: a single call holds it, which it fits, or none does and it is quiet. -/
structure SlotOk (s : VcSystem) (i : Nat) : Prop where
  one : ∀ t u, s.Holds t i → s.Holds u i → t = u
  fits : ∀ t, s.Holds t i → (s.calls t).Fits t i (s.mngr.ring i)
  taken : ∀ t, s.Holds t i → s.mngr.freeXnBm i = false
  quiet : (∀ t, ¬s.Holds t i) → (s.mngr.ring i).state.quiet = true

structure Held (s : VcSystem) : Prop where
  slot : ∀ i, s.SlotOk i
  fresh : ∀ t, s.started ≤ t → (s.calls t).phase.slot = none

variable {s s' : VcSystem} {t i : Nat}

theorem SlotOk.of_holder (holds : s.Holds t i) (alone : ∀ u, u ≠ t → ¬s.Holds u i)
    (fits : (s.calls t).Fits t i (s.mngr.ring i)) (taken : s.mngr.freeXnBm i = false) :
    s.SlotOk i := by
  have only (u : Nat) (h : s.Holds u i) : u = t := by
    by_contra other
    exact alone u other h
  constructor
  · intro u v hu hv
    exact (only u hu).trans (only v hv).symm
  · intro u h
    obtain rfl := only u h
    exact fits
  · intro u _
    exact taken
  · intro none
    exact absurd holds (none t)

theorem SlotOk.of_none (none : ∀ t, ¬s.Holds t i) (quiet : (s.mngr.ring i).state.quiet = true) :
    s.SlotOk i where
  one t _ h := absurd h (none t)
  fits t h := absurd h (none t)
  taken t h := absurd h (none t)
  quiet _ := quiet

theorem SlotOk.frame (ok : s.SlotOk i) (ring : s'.mngr.ring i = s.mngr.ring i)
    (free : s'.mngr.freeXnBm i = s.mngr.freeXnBm i)
    (calls : ∀ t, s'.calls t = s.calls t ∨ ¬s.Holds t i ∧ ¬s'.Holds t i) : s'.SlotOk i := by
  have back (t : Nat) (h : s'.Holds t i) : s.Holds t i ∧ s'.calls t = s.calls t := by
    rcases calls t with same | ⟨_, gone⟩
    · rw [Holds, same] at h
      exact ⟨h, same⟩
    · exact absurd h gone
  have forth (t : Nat) (h : s.Holds t i) : s'.Holds t i := by
    rcases calls t with same | ⟨gone, _⟩
    · rw [Holds, same]
      exact h
    · exact absurd h gone
  constructor
  · intro t u ht hu
    exact ok.one t u (back t ht).1 (back u hu).1
  · intro t h
    rw [(back t h).2, ring]
    exact ok.fits t (back t h).1
  · intro t h
    rw [free]
    exact ok.taken t (back t h).1
  · intro none
    rw [ring]
    apply ok.quiet
    intro t h
    exact none t (forth t h)

/-- A step that touches one slot, and calls that have no other. -/
theorem Held.at (held : s.Held) (i : Nat)
    (ring : ∀ j, j ≠ i → s'.mngr.ring j = s.mngr.ring j)
    (free : ∀ j, j ≠ i → s'.mngr.freeXnBm j = s.mngr.freeXnBm j)
    (calls : ∀ t, s'.calls t = s.calls t ∨
      (∀ j, s.Holds t j → j = i) ∧ ∀ j, s'.Holds t j → j = i)
    (fresh : ∀ t, s'.started ≤ t → (s'.calls t).phase.slot = none) (here : s'.SlotOk i) :
    s'.Held := by
  refine ⟨fun j => ?_, fresh⟩
  by_cases same : j = i
  · subst same
    exact here
  · apply (held.slot j).frame (ring j same) (free j same)
    intro t
    rcases calls t with unchanged | ⟨before, after⟩
    · exact .inl unchanged
    · exact .inr ⟨fun h => same (before j h), fun h => same (after j h)⟩

theorem Held.started (held : s.Held) (holds : s.Holds t i) : t < s.started := by
  apply Nat.lt_of_not_le
  intro later
  rw [Holds, held.fresh t later] at holds
  exact absurd holds.symm (Option.some_ne_none i)

/-- One call moves on with its slot. -/
theorem Held.move (held : s.Held) (holds : s.Holds t i) {c : VcCall} {xn : VcXn}
    (calls : s'.calls = Function.update s.calls t c)
    (ring : s'.mngr.ring = Function.update s.mngr.ring i xn)
    (free : s'.mngr.freeXnBm = s.mngr.freeXnBm) (started : s'.started = s.started)
    (slot : c.phase.slot = some i) (fits : c.Fits t i xn) : s'.Held := by
  have other (u : Nat) (ne : u ≠ t) : s'.calls u = s.calls u := by
    rw [calls, Function.update_of_ne ne]
  have self : s'.calls t = c := by
    rw [calls, Function.update_self]
  apply held.at i
  · intro j ne
    rw [ring, Function.update_of_ne ne]
  · intro j _
    rw [free]
  · intro u
    by_cases same : u = t
    · subst same
      refine .inr ⟨fun j h => Option.some.inj (h.symm.trans holds), fun j h => ?_⟩
      rw [Holds, self, slot] at h
      exact (Option.some.inj h).symm
    · exact .inl (other u same)
  · intro u later
    rw [started] at later
    have ne : u ≠ t := Nat.ne_of_gt (Nat.lt_of_lt_of_le (held.started holds) later)
    rw [other u ne]
    exact held.fresh u later
  · apply SlotOk.of_holder (t := t)
    · rw [Holds, self, slot]
    · intro u ne h
      rw [Holds, other u ne] at h
      exact ne ((held.slot i).one u t h holds)
    · rw [self, ring, Function.update_self]
      exact fits
    · rw [free]
      exact (held.slot i).taken t holds

/-- A call gives its slot up. -/
theorem Held.leave (held : s.Held) (holds : s.Holds t i) {c : VcCall}
    (calls : s'.calls = Function.update s.calls t c)
    (ring : ∀ j, j ≠ i → s'.mngr.ring j = s.mngr.ring j)
    (free : ∀ j, j ≠ i → s'.mngr.freeXnBm j = s.mngr.freeXnBm j)
    (started : s'.started = s.started) (slot : c.phase.slot = none)
    (quiet : (s'.mngr.ring i).state.quiet = true) : s'.Held := by
  have other (u : Nat) (ne : u ≠ t) : s'.calls u = s.calls u := by
    rw [calls, Function.update_of_ne ne]
  have self : (s'.calls t).phase.slot = none := by
    rw [calls, Function.update_self, slot]
  apply held.at i ring free
  · intro u
    by_cases same : u = t
    · subst same
      refine .inr ⟨fun j h => Option.some.inj (h.symm.trans holds), fun j h => ?_⟩
      rw [Holds, self] at h
      exact absurd h.symm (Option.some_ne_none j)
    · exact .inl (other u same)
  · intro u later
    rw [started] at later
    by_cases same : u = t
    · subst same
      exact self
    · rw [other u same]
      exact held.fresh u later
  · apply SlotOk.of_none _ quiet
    intro u h
    by_cases same : u = t
    · subst same
      rw [Holds, self] at h
      exact absurd h.symm (Option.some_ne_none i)
    · rw [Holds, other u same] at h
      exact same ((held.slot i).one u t h holds)

/-- A slot changes in its place, the calls do not. -/
theorem Held.modify (held : s.Held) {xn : VcXn} (calls : s'.calls = s.calls)
    (ring : s'.mngr.ring = Function.update s.mngr.ring i xn)
    (free : s'.mngr.freeXnBm = s.mngr.freeXnBm) (started : s'.started = s.started)
    (fits : ∀ t, s.Holds t i → (s.calls t).Fits t i (s.mngr.ring i) → (s.calls t).Fits t i xn)
    (quiet : (∀ t, ¬s.Holds t i) → (s.mngr.ring i).state.quiet = true → xn.state.quiet = true) :
    s'.Held := by
  apply held.at i
  · intro j ne
    rw [ring, Function.update_of_ne ne]
  · intro j _
    rw [free]
  · intro u
    exact .inl (congrFun calls u)
  · intro u later
    rw [started] at later
    rw [calls]
    exact held.fresh u later
  · have ok := held.slot i
    constructor
    · intro u v hu hv
      rw [Holds, calls] at hu hv
      exact ok.one u v hu hv
    · intro u h
      rw [Holds, calls] at h
      rw [calls, ring, Function.update_self]
      exact fits u h (ok.fits u h)
    · intro u h
      rw [Holds, calls] at h
      rw [free]
      exact ok.taken u h
    · intro none
      rw [ring, Function.update_self]
      have before (u : Nat) : ¬s.Holds u i := by
        intro h
        apply none u
        rw [Holds, calls]
        exact h
      exact quiet before (ok.quiet before)

/-- The calls that await an asynchronous reply in a slot lose it, and the slot changes. -/
theorem Held.end_pending (held : s.Held) (calls : s'.calls = (s.endPending i).calls)
    (ring : ∀ j, j ≠ i → s'.mngr.ring j = s.mngr.ring j)
    (free : ∀ j, j ≠ i → s'.mngr.freeXnBm j = s.mngr.freeXnBm j) (started : s'.started = s.started)
    (fits : ∀ t, s.Holds t i → (s.calls t).phase ≠ .pending i →
      (s.calls t).Fits t i (s'.mngr.ring i) ∧ s'.mngr.freeXnBm i = false)
    (quiet : (s'.mngr.ring i).state.quiet = true) : s'.Held := by
  have back (t j : Nat) (h : s'.Holds t j) :
      s.Holds t j ∧ s'.calls t = s.calls t ∧ (s.calls t).phase ≠ .pending i := by
    rw [Holds, calls] at h
    rcases endPending_calls s t i with ⟨same, live⟩ | ⟨_, gone⟩
    · rw [same] at h
      exact ⟨h, (congrFun calls t).trans same, live⟩
    · rw [gone] at h
      exact absurd h.symm (Option.some_ne_none j)
  apply held.at i ring free
  · intro t
    rcases endPending_calls s t i with ⟨same, _⟩ | ⟨pending, gone⟩
    · exact .inl ((congrFun calls t).trans same)
    · refine .inr ⟨fun j h => ?_, fun j h => ?_⟩
      · rw [Holds, pending] at h
        exact (Option.some.inj h).symm
      · rw [Holds, calls, gone] at h
        exact absurd h.symm (Option.some_ne_none j)
  · intro t later
    rw [started] at later
    cases slot : (s'.calls t).phase.slot with
    | none => rfl
    | some j =>
      have before := (back t j slot).1
      rw [Holds, held.fresh t later] at before
      exact absurd before.symm (Option.some_ne_none j)
  · constructor
    · intro t u ht hu
      exact (held.slot i).one t u (back t i ht).1 (back u i hu).1
    · intro t h
      obtain ⟨holds, same, live⟩ := back t i h
      rw [same]
      exact (fits t holds live).1
    · intro t h
      obtain ⟨holds, _, live⟩ := back t i h
      exact (fits t holds live).2
    · intro _
      exact quiet

def settledAt (s : VcSystem) (i : Nat) : Bool :=
  (List.range s.started).all fun t => decide ((s.calls t).phase.slot ≠ some i)

/-- The reply is one for the asynchronous call that has its slot. -/
def takesAsync (s : VcSystem) (m : VcMsg) : Bool :=
  let xn := s.mngr.ring (vcCookieIdx m.cookie)
  decide (xn.state = .async) && decide (xn.salt = vcCookieSalt m.cookie)

def replyAwaited (s : VcSystem) (m : VcMsg) : Bool :=
  !s.takesAsync m || (List.range s.started).all fun t =>
    decide ((s.calls t).phase.slot = some (vcCookieIdx m.cookie) →
      (s.calls t).phase = .pending (vcCookieIdx m.cookie))

/-- No call is in the way of an initialisation, at the slot about to be initialised or anywhere
when the bitmap is about to be filled, and no reply is early for an asynchronous call. -/
def steady (s : VcSystem) : VcOp → Bool
  | .initSlot =>
    match s.ctl with
    | .init i => s.settledAt i
    | _ => true
  | .initEnd => (List.range s.started).all fun t => (s.calls t).phase.slot.isNone
  | .recv m _ => s.replyAwaited m
  | _ => true

theorem Held.settled (held : s.Held) (h : s.settledAt i = true) (t : Nat) : ¬s.Holds t i := by
  intro holds
  have started := List.mem_range.mpr (held.started holds)
  exact of_decide_eq_true (List.all_eq_true.mp h t started) holds

theorem takesAsync_of {m : VcMsg}
    (async : (s.mngr.ring (vcCookieIdx m.cookie)).state = .async)
    (salt : (s.mngr.ring (vcCookieIdx m.cookie)).salt = vcCookieSalt m.cookie) :
    s.takesAsync m = true :=
  Bool.and_eq_true_iff.mpr ⟨decide_eq_true async, decide_eq_true salt⟩

theorem Held.awaited (held : s.Held) {m : VcMsg} (h : s.replyAwaited m = true)
    (async : s.takesAsync m = true) (holds : s.Holds t (vcCookieIdx m.cookie)) :
    (s.calls t).phase = .pending (vcCookieIdx m.cookie) := by
  have started := List.mem_range.mpr (held.started holds)
  rcases Bool.or_eq_true_iff.mp h with other | all
  · rw [async] at other
    exact Bool.noConfusion other
  · exact of_decide_eq_true (List.all_eq_true.mp all t started) holds

theorem Held.waiter (held : s.Held) (waiting : (s.mngr.ring i).state = .waiting) :
    ∃ t, s.Holds t i ∧ (s.calls t).phase.begun = true ∧ (s.calls t).params.async = false := by
  by_cases none : ∀ t, ¬s.Holds t i
  · have quiet := (held.slot i).quiet none
    rw [waiting] at quiet
    exact Bool.noConfusion quiet
  · obtain ⟨t, holds⟩ := not_forall_not.mp none
    have state := ((held.slot i).fits t holds).state
    have slot : (s.calls t).phase.slot = some i := holds
    refine ⟨t, holds, ?_⟩
    rw [waiting] at state
    cases phase : (s.calls t).phase <;> cases async : (s.calls t).params.async <;>
      rw [phase, async] at state <;> rw [phase] at slot <;>
      simp_all [VcPhase.fits, VcPhase.begun, VcXnState.quiet, VcPhase.slot]

theorem Holds.of_phase {phase : VcPhase} (place : (s.calls t).phase = phase)
    (slot : phase.slot = some i) : s.Holds t i := by
  rw [Holds, place, slot]

/-- Only a synchronous call waits. -/
theorem Held.sync_of_waiting (held : s.Held) (place : (s.calls t).phase = .waiting i) :
    (s.calls t).params.async = false := by
  have state := ((held.slot i).fits t (.of_phase place rfl)).state
  rw [place] at state
  simpa using (Bool.and_eq_true_iff.mp state).1

/-- A call goes on to a phase that its slot fits as it is. -/
theorem Held.goTo (held : s.Held) (holds : s.Holds t i) {phase : VcPhase}
    (calls : s'.calls = Function.update s.calls t { s.calls t with phase })
    (mngr : s'.mngr = s.mngr) (started : s'.started = s.started) (slot : phase.slot = some i)
    (begun : phase.begun = true → (s.calls t).phase.begun = true)
    (fits : (s.calls t).phase.fits (s.calls t).params.async (s.mngr.ring i).state = true →
      phase.fits (s.calls t).params.async (s.mngr.ring i).state = true) : s'.Held := by
  have old := (held.slot i).fits t holds
  have ring : s'.mngr.ring = Function.update s.mngr.ring i (s.mngr.ring i) := by
    rw [mngr, Function.update_eq_self]
  exact held.move holds calls ring (congrArg _ mngr) started slot
    ⟨old.bound, old.salt, fits old.state, fun h => old.owner (begun h),
      fun h => old.reply (begun h)⟩

theorem releaseBufs_quiet (xn : VcXn) : xn.releaseBufs.state.quiet = true := by
  unfold VcXn.releaseBufs
  cases xn.state <;> rfl

theorem pushFree_ring (m : VcXnManager) (i : Nat) :
    (m.pushFree i).ring = Function.update m.ring i (m.ring i).releaseBufs := rfl

theorem Held.push (held : s.Held) (holds : s.Holds t i) {r : VcRet} :
    ({ s with mngr := s.mngr.pushFree i }.ret t r).Held := by
  refine held.leave holds rfl (fun j ne => ?_) (fun j ne => ?_) rfl rfl ?_
  · exact Function.update_of_ne ne _ _
  · exact Function.update_of_ne ne _ _
  · change ((Function.update s.mngr.ring i (s.mngr.ring i).releaseBufs) i).state.quiet = true
    rw [Function.update_self]
    exact releaseBufs_quiet _

theorem Held.abandon (held : s.Held) (holds : s.Holds t i)
    (shut : (s.mngr.ring i).state = .shutdown) {r : VcRet} : (s.ret t r).Held := by
  refine held.leave holds rfl (fun _ _ => rfl) (fun _ _ => rfl) rfl rfl ?_
  change (s.mngr.ring i).state.quiet = true
  rw [shut]
  rfl

theorem Held.refused (held : s.Held) {c : VcCall} (slot : c.phase.slot = none)
    (calls : s'.calls = Function.update s.calls s.started c) (mngr : s'.mngr = s.mngr)
    (started : s'.started = s.started + 1) : s'.Held := by
  have other (u : Nat) (ne : u ≠ s.started) : s'.calls u = s.calls u := by
    rw [calls, Function.update_of_ne ne]
  have self : (s'.calls s.started).phase.slot = none := by
    rw [calls, Function.update_self, slot]
  refine ⟨fun j => (held.slot j).frame (by rw [mngr]) (by rw [mngr]) fun u => ?_, ?_⟩
  · by_cases same : u = s.started
    · subst same
      refine .inr ⟨fun h => Nat.lt_irrefl _ (held.started h), fun h => ?_⟩
      rw [Holds, self] at h
      exact absurd h.symm (Option.some_ne_none j)
    · exact .inl (other u same)
  · intro u later
    rw [started] at later
    rw [other u (Nat.ne_of_gt later)]
    exact held.fresh u (Nat.le_of_succ_le later)

theorem Held.take (held : s.Held) (bound : i < vcXnRingLen) (free : s.mngr.freeXnBm i = true)
    {params : VcXnParams} {salt : Nat}
    (calls : s'.calls = Function.update s.calls s.started { params, phase := .popped i, salt })
    (ring : s'.mngr.ring = Function.update s.mngr.ring i { s.mngr.ring i with salt })
    (taken : s'.mngr.freeXnBm = Function.update s.mngr.freeXnBm i false)
    (started : s'.started = s.started + 1) : s'.Held := by
  have none (u : Nat) : ¬s.Holds u i := by
    intro h
    exact Bool.noConfusion (free.symm.trans ((held.slot i).taken u h))
  have other (u : Nat) (ne : u ≠ s.started) : s'.calls u = s.calls u := by
    rw [calls, Function.update_of_ne ne]
  have self : s'.calls s.started = { params, phase := .popped i, salt } := by
    rw [calls, Function.update_self]
  apply held.at i
  · intro j ne
    rw [ring, Function.update_of_ne ne]
  · intro j ne
    rw [taken, Function.update_of_ne ne]
  · intro u
    by_cases same : u = s.started
    · subst same
      refine .inr ⟨fun j h => absurd (held.started h) (Nat.lt_irrefl _), fun j h => ?_⟩
      rw [Holds, self] at h
      exact (Option.some.inj h).symm
    · exact .inl (other u same)
  · intro u later
    rw [started] at later
    rw [other u (Nat.ne_of_gt later)]
    exact held.fresh u (Nat.le_of_succ_le later)
  · apply SlotOk.of_holder (t := s.started)
    · rw [Holds, self]
      rfl
    · intro u ne h
      rw [Holds, other u ne] at h
      exact none u h
    · rw [self, ring, Function.update_self]
      exact ⟨bound, rfl, (held.slot i).quiet none, fun h => Bool.noConfusion h,
        fun h => Bool.noConfusion h⟩
    · rw [taken, Function.update_self]

/-- A call goes on, and its slot changes in a way that does not matter to the call. -/
theorem Held.pass (held : s.Held) (holds : s.Holds t i) {phase : VcPhase} {completed : Completion}
    (calls : s'.calls = Function.update s.calls t { s.calls t with phase })
    (ring : s'.mngr.ring = Function.update s.mngr.ring i { s.mngr.ring i with completed })
    (free : s'.mngr.freeXnBm = s.mngr.freeXnBm) (started : s'.started = s.started)
    (slot : phase.slot = some i) (begun : (s.calls t).phase.begun = true)
    (fits : (s.calls t).phase.fits (s.calls t).params.async (s.mngr.ring i).state = true →
      phase.fits (s.calls t).params.async (s.mngr.ring i).state = true) : s'.Held := by
  have old := (held.slot i).fits t holds
  exact held.move holds calls ring free started slot
    ⟨old.bound, old.salt, fits old.state, fun _ => old.owner begun, fun _ => old.reply begun⟩

theorem Held.enter (held : s.Held) (holds : s.Holds t i) :
    ({ s with mngr := s.mngr.setXn i ((s.mngr.ring i).setUp t (s.calls t).params) }.goTo t
      (.entered i)).Held := by
  have old := (held.slot i).fits t holds
  refine held.move holds rfl rfl rfl rfl rfl ⟨old.bound, old.salt, ?_, fun _ => rfl, ?_⟩
  · cases async : (s.calls t).params.async <;>
      simp [VcPhase.fits, VcXn.setUp, async, VcXnState.awaited]
  · intro _ b reply
    obtain ⟨len, _, rfl⟩ := Option.map_eq_some_iff.mp reply
    rfl

/-- A request has been sent, or thrown away. -/
theorem Held.sent (held : s.Held) {c : Nat} {phase : VcPhase} {handed : Option Nat}
    (place : (s.calls t).phase = .cookied i c)
    (done : (s.calls t).params.async = true ∧
        (((s.mngr.ring i).state = .async ∧ phase = .pending i) ∨
          ((s.mngr.ring i).state ≠ .async ∧ phase = .returned (.size 0))) ∨
      (s.calls t).params.async = false ∧ phase = .waiting i)
    (calls : s'.calls = Function.update s.calls t { s.calls t with phase, handed })
    (mngr : s'.mngr = s.mngr) (started : s'.started = s.started) : s'.Held := by
  have holds : s.Holds t i := .of_phase place rfl
  have old := (held.slot i).fits t holds
  have state := old.state
  rw [place] at state
  have ring : s'.mngr.ring = Function.update s.mngr.ring i (s.mngr.ring i) := by
    rw [mngr, Function.update_eq_self]
  rcases done with ⟨async, ⟨live, rfl⟩ | ⟨dead, rfl⟩⟩ | ⟨sync, rfl⟩
  · refine held.move holds calls ring (congrArg _ mngr) started rfl
      ⟨old.bound, old.salt, ?_, fun h => Bool.noConfusion h, fun h => Bool.noConfusion h⟩
    simp [VcPhase.fits, async, live]
  · refine held.leave holds calls (fun _ _ => by rw [mngr]) (fun _ _ => by rw [mngr]) started rfl ?_
    simp only [VcPhase.fits, async, if_true, Bool.or_eq_true, decide_eq_true_eq] at state
    rw [mngr, state.resolve_right dead]
    rfl
  · refine held.move holds calls ring (congrArg _ mngr) started rfl
      ⟨old.bound, old.salt, ?_, fun _ => old.owner (by rw [place]; rfl),
        fun _ => old.reply (by rw [place]; rfl)⟩
    simp only [VcPhase.fits, sync, Bool.or_eq_true, decide_eq_true_eq] at state ⊢
    rcases state with shut | waits
    · rw [shut]
      rfl
    · exact waits

/-- A reply is accepted. -/
theorem Held.replied (held : s.Held) {xn : VcXn} (waiting : (s.mngr.ring i).state = .waiting)
    (calls : s'.calls = s.calls) (ring : s'.mngr.ring = Function.update s.mngr.ring i xn)
    (free : s'.mngr.freeXnBm = s.mngr.freeXnBm) (started : s'.started = s.started)
    (awaited : xn.state.awaited = true)
    (salt : xn.salt = (s.mngr.ring i).salt) (holder : xn.holder = (s.mngr.ring i).holder)
    (reply : xn.reply = (s.mngr.ring i).reply) : s'.Held := by
  apply held.modify calls ring free started
  · intro t _ fits
    exact fits.replied waiting awaited salt holder reply
  · intro _ quiet
    rw [waiting] at quiet
    exact Bool.noConfusion quiet

theorem Held.signalled (held : s.Held) {completed : Completion} (calls : s'.calls = s.calls)
    (ring : s'.mngr.ring = Function.update s.mngr.ring i { s.mngr.ring i with completed })
    (free : s'.mngr.freeXnBm = s.mngr.freeXnBm) (started : s'.started = s.started) : s'.Held := by
  apply held.modify calls ring free started
  · intro t _ fits
    exact ⟨fits.bound, fits.salt, fits.state, fits.owner, fits.reply⟩
  · intro _ quiet
    exact quiet

theorem Held.unmoved (held : s.Held) (calls : s'.calls = s.calls)
    (ring : s'.mngr.ring = s.mngr.ring) (free : s'.mngr.freeXnBm = s.mngr.freeXnBm)
    (started : s'.started = s.started) : s'.Held := by
  refine held.modify (i := 0) calls (ring.trans ?_) free started (fun _ _ fits => fits)
    fun _ quiet => quiet
  exact (Function.update_eq_self _ _).symm

theorem Held.swept (held : s.Held) : (s.sweepSlot i).Held := by
  have here : (s.sweepSlot i).mngr.ring i =
      { s.mngr.ring i with state := .shutdown }.releaseBufs := Function.update_self _ _ _
  refine held.end_pending rfl (fun j ne => Function.update_of_ne ne _ _) (fun _ _ => rfl) rfl ?_ ?_
  · intro t holds live
    have old := (held.slot i).fits t holds
    refine ⟨?_, (held.slot i).taken t holds⟩
    rw [here]
    refine ⟨old.bound, old.salt, ?_, old.owner, fun _ b reply => ?_⟩
    · have state := old.state
      have slot : (s.calls t).phase.slot = some i := holds
      change VcPhase.fits _ .shutdown _ = true
      cases phase : (s.calls t).phase <;> rw [phase] at state slot live <;>
        simp_all [VcPhase.fits, VcPhase.slot, VcXnState.quiet, VcXnState.awaited]
    · exact absurd reply.symm (Option.some_ne_none b)
  · rw [here]
    rfl

theorem Held.replied_async (held : s.Held) {m : VcMsg} {len : Nat}
    (awaited : s.replyAwaited m = true) (async : s.takesAsync m = true) :
    ({ s with
      mngr := (s.mngr.setXn (vcCookieIdx m.cookie)
        { s.mngr.ring (vcCookieIdx m.cookie) with replySz := len }).pushFree
        (vcCookieIdx m.cookie) }.endPending (vcCookieIdx m.cookie)).Held := by
  refine held.end_pending rfl (fun j ne => ?_) (fun j ne => Function.update_of_ne ne _ _) rfl ?_ ?_
  · exact (Function.update_of_ne ne _ _).trans (Function.update_of_ne ne _ _)
  · intro t holds live
    exact absurd (held.awaited awaited async holds) live
  · simp only [endPending, pushFree_ring, Function.update_self]
    exact releaseBufs_quiet _

theorem Held.initSlot (held : s.Held) (settled : s.settledAt i = true) (ctl : VcCtl) :
    { s with mngr := s.mngr.initSlot i, ctl }.Held := by
  refine held.modify rfl rfl rfl rfl (fun t holds => ?_) fun _ _ => rfl
  exact absurd holds (held.settled settled t)

theorem Held.step {op : VcOp} (held : s.Held) (steady : s.steady op = true)
    (move : Move s op s') : s'.Held := by
  cases move with
  | execFull => exact held.refused rfl (Function.update_idem _ _ _) rfl rfl
  | exec bound free => exact held.take bound free rfl rfl rfl rfl
  | enterShut place shut => exact held.abandon (.of_phase place rfl) shut
  | enter place opened => exact held.enter (.of_phase place rfl)
  | armAsync place async =>
    exact held.goTo (.of_phase place rfl) rfl rfl rfl rfl (by simp [place, VcPhase.begun])
      (by simp [place, VcPhase.fits])
  | arm place sync =>
    exact held.pass (.of_phase place rfl) rfl rfl rfl rfl rfl (by rw [place]; rfl)
      (by simp [place, VcPhase.fits])
  | cookie place =>
    exact held.goTo (.of_phase place rfl) rfl rfl rfl rfl (by simp [place, VcPhase.begun])
      (by simp [place, VcPhase.fits])
  | sendFailed place =>
    exact held.goTo (.of_phase place rfl) rfl rfl rfl rfl (by simp [place, VcPhase.begun])
      (by simp [place, VcPhase.fits])
  | send place done => exact held.sent place done rfl rfl rfl
  | fail place => exact held.push (.of_phase place rfl)
  | wake place done =>
    exact held.pass (.of_phase place rfl) rfl rfl rfl rfl rfl (by rw [place]; rfl)
      (by simp [place, VcPhase.fits])
  | elapse place =>
    exact held.goTo (.of_phase place rfl) rfl rfl rfl rfl (by simp [place, VcPhase.begun])
      (by simp [place, VcPhase.fits])
  | finishShut place shut => exact held.abandon (.of_phase place rfl) shut
  | finish place => exact held.push (.of_phase place rfl)
  | recvDrop => exact held
  | recvMiss => exact held.unmoved rfl rfl rfl rfl
  | recvFailed _ _ _ _ waiting => exact held.replied waiting rfl rfl rfl rfl rfl rfl rfl rfl
  | recvSuccess _ _ _ _ waiting => exact held.replied waiting rfl rfl rfl rfl rfl rfl rfl rfl
  | recvAsync _ _ _ salt async =>
    exact held.replied_async steady (takesAsync_of async salt)
  | signal => exact held.signalled rfl rfl rfl rfl
  | shutdown =>
    refine ⟨fun j => ?_, held.fresh⟩
    have ok := held.slot j
    exact ⟨ok.one, ok.fits, fun _ _ => rfl, ok.quiet⟩
  | sweep => exact held.swept
  | wakeAll => exact held.signalled rfl rfl rfl rfl
  | shutEnd => exact held.unmoved rfl rfl rfl rfl
  | init => exact held.unmoved rfl rfl rfl rfl
  | initSlot place =>
    simp only [VcSystem.steady, place] at steady
    exact held.initSlot steady _
  | initEnd =>
    have none (t j : Nat) : ¬s.Holds t j := by
      intro holds
      have started := List.mem_range.mpr (held.started holds)
      have returned := Option.isNone_iff_eq_none.mp (List.all_eq_true.mp steady t started)
      rw [Holds, returned] at holds
      exact absurd holds.symm (Option.some_ne_none j)
    refine ⟨fun j => SlotOk.of_none (fun t => none t j) ?_, held.fresh⟩
    exact (held.slot j).quiet fun t => none t j

theorem held_of_reachable
    (h : Reachable step (fun s op => s.steady op = true) (fun s => s = vcInit) s) : s.Held := by
  apply h.invariant
  · rintro s rfl
    refine ⟨fun i => SlotOk.of_none (fun t holds => ?_) rfl, fun _ _ => rfl⟩
    exact absurd holds.symm (Option.some_ne_none i)
  · intro s op s' held steady moved
    exact held.step steady (move_of_step moved)

end VcSystem

end Idpf
