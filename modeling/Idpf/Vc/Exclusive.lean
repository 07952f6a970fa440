import Idpf.Vc.Slots

/-! The transaction slots over whole runs: a slot has one live transaction, a free one is idle, and
a buffer is written by the reply to its own request alone. A slot that goes back to the bitmap while
the manager is shut down breaks this. -/
namespace Idpf
open General

namespace VcSystem

def up (s : VcSystem) : Bool := s.mngr.active && decide (s.ctl = .idle)

/-- A step that gives a slot back to the bitmap finds the manager up. -/
def pushesUp (s : VcSystem) : VcOp → Bool
  | .fail _ => s.up
  | .finish t =>
    match (s.calls t).phase with
    | .woken i => decide ((s.mngr.ring i).state = .shutdown) || s.up
    | _ => true
  | .recv m _ => !s.takesAsync m || s.up
  | _ => true

def exclusiveOk (s : VcSystem) (op : VcOp) : Bool := s.steady op && s.pushesUp op

/-- Free slots, and those initialised so far, are idle. -/
structure Idle (s : VcSystem) : Prop where
  free : ∀ i, s.mngr.freeXnBm i = true → (s.mngr.ring i).state = .idle ∧ s.up = true
  live : s.up = true → ∀ i, i < vcXnRingLen → (s.mngr.ring i).state ≠ .shutdown
  init : ∀ k, s.ctl = .init k → ∀ i, i < k →
    (s.mngr.ring i).state = .idle ∧ ∀ t, ¬s.Holds t i

variable {s s' : VcSystem} {t i : Nat}

theorem up_iff : s.up = true ↔ s.mngr.active = true ∧ s.ctl = .idle := by
  rw [up, Bool.and_eq_true, decide_eq_true_eq]

theorem Idle.none_free (idle : s.Idle) (down : ¬s.up = true) (j : Nat) :
    s.mngr.freeXnBm j = false := by
  apply Bool.eq_false_iff.mpr
  intro free
  exact down (idle.free j free).2

/-- A step that takes no slot out of the bitmap or back to it, and changes a slot under the call
that holds it. -/
theorem Idle.keep (idle : s.Idle) (held : s.Held)
    (ring : ∀ j, (s'.mngr.ring j).state = (s.mngr.ring j).state ∨
      (∃ t, s.Holds t j) ∧ (s'.mngr.ring j).state ≠ .shutdown)
    (free : s'.mngr.freeXnBm = s.mngr.freeXnBm) (active : s'.mngr.active = s.mngr.active)
    (ctl : s'.ctl = s.ctl) (calls : ∀ t j, s'.Holds t j → s.Holds t j) : s'.Idle := by
  have same : s'.up = s.up := by
    rw [up, active, ctl, up]
  constructor
  · intro j h
    rw [free] at h
    rcases ring j with kept | ⟨⟨t, holds⟩, _⟩
    · rw [kept, same]
      exact idle.free j h
    · exact Bool.noConfusion (h.symm.trans ((held.slot j).taken t holds))
  · intro h j bound
    rcases ring j with kept | ⟨_, opened⟩
    · rw [kept]
      exact idle.live (same ▸ h) j bound
    · exact opened
  · intro k h j lt
    rw [ctl] at h
    obtain ⟨state, none⟩ := idle.init k h j lt
    refine ⟨?_, fun t holds => none t (calls t j holds)⟩
    rcases ring j with kept | ⟨⟨t, holds⟩, _⟩
    · exact kept.trans state
    · exact absurd holds (none t)

/-- A step of one call that keeps its slot, or loses it. -/
theorem Idle.call (idle : s.Idle) (held : s.Held) (holds : s.Holds t i) {c : VcCall}
    (calls : s'.calls = Function.update s.calls t c)
    (slot : ∀ j, c.phase.slot = some j → s.Holds t j)
    (ring : ∀ j, j ≠ i → (s'.mngr.ring j).state = (s.mngr.ring j).state)
    (here : (s'.mngr.ring i).state = (s.mngr.ring i).state ∨ (s'.mngr.ring i).state ≠ .shutdown)
    (free : s'.mngr.freeXnBm = s.mngr.freeXnBm) (active : s'.mngr.active = s.mngr.active)
    (ctl : s'.ctl = s.ctl) : s'.Idle := by
  refine idle.keep held (fun j => ?_) free active ctl fun u j h => ?_
  · by_cases same : j = i
    · subst same
      exact here.imp_right fun opened => ⟨⟨t, holds⟩, opened⟩
    · exact .inl (ring j same)
  · by_cases same : u = t
    · subst same
      rw [Holds, calls, Function.update_self] at h
      exact slot j h
    · rw [Holds, calls, Function.update_of_ne same] at h
      exact h

/-- A slot goes back to the bitmap. -/
theorem Idle.push (idle : s.Idle) (up : s.up = true)
    (state : ∀ j, (s'.mngr.ring j).state = (s.mngr.ring j).state ∨
      (s'.mngr.ring j).state = .idle)
    (here : (s'.mngr.ring i).state = .idle)
    (free : ∀ j, j ≠ i → s'.mngr.freeXnBm j = s.mngr.freeXnBm j)
    (active : s'.mngr.active = s.mngr.active) (ctl : s'.ctl = s.ctl) : s'.Idle := by
  have still : s'.up = true := by
    rw [VcSystem.up, active, ctl]
    exact up
  constructor
  · intro j h
    refine ⟨?_, still⟩
    by_cases same : j = i
    · subst same
      exact here
    · rw [free j same] at h
      exact (state j).elim (fun kept => kept.trans (idle.free j h).1) id
  · intro _ j bound
    rcases state j with kept | fresh
    · rw [kept]
      exact idle.live up j bound
    · rw [fresh]
      exact VcXnState.noConfusion
  · intro k h
    rw [ctl, (up_iff.mp up).2] at h
    exact VcCtl.noConfusion h

theorem Idle.pushFree (idle : s.Idle) (held : s.Held) (holds : s.Holds t i) (up : s.up = true)
    {r : VcRet} : ({ s with mngr := s.mngr.pushFree i }.ret t r).Idle := by
  have bound := ((held.slot i).fits t holds).bound
  have here : ((s.mngr.pushFree i).ring i).state = .idle := pushFree_idle (idle.live up i bound)
  refine idle.push up (fun j => ?_) here (fun j ne => Function.update_of_ne ne _ _) rfl rfl
  by_cases same : j = i
  · subst same
    exact .inr here
  · exact .inl (congrArg _ (Function.update_of_ne same _ _))

/-- A reply is accepted by the call that holds the slot. -/
theorem Idle.replied (idle : s.Idle) (held : s.Held) {xn : VcXn}
    (waiting : (s.mngr.ring i).state = .waiting) (calls : s'.calls = s.calls)
    (ring : s'.mngr.ring = Function.update s.mngr.ring i xn) (opened : xn.state ≠ .shutdown)
    (free : s'.mngr.freeXnBm = s.mngr.freeXnBm) (active : s'.mngr.active = s.mngr.active)
    (ctl : s'.ctl = s.ctl) : s'.Idle := by
  refine idle.keep held (fun j => ?_) free active ctl fun u j h => ?_
  · by_cases same : j = i
    · subst same
      rw [ring, Function.update_self]
      refine .inr ⟨?_, opened⟩
      by_contra none
      have quiet := (held.slot j).quiet fun t holds => none ⟨t, holds⟩
      rw [waiting] at quiet
      exact Bool.noConfusion quiet
    · rw [ring, Function.update_of_ne same]
      exact .inl rfl
  · rw [Holds, calls] at h
    exact h

/-- Nothing changes but the completions. -/
theorem Idle.unmoved (idle : s.Idle) (held : s.Held) (calls : s'.calls = s.calls)
    (ring : ∀ j, (s'.mngr.ring j).state = (s.mngr.ring j).state)
    (free : s'.mngr.freeXnBm = s.mngr.freeXnBm) (active : s'.mngr.active = s.mngr.active)
    (ctl : s'.ctl = s.ctl) : s'.Idle := by
  refine idle.keep held (fun j => .inl (ring j)) free active ctl fun u j h => ?_
  rw [Holds, calls] at h
  exact h

/-- While the manager is shut down or initialised no slot is free. -/
theorem Idle.down (idle : s.Idle) (before : ¬s.up = true) (after : ¬s'.up = true)
    (free : ∀ j, s'.mngr.freeXnBm j = true → s.mngr.freeXnBm j = true)
    (init : ∀ k, s'.ctl = .init k → ∀ i, i < k →
      (s'.mngr.ring i).state = .idle ∧ ∀ t, ¬s'.Holds t i) : s'.Idle where
  free j h := absurd ((idle.none_free before j).symm.trans (free j h)) Bool.noConfusion
  live h := absurd h after
  init := init

theorem not_up_of_ctl (busy : s.ctl ≠ .idle) : ¬s.up = true := fun h => busy (up_iff.mp h).2

theorem Holds.same_slot (holds : s.Holds t i) {phase : VcPhase} (slot : phase.slot = some i)
    (j : Nat) (h : phase.slot = some j) : s.Holds t j := by
  obtain rfl := Option.some.inj (slot.symm.trans h)
  exact holds

/-- A call goes on with its slot, or without one. -/
theorem Idle.onward (idle : s.Idle) (held : s.Held) (holds : s.Holds t i) {c : VcCall}
    (calls : s'.calls = Function.update s.calls t c)
    (slot : c.phase.slot = some i ∨ c.phase.slot = none) (mngr : s'.mngr = s.mngr)
    (ctl : s'.ctl = s.ctl) : s'.Idle := by
  refine idle.call held holds calls (fun j h => ?_) (fun j _ => by rw [mngr]) (.inl (by rw [mngr]))
    (congrArg _ mngr) (congrArg _ mngr) ctl
  rcases slot with same | none
  · exact holds.same_slot same j h
  · exact absurd (none.symm.trans h) (Option.some_ne_none j).symm

theorem update_state (ring : Nat → VcXn) {xn : VcXn} (state : xn.state = (ring i).state) (j : Nat) :
    (Function.update ring i xn j).state = (ring j).state := by
  by_cases same : j = i
  · subst same
    rw [Function.update_self, state]
  · rw [Function.update_of_ne same]

/-- A slot is taken out of the bitmap. -/
theorem Idle.take (idle : s.Idle) (free : s.mngr.freeXnBm i = true)
    (state : ∀ j, (s'.mngr.ring j).state = (s.mngr.ring j).state)
    (less : ∀ j, s'.mngr.freeXnBm j = true → s.mngr.freeXnBm j = true)
    (active : s'.mngr.active = s.mngr.active) (ctl : s'.ctl = s.ctl) : s'.Idle := by
  have same : s'.up = s.up := by
    rw [up, active, ctl, up]
  have up := (idle.free i free).2
  constructor
  · intro j h
    rw [state j, same]
    exact idle.free j (less j h)
  · intro _ j bound
    rw [state j]
    exact idle.live up j bound
  · intro k h
    rw [ctl, (up_iff.mp up).2] at h
    exact VcCtl.noConfusion h

/-- A call goes on, and changes its slot but not its state. -/
theorem Idle.changed (idle : s.Idle) (held : s.Held) (holds : s.Holds t i) {c : VcCall} {xn : VcXn}
    (calls : s'.calls = Function.update s.calls t c) (slot : c.phase.slot = some i)
    (ring : s'.mngr.ring = Function.update s.mngr.ring i xn)
    (state : xn.state = (s.mngr.ring i).state) (free : s'.mngr.freeXnBm = s.mngr.freeXnBm)
    (active : s'.mngr.active = s.mngr.active) (ctl : s'.ctl = s.ctl) : s'.Idle := by
  have same (j : Nat) : (s'.mngr.ring j).state = (s.mngr.ring j).state := by
    rw [ring]
    exact update_state _ state j
  exact idle.call held holds calls (holds.same_slot slot) (fun j _ => same j) (.inl (same i)) free
    active ctl

theorem Idle.rejected (idle : s.Idle) (held : s.Held) {params : VcXnParams} :
    ({ s.setCall s.started { params } with started := s.started + 1 }.ret s.started
      .enospc).Idle := by
  refine idle.keep held (fun _ => .inl rfl) rfl rfl rfl fun u j h => ?_
  by_cases same : u = s.started
  · subst same
    simp [Holds, ret, goTo, setCall, note, VcPhase.slot] at h
  · simpa [Holds, ret, goTo, setCall, note, same] using h

theorem Idle.entered (idle : s.Idle) (held : s.Held) (place : (s.calls t).phase = .popped i) :
    ({ s with mngr := s.mngr.setXn i ((s.mngr.ring i).setUp t (s.calls t).params) }.goTo t
      (.entered i)).Idle := by
  have holds : s.Holds t i := .of_phase place rfl
  refine idle.call held holds rfl (holds.same_slot rfl)
    (fun j ne => congrArg _ (Function.update_of_ne ne _ _)) (.inr ?_) rfl rfl rfl
  change (Function.update s.mngr.ring i _ i).state ≠ .shutdown
  rw [Function.update_self]
  cases async : (s.calls t).params.async <;> simp [VcXn.setUp, async]

/-- The reply to a call that does not wait frees its slot. -/
theorem Idle.answered (idle : s.Idle) {m : VcMsg} {len : Nat} (up : s.up = true)
    (bound : vcCookieIdx m.cookie < vcXnRingLen) :
    ({ s with
      mngr := (s.mngr.setXn (vcCookieIdx m.cookie)
        { s.mngr.ring (vcCookieIdx m.cookie) with replySz := len }).pushFree
        (vcCookieIdx m.cookie) }.endPending (vcCookieIdx m.cookie)).Idle := by
  have opened : ((s.mngr.setXn (vcCookieIdx m.cookie)
      { s.mngr.ring (vcCookieIdx m.cookie) with replySz := len }).ring
        (vcCookieIdx m.cookie)).state ≠ .shutdown := by
    simp only [VcXnManager.setXn, Function.update_self]
    exact idle.live up _ bound
  refine idle.push up (fun j => ?_) (pushFree_idle opened)
    (fun j ne => Function.update_of_ne ne _ _) rfl rfl
  by_cases same : j = vcCookieIdx m.cookie
  · subst same
    exact .inr (pushFree_idle opened)
  · refine .inl (congrArg _ ?_)
    exact (Function.update_of_ne same _ _).trans (Function.update_of_ne same _ _)

theorem Idle.below (idle : s.Idle) (before : ¬s.up = true) (after : ¬s'.up = true)
    (free : s'.mngr.freeXnBm = s.mngr.freeXnBm) (ctl : ∀ k, s'.ctl ≠ .init k) : s'.Idle :=
  idle.down before after (fun _ h => (congrFun free _).symm.trans h) fun k h => absurd h (ctl k)

theorem Idle.initSlot (idle : s.Idle) (place : s.ctl = .init i) (settled : ∀ t, ¬s.Holds t i) :
    Idle { s with mngr := s.mngr.initSlot i, ctl := .init (i + 1) } := by
  apply idle.down (not_up_of_ctl (place ▸ VcCtl.noConfusion)) (not_up_of_ctl VcCtl.noConfusion)
  · intro j h
    exact h
  · intro k h j lt
    obtain rfl := VcCtl.init.inj h
    by_cases same : j = i
    · subst same
      refine ⟨?_, settled⟩
      change (Function.update s.mngr.ring j _ j).state = .idle
      rw [Function.update_self]
      rfl
    · obtain ⟨state, none⟩ := idle.init i place j (by omega)
      refine ⟨(congrArg _ ?_).trans state, none⟩
      exact Function.update_of_ne same _ _

theorem Idle.initEnd (idle : s.Idle) (place : s.ctl = .init vcXnRingLen) :
    Idle { s with mngr := s.mngr.fill, ctl := .idle } := by
  have all := idle.init _ place
  refine ⟨fun j free => ?_, fun _ j bound shut => ?_, fun k h => VcCtl.noConfusion h⟩
  · exact ⟨(all j (of_decide_eq_true free)).1, rfl⟩
  · exact VcXnState.noConfusion ((all j bound).1.symm.trans shut)

theorem Idle.step {op : VcOp} (idle : s.Idle) (held : s.Held) (ok : s.exclusiveOk op = true)
    (move : Move s op s') : s'.Idle := by
  obtain ⟨steady, pushes⟩ := Bool.and_eq_true_iff.mp ok
  cases move with
  | execFull => exact idle.rejected held
  | @exec params i bound free =>
    refine idle.take free (update_state _ (by rfl)) (fun j h => ?_) rfl rfl
    by_cases same : j = i
    · exact same ▸ free
    · exact (Function.update_of_ne same _ _).symm.trans h
  | enterShut place => exact idle.onward held (.of_phase place rfl) rfl (.inr rfl) rfl rfl
  | enter place => exact idle.entered held place
  | armAsync place => exact idle.onward held (.of_phase place rfl) rfl (.inl rfl) rfl rfl
  | arm place => exact idle.changed held (.of_phase place rfl) rfl rfl rfl rfl rfl rfl rfl
  | cookie place => exact idle.onward held (.of_phase place rfl) rfl (.inl rfl) rfl rfl
  | sendFailed place => exact idle.onward held (.of_phase place rfl) rfl (.inl rfl) rfl rfl
  | send place done =>
    refine idle.onward held (.of_phase place rfl) rfl ?_ rfl rfl
    rcases done with ⟨_, ⟨_, rfl⟩ | ⟨_, rfl⟩⟩ | ⟨_, rfl⟩
    · exact .inl rfl
    · exact .inr rfl
    · exact .inl rfl
  | fail place => exact idle.pushFree held (.of_phase place rfl) pushes
  | wake place => exact idle.changed held (.of_phase place rfl) rfl rfl rfl rfl rfl rfl rfl
  | elapse place => exact idle.onward held (.of_phase place rfl) rfl (.inl rfl) rfl rfl
  | finishShut place => exact idle.onward held (.of_phase place rfl) rfl (.inr rfl) rfl rfl
  | finish place opened =>
    simp only [pushesUp, place, Bool.or_eq_true, decide_eq_true_eq, opened, false_or] at pushes
    exact idle.pushFree held (.of_phase place rfl) pushes
  | recvDrop => exact idle
  | recvMiss => exact idle.unmoved held rfl (fun _ => rfl) rfl rfl rfl
  | recvFailed _ _ _ _ waiting =>
    exact idle.replied held waiting rfl rfl VcXnState.noConfusion rfl rfl rfl
  | recvSuccess _ _ _ _ waiting =>
    exact idle.replied held waiting rfl rfl VcXnState.noConfusion rfl rfl rfl
  | recvAsync _ _ bound salt async =>
    simp only [pushesUp, takesAsync_of async salt, Bool.not_true, Bool.false_or] at pushes
    exact idle.answered pushes bound
  | signal => exact idle.unmoved held rfl (update_state _ (by rfl)) rfl rfl rfl
  | shutdown =>
    refine ⟨fun j h => Bool.noConfusion h, fun h => ?_, fun k h => VcCtl.noConfusion h⟩
    exact absurd h (not_up_of_ctl VcCtl.noConfusion)
  | sweep place =>
    exact idle.below (not_up_of_ctl (place ▸ VcCtl.noConfusion)) (not_up_of_ctl VcCtl.noConfusion)
      rfl fun _ => VcCtl.noConfusion
  | wakeAll place =>
    exact idle.below (not_up_of_ctl (place ▸ VcCtl.noConfusion)) (not_up_of_ctl VcCtl.noConfusion)
      rfl fun _ => VcCtl.noConfusion
  | shutEnd place =>
    exact idle.below (not_up_of_ctl (place ▸ VcCtl.noConfusion))
      (fun up => Bool.noConfusion (up_iff.mp up).1) rfl fun _ => VcCtl.noConfusion
  | init ctl inactive =>
    apply idle.down (fun up => Bool.noConfusion (inactive.symm.trans (up_iff.mp up).1))
      (not_up_of_ctl VcCtl.noConfusion)
    · intro j h
      exact h
    · intro k h j lt
      obtain rfl := VcCtl.init.inj h
      exact absurd lt (Nat.not_lt_zero j)
  | initSlot place =>
    simp only [VcSystem.steady, place] at steady
    exact idle.initSlot place (held.settled steady)
  | initEnd place => exact idle.initEnd place

/-- A buffer is written for a reply that the waiting call of its slot accepts. -/
theorem Move.wrote {op : VcOp} {u : Nat} {m : VcMsg} {active : Option (Nat × Nat)}
    (move : Move s op s') (h : .wrote u m active ∈ s'.log) :
    .wrote u m active ∈ s.log ∨
      (s.mngr.ring (vcCookieIdx m.cookie)).salt = vcCookieSalt m.cookie ∧
      (s.mngr.ring (vcCookieIdx m.cookie)).state = .waiting ∧
      ∃ b, (s.mngr.ring (vcCookieIdx m.cookie)).reply = some b ∧ u = b.call ∧
        active = (s.calls b.call).active := by
  cases move with
  | @recvSuccess m' e wrote _ _ _ salt waiting _ _ buffer =>
    rcases List.mem_append.mp h with old | new
    · exact .inl old
    · rcases List.mem_cons.mp new with other | written
      · exact VcEvent.noConfusion other
      · obtain ⟨b, reply, eq⟩ := buffer _ written
        obtain ⟨rfl, rfl, rfl⟩ := VcEvent.wrote.inj eq
        exact .inr ⟨salt, waiting, b, reply, rfl, rfl⟩
  | send =>
    refine .inl ?_
    simp only [List.mem_append] at h
    rcases h with (old | new) | new
    · exact old
    · split at new <;> simp at new
    · split at new <;> simp at new
  | _ => exact .inl (by simpa [ret, goTo, setCall, note, sweepSlot, endPending] using h)

theorem Held.writer (held : s.Held) {b : VcReply} (waiting : (s.mngr.ring i).state = .waiting)
    (reply : (s.mngr.ring i).reply = some b) :
    (s.calls b.call).active = some (i, (s.mngr.ring i).salt) := by
  obtain ⟨t, holds, begun, _⟩ := held.waiter waiting
  have fits := (held.slot i).fits t holds
  have slot : (s.calls t).phase.slot = some i := holds
  rw [fits.reply begun b reply, fits.salt]
  cases phase : (s.calls t).phase <;> rw [phase] at begun slot <;>
    simp_all [VcCall.active, VcPhase.begun, VcPhase.slot]

/-- Each slot has one live transaction, a free slot is idle and has none, and a buffer has been
written by replies alone that carry the slot and the salt of its call while the call was under way.
-/
structure Exclusive (s : VcSystem) : Prop where
  one : ∀ t u i, s.Holds t i → s.Holds u i → t = u
  free : ∀ i, s.mngr.freeXnBm i = true → (s.mngr.ring i).state = .idle ∧ ∀ t, ¬s.Holds t i
  wrote : ∀ t m active, .wrote t m active ∈ s.log →
    active = some (vcCookieIdx m.cookie, vcCookieSalt m.cookie)

/-- In a run in which no slot goes back to the bitmap once the manager is being shut down, and the
manager is initialised again when its calls have returned, the slots stay exclusive. -/
theorem exclusive_of_reachable
    (h : Reachable step (fun s op => s.exclusiveOk op = true) (fun s => s = vcInit) s) :
    s.Exclusive := by
  have both : (s.Held ∧ s.Idle) ∧ ∀ t m active, .wrote t m active ∈ s.log →
      active = some (vcCookieIdx m.cookie, vcCookieSalt m.cookie) := by
    apply h.invariant (I := fun s => (s.Held ∧ s.Idle) ∧ ∀ t m active,
      .wrote t m active ∈ s.log → active = some (vcCookieIdx m.cookie, vcCookieSalt m.cookie))
    · rintro s rfl
      refine ⟨⟨held_of_reachable (.start rfl), ?_⟩, fun _ _ _ h => absurd h List.not_mem_nil⟩
      exact ⟨fun _ h => Bool.noConfusion h, fun h => Bool.noConfusion h,
        fun _ h => VcCtl.noConfusion h⟩
    · rintro s op s' ⟨⟨held, idle⟩, wrote⟩ ok moved
      have move := move_of_step moved
      refine ⟨⟨held.step (Bool.and_eq_true_iff.mp ok).1 move, idle.step held ok move⟩, ?_⟩
      intro t m active written
      rcases move.wrote written with old | ⟨salt, waiting, b, reply, rfl, rfl⟩
      · exact wrote t m active old
      · rw [← salt]
        exact held.writer waiting reply
  obtain ⟨⟨held, idle⟩, wrote⟩ := both
  refine ⟨fun t u i => (held.slot i).one t u, fun i free => ⟨(idle.free i free).1, ?_⟩, wrote⟩
  intro t holds
  exact Bool.noConfusion (free.symm.trans ((held.slot i).taken t holds))

/-- A transaction whose reply is copied, followed by one on the same slot. -/
theorem exclusive_of_reachable_reply :
    ∃ s, Reachable step (fun s op => s.exclusiveOk op = true) (fun s => s = vcInit) s ∧
      s.log = [.began 0 0 0, .handed 0 0, .completed 0 ⟨0, 7, 0, 4, some 0⟩,
        .wrote 0 ⟨0, 7, 0, 4, some 0⟩ (some (0, 0)), .woken 0 [⟨0, 7, 0, 4, some 0⟩],
        .returned 0 (.size 4), .began 1 0 1] ∧ s.Exclusive := by
  have run : (execIf step exclusiveOk vcInit (vcXnInit ++ [.exec { recvBuf := some 16, vcOp := 7 },
      .enter 0, .arm 0, .cookie 0, .send 0 .handed, .recv ⟨0, 7, 0, 4, some 0⟩ 0, .signal, .wake 0,
      .finish 0, .exec {}])).map (fun s => s.log) =
      some [.began 0 0 0, .handed 0 0, .completed 0 ⟨0, 7, 0, 4, some 0⟩,
        .wrote 0 ⟨0, 7, 0, 4, some 0⟩ (some (0, 0)), .woken 0 [⟨0, 7, 0, 4, some 0⟩],
        .returned 0 (.size 4), .began 1 0 1] := by decide +kernel
  obtain ⟨s, steps, eq⟩ := Option.map_eq_some_iff.mp run
  have reached : Reachable step (fun s op => s.exclusiveOk op = true) (fun s => s = vcInit) s :=
    Reachable.execIf (.start rfl) steps
  exact ⟨s, reached, eq, exclusive_of_reachable reached⟩

/-- The manager is shut down and initialised again before a waiter that has been woken up runs. A
new call takes the slot, which the waiter then takes for its own and marks free. -/
theorem slot_shared_after_reset :
    ¬∀ s, Reachable step anyStep (fun s => s = vcInit) s → s.Exclusive := by
  intro claim
  have run : (General.exec step vcInit (vcXnInit ++ [.exec {}, .enter 0, .arm 0, .cookie 0,
      .send 0 .handed] ++ vcXnShutdown ++ [.wake 0] ++ vcXnInit ++ [.exec {}, .enter 1,
      .finish 0])).map (fun s => (s.mngr.freeXnBm 0, (s.calls 1).phase.slot)) =
      some (true, some 0) := by decide +kernel
  obtain ⟨s, steps, eq⟩ := Option.map_eq_some_iff.mp run
  obtain ⟨free, holds⟩ := Prod.mk.inj eq
  exact ((claim s (Reachable.exec (.start rfl) steps)).free 0 free).2 1 holds

end VcSystem

end Idpf
