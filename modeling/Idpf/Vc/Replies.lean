import Idpf.Vc.Slots
import Mathlib.Data.List.Basic

/-! What a synchronous transaction's result says about the replies it got, as the history of a run
tells it. The signal of a reply is given after the slot has been unlocked, and may wake a later
transaction. -/
namespace Idpf
open General

def VcEvent.call : VcEvent → Nat
  | .began t _ _ | .handed t _ | .completed t _ | .wrote t _ _ | .woken t _ | .elapsed t
  | .returned t _ => t

namespace VcPhase

def armedFor : VcPhase → Bool
  | .armed _ | .cookied _ _ | .waiting _ => true
  | _ => false

def ended : VcPhase → Bool
  | .pending _ | .returned _ => true
  | _ => false

end VcPhase

namespace VcSystem

/-- The signals a slot has, and the one about to be given. -/
def owed (s : VcSystem) (i : Nat) : List VcMsg :=
  (s.mngr.ring i).completed.pending ++
    match s.signalling with
    | some (j, m) => if j = i then [m] else []
    | none => []

/-- A completion is not armed while a reply's signal to it is on its way, and a reply with the slot
and the salt of a synchronous call answers that call. -/
def repliesOk (s : VcSystem) (op : VcOp) : Bool :=
  s.steady op &&
    match op with
    | .arm t =>
      match (s.calls t).phase, s.signalling with
      | .entered i, some (j, _) => (s.calls t).params.async || decide (j ≠ i)
      | _, _ => true
    | .recv m _ =>
      let i := vcCookieIdx m.cookie
      decide ((s.mngr.ring i).salt ≠ vcCookieSalt m.cookie) ||
        (List.range s.started).all fun t =>
          decide ((s.calls t).phase.slot = some i → (s.calls t).phase.begun = true →
            (s.calls t).params.async = false → m.answers = some t)
    | _ => true

/-- The reply that a call has accepted, and what came before it. -/
structure Answer (log : List VcEvent) (c : VcCall) (t i : Nat) (m : VcMsg) : Prop where
  cookie : m.cookie = vcCookie c.salt i
  opcode : m.chnlOpcode = c.params.vcOp
  success : m.chnlRetval = 0
  order : List.Sublist [.began t i c.salt, .handed t m.cookie, .completed t m] log

/-- What the history tells of a call that holds a slot. -/
structure Story (log : List VcEvent) (owed : List VcMsg) (c : VcCall) (t i : Nat) (xn : VcXn) :
    Prop where
  began : .began t i c.salt ∈ log
  op : c.phase.begun = true → xn.vcOp = c.params.vcOp
  handed : ∀ k, c.handed = some k →
    k = vcCookie c.salt i ∧ List.Sublist [.began t i c.salt, .handed t k] log
  cookie : ∀ k, c.phase = .cookied i k → k = vcCookie c.salt i
  unanswered : c.phase = .popped i ∨ xn.state = .waiting → ∀ m, .completed t m ∉ log
  answered : c.phase.begun = true → xn.state = .completedSuccess →
    ∃ m, Answer log c t i m ∧ m.dataLen = xn.replySz
  elapsed : c.phase = .woken i → xn.state = .waiting → .elapsed t ∈ log
  owed : c.params.async = false → c.phase.armedFor = true →
    (∀ m ∈ owed, m.answers = some t) ∧ (owed ≠ [] → xn.state ≠ .waiting) ∧
      (xn.completed = .all → xn.state = .shutdown)

variable {log new : List VcEvent} {owed less : List VcMsg} {c : VcCall} {t i : Nat} {xn : VcXn}

theorem Answer.append {m : VcMsg} (answer : Answer log c t i m) (new : List VcEvent) :
    Answer (log ++ new) c t i m :=
  ⟨answer.cookie, answer.opcode, answer.success,
    answer.order.trans (List.sublist_append_left log new)⟩

theorem Story.append (story : Story log owed c t i xn) (calm : ∀ m, .completed t m ∉ new)
    (fewer : ∀ m ∈ less, m ∈ owed) : Story (log ++ new) less c t i xn where
  began := List.mem_append_left new story.began
  op := story.op
  handed k h := (story.handed k h).imp_right fun order =>
    order.trans (List.sublist_append_left log new)
  cookie := story.cookie
  unanswered h m member := by
    rcases List.mem_append.mp member with old | fresh
    · exact story.unanswered h m old
    · exact calm m fresh
  answered begun state := by
    obtain ⟨m, answer, len⟩ := story.answered begun state
    exact ⟨m, answer.append new, len⟩
  elapsed phase state := List.mem_append_left new (story.elapsed phase state)
  owed sync armed := by
    obtain ⟨mine, served, all⟩ := story.owed sync armed
    refine ⟨fun m h => mine m (fewer m h), fun some => served fun none => some ?_, all⟩
    apply List.eq_nil_iff_forall_not_mem.mpr
    intro m h
    have member := fewer m h
    rw [none] at member
    exact absurd member List.not_mem_nil

/-- The slot changes in what the story does not speak of, or is shut down. -/
theorem Story.slot (story : Story log owed c t i xn) {next : VcXn} (op : next.vcOp = xn.vcOp)
    (state : next.state = xn.state ∧ next.replySz = xn.replySz ∨ next.state = .shutdown)
    (all : next.completed = .all → xn.completed = .all ∨ next.state = .shutdown) :
    Story log owed c t i next where
  began := story.began
  op begun := op.trans (story.op begun)
  handed := story.handed
  cookie := story.cookie
  unanswered h := by
    rcases state with ⟨same, _⟩ | shut
    · rw [same] at h
      exact story.unanswered h
    · rw [shut] at h
      exact story.unanswered (.inl (h.resolve_right VcXnState.noConfusion))
  answered begun success := by
    rcases state with ⟨same, size⟩ | shut
    · rw [size]
      exact story.answered begun (same.symm.trans success)
    · exact VcXnState.noConfusion (shut.symm.trans success)
  elapsed phase waiting := by
    rcases state with ⟨same, _⟩ | shut
    · exact story.elapsed phase (same.symm.trans waiting)
    · exact VcXnState.noConfusion (shut.symm.trans waiting)
  owed sync armed := by
    obtain ⟨mine, served, shuts⟩ := story.owed sync armed
    refine ⟨mine, fun some waiting => ?_, fun h => ?_⟩
    · rcases state with ⟨same, _⟩ | shut
      · exact served some (same.symm.trans waiting)
      · exact VcXnState.noConfusion (shut.symm.trans waiting)
    · rcases all h with old | shut
      · exact state.elim (fun same => same.1.trans (shuts old)) id
      · exact shut

/-- The call goes on. -/
theorem Story.goTo (story : Story log owed c t i xn) {phase : VcPhase}
    (begun : phase.begun = true → c.phase.begun = true) (later : phase ≠ .popped i)
    (cookie : ∀ k, phase = .cookied i k → k = vcCookie c.salt i)
    (elapsed : phase = .woken i → xn.state = .waiting → .elapsed t ∈ log)
    (armed : c.params.async = false → phase.armedFor = true →
      (∀ m ∈ owed, m.answers = some t) ∧ (owed ≠ [] → xn.state ≠ .waiting) ∧
        (xn.completed = .all → xn.state = .shutdown)) :
    Story log owed { c with phase } t i xn where
  began := story.began
  op h := story.op (begun h)
  handed := story.handed
  cookie := cookie
  unanswered h := story.unanswered (.inr (h.resolve_left later))
  answered h state := by
    obtain ⟨m, answer, len⟩ := story.answered (begun h) state
    exact ⟨m, ⟨answer.cookie, answer.opcode, answer.success, answer.order⟩, len⟩
  elapsed := elapsed
  owed := armed

/-- A reply to the call is accepted. -/
theorem Story.reply (story : Story log owed c t i xn) {m : VcMsg} {next : VcXn}
    {wrote : List VcEvent} (mine : c.params.async = false → m.answers = some t)
    (begun : c.phase.begun = true) (sync : c.params.async = false)
    (handed : c.handed = some m.cookie) (op : next.vcOp = xn.vcOp)
    (completed : next.completed = xn.completed) (replied : next.state ≠ .waiting)
    (waiting : xn.state = .waiting)
    (success : next.state = .completedSuccess →
      m.chnlOpcode = xn.vcOp ∧ m.chnlRetval = 0 ∧ next.replySz = m.dataLen) :
    Story (log ++ .completed t m :: wrote) (owed ++ [m]) c t i next where
  began := List.mem_append_left _ story.began
  op h := op.trans (story.op h)
  handed k h := (story.handed k h).imp_right fun order =>
    order.trans (List.sublist_append_left log _)
  cookie := story.cookie
  unanswered h := by
    rcases h with popped | other
    · rw [popped] at begun
      exact Bool.noConfusion begun
    · exact absurd other replied
  answered _ state := by
    obtain ⟨opcode, retval, size⟩ := success state
    obtain ⟨cookie, order⟩ := story.handed _ handed
    refine ⟨m, ⟨cookie, opcode.trans (story.op begun), retval, ?_⟩, size.symm⟩
    have pair : List.Sublist [.completed t m] (.completed t m :: wrote) :=
      (List.nil_sublist wrote).cons_cons _
    exact order.append pair
  elapsed _ other := absurd other replied
  owed _ armed := by
    obtain ⟨others, _, shuts⟩ := story.owed sync armed
    refine ⟨fun k member => ?_, fun _ => replied, fun all => ?_⟩
    · rcases List.mem_append.mp member with old | fresh
      · exact others k old
      · rw [List.mem_singleton.mp fresh]
        exact mine sync
    · exact VcXnState.noConfusion (waiting.symm.trans (shuts (completed.symm.trans all)))

/-- The stories of the calls that hold slots, and what goes with them. -/
structure Told (s : VcSystem) : Prop where
  story : ∀ t i, s.Holds t i → Story s.log (s.owed i) (s.calls t) t i (s.mngr.ring i)
  known : ∀ e ∈ s.log, e.call < s.started
  swept : ∀ i, s.ctl = .wakeAll i → (s.mngr.ring i).state = .shutdown

variable {s s' : VcSystem}

theorem owed_congr (ring : s'.mngr.ring i = s.mngr.ring i)
    (signalling : s'.signalling = s.signalling) :
    s'.owed i = s.owed i := by
  rw [VcSystem.owed, ring, signalling, VcSystem.owed]

/-- A step that touches one slot, and the calls that have it. -/
theorem Told.at (told : s.Told) (i : Nat)
    (ring : ∀ j, j ≠ i → s'.mngr.ring j = s.mngr.ring j)
    (owed : ∀ j, j ≠ i → ∀ m ∈ s'.owed j, m ∈ s.owed j)
    (calls : ∀ u j, j ≠ i → s'.Holds u j → s.Holds u j ∧ s'.calls u = s.calls u)
    (log : s'.log = s.log ++ new)
    (calm : ∀ u j, j ≠ i → s.Holds u j → ∀ m, .completed u m ∉ new)
    (known : ∀ e ∈ new, e.call < s'.started) (started : s.started ≤ s'.started)
    (swept : ∀ j, s'.ctl = .wakeAll j → (s'.mngr.ring j).state = .shutdown)
    (here : ∀ u, s'.Holds u i →
      Story (s.log ++ new) (s'.owed i) (s'.calls u) u i (s'.mngr.ring i)) : s'.Told := by
  refine ⟨fun u j holds => ?_, fun e member => ?_, swept⟩
  · rw [log]
    by_cases same : j = i
    · subst same
      exact here u holds
    · obtain ⟨before, kept⟩ := calls u j same holds
      rw [kept, ring j same]
      exact (told.story u j before).append (calm u j same before) (owed j same)
  · rw [log] at member
    rcases List.mem_append.mp member with old | fresh
    · exact Nat.lt_of_lt_of_le (told.known e old) started
    · exact known e fresh

/-- A step of one call at its slot. -/
theorem Told.call (told : s.Told) (held : s.Held) (holds : s.Holds t i)
    (calls : s'.calls = Function.update s.calls t c)
    (slot : ∀ j, c.phase.slot = some j → j = i)
    (ring : ∀ j, j ≠ i → s'.mngr.ring j = s.mngr.ring j)
    (signalling : s'.signalling = s.signalling) (log : s'.log = s.log ++ new)
    (mine : ∀ e ∈ new, e.call = t ∧ ∀ m, e ≠ .completed t m)
    (started : s'.started = s.started) (ctl : s'.ctl = s.ctl)
    (shut : (s.mngr.ring i).state = .shutdown → (s'.mngr.ring i).state = .shutdown)
    (here : c.phase.slot = some i → Story (s.log ++ new) (s'.owed i) c t i (s'.mngr.ring i)) :
    s'.Told := by
  have self : s'.calls t = c := by
    rw [calls, Function.update_self]
  have other (u : Nat) (ne : u ≠ t) : s'.calls u = s.calls u := by
    rw [calls, Function.update_of_ne ne]
  refine told.at i ring (fun j ne m h => ?_) (fun u j ne h => ?_) log (fun u j _ _ m h => ?_)
    (fun e h => ?_) (Nat.le_of_eq started.symm) (fun j h => ?_) fun u h => ?_
  · rw [owed_congr (ring j ne) signalling] at h
    exact h
  · by_cases same : u = t
    · subst same
      rw [Holds, self] at h
      exact absurd (slot j h) ne
    · rw [Holds, other u same] at h
      exact ⟨h, other u same⟩
  · obtain ⟨rfl, silent⟩ := mine _ h
    exact silent m rfl
  · rw [(mine e h).1, started]
    exact held.started holds
  · rw [ctl] at h
    by_cases same : j = i
    · subst same
      exact shut (told.swept j h)
    · rw [ring j same]
      exact told.swept j h
  · by_cases same : u = t
    · subst same
      rw [Holds, self] at h
      rw [self]
      exact here h
    · rw [Holds, other u same] at h
      exact absurd ((held.slot i).one u t h holds) same

/-- A call returns. -/
theorem Told.leave (told : s.Told) (held : s.Held) (holds : s.Holds t i)
    (calls : s'.calls = Function.update s.calls t c) (slot : c.phase.slot = none)
    (ring : ∀ j, j ≠ i → s'.mngr.ring j = s.mngr.ring j)
    (signalling : s'.signalling = s.signalling) (log : s'.log = s.log ++ new)
    (mine : ∀ e ∈ new, e.call = t ∧ ∀ m, e ≠ .completed t m)
    (started : s'.started = s.started) (ctl : s'.ctl = s.ctl)
    (shut : (s.mngr.ring i).state = .shutdown → (s'.mngr.ring i).state = .shutdown) : s'.Told := by
  apply told.call held holds calls _ ring signalling log mine started ctl shut
  · intro h
    exact absurd (slot.symm.trans h).symm (Option.some_ne_none i)
  · intro j h
    exact absurd (slot.symm.trans h).symm (Option.some_ne_none j)

/-- No slot changes, and no call that has one. -/
theorem Told.unmoved (told : s.Told) (ring : s'.mngr.ring = s.mngr.ring)
    (calls : ∀ u j, s'.Holds u j → s.Holds u j ∧ s'.calls u = s.calls u)
    (signalling : s'.signalling = s.signalling) (log : s'.log = s.log ++ new)
    (calm : ∀ u m, .completed u m ∉ new) (known : ∀ e ∈ new, e.call < s'.started)
    (started : s.started ≤ s'.started)
    (ctl : ∀ j, s'.ctl = .wakeAll j → s.ctl = .wakeAll j) : s'.Told := by
  have same (j : Nat) : s'.owed j = s.owed j := owed_congr (congrFun ring j) signalling
  refine told.at 0 (fun j _ => congrFun ring j) (fun j _ m h => ?_) (fun u j _ => calls u j) log
    (fun u _ _ _ => calm u) known started (fun j h => ?_) fun u h => ?_
  · rw [same] at h
    exact h
  · rw [ring]
    exact told.swept j (ctl j h)
  · obtain ⟨before, kept⟩ := calls u 0 h
    rw [kept, ring, same]
    exact (told.story u 0 before).append (calm u) fun _ h => h

theorem Told.controlled (told : s.Told) (ring : s'.mngr.ring = s.mngr.ring)
    (calls : s'.calls = s.calls) (signalling : s'.signalling = s.signalling) (log : s'.log = s.log)
    (started : s'.started = s.started) (ctl : ∀ j, s'.ctl ≠ .wakeAll j) : s'.Told := by
  have nothing : s'.log = s.log ++ [] := by
    rw [log, List.append_nil]
  refine told.unmoved ring (fun u j holds => ?_) signalling nothing (fun _ _ => List.not_mem_nil)
    (fun _ h => absurd h List.not_mem_nil) (Nat.le_of_eq started.symm) fun j h => absurd h (ctl j)
  rw [Holds, calls] at holds
  exact ⟨holds, congrFun calls u⟩

/-- A step of the mailbox task or of the thread that shuts down, at one slot. -/
theorem Told.modify (told : s.Told) (ring : ∀ j, j ≠ i → s'.mngr.ring j = s.mngr.ring j)
    (calls : ∀ u j, s'.Holds u j → s.Holds u j ∧ s'.calls u = s.calls u)
    (owed : ∀ j, j ≠ i → ∀ m ∈ s'.owed j, m ∈ s.owed j) (log : s'.log = s.log)
    (started : s'.started = s.started)
    (swept : ∀ j, s'.ctl = .wakeAll j → (s'.mngr.ring j).state = .shutdown)
    (here : ∀ u, s.Holds u i → Story s.log (s.owed i) (s.calls u) u i (s.mngr.ring i) →
      Story s.log (s'.owed i) (s.calls u) u i (s'.mngr.ring i)) : s'.Told := by
  have nothing : s'.log = s.log ++ [] := by
    rw [log, List.append_nil]
  refine told.at i ring owed (fun u j _ => calls u j) nothing (fun _ _ _ _ _ => List.not_mem_nil)
    (fun e h => absurd h List.not_mem_nil) (Nat.le_of_eq started.symm) swept fun u h => ?_
  obtain ⟨before, kept⟩ := calls u i h
  rw [kept, List.append_nil]
  exact here u before (told.story u i before)

theorem Told.take (told : s.Told) (held : s.Held) (free : s.mngr.freeXnBm i = true)
    {params : VcXnParams} {salt : Nat}
    (calls : s'.calls = Function.update s.calls s.started { params, phase := .popped i, salt })
    (ring : ∀ j, j ≠ i → s'.mngr.ring j = s.mngr.ring j)
    (state : (s'.mngr.ring i).state = (s.mngr.ring i).state)
    (signalling : s'.signalling = s.signalling)
    (log : s'.log = s.log ++ [.began s.started i salt]) (started : s'.started = s.started + 1)
    (ctl : s'.ctl = s.ctl) : s'.Told := by
  have self : s'.calls s.started = { params, phase := .popped i, salt } := by
    rw [calls, Function.update_self]
  have other (u : Nat) (ne : u ≠ s.started) : s'.calls u = s.calls u := by
    rw [calls, Function.update_of_ne ne]
  refine told.at i ring (fun j ne m h => ?_) (fun u j ne h => ?_) log (fun u j _ _ m h => ?_)
    (fun e h => ?_) (started ▸ Nat.le_succ _) (fun j h => ?_) fun u h => ?_
  · rw [owed_congr (ring j ne) signalling] at h
    exact h
  · by_cases same : u = s.started
    · subst same
      rw [Holds, self] at h
      exact absurd (Option.some.inj h).symm ne
    · rw [Holds, other u same] at h
      exact ⟨h, other u same⟩
  · exact VcEvent.noConfusion (List.mem_singleton.mp h)
  · rw [List.mem_singleton.mp h, started]
    exact Nat.lt_succ_self _
  · rw [ctl] at h
    by_cases same : j = i
    · subst same
      rw [state]
      exact told.swept j h
    · rw [ring j same]
      exact told.swept j h
  · by_cases same : u = s.started
    · subst same
      rw [self]
      refine ⟨List.mem_append_right _ (List.mem_singleton.mpr rfl), fun h => Bool.noConfusion h,
        fun k h => absurd h.symm (Option.some_ne_none k), fun k h => VcPhase.noConfusion h, ?_,
        fun h => Bool.noConfusion h, fun h => VcPhase.noConfusion h,
        fun _ h => Bool.noConfusion h⟩
      intro _ m member
      rcases List.mem_append.mp member with old | fresh
      · exact Nat.lt_irrefl _ (told.known _ old)
      · exact VcEvent.noConfusion (List.mem_singleton.mp fresh)
    · rw [Holds, other u same] at h
      exact Bool.noConfusion (free.symm.trans ((held.slot i).taken u h))

theorem answers_of_ok {m : VcMsg} {e : Int} (ok : s.repliesOk (.recv m e) = true) (held : s.Held)
    (salt : (s.mngr.ring (vcCookieIdx m.cookie)).salt = vcCookieSalt m.cookie)
    (holds : s.Holds t (vcCookieIdx m.cookie)) (begun : (s.calls t).phase.begun = true)
    (sync : (s.calls t).params.async = false) : m.answers = some t := by
  have member := List.mem_range.mpr (held.started holds)
  simp only [repliesOk, Bool.and_eq_true, Bool.or_eq_true, decide_eq_true_eq, salt, ne_eq,
    not_true_eq_false, false_or] at ok
  exact of_decide_eq_true (List.all_eq_true.mp ok.2 t member) holds begun sync

/-- A genuine reply to a call has the cookie of its request. -/
theorem handed_of_genuine {m : VcMsg} (genuine : s.genuine m = true)
    (answers : m.answers = some t) :
    (s.calls t).handed = some m.cookie := by
  rw [VcSystem.genuine, answers] at genuine
  exact of_decide_eq_true genuine

/-- A reply is accepted for the call that its slot waits for. -/
theorem Told.replied (told : s.Told) (held : s.Held) {m : VcMsg} {e : Int} {next : VcXn}
    {wrote : List VcEvent} (ok : s.repliesOk (.recv m e) = true)
    (quiet : s.signalling = none) (genuine : s.genuine m = true)
    (salt : (s.mngr.ring (vcCookieIdx m.cookie)).salt = vcCookieSalt m.cookie)
    (waiting : (s.mngr.ring (vcCookieIdx m.cookie)).state = .waiting)
    (calls : s'.calls = s.calls)
    (ring : s'.mngr.ring = Function.update s.mngr.ring (vcCookieIdx m.cookie) next)
    (signalling : s'.signalling = some (vcCookieIdx m.cookie, m))
    (log : s'.log =
      s.log ++ .completed (s.mngr.ring (vcCookieIdx m.cookie)).holder m :: wrote)
    (started : s'.started = s.started) (ctl : s'.ctl = s.ctl)
    (op : next.vcOp = (s.mngr.ring (vcCookieIdx m.cookie)).vcOp)
    (completed : next.completed = (s.mngr.ring (vcCookieIdx m.cookie)).completed)
    (replied : next.state ≠ .waiting)
    (success : next.state = .completedSuccess →
      m.chnlOpcode = (s.mngr.ring (vcCookieIdx m.cookie)).vcOp ∧ m.chnlRetval = 0 ∧
        next.replySz = m.dataLen)
    (buffer : ∀ e ∈ wrote, ∃ b, (s.mngr.ring (vcCookieIdx m.cookie)).reply = some b ∧
      e = .wrote b.call m (s.calls b.call).active) : s'.Told := by
  obtain ⟨t, holds, begun, sync⟩ := held.waiter waiting
  have fits := (held.slot _).fits t holds
  have holder := fits.owner begun
  rw [holder] at log
  have answers := answers_of_ok ok held salt holds begun sync
  have unsent {u : Nat} {k : VcMsg} (h : .completed u k ∈ VcEvent.completed t m :: wrote) :
      u = t := by
    rcases List.mem_cons.mp h with same | written
    · exact (VcEvent.completed.inj same).1
    · obtain ⟨b, _, other⟩ := buffer _ written
      exact VcEvent.noConfusion other
  refine told.at (vcCookieIdx m.cookie) (fun j ne => ?_) (fun j ne k h => ?_) (fun u j _ h => ?_) log
    (fun u j ne h k member => ?_) (fun k member => ?_) (Nat.le_of_eq started.symm) (fun j h => ?_)
    fun u h => ?_
  · rw [ring, Function.update_of_ne ne]
  · simp only [VcSystem.owed, signalling, ring, Function.update_of_ne ne, if_neg ne.symm,
      List.append_nil] at h
    exact List.mem_append_left _ h
  · rw [Holds, calls] at h
    exact ⟨h, congrFun calls u⟩
  · obtain rfl := unsent member
    exact ne (Option.some.inj (h.symm.trans holds))
  · rw [started]
    rcases List.mem_cons.mp member with rfl | written
    · exact held.started holds
    · obtain ⟨b, reply, rfl⟩ := buffer _ written
      rw [VcEvent.call, fits.reply begun b reply]
      exact held.started holds
  · rw [ctl] at h
    have shut := told.swept j h
    have other : j ≠ vcCookieIdx m.cookie := by
      rintro rfl
      exact VcXnState.noConfusion (waiting.symm.trans shut)
    rw [ring, Function.update_of_ne other]
    exact shut
  · rw [Holds, calls] at h
    obtain rfl := (held.slot _).one u t h holds
    have owed : s'.owed (vcCookieIdx m.cookie) = s.owed (vcCookieIdx m.cookie) ++ [m] := by
      simp only [VcSystem.owed, signalling, quiet, ring, Function.update_self, completed, if_pos,
        List.append_nil]
    rw [owed, calls, ring, Function.update_self]
    exact (told.story u _ holds).reply (fun _ => answers) begun sync
      (handed_of_genuine genuine answers) op completed replied waiting success

/-- A reply that no call waits for is signalled all the same. -/
theorem Told.missed (told : s.Told) (held : s.Held) {m : VcMsg} {e : Int}
    (ok : s.repliesOk (.recv m e) = true) (quiet : s.signalling = none)
    (salt : (s.mngr.ring (vcCookieIdx m.cookie)).salt = vcCookieSalt m.cookie)
    (not_waiting : (s.mngr.ring (vcCookieIdx m.cookie)).state ≠ .waiting) :
    { s with signalling := some (vcCookieIdx m.cookie, m) }.Told := by
  refine told.modify (i := vcCookieIdx m.cookie) (fun _ _ => rfl) (fun _ _ h => ⟨h, rfl⟩)
    (fun j ne k h => ?_) rfl rfl told.swept fun u holds story => ?_
  · simp only [VcSystem.owed, if_neg ne.symm, List.append_nil] at h
    exact List.mem_append_left _ h
  · refine { story with owed := fun sync armed => ?_ }
    obtain ⟨mine, _, all⟩ := story.owed sync armed
    refine ⟨fun k h => ?_, fun _ => not_waiting, all⟩
    simp only [VcSystem.owed, quiet, List.append_nil, if_pos] at mine h
    rcases List.mem_append.mp h with old | fresh
    · exact mine k old
    · rw [List.mem_singleton.mp fresh]
      apply answers_of_ok ok held salt holds _ sync
      cases phase : (s.calls u).phase <;> rw [phase] at armed <;>
        first | rfl | exact Bool.noConfusion armed

theorem Story.enter (story : Story log owed c t i xn) (popped : c.phase = .popped i) :
    Story log owed { c with phase := .entered i } t i (xn.setUp t c.params) where
  began := story.began
  op _ := rfl
  handed := story.handed
  cookie k h := VcPhase.noConfusion h
  unanswered _ := story.unanswered (.inl popped)
  answered _ state := by
    cases async : c.params.async <;> simp [VcXn.setUp, async] at state
  elapsed h := VcPhase.noConfusion h
  owed _ armed := Bool.noConfusion armed

theorem Story.arm (story : Story log owed c t i xn) (entered : c.phase = .entered i) :
    Story log [] { c with phase := .armed i } t i { xn with completed := .reinit } where
  began := story.began
  op _ := story.op (by rw [entered]; rfl)
  handed := story.handed
  cookie k h := VcPhase.noConfusion h
  unanswered h := story.unanswered (.inr (h.resolve_left VcPhase.noConfusion))
  answered _ state := by
    obtain ⟨m, answer, len⟩ := story.answered (by rw [entered]; rfl) state
    exact ⟨m, ⟨answer.cookie, answer.opcode, answer.success, answer.order⟩, len⟩
  elapsed h := VcPhase.noConfusion h
  owed _ _ := ⟨fun _ h => absurd h List.not_mem_nil, fun h => absurd rfl h,
    fun h => Completion.noConfusion h⟩

/-- The mailbox takes a request, or the request is thrown away. -/
theorem Story.send (story : Story log owed c t i xn) {k : Nat} {res : VcSend} {phase : VcPhase}
    {new : List VcEvent} (place : c.phase = .cookied i k)
    (next : phase = .pending i ∨ phase = .waiting i)
    (calm : ∀ m, .completed t m ∉ new) (first : res = .handed → .handed t k ∈ new) :
    Story (log ++ new) owed
      { c with phase, handed := if res = .handed then some k else c.handed } t i xn where
  began := List.mem_append_left _ story.began
  op _ := story.op (by rw [place]; rfl)
  handed j h := by
    by_cases sent : res = .handed
    · rw [if_pos sent] at h
      obtain rfl := Option.some.inj h
      refine ⟨story.cookie k place, ?_⟩
      exact (List.singleton_sublist.mpr story.began).append
        (List.singleton_sublist.mpr (first sent))
    · rw [if_neg sent] at h
      exact (story.handed j h).imp_right fun order =>
        order.trans (List.sublist_append_left log new)
  cookie j h := by
    rcases next with rfl | rfl
    · exact VcPhase.noConfusion h
    · exact VcPhase.noConfusion h
  unanswered h m member := by
    have waiting : xn.state = .waiting := by
      rcases next with rfl | rfl
      · exact h.resolve_left VcPhase.noConfusion
      · exact h.resolve_left VcPhase.noConfusion
    rcases List.mem_append.mp member with old | fresh
    · exact story.unanswered (.inr waiting) m old
    · exact calm m fresh
  answered _ state := by
    obtain ⟨m, answer, len⟩ := story.answered (by rw [place]; rfl) state
    have later := answer.append new
    exact ⟨m, ⟨later.cookie, later.opcode, later.success, later.order⟩, len⟩
  elapsed h := by
    rcases next with rfl | rfl
    · exact VcPhase.noConfusion h
    · exact VcPhase.noConfusion h
  owed sync _ := story.owed sync (by rw [place]; rfl)

/-- A waiter wakes up: with a signal, the slot no longer waits. -/
theorem Story.wake (story : Story log owed c t i xn) (place : c.phase = .waiting i)
    (sync : c.params.async = false) (done : xn.completed.done = true)
    (signals : ∀ m ∈ xn.completed.pending, m ∈ owed) :
    Story log owed { c with phase := .woken i } t i
      { xn with completed := xn.completed.consume } := by
  have served : xn.state ≠ .waiting := by
    obtain ⟨_, served, all⟩ := story.owed sync (by rw [place]; rfl)
    cases completed : xn.completed with
    | signals l =>
      cases l with
      | nil =>
        rw [completed] at done
        exact Bool.noConfusion done
      | cons m l =>
        apply served
        apply List.ne_nil_of_mem
        apply signals m
        rw [completed]
        exact List.mem_cons_self
    | all => exact fun waiting => VcXnState.noConfusion (waiting.symm.trans (all completed))
  refine ⟨story.began, fun _ => story.op (by rw [place]; rfl), story.handed,
    fun k h => VcPhase.noConfusion h, fun h => ?_, fun _ state => ?_,
    fun _ waiting => absurd waiting served, fun _ armed => Bool.noConfusion armed⟩
  · exact absurd (h.resolve_left VcPhase.noConfusion) served
  · obtain ⟨m, answer, len⟩ := story.answered (by rw [place]; rfl) state
    exact ⟨m, ⟨answer.cookie, answer.opcode, answer.success, answer.order⟩, len⟩

theorem mem_owed_of_pending {m : VcMsg} (h : m ∈ (s.mngr.ring i).completed.pending) :
    m ∈ s.owed i := List.mem_append_left _ h

theorem mem_owed {m : VcMsg} (h : m ∈ s.owed i) :
    m ∈ (s.mngr.ring i).completed.pending ∨ s.signalling = some (i, m) := by
  rcases List.mem_append.mp h with old | due
  · exact .inl old
  · refine .inr ?_
    split at due
    case h_1 j k signalling =>
      split at due
      case isTrue same =>
        subst same
        rw [signalling, List.mem_singleton.mp due]
      case isFalse => exact absurd due List.not_mem_nil
    case h_2 => exact absurd due List.not_mem_nil

theorem mem_owed_of_due {m : VcMsg} (h : s.signalling = some (i, m)) : m ∈ s.owed i := by
  apply List.mem_append_right
  rw [h]
  simp only [if_pos, List.mem_singleton]

theorem owed_of_arm (ok : s.repliesOk (.arm t) = true) (entered : (s.calls t).phase = .entered i)
    (sync : (s.calls t).params.async = false) (m : VcMsg) : s.signalling ≠ some (i, m) := by
  intro due
  simp only [repliesOk, entered, due, sync, Bool.false_or, ne_eq, not_true_eq_false,
    decide_false, Bool.and_false, Bool.false_eq_true] at ok

theorem Told.push (told : s.Told) (held : s.Held) (holds : s.Holds t i) {r : VcRet} :
    ({ s with mngr := s.mngr.pushFree i }.ret t r).Told := by
  refine told.leave held holds rfl rfl (fun j ne => Function.update_of_ne ne _ _) rfl rfl
    (fun e h => ?_) rfl rfl fun shut => ?_
  · rw [List.mem_singleton.mp h]
    exact ⟨rfl, fun _ => VcEvent.noConfusion⟩
  · change (Function.update s.mngr.ring i (s.mngr.ring i).releaseBufs i).state = .shutdown
    rw [Function.update_self]
    simp [VcXn.releaseBufs, shut]

theorem Told.abandon (told : s.Told) (held : s.Held) (holds : s.Holds t i) {r : VcRet} :
    (s.ret t r).Told := by
  refine told.leave held holds rfl rfl (fun _ _ => rfl) rfl rfl (fun e h => ?_) rfl rfl id
  rw [List.mem_singleton.mp h]
  exact ⟨rfl, fun _ => VcEvent.noConfusion⟩

/-- A call goes on at a slot that stays as it is. -/
theorem Told.goTo (told : s.Told) (held : s.Held) (holds : s.Holds t i) {phase : VcPhase}
    (slot : phase.slot = some i)
    (here : Story s.log (s.owed i) (s.calls t) t i (s.mngr.ring i) →
      Story s.log (s.owed i) { s.calls t with phase } t i (s.mngr.ring i)) :
    (s.goTo t phase).Told := by
  refine told.call held holds rfl (fun j h => (Option.some.inj (slot.symm.trans h)).symm)
    (fun _ _ => rfl) rfl (show s.log = s.log ++ [] from (List.append_nil _).symm)
    (fun _ h => absurd h List.not_mem_nil) rfl rfl id fun _ => ?_
  exact (here (told.story t i holds)).append (fun _ => List.not_mem_nil) fun _ h => h

/-- A call goes on, and changes its slot. -/
theorem Told.move (told : s.Told) (held : s.Held) (holds : s.Holds t i)
    (calls : s'.calls = Function.update s.calls t c) (slot : c.phase.slot = some i)
    (ring : s'.mngr.ring = Function.update s.mngr.ring i xn)
    (signalling : s'.signalling = s.signalling) (log : s'.log = s.log ++ new)
    (mine : ∀ e ∈ new, e.call = t ∧ ∀ m, e ≠ .completed t m)
    (started : s'.started = s.started) (ctl : s'.ctl = s.ctl)
    (shut : (s.mngr.ring i).state = .shutdown → xn.state = .shutdown)
    (fewer : ∀ m, m ∈ xn.completed.pending ∨ s.signalling = some (i, m) → m ∈ less)
    (here : Story (s.log ++ new) less c t i xn) : s'.Told := by
  have self : s'.mngr.ring i = xn := by
    rw [ring, Function.update_self]
  refine told.call held holds calls (fun j h => (Option.some.inj (slot.symm.trans h)).symm)
    (fun j ne => ?_) signalling log mine started ctl (fun h => ?_) fun _ => ?_
  · rw [ring, Function.update_of_ne ne]
  · rw [self]
    exact shut h
  · rw [self, ← List.append_nil (s.log ++ new)]
    refine here.append (fun _ => List.not_mem_nil) fun m h => fewer m ?_
    have split := mem_owed h
    rw [self, signalling] at split
    exact split

/-- A slot is signalled. -/
theorem Told.signalled (told : s.Told) (calls : s'.calls = s.calls)
    (ring : s'.mngr.ring = Function.update s.mngr.ring i xn)
    (signalling : ∀ j m, s'.signalling = some (j, m) → s.signalling = some (j, m))
    (log : s'.log = s.log) (started : s'.started = s.started)
    (ctl : ∀ j, s'.ctl = .wakeAll j → s.ctl = .wakeAll j) (op : xn.vcOp = (s.mngr.ring i).vcOp)
    (state : xn.state = (s.mngr.ring i).state ∧ xn.replySz = (s.mngr.ring i).replySz)
    (all : xn.completed = .all → (s.mngr.ring i).completed = .all ∨ xn.state = .shutdown)
    (fewer : ∀ m ∈ xn.completed.pending, m ∈ s.owed i) : s'.Told := by
  have other (j : Nat) (ne : j ≠ i) : s'.mngr.ring j = s.mngr.ring j := by
    rw [ring, Function.update_of_ne ne]
  have self : s'.mngr.ring i = xn := by
    rw [ring, Function.update_self]
  refine told.modify other (fun u j h => ?_) (fun j ne m h => ?_) log started (fun j h => ?_)
    fun u _ story => ?_
  · rw [Holds, calls] at h
    exact ⟨h, congrFun calls u⟩
  · rcases mem_owed h with old | due
    · rw [other j ne] at old
      exact mem_owed_of_pending old
    · exact mem_owed_of_due (signalling j m due)
  · have shut := told.swept j (ctl j h)
    by_cases same : j = i
    · subst same
      rw [self, state.1]
      exact shut
    · rw [other j same]
      exact shut
  · rw [self, ← List.append_nil s.log]
    refine (story.slot op (.inl state) all).append (fun _ => List.not_mem_nil) fun m h => ?_
    rcases mem_owed h with old | due
    · rw [self] at old
      exact fewer m old
    · exact mem_owed_of_due (signalling i m due)

theorem endPending_kept {u j : Nat} (h : (s.endPending i).Holds u j) :
    s.Holds u j ∧ (s.endPending i).calls u = s.calls u := by
  rcases endPending_calls s u i with ⟨same, _⟩ | ⟨_, gone⟩
  · rw [Holds, same] at h
    exact ⟨h, same⟩
  · rw [Holds, gone] at h
    exact absurd h.symm (Option.some_ne_none j)

theorem Told.swept_slot (told : s.Told) : (s.sweepSlot i).Told := by
  have here : ((s.sweepSlot i).mngr.ring i) =
      { s.mngr.ring i with state := .shutdown }.releaseBufs := Function.update_self _ _ _
  have kept (j : Nat) : (s.sweepSlot i).owed j = s.owed j := by
    by_cases same : j = i
    · subst same
      rw [VcSystem.owed, here]
      rfl
    · exact owed_congr (Function.update_of_ne same _ _) rfl
  refine told.modify (i := i) (fun j ne => Function.update_of_ne ne _ _)
    (fun u j h => endPending_kept h) (fun j _ m h => ?_) rfl rfl (fun j h => ?_) fun u _ story => ?_
  · rw [kept] at h
    exact h
  · obtain rfl := VcCtl.wakeAll.inj h
    rw [here]
    rfl
  · rw [kept, here]
    exact story.slot rfl (.inr rfl) fun _ => .inr rfl

theorem Told.replied_async (told : s.Told) (held : s.Held) {m : VcMsg} {len : Nat}
    (awaited : s.replyAwaited m = true) (async : s.takesAsync m = true) :
    ({ s with
      mngr := (s.mngr.setXn (vcCookieIdx m.cookie)
        { s.mngr.ring (vcCookieIdx m.cookie) with replySz := len }).pushFree
        (vcCookieIdx m.cookie) }.endPending (vcCookieIdx m.cookie)).Told := by
  have state := of_decide_eq_true (Bool.and_eq_true_iff.mp async).1
  have other (j : Nat) (ne : j ≠ vcCookieIdx m.cookie) :
      ((s.mngr.setXn (vcCookieIdx m.cookie)
        { s.mngr.ring (vcCookieIdx m.cookie) with replySz := len }).pushFree
          (vcCookieIdx m.cookie)).ring j = s.mngr.ring j :=
    (Function.update_of_ne ne _ _).trans (Function.update_of_ne ne _ _)
  refine told.modify (i := vcCookieIdx m.cookie) other (fun u j h => endPending_kept h)
    (fun j ne m h => ?_) rfl rfl (fun j h => ?_) fun u holds story => ?_
  · rcases mem_owed h with old | due
    · apply mem_owed_of_pending
      rw [← other j ne]
      exact old
    · exact mem_owed_of_due due
  · have shut := told.swept j h
    have ne : j ≠ vcCookieIdx m.cookie := by
      rintro rfl
      exact VcXnState.noConfusion (state.symm.trans shut)
    exact (congrArg VcXn.state (other j ne)).trans shut
  · -- a call that has returned asks nothing more of its slot
    have pending := held.awaited awaited async holds
    have unbegun (h : (s.calls u).phase.begun = true) : False := by
      rw [pending] at h
      exact Bool.noConfusion h
    have idle : (((s.mngr.setXn (vcCookieIdx m.cookie)
        { s.mngr.ring (vcCookieIdx m.cookie) with replySz := len }).pushFree
          (vcCookieIdx m.cookie)).ring (vcCookieIdx m.cookie)).state = .idle := by
      apply pushFree_idle
      simp [VcXnManager.setXn, state]
    refine ⟨story.began, fun h => (unbegun h).elim, story.handed, story.cookie, fun h => ?_,
      fun h => (unbegun h).elim, fun h => ?_, fun _ h => ?_⟩
    · rcases h with popped | waiting
      · exact VcPhase.noConfusion (pending.symm.trans popped)
      · exact VcXnState.noConfusion (idle.symm.trans waiting)
    · exact VcPhase.noConfusion (pending.symm.trans h)
    · rw [pending] at h
      exact Bool.noConfusion h

theorem Told.rejected (told : s.Told) {params : VcXnParams} :
    ({ s.setCall s.started { params } with started := s.started + 1 }.ret s.started
      .enospc).Told := by
  have gone (u : Nat) : (VcSystem.ret { s.setCall s.started { params } with
      started := s.started + 1 } s.started .enospc).calls u = s.calls u ∨
        u = s.started := by
    by_cases same : u = s.started
    · exact .inr same
    · exact .inl ((Function.update_of_ne same _ _).trans (Function.update_of_ne same _ _))
  refine told.unmoved rfl (fun u j h => ?_) rfl rfl (fun u m h => ?_) (fun e h => ?_)
    (Nat.le_succ _) fun _ h => h
  · rcases gone u with same | rfl
    · rw [Holds, same] at h
      exact ⟨h, same⟩
    · simp [Holds, VcSystem.ret, VcSystem.goTo, setCall, note, VcPhase.slot] at h
  · exact absurd (List.mem_singleton.mp h) VcEvent.noConfusion
  · rw [List.mem_singleton.mp h]
    exact Nat.lt_succ_self _

theorem Told.entered (told : s.Told) (held : s.Held) (place : (s.calls t).phase = .popped i)
    (opened : (s.mngr.ring i).state ≠ .shutdown) :
    ({ s with mngr := s.mngr.setXn i ((s.mngr.ring i).setUp t (s.calls t).params) }.goTo t
      (.entered i)).Told := by
  have holds : s.Holds t i := .of_phase place rfl
  have next := ((told.story t i holds).enter place).append (fun _ => List.not_mem_nil)
    fun _ h => h
  exact told.move held holds rfl rfl rfl rfl (List.append_nil _).symm
    (fun _ h => absurd h List.not_mem_nil) rfl rfl (fun shut => absurd shut opened)
    (fun m h => h.elim mem_owed_of_pending mem_owed_of_due) next

theorem Told.armed (told : s.Told) (held : s.Held) (ok : s.repliesOk (.arm t) = true)
    (place : (s.calls t).phase = .entered i) (sync : (s.calls t).params.async = false) :
    ({ s with mngr := s.mngr.setXn i { s.mngr.ring i with completed := .reinit } }.goTo t
      (.armed i)).Told := by
  have holds : s.Holds t i := .of_phase place rfl
  have next := ((told.story t i holds).arm place).append (fun _ => List.not_mem_nil)
    fun _ h => h
  refine told.move held holds rfl rfl rfl rfl (List.append_nil _).symm
    (fun _ h => absurd h List.not_mem_nil) rfl rfl id (fun m h => ?_) next
  rcases h with old | due
  · exact old
  · exact absurd due (owed_of_arm ok place sync m)

theorem Told.cookied (told : s.Told) (held : s.Held) (place : (s.calls t).phase = .armed i) :
    (s.goTo t (.cookied i (vcCookie (s.mngr.ring i).salt i))).Told := by
  have holds : s.Holds t i := .of_phase place rfl
  refine told.goTo held holds rfl fun story => ?_
  refine story.goTo (fun _ => by rw [place]; rfl) VcPhase.noConfusion (fun k h => ?_)
    (fun h => VcPhase.noConfusion h) fun sync _ => story.owed sync (by rw [place]; rfl)
  rw [← (VcPhase.cookied.inj h).2, ((held.slot i).fits t holds).salt]

/-- A message is handed to the mailbox, and one that does not wait returns. -/
theorem Told.sent (told : s.Told) (held : s.Held) {c : Nat} {res : VcSend} {phase : VcPhase}
    (place : (s.calls t).phase = .cookied i c)
    (done : (s.calls t).params.async = true ∧
        (((s.mngr.ring i).state = .async ∧ phase = .pending i) ∨
          ((s.mngr.ring i).state ≠ .async ∧ phase = .returned (.size 0))) ∨
      (s.calls t).params.async = false ∧ phase = .waiting i) :
    Told { s with
      calls := Function.update s.calls t { s.calls t with
        phase
        handed := if res = .handed then some c else (s.calls t).handed }
      log := s.log ++ (if res = .handed then [.handed t c] else []) ++
        if (s.calls t).params.async then [.returned t (.size 0)] else [] } := by
  have holds : s.Holds t i := .of_phase place rfl
  refine told.call held holds rfl (fun j h => ?_) (fun _ _ => rfl) rfl
    (List.append_assoc _ _ _) (fun e h => ?_) rfl rfl id fun slot => ?_
  · rcases done with ⟨_, ⟨_, rfl⟩ | ⟨_, rfl⟩⟩ | ⟨_, rfl⟩
    · exact (Option.some.inj h).symm
    · exact absurd h.symm (Option.some_ne_none j)
    · exact (Option.some.inj h).symm
  · rcases mem_sent h with rfl | ⟨_, rfl⟩
    · exact ⟨rfl, fun _ => VcEvent.noConfusion⟩
    · exact ⟨rfl, fun _ => VcEvent.noConfusion⟩
  · refine (told.story t i holds).send place ?_ (fun m h => ?_) fun handed => ?_
    · rcases done with ⟨_, ⟨_, rfl⟩ | ⟨_, rfl⟩⟩ | ⟨_, rfl⟩
      · exact .inl rfl
      · exact absurd slot.symm (Option.some_ne_none i)
      · exact .inr rfl
    · rcases mem_sent h with other | ⟨_, other⟩
      · exact VcEvent.noConfusion other
      · exact VcEvent.noConfusion other
    · rw [if_pos handed]
      exact List.mem_append_left _ (List.mem_singleton.mpr rfl)

theorem Told.woken (told : s.Told) (held : s.Held) (place : (s.calls t).phase = .waiting i)
    (done : (s.mngr.ring i).completed.done = true) :
    (({ s with
      mngr := s.mngr.setXn i { s.mngr.ring i with
        completed := (s.mngr.ring i).completed.consume } }.goTo t (.woken i)).note
      (.woken t (s.mngr.ring i).completed.pending)).Told := by
  have holds : s.Holds t i := .of_phase place rfl
  have sync := held.sync_of_waiting place
  refine told.move held holds rfl rfl rfl rfl rfl (fun e h => ?_) rfl rfl id (fun m h => ?_)
    (((told.story t i holds).wake place sync done fun m => mem_owed_of_pending).append
      (fun m h => ?_) fun _ h => h)
  · rw [List.mem_singleton.mp h]
    exact ⟨rfl, fun _ => VcEvent.noConfusion⟩
  · rcases h with old | due
    · apply mem_owed_of_pending
      cases completed : (s.mngr.ring i).completed with
      | signals l =>
        rw [completed] at old
        exact List.mem_of_mem_tail old
      | all =>
        rw [completed] at old
        exact old
    · exact mem_owed_of_due due
  · exact absurd (List.mem_singleton.mp h) VcEvent.noConfusion

theorem Told.elapsed (told : s.Told) (held : s.Held) (place : (s.calls t).phase = .waiting i) :
    ((s.goTo t (.woken i)).note (.elapsed t)).Told := by
  have holds : s.Holds t i := .of_phase place rfl
  refine told.call held holds rfl (fun j h => (Option.some.inj h).symm) (fun _ _ => rfl) rfl rfl
    (fun e h => ?_) rfl rfl id fun _ => ?_
  · rw [List.mem_singleton.mp h]
    exact ⟨rfl, fun _ => VcEvent.noConfusion⟩
  · have story : Story (s.log ++ [.elapsed t]) (s.owed i) (s.calls t) t i (s.mngr.ring i) :=
      (told.story t i holds).append
        (fun m h => VcEvent.noConfusion (List.mem_singleton.mp h)) fun _ h => h
    exact story.goTo (fun _ => by rw [place]; rfl) VcPhase.noConfusion
      (fun _ h => VcPhase.noConfusion h)
      (fun _ _ => List.mem_append_right _ (List.mem_singleton.mpr rfl))
      fun _ h => Bool.noConfusion h

theorem Told.signal (told : s.Told) {m : VcMsg} (due : s.signalling = some (i, m)) :
    Told { s with
      mngr := s.mngr.setXn i { s.mngr.ring i with
        completed := (s.mngr.ring i).completed.complete m }
      signalling := none } := by
  refine told.signalled rfl rfl (fun j k h => absurd h.symm (Option.some_ne_none _)) rfl rfl
    (fun _ h => h) rfl ⟨rfl, rfl⟩ (fun all => .inl ?_) fun k h => ?_
  · cases completed : (s.mngr.ring i).completed with
    | signals l =>
      rw [completed] at all
      exact Completion.noConfusion all
    | all => rfl
  · cases completed : (s.mngr.ring i).completed with
    | signals l =>
      rw [completed] at h
      rcases List.mem_append.mp h with old | fresh
      · exact mem_owed_of_pending (by rw [completed]; exact old)
      · rw [List.mem_singleton.mp fresh]
        exact mem_owed_of_due due
    | all =>
      rw [completed] at h
      exact absurd h List.not_mem_nil

theorem Told.step {op : VcOp} (told : s.Told) (held : s.Held) (ok : s.repliesOk op = true)
    (move : Move s op s') : s'.Told := by
  have steady := (Bool.and_eq_true_iff.mp ok).1
  cases move with
  | execFull => exact told.rejected
  | @exec params i bound free =>
    refine told.take held free rfl (fun j ne => Function.update_of_ne ne _ _) ?_ rfl rfl rfl rfl
    change (Function.update s.mngr.ring i _ i).state = _
    rw [Function.update_self]
  | enterShut place => exact told.abandon held (.of_phase place rfl)
  | enter place opened => exact told.entered held place opened
  | armAsync place async =>
    refine told.goTo held (.of_phase place rfl) rfl fun story => ?_
    exact story.goTo (fun _ => by rw [place]; rfl) VcPhase.noConfusion
      (fun _ h => VcPhase.noConfusion h) (fun h => VcPhase.noConfusion h)
      fun sync => Bool.noConfusion (async.symm.trans sync)
  | arm place sync => exact told.armed held ok place sync
  | cookie place => exact told.cookied held place
  | sendFailed place =>
    refine told.goTo held (.of_phase place rfl) rfl fun story => ?_
    exact story.goTo (fun _ => by rw [place]; rfl) VcPhase.noConfusion
      (fun _ h => VcPhase.noConfusion h) (fun h => VcPhase.noConfusion h)
      fun _ h => Bool.noConfusion h
  | send place done => exact told.sent held place done
  | fail place => exact told.push held (.of_phase place rfl)
  | wake place done => exact told.woken held place done
  | elapse place => exact told.elapsed held place
  | finishShut place => exact told.abandon held (.of_phase place rfl)
  | finish place => exact told.push held (.of_phase place rfl)
  | recvDrop => exact told
  | recvMiss quiet _ _ salt not_waiting => exact told.missed held ok quiet salt not_waiting
  | recvFailed quiet genuine _ salt waiting =>
    exact told.replied held ok quiet genuine salt waiting rfl rfl rfl rfl rfl rfl rfl rfl
      VcXnState.noConfusion (fun h => VcXnState.noConfusion h) fun _ h => absurd h List.not_mem_nil
  | recvSuccess quiet genuine _ salt waiting opcode success buffer =>
    exact told.replied held ok quiet genuine salt waiting rfl rfl rfl rfl rfl rfl rfl rfl
      VcXnState.noConfusion (fun _ => ⟨opcode, success, rfl⟩) buffer
  | recvAsync _ _ _ salt async => exact told.replied_async held steady (takesAsync_of async salt)
  | signal due => exact told.signal due
  | shutdown => exact told.controlled rfl rfl rfl rfl rfl fun _ => VcCtl.noConfusion
  | sweep => exact told.swept_slot
  | wakeAll place =>
    exact told.signalled rfl rfl (fun _ _ h => h) rfl rfl (fun _ h => VcCtl.noConfusion h) rfl
      ⟨rfl, rfl⟩ (fun _ => .inr (told.swept _ place)) fun _ h => absurd h List.not_mem_nil
  | shutEnd => exact told.controlled rfl rfl rfl rfl rfl fun _ => VcCtl.noConfusion
  | init => exact told.controlled rfl rfl rfl rfl rfl fun _ => VcCtl.noConfusion
  | @initSlot i place =>
    simp only [VcSystem.steady, place] at steady
    refine told.modify (fun j ne => Function.update_of_ne ne _ _) (fun u j h => ⟨h, rfl⟩)
      (fun j ne k h => ?_) rfl rfl (fun j h => VcCtl.noConfusion h) fun u holds _ => ?_
    · rw [VcSystem.owed, show VcXnManager.ring _ j = s.mngr.ring j from
        Function.update_of_ne ne _ _] at h
      exact h
    · exact absurd holds (held.settled steady u)
  | initEnd => exact told.controlled rfl rfl rfl rfl rfl fun _ => VcCtl.noConfusion

/-- What a step does not change of a call begun before it. -/
structure Kept (c d : VcCall) : Prop where
  params : d.params = c.params
  salt : d.salt = c.salt
  ended : c.phase.ended = true → d.phase.ended = true

theorem Kept.of_update {u : Nat} {phase : VcPhase} {handed : Option Nat}
    (calls : s'.calls = Function.update s.calls u { s.calls u with phase, handed })
    (live : (s.calls u).phase.ended = false) (t : Nat) : Kept (s.calls t) (s'.calls t) := by
  by_cases same : t = u
  · subst same
    rw [calls, Function.update_self]
    exact ⟨rfl, rfl, fun ended => Bool.noConfusion (live.symm.trans ended)⟩
  · rw [calls, Function.update_of_ne same]
    exact ⟨rfl, rfl, id⟩

theorem Kept.of_new {d : VcCall} (calls : s'.calls = Function.update s.calls s.started d)
    (old : t < s.started) : Kept (s.calls t) (s'.calls t) := by
  rw [calls, Function.update_of_ne (Nat.ne_of_lt old)]
  exact ⟨rfl, rfl, id⟩

theorem Kept.of_end (t : Nat) : Kept (s.calls t) ((s.endPending i).calls t) := by
  by_cases pending : (s.calls t).phase = .pending i
  · simp only [endPending, if_pos pending]
    exact ⟨rfl, rfl, fun _ => rfl⟩
  · simp only [endPending, if_neg pending]
    exact ⟨rfl, rfl, id⟩

theorem Move.kept {op : VcOp} (move : Move s op s') (old : t < s.started) :
    Kept (s.calls t) (s'.calls t) := by
  cases move with
  | execFull => exact .of_new (Function.update_idem _ _ _) old
  | exec => exact .of_new rfl old
  | enterShut place => exact .of_update rfl (by rw [place]; rfl) t
  | enter place => exact .of_update rfl (by rw [place]; rfl) t
  | armAsync place => exact .of_update rfl (by rw [place]; rfl) t
  | arm place => exact .of_update rfl (by rw [place]; rfl) t
  | cookie place => exact .of_update rfl (by rw [place]; rfl) t
  | sendFailed place => exact .of_update rfl (by rw [place]; rfl) t
  | send place => exact .of_update rfl (by rw [place]; rfl) t
  | fail place => exact .of_update rfl (by rw [place]; rfl) t
  | wake place => exact .of_update rfl (by rw [place]; rfl) t
  | elapse place => exact .of_update rfl (by rw [place]; rfl) t
  | finishShut place => exact .of_update rfl (by rw [place]; rfl) t
  | finish place => exact .of_update rfl (by rw [place]; rfl) t
  | recvAsync => exact .of_end t
  | sweep => exact .of_end t
  | _ => exact ⟨rfl, rfl, id⟩

/-- A call has returned the length of a reply to its request that it accepted. -/
def Sized (log : List VcEvent) (c : VcCall) (t n : Nat) : Prop :=
  ∃ i m, m.cookie = vcCookie c.salt i ∧ m.chnlOpcode = c.params.vcOp ∧ m.chnlRetval = 0 ∧
    m.dataLen = n ∧
    List.Sublist [.began t i c.salt, .handed t m.cookie, .completed t m, .returned t (.size n)] log

def TimedOut (log : List VcEvent) (t : Nat) : Prop :=
  List.Sublist [.elapsed t, .returned t .etime] log ∧ ∀ m, .completed t m ∉ log

/-- What the results of synchronous calls mean. -/
structure Meant (s : VcSystem) : Prop where
  size : ∀ t n, .returned t (.size n) ∈ s.log → (s.calls t).params.async = false →
    Sized s.log (s.calls t) t n
  etime : ∀ t, .returned t .etime ∈ s.log → TimedOut s.log t
  completed : ∀ t m, .completed t m ∈ s.log → m.answers = some t
  woken : ∀ t l, .woken t l ∈ s.log → ∀ m ∈ l, m.answers = some t

theorem Sized.append {n : Nat} {d : VcCall} (sized : Sized log c t n) (kept : Kept c d)
    (new : List VcEvent) : Sized (log ++ new) d t n := by
  obtain ⟨i, m, cookie, opcode, success, len, order⟩ := sized
  refine ⟨i, m, ?_, ?_, success, len, ?_⟩
  · rw [kept.salt]
    exact cookie
  · rw [kept.params]
    exact opcode
  · rw [kept.salt]
    exact order.trans (List.sublist_append_left log new)

/-- A step whose events are what they should be. -/
theorem Meant.grow {op : VcOp} (meant : s.Meant) (told : s.Told) (move : Move s op s')
    (log : s'.log = s.log ++ new)
    (size : ∀ t n, .returned t (.size n) ∈ new → (s'.calls t).params.async = false →
      Sized (s.log ++ new) (s'.calls t) t n)
    (etime : ∀ t, .returned t .etime ∈ new → TimedOut (s.log ++ new) t)
    (completed : ∀ t m, .completed t m ∈ new → m.answers = some t ∧ ∀ r, .returned t r ∉ s.log)
    (woken : ∀ t l, .woken t l ∈ new → ∀ m ∈ l, m.answers = some t) : s'.Meant := by
  constructor
  · intro t n h sync
    rw [log] at h ⊢
    rcases List.mem_append.mp h with old | fresh
    · have kept : Kept (s.calls t) (s'.calls t) := move.kept (told.known _ old)
      rw [kept.params] at sync
      exact (meant.size t n old sync).append kept new
    · exact size t n fresh sync
  · intro t h
    rw [log] at h ⊢
    rcases List.mem_append.mp h with old | fresh
    · obtain ⟨order, none⟩ := meant.etime t old
      refine ⟨order.trans (List.sublist_append_left _ _), fun m member => ?_⟩
      rcases List.mem_append.mp member with before | late
      · exact none m before
      · exact (completed t m late).2 _ old
    · exact etime t fresh
  · intro t m h
    rw [log] at h
    exact (List.mem_append.mp h).elim (meant.completed t m) fun fresh => (completed t m fresh).1
  · intro t l h
    rw [log] at h
    exact (List.mem_append.mp h).elim (meant.woken t l) (woken t l)

def Back (s : VcSystem) : Prop := ∀ t r, .returned t r ∈ s.log → (s.calls t).phase.ended = true

theorem Back.grow {op : VcOp} (back : s.Back) (told : s.Told) (move : Move s op s')
    (log : s'.log = s.log ++ new)
    (fresh : ∀ t r, .returned t r ∈ new → (s'.calls t).phase.ended = true) : s'.Back := by
  intro t r h
  rw [log] at h
  rcases List.mem_append.mp h with old | now
  · exact (move.kept (told.known _ old)).ended (back t r old)
  · exact fresh t r now

theorem update_ended {u : Nat} {calls : Nat → VcCall} (h : c.phase.ended = true) (same : t = u) :
    (Function.update calls u c t).phase.ended = true := by
  rw [same, Function.update_self]
  exact h

theorem Back.step {op : VcOp} (back : s.Back) (told : s.Told) (move : Move s op s') : s'.Back := by
  have one {e : VcEvent} {t : Nat} {r : VcRet} (h : .returned t r ∈ [e])
      (calm : ∀ t r, e ≠ .returned t r) : False :=
    calm t r (List.mem_singleton.mp h).symm
  have whole := move
  cases move with
  | execFull =>
    exact back.grow told whole rfl fun t r h =>
      update_ended rfl (VcEvent.returned.inj (List.mem_singleton.mp h)).1
  | exec => exact back.grow told whole rfl fun _ _ h => (one h fun _ _ => VcEvent.noConfusion).elim
  | enterShut =>
    exact back.grow told whole rfl fun t r h =>
      update_ended rfl (VcEvent.returned.inj (List.mem_singleton.mp h)).1
  | @send t i c res phase place done =>
    refine back.grow told whole (List.append_assoc _ _ _) fun u r h => ?_
    rcases mem_sent h with other | ⟨async, returned⟩
    · exact VcEvent.noConfusion other
    · refine update_ended ?_ (VcEvent.returned.inj returned).1
      rcases done with ⟨_, ⟨_, rfl⟩ | ⟨_, rfl⟩⟩ | ⟨sync, _⟩
      · rfl
      · rfl
      · exact Bool.noConfusion (async.symm.trans sync)
  | fail =>
    exact back.grow told whole rfl fun t r h =>
      update_ended rfl (VcEvent.returned.inj (List.mem_singleton.mp h)).1
  | wake => exact back.grow told whole rfl fun _ _ h => (one h fun _ _ => VcEvent.noConfusion).elim
  | elapse =>
    exact back.grow told whole rfl fun _ _ h => (one h fun _ _ => VcEvent.noConfusion).elim
  | finishShut =>
    exact back.grow told whole rfl fun t r h =>
      update_ended rfl (VcEvent.returned.inj (List.mem_singleton.mp h)).1
  | finish =>
    exact back.grow told whole rfl fun t r h =>
      update_ended rfl (VcEvent.returned.inj (List.mem_singleton.mp h)).1
  | recvFailed =>
    exact back.grow told whole rfl fun _ _ h => (one h fun _ _ => VcEvent.noConfusion).elim
  | recvSuccess _ _ _ _ _ _ _ buffer =>
    refine back.grow told whole rfl fun t r h => ?_
    rcases List.mem_cons.mp h with other | written
    · exact VcEvent.noConfusion other
    · obtain ⟨_, _, other⟩ := buffer _ written
      exact VcEvent.noConfusion other
  | _ =>
    exact back.grow told whole (List.append_nil _).symm fun _ _ h => absurd h List.not_mem_nil

/-- A reply that a waiting call gets answers it, and comes before the call returns. -/
theorem Meant.accepted {op : VcOp} (meant : s.Meant) (told : s.Told) (back : s.Back)
    (held : s.Held) (move : Move s op s') {m : VcMsg} {e : Int} {wrote : List VcEvent}
    (ok : s.repliesOk (.recv m e) = true)
    (salt : (s.mngr.ring (vcCookieIdx m.cookie)).salt = vcCookieSalt m.cookie)
    (waiting : (s.mngr.ring (vcCookieIdx m.cookie)).state = .waiting)
    (log : s'.log =
      s.log ++ .completed (s.mngr.ring (vcCookieIdx m.cookie)).holder m :: wrote)
    (buffer : ∀ e ∈ wrote, ∃ b, (s.mngr.ring (vcCookieIdx m.cookie)).reply = some b ∧
      e = .wrote b.call m (s.calls b.call).active) : s'.Meant := by
  obtain ⟨t, holds, begun, sync⟩ := held.waiter waiting
  have holder := ((held.slot _).fits t holds).owner begun
  have answers := answers_of_ok ok held salt holds begun sync
  have new {e : VcEvent} (h : e ∈ .completed t m :: wrote) :
      e = .completed t m ∨ ∃ u l, e = .wrote u m l := by
    rcases List.mem_cons.mp h with same | written
    · exact .inl same
    · obtain ⟨_, _, same⟩ := buffer _ written
      exact .inr ⟨_, _, same⟩
  rw [holder] at log
  refine meant.grow told move log (fun u n h => ?_) (fun u h => ?_) (fun u k h => ?_)
    fun u l h => ?_
  · rcases new h with other | ⟨_, _, other⟩ <;> exact VcEvent.noConfusion other
  · rcases new h with other | ⟨_, _, other⟩ <;> exact VcEvent.noConfusion other
  · rcases new h with same | ⟨_, _, other⟩
    · obtain ⟨rfl, rfl⟩ := VcEvent.completed.inj same
      refine ⟨answers, fun r returned => ?_⟩
      have ended := back _ r returned
      cases phase : (s.calls u).phase <;> rw [phase] at ended begun <;>
        first | exact Bool.noConfusion ended | exact Bool.noConfusion begun
    · exact VcEvent.noConfusion other
  · rcases new h with other | ⟨_, _, other⟩ <;> exact VcEvent.noConfusion other

theorem Meant.returns {op : VcOp} {t : Nat} {r : VcRet} (meant : s.Meant) (told : s.Told)
    (move : Move s op s') (log : s'.log = s.log ++ [.returned t r])
    (size : ∀ n, r = .size n → (s'.calls t).params.async = false →
      Sized (s.log ++ [.returned t (.size n)]) (s'.calls t) t n)
    (etime : r = .etime → TimedOut (s.log ++ [.returned t .etime]) t) : s'.Meant := by
  refine meant.grow told move log (fun u n h sync => ?_) (fun u h => ?_) (fun u m h => ?_)
    fun u l h => ?_
  · obtain ⟨rfl, rfl⟩ := VcEvent.returned.inj (List.mem_singleton.mp h)
    exact size n rfl sync
  · obtain ⟨rfl, rfl⟩ := VcEvent.returned.inj (List.mem_singleton.mp h)
    exact etime rfl
  · exact absurd (List.mem_singleton.mp h) VcEvent.noConfusion
  · exact absurd (List.mem_singleton.mp h) VcEvent.noConfusion

/-- What a synchronous call returns when it takes the result. -/
theorem Meant.finish {op : VcOp} {t i : Nat} {r : VcRet} (meant : s.Meant) (told : s.Told)
    (move : Move s op s') (place : (s.calls t).phase = .woken i)
    (time : r = .etime ↔ (s.mngr.ring i).state = .waiting)
    (size : ∀ n, r = .size n →
      (s.mngr.ring i).state = .completedSuccess ∧ n = (s.mngr.ring i).replySz)
    (log : s'.log = s.log ++ [.returned t r])
    (call : s'.calls t = { s.calls t with phase := .returned r }) : s'.Meant := by
  have story := told.story t i (.of_phase place rfl)
  refine meant.returns told move log (fun n same sync => ?_) fun same => ?_
  · obtain ⟨state, rfl⟩ := size n same
    obtain ⟨m, answer, len⟩ := story.answered (by rw [place]; rfl) state
    rw [call]
    exact ⟨i, m, answer.cookie, answer.opcode, answer.success, len,
      answer.order.append (List.Sublist.refl _)⟩
  · have waiting := time.mp same
    refine ⟨?_, fun m h => ?_⟩
    · exact (List.singleton_sublist.mpr (story.elapsed place waiting)).append
        (List.Sublist.refl _)
    · rcases List.mem_append.mp h with old | fresh
      · exact story.unanswered (.inr waiting) m old
      · exact VcEvent.noConfusion (List.mem_singleton.mp fresh)

/-- Only an asynchronous call returns when its message is sent, and with no size. -/
theorem Meant.sent {op : VcOp} {t c : Nat} {res : VcSend} (meant : s.Meant) (told : s.Told)
    (move : Move s op s')
    (log : s'.log = s.log ++ (if res = .handed then [.handed t c] else []) ++
      if (s.calls t).params.async then [.returned t (.size 0)] else [])
    (same : (s'.calls t).params = (s.calls t).params) : s'.Meant := by
  refine meant.grow told move (log.trans (List.append_assoc _ _ _)) (fun u n h sync => ?_)
    (fun u h => ?_) (fun u m h => ?_) fun u l h => ?_
  · rcases mem_sent h with other | ⟨async, returned⟩
    · exact VcEvent.noConfusion other
    · obtain ⟨rfl, _⟩ := VcEvent.returned.inj returned
      rw [same, async] at sync
      exact Bool.noConfusion sync
  · rcases mem_sent h with other | ⟨_, returned⟩
    · exact VcEvent.noConfusion other
    · exact VcRet.noConfusion (VcEvent.returned.inj returned).2
  · rcases mem_sent h with other | ⟨_, other⟩
    · exact VcEvent.noConfusion other
    · exact VcEvent.noConfusion other
  · rcases mem_sent h with other | ⟨_, other⟩
    · exact VcEvent.noConfusion other
    · exact VcEvent.noConfusion other

/-- A call is woken with the replies that are there for it. -/
theorem Meant.wake {op : VcOp} {t i : Nat} (meant : s.Meant) (told : s.Told) (held : s.Held)
    (move : Move s op s') (place : (s.calls t).phase = .waiting i)
    (log : s'.log = s.log ++ [.woken t (s.mngr.ring i).completed.pending]) : s'.Meant := by
  have sync := held.sync_of_waiting place
  obtain ⟨mine, _⟩ := (told.story t i (.of_phase place rfl)).owed sync (by rw [place]; rfl)
  refine meant.grow told move log (fun u n h => ?_) (fun u h => ?_) (fun u m h => ?_)
    fun u l h => ?_
  · exact absurd (List.mem_singleton.mp h) VcEvent.noConfusion
  · exact absurd (List.mem_singleton.mp h) VcEvent.noConfusion
  · exact absurd (List.mem_singleton.mp h) VcEvent.noConfusion
  · obtain ⟨rfl, rfl⟩ := VcEvent.woken.inj (List.mem_singleton.mp h)
    intro m member
    exact mine m (mem_owed_of_pending member)

theorem Meant.step {op : VcOp} (meant : s.Meant) (told : s.Told) (back : s.Back) (held : s.Held)
    (ok : s.repliesOk op = true) (move : Move s op s') : s'.Meant := by
  have silent (log : s'.log = s.log) : s'.Meant :=
    meant.grow told move (log.trans (List.append_nil _).symm)
      (fun _ _ h => absurd h List.not_mem_nil) (fun _ h => absurd h List.not_mem_nil)
      (fun _ _ h => absurd h List.not_mem_nil) fun _ _ h => absurd h List.not_mem_nil
  have fails {t : Nat} {r : VcRet} (log : s'.log = s.log ++ [.returned t r])
      (err : r.isErr = true) (other : r ≠ .etime) : s'.Meant := by
    refine meant.returns told move log (fun n same => ?_) fun same => absurd same other
    rw [same] at err
    exact Bool.noConfusion err
  have plain {e : VcEvent} (log : s'.log = s.log ++ [e]) (not_returned : ∀ t r, e ≠ .returned t r)
      (not_completed : ∀ t m, e ≠ .completed t m) (not_woken : ∀ t l, e ≠ .woken t l) : s'.Meant :=
    meant.grow told move log (fun _ _ h => absurd (List.mem_singleton.mp h).symm (not_returned _ _))
      (fun _ h => absurd (List.mem_singleton.mp h).symm (not_returned _ _))
      (fun _ _ h => absurd (List.mem_singleton.mp h).symm (not_completed _ _))
      fun _ _ h => absurd (List.mem_singleton.mp h).symm (not_woken _ _)
  have whole := move
  cases move with
  | execFull => exact fails rfl rfl VcRet.noConfusion
  | exec =>
    exact plain rfl (fun _ _ => VcEvent.noConfusion) (fun _ _ => VcEvent.noConfusion)
      fun _ _ => VcEvent.noConfusion
  | enterShut => exact fails rfl rfl VcRet.noConfusion
  | send place done =>
    exact meant.sent told whole rfl (by simp only [Function.update_self])
  | fail => exact fails rfl rfl VcRet.noConfusion
  | wake place done => exact meant.wake told held whole place rfl
  | elapse =>
    exact plain rfl (fun _ _ => VcEvent.noConfusion) (fun _ _ => VcEvent.noConfusion)
      fun _ _ => VcEvent.noConfusion
  | finishShut => exact fails rfl rfl VcRet.noConfusion
  | finish place opened time size =>
    exact meant.finish told whole place time size rfl (Function.update_self _ _ _)
  | recvFailed _ _ _ salt waiting =>
    exact meant.accepted told back held whole ok salt waiting rfl
      fun _ h => absurd h List.not_mem_nil
  | recvSuccess _ _ _ salt waiting _ _ buffer =>
    exact meant.accepted told back held whole ok salt waiting rfl buffer
  | _ => exact silent rfl

/-- In a run in which a reply's signal is given before the slot's completion is armed again, and a
reply with the slot and the salt of a synchronous call answers that call, results mean what the
replies say. -/
theorem meant_of_reachable
    (h : Reachable step (fun s op => s.repliesOk op = true) (fun s => s = vcInit) s) : s.Meant := by
  have all : s.Meant ∧ s.Back ∧ s.Told ∧ s.Held := by
    apply h.invariant (I := fun s => s.Meant ∧ s.Back ∧ s.Told ∧ s.Held)
    · rintro s rfl
      have nothing {p : Prop} {e : VcEvent} (h : e ∈ vcInit.log) : p :=
        absurd h List.not_mem_nil
      refine ⟨⟨fun _ _ => nothing, fun _ => nothing, fun _ _ => nothing, fun _ _ => nothing⟩,
        fun _ _ => nothing, ⟨fun t i holds => ?_, fun _ => nothing, fun _ h => VcCtl.noConfusion h⟩,
        held_of_reachable (.start rfl)⟩
      exact absurd holds.symm (Option.some_ne_none i)
    · rintro s op s' ⟨meant, back, told, held⟩ ok moved
      have move := move_of_step moved
      have steady := (Bool.and_eq_true_iff.mp ok).1
      exact ⟨meant.step told back held ok move, back.step told move, told.step held ok move,
        held.step steady move⟩
  exact all.1

/-- A transaction with a reply, and one that times out on the same slot. -/
theorem meant_of_reachable_replies :
    ∃ s, Reachable step (fun s op => s.repliesOk op = true) (fun s => s = vcInit) s ∧
      s.log = [.began 0 0 0, .handed 0 0, .completed 0 ⟨0, 7, 0, 4, some 0⟩,
        .wrote 0 ⟨0, 7, 0, 4, some 0⟩ (some (0, 0)), .woken 0 [⟨0, 7, 0, 4, some 0⟩],
        .returned 0 (.size 4), .began 1 0 1, .handed 1 256, .elapsed 1, .returned 1 .etime] ∧
      s.Meant := by
  have run : (execIf step repliesOk vcInit (vcXnInit ++ [.exec { recvBuf := some 16, vcOp := 7 },
      .enter 0, .arm 0, .cookie 0, .send 0 .handed, .recv ⟨0, 7, 0, 4, some 0⟩ 0, .signal, .wake 0,
      .finish 0, .exec {}, .enter 1, .arm 1, .cookie 1, .send 1 .handed, .elapse 1,
      .finish 1])).map (fun s => s.log) =
      some [.began 0 0 0, .handed 0 0, .completed 0 ⟨0, 7, 0, 4, some 0⟩,
        .wrote 0 ⟨0, 7, 0, 4, some 0⟩ (some (0, 0)), .woken 0 [⟨0, 7, 0, 4, some 0⟩],
        .returned 0 (.size 4), .began 1 0 1, .handed 1 256, .elapsed 1,
        .returned 1 .etime] := by decide +kernel
  obtain ⟨s, steps, eq⟩ := Option.map_eq_some_iff.mp run
  have reached : Reachable step (fun s op => s.repliesOk op = true) (fun s => s = vcInit) s :=
    Reachable.execIf (.start rfl) steps
  exact ⟨s, reached, eq, meant_of_reachable reached⟩

/-- The signal of a reply comes late, when its call has timed out, has returned the reply after all
and has been followed by another call. That one takes the signal for its own and reports a timeout
that has not elapsed. -/
theorem late_signal_times_out :
    ¬∀ s, Reachable step anyStep (fun s => s = vcInit) s → s.Meant := by
  intro claim
  have run : (General.exec step vcInit (vcXnInit ++ [.exec { recvBuf := some 16, vcOp := 7 },
      .enter 0, .arm 0, .cookie 0, .send 0 .handed, .recv ⟨0, 7, 0, 4, some 0⟩ 0, .elapse 0,
      .finish 0, .exec {}, .enter 1, .arm 1, .cookie 1, .send 1 .handed, .signal, .wake 1,
      .finish 1])).map (fun s => s.log) =
      some [.began 0 0 0, .handed 0 0, .completed 0 ⟨0, 7, 0, 4, some 0⟩,
        .wrote 0 ⟨0, 7, 0, 4, some 0⟩ (some (0, 0)), .elapsed 0, .returned 0 (.size 4),
        .began 1 0 1, .handed 1 256, .woken 1 [⟨0, 7, 0, 4, some 0⟩], .returned 1 .etime] := by
    decide +kernel
  obtain ⟨s, steps, eq⟩ := Option.map_eq_some_iff.mp run
  have meant := claim s (Reachable.exec (.start rfl) steps)
  have elapsed : .elapsed 1 ∈ s.log :=
    (meant.etime 1 (by rw [eq]; decide)).1.subset List.mem_cons_self
  rw [eq] at elapsed
  exact absurd elapsed (by decide)

end VcSystem

end Idpf
