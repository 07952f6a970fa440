import Idpf.Ctlq.Queue
import Idpf.General.Transition

/-! The send queue of the mailbox as a queue of messages: cleaning gives back what was sent, in
order, each message once. A batch refused in its middle breaks this. -/
namespace Idpf
open General

/-- What has happened to a send queue, in order. -/
inductive SendEvent where
  | sent (msg : CtlqMsg) (slot : Nat)
  | done (slot : Nat)
  | cleaned (c : Cleaned) (force : Bool)
  deriving DecidableEq, Repr

def sentMsgs (log : List SendEvent) : List (CtlqMsg × Nat) :=
  log.filterMap fun
    | .sent msg slot => some (msg, slot)
    | _ => none

def cleanedMsgs (log : List SendEvent) : List (CtlqMsg × Nat) :=
  log.filterMap fun
    | .cleaned c _ => some (c.msg, c.slot)
    | _ => none

/-- The device has marked the slot done since a message was last put into it. -/
def marked (log : List SendEvent) (slot : Nat) : Bool :=
  log.foldl (fun b e =>
    match e with
    | .sent _ i => if i = slot then false else b
    | .done i => if i = slot then true else b
    | .cleaned _ _ => b) false

/-- The events of a batch put on the ring from slot `ntu` on. -/
def sentFrom (n : Nat) : Nat → List CtlqMsg → List SendEvent
  | _, [] => []
  | ntu, msg :: msgs => .sent msg ntu :: sentFrom n (bump n ntu) msgs

/-- A send queue and its history. -/
structure SendSystem where
  q : SendQueue
  log : List SendEvent

/-- Batches, cleaning, and the device, which may write back any descriptor at any time. -/
inductive SendOp where
  | send (msgs : List CtlqMsg)
  | clean (count : Nat) (force : Bool)
  | done (slot : Nat) (d : CtlqDesc)
  deriving DecidableEq, Repr

def SendQueue.queued (q : SendQueue) : List CtlqMsg :=
  (ringSeg q.ringSize q.txMsg q.nextToClean q.nextToUse).reduceOption

/-- Each message that cleaning gave back unforced was in a slot marked done before. -/
def DoneOk (log : List SendEvent) : Prop :=
  ∀ pre c rest, log = pre ++ .cleaned c false :: rest → marked pre c.slot = true

namespace SendSystem

def step (s : SendSystem) : SendOp → Option SendSystem
  | .send msgs =>
    let r := s.q.send msgs
    some ⟨r.1, s.log ++ if r.2 = 0 then sentFrom s.q.ringSize s.q.nextToUse msgs else []⟩
  | .clean count force =>
    let r := s.q.cleanSq count force
    some ⟨r.1, s.log ++ r.2.2.map fun c => .cleaned c force⟩
  | .done slot d =>
    some ⟨{ s.q with
      desc := Function.update s.q.desc slot { d with flags := { d.flags with dd := true } } },
      s.log ++ [.done slot]⟩

/-- A new send queue, whose size is a `u16`. -/
def start (s : SendSystem) : Prop :=
  ∃ n simics, 0 < n ∧ n < 65536 ∧ s = ⟨sendQueueAdd n simics, []⟩

/-- A batch that has room is not refused behind its first message. -/
def sendOk (s : SendSystem) : SendOp → Bool
  | .send msgs => decide (s.q.unused = 0) || decide (s.q.unused < msgs.length) ||
      match msgs with
      | [] => true
      | msg :: _ => !msg.sendable || msgs.all CtlqMsg.sendable
  | _ => true

end SendSystem

theorem fill_snd (d : CtlqDesc) (simics : Bool) (msg : CtlqMsg) :
    (d.fill simics msg).2 = msg.sendable := by
  unfold CtlqDesc.fill CtlqMsg.sendable
  by_cases len : msg.dataLen = 0
  · simp [len]
  · cases payload : msg.payload with
    | none => simp [len]
    | some buff => simp [len]

theorem fill_dd (d : CtlqDesc) (simics : Bool) (msg : CtlqMsg) :
    (d.fill simics msg).1.flags.dd = false := by
  unfold CtlqDesc.fill
  by_cases len : msg.dataLen = 0
  · simp [len]
  · cases payload : msg.payload with
    | none => simp [len]
    | some buff => simp [len]

/-- The queue holds the messages `l`, the first of them at position `c`. -/
structure SendQueue.Holding (q : SendQueue) (c : Nat) (l : List CtlqMsg) : Prop where
  room : l.length < q.ringSize
  clean : q.nextToClean = c % q.ringSize
  use : q.nextToUse = (c + l.length) % q.ringSize
  full : ∀ j, j < l.length → q.txMsg ((c + j) % q.ringSize) = l[j]?
  free : ∀ k, c + l.length ≤ k → k < c + q.ringSize → q.txMsg (k % q.ringSize) = none

namespace SendQueue

variable {q : SendQueue} {c : Nat} {l : List CtlqMsg} {msg : CtlqMsg}

theorem Holding.pos (h : q.Holding c l) : 0 < q.ringSize := Nat.zero_lt_of_lt h.room

theorem Holding.push (h : q.Holding c l) (room : l.length + 1 < q.ringSize) :
    (q.put msg).Holding c (l ++ [msg]) := by
  have pos := h.pos
  constructor
  · rw [List.length_append]
    exact room
  · exact h.clean
  · change bump q.ringSize q.nextToUse = _
    rw [h.use, bump_mod pos, List.length_append]
    rfl
  · intro j lt
    rw [List.length_append] at lt
    change Function.update q.txMsg q.nextToUse (some msg) _ = _
    rw [h.use, show (q.put msg).ringSize = q.ringSize from rfl]
    rcases Nat.lt_succ_iff_lt_or_eq.mp lt with old | rfl
    · have other := mod_ne_of_near (n := q.ringSize) (a := c + j) (b := c + l.length)
        (by omega) (by omega)
      rw [Function.update_of_ne other, List.getElem?_append_left old]
      exact h.full j old
    · rw [Function.update_self, List.getElem?_append_right (Nat.le_refl _), Nat.sub_self]
      rfl
  · intro k le lt
    rw [List.length_append] at le
    have other := mod_ne_of_near (n := q.ringSize) (a := c + l.length) (b := k)
      (Nat.lt_of_succ_le le) (by
        have size : k < c + q.ringSize := lt
        omega)
    change Function.update q.txMsg q.nextToUse (some msg) (k % q.ringSize) = none
    rw [h.use, Function.update_of_ne other.symm]
    exact h.free k (by omega) lt

theorem Holding.head (h : q.Holding c (msg :: l)) : q.txMsg q.nextToClean = some msg := by
  have first := h.full 0 (Nat.zero_lt_succ _)
  rw [h.clean]
  exact first

theorem Holding.empty (h : q.Holding c []) : q.txMsg q.nextToClean = none := by
  rw [h.clean]
  exact h.free c (Nat.le_refl _) (Nat.lt_add_of_pos_right h.pos)

theorem Holding.pop (h : q.Holding c (msg :: l)) : q.pop.Holding (c + 1) l := by
  have pos := h.pos
  have room := h.room
  rw [List.length_cons] at room
  constructor
  · exact Nat.lt_of_succ_lt room
  · change bump q.ringSize q.nextToClean = _
    rw [h.clean, bump_mod pos]
    rfl
  · change q.nextToUse = _
    rw [h.use, List.length_cons, Nat.add_right_comm, Nat.add_assoc]
    rfl
  · intro j lt
    change Function.update q.txMsg q.nextToClean none _ = _
    have other := mod_ne_of_near (n := q.ringSize) (a := c) (b := c + 1 + j) (by omega) (by omega)
    rw [h.clean, show q.pop.ringSize = q.ringSize from rfl, Function.update_of_ne other.symm]
    have next := h.full (j + 1) (Nat.succ_lt_succ lt)
    rw [show c + 1 + j = c + (j + 1) by omega, next]
    rfl
  · intro k le lt
    change Function.update q.txMsg q.nextToClean none (k % q.ringSize) = none
    by_cases same : k % q.ringSize = q.nextToClean
    · rw [same, Function.update_self]
    · rw [Function.update_of_ne same]
      have size : k < c + 1 + q.ringSize := lt
      refine h.free k (by rw [List.length_cons]; omega) ?_
      by_contra far
      have last : k = c + q.ringSize := by omega
      apply same
      rw [last, Nat.add_mod_right, h.clean]

theorem Holding.seg (h : q.Holding c l) :
    ringSeg q.ringSize q.txMsg q.nextToClean q.nextToUse = l.map some := by
  have room := h.room
  rw [h.clean, h.use, ringSeg_eq _ (Nat.le_add_right _ _) (by omega), Nat.add_sub_cancel_left]
  apply List.ext_getElem
  · simp
  · intro j lt _
    have inside : j < l.length := by simpa using lt
    simp [h.full j inside, inside]

theorem Holding.queued (h : q.Holding c l) : q.queued = l := by
  rw [SendQueue.queued, h.seg]
  change (l.map some).filterMap id = l
  rw [List.filterMap_map]
  exact List.filterMap_some

theorem Holding.unused (h : q.Holding c l) (small : q.ringSize < 65536) :
    l.length + q.unused + 1 = q.ringSize := by
  have pos := h.pos
  have room := h.room
  have clean : q.nextToClean < q.ringSize := by
    rw [h.clean]
    exact Nat.mod_lt _ pos
  have use : q.nextToUse < q.ringSize := by
    rw [h.use]
    exact Nat.mod_lt _ pos
  have used : ringDist q.ringSize q.nextToClean q.nextToUse = l.length := by
    rw [h.clean, h.use, ringDist_mod (Nat.le_add_right _ _) (by omega), Nat.add_sub_cancel_left]
  unfold ringDist at used
  unfold SendQueue.unused
  by_cases wrapped : q.nextToClean > q.nextToUse
  · rw [if_neg (by omega)] at used
    rw [if_pos wrapped, Nat.mod_eq_of_lt (by omega)]
    omega
  · rw [if_pos (by omega)] at used
    rw [if_neg wrapped, Nat.mod_eq_of_lt (by omega)]
    omega

end SendQueue

theorem marked_sent (log : List SendEvent) (msg : CtlqMsg) (slot i : Nat) :
    marked (log ++ [.sent msg slot]) i = if slot = i then false else marked log i := by
  unfold marked
  rw [List.foldl_append]
  rfl

theorem marked_done (log : List SendEvent) (slot i : Nat) :
    marked (log ++ [.done slot]) i = if slot = i then true else marked log i := by
  unfold marked
  rw [List.foldl_append]
  rfl

theorem marked_cleaned (log : List SendEvent) (d : Cleaned) (force : Bool) (i : Nat) :
    marked (log ++ [.cleaned d force]) i = marked log i := by
  unfold marked
  rw [List.foldl_append]
  rfl

theorem DoneOk.snoc {log : List SendEvent} {e : SendEvent} (old : DoneOk log)
    (new : ∀ c, e = .cleaned c false → marked log c.slot = true) : DoneOk (log ++ [e]) := by
  intro pre c rest eq
  rcases List.eq_nil_or_concat rest with rfl | ⟨front, last, rfl⟩
  · obtain ⟨rfl, same⟩ := List.append_inj' eq rfl
    exact new c (List.cons.inj same).1
  · rw [List.concat_eq_append, ← List.cons_append, ← List.append_assoc] at eq
    exact old pre c front (List.append_inj' eq rfl).1

/-- The queue holds `l` from position `c` on, and the history agrees. -/
structure SendInv (s : SendSystem) (c : Nat) (l : List CtlqMsg) : Prop where
  holding : s.q.Holding c l
  small : s.q.ringSize < 65536
  fifo : sentMsgs s.log = cleanedMsgs s.log ++ l.zip (ringSlots s.q.ringSize c l.length)
  mark : ∀ i, (s.q.desc i).flags.dd = true → marked s.log i = true
  done : DoneOk s.log

namespace SendInv

variable {q : SendQueue} {log : List SendEvent} {c : Nat} {l : List CtlqMsg}

theorem put (h : SendInv ⟨q, log⟩ c l) (msg : CtlqMsg) (room : l.length + 1 < q.ringSize) :
    SendInv ⟨q.put msg, log ++ [.sent msg q.nextToUse]⟩ c (l ++ [msg]) := by
  constructor
  · exact h.holding.push room
  · exact h.small
  · have before : sentMsgs log = cleanedMsgs log ++ l.zip (ringSlots q.ringSize c l.length) :=
      h.fifo
    have use : q.nextToUse = (c + l.length) % q.ringSize := h.holding.use
    change sentMsgs _ = cleanedMsgs _ ++ (l ++ [msg]).zip (ringSlots q.ringSize c _)
    rw [List.length_append, List.length_singleton, ringSlots_snoc,
      List.zip_append (ringSlots_length _ _ _).symm, ← use, ← List.append_assoc]
    unfold sentMsgs cleanedMsgs at before ⊢
    rw [List.filterMap_append, List.filterMap_append, before]
    simp
  · intro i dd
    rw [marked_sent]
    by_cases same : q.nextToUse = i
    · subst same
      have refilled : ((q.put msg).desc q.nextToUse).flags.dd = false := by
        change (Function.update q.desc q.nextToUse _ q.nextToUse).flags.dd = false
        rw [Function.update_self]
        exact fill_dd _ _ _
      rw [refilled] at dd
      exact Bool.noConfusion dd
    · rw [if_neg same]
      apply h.mark
      have kept : (q.put msg).desc i = q.desc i := Function.update_of_ne (Ne.symm same) _ _
      rw [← kept]
      exact dd
  · apply h.done.snoc
    intro _ eq
    exact SendEvent.noConfusion eq

theorem putAll {msgs : List CtlqMsg} (h : SendInv ⟨q, log⟩ c l)
    (room : l.length + msgs.length < q.ringSize) (good : msgs.all CtlqMsg.sendable = true) :
    (q.putAll msgs).2 = true ∧
      SendInv ⟨(q.putAll msgs).1, log ++ sentFrom q.ringSize q.nextToUse msgs⟩ c (l ++ msgs) := by
  induction msgs generalizing q log l with
  | nil =>
    constructor
    · rfl
    · rw [sentFrom, List.append_nil, List.append_nil]
      exact h
  | cons msg msgs ih =>
    rw [List.all_cons, Bool.and_eq_true] at good
    rw [List.length_cons] at room
    have first := h.put msg (by omega)
    have rest := ih first (by
      rw [List.length_append, List.length_singleton]
      change _ < q.ringSize
      omega) good.2
    rw [SendQueue.putAll, fill_snd, if_pos good.1, sentFrom]
    rw [List.append_assoc, List.append_assoc] at rest
    exact rest

theorem refuse (h : SendInv ⟨q, log⟩ c l) (msg : CtlqMsg) :
    SendInv ⟨{ q with
      desc := Function.update q.desc q.nextToUse ((q.desc q.nextToUse).fill q.simics msg).1 }, log⟩
      c l := by
  refine ⟨⟨h.holding.room, h.holding.clean, h.holding.use, h.holding.full, h.holding.free⟩,
    h.small, h.fifo, ?_, h.done⟩
  intro i dd
  apply h.mark
  by_cases same : i = q.nextToUse
  · subst same
    have refilled := fill_dd (q.desc q.nextToUse) q.simics msg
    simp only [Function.update_self] at dd
    rw [refilled] at dd
    exact Bool.noConfusion dd
  · simpa only [Function.update_of_ne same] using dd

theorem tail (h : SendInv ⟨q, log⟩ c l) (t : Nat) : SendInv ⟨{ q with tail := t }, log⟩ c l :=
  ⟨⟨h.holding.room, h.holding.clean, h.holding.use, h.holding.full, h.holding.free⟩, h.small,
    h.fifo, h.mark, h.done⟩

theorem pop {msg : CtlqMsg} (h : SendInv ⟨q, log⟩ c (msg :: l)) {force : Bool} (status : Nat)
    (seen : force = true ∨ (q.desc q.nextToClean).flags.dd = true) :
    SendInv ⟨q.pop, log ++ [.cleaned ⟨q.nextToClean, msg, status⟩ force]⟩ (c + 1) l := by
  constructor
  · exact h.holding.pop
  · exact h.small
  · have before : sentMsgs log =
        cleanedMsgs log ++ (msg :: l).zip (ringSlots q.ringSize c (l.length + 1)) := h.fifo
    have clean : q.nextToClean = c % q.ringSize := h.holding.clean
    change sentMsgs _ = cleanedMsgs _ ++ l.zip (ringSlots q.ringSize _ _)
    rw [ringSlots_cons, List.zip_cons_cons, ← clean] at before
    unfold sentMsgs cleanedMsgs at before ⊢
    rw [List.filterMap_append, List.filterMap_append, before]
    simp
  · intro i dd
    rw [marked_cleaned]
    apply h.mark
    by_cases same : i = q.nextToClean
    · subst same
      have cleared : q.pop.desc q.nextToClean = {} := Function.update_self _ _ _
      rw [cleared] at dd
      exact Bool.noConfusion dd
    · have kept : q.pop.desc i = q.desc i := Function.update_of_ne same _ _
      rw [← kept]
      exact dd
  · apply h.done.snoc
    intro d eq
    obtain ⟨rfl, rfl⟩ := SendEvent.cleaned.inj eq
    exact h.mark _ (seen.resolve_left Bool.false_ne_true)

theorem popAll (h : SendInv ⟨q, log⟩ c l) (force : Bool) (n : Nat) :
    ∃ c' l', SendInv ⟨(SendQueue.popAll force n q).1,
      log ++ (SendQueue.popAll force n q).2.map fun d => .cleaned d force⟩ c' l' := by
  have same : ∃ c' l',
      SendInv ⟨q, log ++ ([] : List Cleaned).map fun d => .cleaned d force⟩ c' l' := by
    rw [List.map_nil, List.append_nil]
    exact ⟨c, l, h⟩
  induction n generalizing q log c l with
  | zero => exact same
  | succ n ih =>
    rw [SendQueue.popAll]
    by_cases seen : force = true ∨ (q.desc q.nextToClean).flags.dd = true
    · rw [if_pos seen]
      cases l with
      | nil =>
        rw [h.holding.empty]
        exact same
      | cons msg l =>
        rw [h.holding.head]
        have first := h.pop ((q.desc q.nextToClean).retVal % 256) seen
        obtain ⟨c', l', rest⟩ := ih first (by
          rw [List.map_nil, List.append_nil]
          exact ⟨_, _, first⟩)
        rw [List.append_assoc] at rest
        exact ⟨c', l', rest⟩
    · rw [if_neg seen]
      exact same

end SendInv

/-- What makes the send queue an exactly-once queue of messages. -/
structure SendFifo (s : SendSystem) : Prop where
  fifo : sentMsgs s.log = cleanedMsgs s.log ++
    s.q.queued.zip (ringSlots s.q.ringSize s.q.nextToClean s.q.queued.length)
  whole : ringSeg s.q.ringSize s.q.txMsg s.q.nextToClean s.q.nextToUse = s.q.queued.map some
  fits : s.q.queued.length + s.q.unused + 1 = s.q.ringSize
  accepts : ∀ msgs, (s.q.send msgs).2 = 0 → msgs.length ≤ s.q.unused
  done : DoneOk s.log

theorem SendInv.property {s : SendSystem} {c : Nat} {l : List CtlqMsg} (h : SendInv s c l) :
    SendFifo s := by
  have queued := h.holding.queued
  constructor
  · rw [queued, h.holding.clean, ringSlots_mod]
    exact h.fifo
  · rw [queued]
    exact h.holding.seg
  · rw [queued]
    exact h.holding.unused h.small
  · intro msgs accepted
    by_contra more
    rw [SendQueue.send, if_pos (Or.inr (Nat.lt_of_not_le more))] at accepted
    exact absurd accepted (show (-28 : Int) ≠ 0 by decide)
  · exact h.done

theorem sendInv_start {s : SendSystem} (h : s.start) : ∃ c l, SendInv s c l := by
  obtain ⟨n, simics, pos, small, rfl⟩ := h
  refine ⟨0, [], ⟨?_, ?_, ?_, ?_, ?_⟩, small, rfl, ?_, ?_⟩
  · exact pos
  · exact (Nat.zero_mod n).symm
  · exact (Nat.zero_mod n).symm
  · intro j lt
    exact absurd lt (Nat.not_lt_zero j)
  · intro k _ _
    rfl
  · intro i dd
    exact Bool.noConfusion dd
  · intro pre c rest eq
    exact absurd eq.symm (List.append_ne_nil_of_right_ne_nil _ (List.cons_ne_nil _ _))

theorem sendInv_send {q : SendQueue} {log : List SendEvent} {c : Nat} {l msgs : List CtlqMsg}
    (h : SendInv ⟨q, log⟩ c l) (ok : SendSystem.sendOk ⟨q, log⟩ (.send msgs) = true) :
    ∃ c' l', SendInv ⟨(q.send msgs).1,
      log ++ if (q.send msgs).2 = 0 then sentFrom q.ringSize q.nextToUse msgs else []⟩ c' l' := by
  unfold SendQueue.send
  by_cases full : q.unused = 0 ∨ q.unused < msgs.length
  · rw [if_pos full]
    refine ⟨c, l, ?_⟩
    change SendInv ⟨q, log ++ []⟩ c l
    rw [List.append_nil]
    exact h
  · rw [if_neg full]
    have space := h.holding.unused h.small
    have room : l.length + msgs.length < q.ringSize := by
      have size : l.length + q.unused + 1 = q.ringSize := space
      omega
    cases msgs with
    | nil =>
      refine ⟨c, l, ?_⟩
      change SendInv ⟨_, log ++ []⟩ c l
      rw [List.append_nil]
      exact h.tail _
    | cons msg msgs =>
      by_cases good : (msg :: msgs).all CtlqMsg.sendable = true
      · obtain ⟨accepted, rest⟩ := h.putAll room good
        refine ⟨c, l ++ msg :: msgs, ?_⟩
        rw [if_pos accepted]
        exact rest.tail _
      · have bad : msg.sendable = false := by
          simp only [SendSystem.sendOk, Bool.or_eq_true, decide_eq_true_eq, Bool.not_eq_true'] at ok
          rcases ok with (none | few) | bad | all
          · exact absurd (Or.inl none) full
          · exact absurd (Or.inr few) full
          · exact bad
          · exact absurd all good
        have refused := h.refuse msg
        refine ⟨c, l, ?_⟩
        rw [SendQueue.putAll, fill_snd, bad]
        change SendInv ⟨_, log ++ []⟩ c l
        rw [List.append_nil]
        exact refused

theorem sendInv_step {s t : SendSystem} {op : SendOp} (h : ∃ c l, SendInv s c l)
    (ok : s.sendOk op = true) (step : s.step op = some t) : ∃ c l, SendInv t c l := by
  obtain ⟨c, l, h⟩ := h
  obtain ⟨q, log⟩ := s
  cases op with
  | send msgs =>
    obtain rfl := Option.some.inj step
    exact sendInv_send h ok
  | clean count force =>
    obtain rfl := Option.some.inj step
    have same : SendInv ⟨q, log ++ ([] : List Cleaned).map fun d => .cleaned d force⟩ c l := by
      rw [List.map_nil, List.append_nil]
      exact h
    change ∃ c' l', SendInv ⟨(q.cleanSq count force).1,
      log ++ (q.cleanSq count force).2.2.map fun d => .cleaned d force⟩ c' l'
    unfold SendQueue.cleanSq
    by_cases none : count = 0
    · rw [if_pos none]
      exact ⟨c, l, same⟩
    · rw [if_neg none]
      by_cases many : q.ringSize < count
      · rw [if_pos many]
        exact ⟨c, l, same⟩
      · rw [if_neg many]
        exact h.popAll force count
  | done slot d =>
    obtain rfl := Option.some.inj step
    refine ⟨c, l, ⟨h.holding.room, h.holding.clean, h.holding.use, h.holding.full,
      h.holding.free⟩, h.small, ?_, ?_, ?_⟩
    · have before : sentMsgs log = cleanedMsgs log ++ l.zip (ringSlots q.ringSize c l.length) :=
        h.fifo
      change sentMsgs (log ++ _) = cleanedMsgs (log ++ _) ++ l.zip (ringSlots q.ringSize c l.length)
      unfold sentMsgs cleanedMsgs at before ⊢
      rw [List.filterMap_append, List.filterMap_append, before]
      simp
    · intro i dd
      rw [marked_done]
      by_cases same : slot = i
      · rw [if_pos same]
      · rw [if_neg same]
        apply h.mark
        have kept := Function.update_of_ne (Ne.symm same)
          { d with flags := { d.flags with dd := true } } q.desc
        rw [← kept]
        exact dd
    · apply h.done.snoc
      intro _ eq
      exact SendEvent.noConfusion eq

/-- In a run in which no batch with room is refused behind its first message, the send queue is an
exactly-once queue. -/
theorem SendSystem.fifo_of_reachable {s : SendSystem}
    (h : Reachable SendSystem.step (fun s op => s.sendOk op = true) SendSystem.start s) :
    SendFifo s :=
  let ⟨_, _, inv⟩ := h.invariant (I := fun s => ∃ c l, SendInv s c l) (fun _ => sendInv_start)
    fun _ _ _ => sendInv_step
  inv.property

theorem SendSystem.fifo_of_reachable_wrap : ∃ s, SendFifo s ∧
    s.q.nextToUse = 1 ∧ s.q.nextToClean = 3 ∧
    cleanedMsgs s.log = [({ ptr := 1 }, 0), ({ ptr := 2 }, 1), ({ ptr := 3 }, 2)] ∧
    s.q.queued = [{ ptr := 4 }, { ptr := 5, dataLen := 8, payload := some ⟨4096, 64⟩ }] := by
  have run : (execIf SendSystem.step SendSystem.sendOk ⟨sendQueueAdd 4 false, []⟩
      [.send [{ ptr := 1 }, { ptr := 2 }], .done 0 {}, .clean 4 false, .send [{ ptr := 3 }],
        .done 1 {}, .clean 4 false, .clean 1 true,
        .send [{ ptr := 4 }, { ptr := 5, dataLen := 8, payload := some ⟨4096, 64⟩ }],
        .clean 2 false, .send [{ ptr := 6 }, { ptr := 7 }]]).map
      (fun s => (s.q.nextToUse, s.q.nextToClean, cleanedMsgs s.log, s.q.queued)) =
      some (1, 3, [({ ptr := 1 }, 0), ({ ptr := 2 }, 1), ({ ptr := 3 }, 2)],
        [{ ptr := 4 }, { ptr := 5, dataLen := 8, payload := some ⟨4096, 64⟩ }]) := by
    decide +kernel
  obtain ⟨s, steps, eq⟩ := Option.map_eq_some_iff.mp run
  have reached : Reachable SendSystem.step (fun s op => s.sendOk op = true) SendSystem.start s :=
    Reachable.execIf (.start ⟨4, false, by decide, by decide, rfl⟩) steps
  obtain ⟨use, clean, cleaned, queued⟩ := by simpa only [Prod.mk.injEq] using eq
  exact ⟨s, SendSystem.fifo_of_reachable reached, use, clean, cleaned, queued⟩

/-- A batch refused for its second message leaves the first on the ring: the next batch hands it to
the device, and cleaning gives it back. -/
theorem refused_batch_sent : ∃ s,
    Reachable SendSystem.step anyStep SendSystem.start s ∧ ¬ SendFifo s ∧
    sentMsgs s.log = [({ ptr := 3 }, 1)] ∧
    cleanedMsgs s.log = [({ ptr := 1 }, 0), ({ ptr := 3 }, 1)] := by
  have run : (exec SendSystem.step ⟨sendQueueAdd 4 false, []⟩
      [.send [{ ptr := 1 }, { ptr := 2, dataLen := 8 }], .send [{ ptr := 3 }], .done 0 {},
        .done 1 {}, .clean 4 false]).map
      (fun s => (sentMsgs s.log, cleanedMsgs s.log)) =
      some ([({ ptr := 3 }, 1)], [({ ptr := 1 }, 0), ({ ptr := 3 }, 1)]) := by
    decide +kernel
  obtain ⟨s, steps, eq⟩ := Option.map_eq_some_iff.mp run
  have reached : Reachable SendSystem.step anyStep SendSystem.start s :=
    Reachable.exec (.start ⟨4, false, by decide, by decide, rfl⟩) steps
  obtain ⟨sent, cleaned⟩ := Prod.mk.inj eq
  refine ⟨s, reached, ?_, sent, cleaned⟩
  intro queue
  have more := congrArg List.length queue.fifo
  rw [sent, cleaned, List.length_append] at more
  simp only [List.length_cons, List.length_nil] at more
  omega

end Idpf
