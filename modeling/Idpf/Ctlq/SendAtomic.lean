import Idpf.Ctlq.SendFifo

/-! A batch that `idpf_ctlq_send` refuses, and what the calls that follow make of it: the next
accepted batch hands everything up to `next_to_use` to the device. -/
namespace Idpf
open General

/-- What a call shows: its return value, the descriptors that the tail moves over, and the messages
given back. -/
structure SendObs where
  ret : Int := 0
  sent : List (Nat × CtlqDesc) := []
  cleaned : List Cleaned := []
  deriving DecidableEq, Repr

namespace SendQueue

/-- The descriptors handed to the device when the tail moves to `tail`. -/
def handed (q : SendQueue) (tail : Nat) : List (Nat × CtlqDesc) :=
  (ringSlots q.ringSize tail (ringDist q.ringSize tail q.tail)).map fun i => (i, q.desc i)

def react (q : SendQueue) : SendOp → SendQueue × SendObs
  | .send msgs =>
    let r := q.send msgs
    (r.1, { ret := r.2, sent := r.1.handed q.tail })
  | .clean count force =>
    let r := q.cleanSq count force
    (r.1, { ret := r.2.1, cleaned := r.2.2 })
  | .done slot d =>
    ({ q with desc := Function.update q.desc slot { d with flags := { d.flags with dd := true } } },
      {})

end SendQueue

theorem SendSystem.step_react {s t : SendSystem} {op : SendOp} (step : s.step op = some t) :
    t.q = (s.q.react op).1 := by
  cases op with
  | send msgs => exact congrArg SendSystem.q (Option.some.inj step).symm
  | clean count force => exact congrArg SendSystem.q (Option.some.inj step).symm
  | done slot d => exact congrArg SendSystem.q (Option.some.inj step).symm

/-- A failed batch leaves the index, the flags, the messages and the tail as they were, and whatever
is called next shows what it would have shown without it. -/
structure SendAtomic (q : SendQueue) (msgs : List CtlqMsg) : Prop where
  use : (q.send msgs).2 ≠ 0 → (q.send msgs).1.nextToUse = q.nextToUse
  flags : (q.send msgs).2 ≠ 0 → ∀ i, ((q.send msgs).1.desc i).flags = (q.desc i).flags
  shadow : (q.send msgs).2 ≠ 0 → (q.send msgs).1.txMsg = q.txMsg
  tail : (q.send msgs).2 ≠ 0 → (q.send msgs).1.tail = q.tail
  later : (q.send msgs).2 ≠ 0 → ∀ ops,
    outputs SendQueue.react (q.send msgs).1 ops = outputs SendQueue.react q ops

/-- The batch has no room, no message of it is refused, or the first one is and the free descriptor
has the flags that are written into it before the payload is looked at. -/
def sendAtomicOk (q : SendQueue) (msgs : List CtlqMsg) : Bool :=
  decide (q.unused = 0) || decide (q.unused < msgs.length) || msgs.all CtlqMsg.sendable ||
    msgs.head?.any fun msg =>
      !msg.sendable && (q.desc q.nextToUse).flags == { hostId := msg.hostId % 8 }

/-! The ring holds the messages of every batch, also those in front of a refused one. -/

namespace SendQueue

variable {q : SendQueue} {c : Nat} {l : List CtlqMsg}

theorem Holding.rewrite (h : q.Holding c l) (desc : Nat → CtlqDesc) (tail : Nat) :
    { q with desc, tail }.Holding c l := ⟨h.room, h.clean, h.use, h.full, h.free⟩

/-- The loop of `idpf_ctlq_send` puts the messages up to the first refused one on the ring. -/
theorem Holding.putAll (h : q.Holding c l) (msgs : List CtlqMsg)
    (room : l.length + msgs.length < q.ringSize) :
    (q.putAll msgs).1.Holding c (l ++ msgs.takeWhile CtlqMsg.sendable) ∧
      (q.putAll msgs).1.ringSize = q.ringSize ∧
      (q.putAll msgs).2 = msgs.all CtlqMsg.sendable := by
  induction msgs generalizing q l with
  | nil =>
      rw [SendQueue.putAll, List.takeWhile_nil, List.append_nil]
      exact ⟨h, rfl, rfl⟩
  | cons msg msgs ih =>
      rw [List.length_cons] at room
      rw [SendQueue.putAll, fill_snd]
      cases good : msg.sendable with
      | true =>
          have first : (q.put msg).Holding c (l ++ [msg]) := h.push (by omega)
          obtain ⟨held, size, ok⟩ := ih first (by
            rw [List.length_append, List.length_singleton]
            change _ < q.ringSize
            omega)
          rw [if_pos rfl, List.takeWhile_cons_of_pos good]
          refine ⟨?_, size, ?_⟩
          · rw [List.append_assoc] at held
            exact held
          · rw [ok, List.all_cons, good, Bool.true_and]
      | false =>
          rw [if_neg Bool.false_ne_true, List.takeWhile_cons_of_neg (Bool.eq_false_iff.mp good),
            List.append_nil]
          refine ⟨⟨h.room, h.clean, h.use, h.full, h.free⟩, rfl, ?_⟩
          rw [List.all_cons, good, Bool.false_and]

theorem putAll_tail (q : SendQueue) (msgs : List CtlqMsg) : (q.putAll msgs).1.tail = q.tail := by
  induction msgs generalizing q with
  | nil => rfl
  | cons msg msgs ih =>
      rw [SendQueue.putAll]
      split
      · exact ih (q.put msg)
      · rfl

theorem Holding.popAll (h : q.Holding c l) (force : Bool) (n : Nat) :
    ∃ c' l', (SendQueue.popAll force n q).1.Holding c' l' ∧
      (SendQueue.popAll force n q).1.ringSize = q.ringSize ∧
      (SendQueue.popAll force n q).1.tail = q.tail := by
  induction n generalizing q c l with
  | zero => exact ⟨c, l, h, rfl, rfl⟩
  | succ n ih =>
      rw [SendQueue.popAll]
      dsimp only
      split
      · cases l with
        | nil =>
            rw [h.empty]
            exact ⟨c, [], h, rfl, rfl⟩
        | cons msg l =>
            rw [h.head]
            exact ih h.pop
      · exact ⟨c, l, h, rfl, rfl⟩

/-- What holds of a send queue in any run: it holds messages, and its tail is on the ring. -/
structure Sound (q : SendQueue) : Prop where
  small : q.ringSize < 65536
  tail : q.tail < q.ringSize
  holds : ∃ c l, q.Holding c l

theorem Sound.use (v : q.Sound) : q.nextToUse < q.ringSize := by
  obtain ⟨c, l, h⟩ := v.holds
  rw [h.use]
  exact Nat.mod_lt _ h.pos

theorem Sound.send (v : q.Sound) (msgs : List CtlqMsg) : (q.send msgs).1.Sound := by
  obtain ⟨c, l, h⟩ := v.holds
  unfold SendQueue.send
  split
  · exact v
  · next room =>
      have space := h.unused v.small
      obtain ⟨held, size, -⟩ := h.putAll msgs (by omega)
      have small := v.small
      dsimp only
      split
      · refine ⟨size ▸ small, ?_, c, _, held.rewrite _ _⟩
        change (q.putAll msgs).1.nextToUse < (q.putAll msgs).1.ringSize
        rw [held.use]
        exact Nat.mod_lt _ held.pos
      · refine ⟨size ▸ small, ?_, c, _, held⟩
        rw [size, putAll_tail]
        exact v.tail

theorem Sound.cleanSq (v : q.Sound) (count : Nat) (force : Bool) :
    (q.cleanSq count force).1.Sound := by
  obtain ⟨c, l, h⟩ := v.holds
  unfold SendQueue.cleanSq
  split
  · exact v
  · split
    · exact v
    · obtain ⟨c', l', held, size, tail⟩ := h.popAll force count
      refine ⟨?_, ?_, c', l', held⟩
      · dsimp only
        rw [size]
        exact v.small
      · dsimp only
        rw [size, tail]
        exact v.tail

theorem Sound.react (v : q.Sound) (op : SendOp) : (q.react op).1.Sound := by
  cases op with
  | send msgs => exact v.send msgs
  | clean count force => exact v.cleanSq count force
  | done slot d =>
      obtain ⟨c, l, h⟩ := v.holds
      exact ⟨v.small, v.tail, c, l, h.rewrite _ _⟩

end SendQueue

theorem SendSystem.sound_of_reachable {s : SendSystem}
    (h : Reachable SendSystem.step anyStep SendSystem.start s) : s.q.Sound := by
  refine h.invariant (I := fun s => s.q.Sound) ?_ ?_
  · intro s start
    obtain ⟨c, l, v⟩ := sendInv_start start
    obtain ⟨n, simics, pos, small, rfl⟩ := start
    exact ⟨small, pos, c, l, v.holding⟩
  · intro s op t v _ step
    rw [SendSystem.step_react step]
    exact v.react op

/-! Two queues that differ in what the next message overwrites cannot be told apart. -/

/-- Descriptors that differ in the fields written first. -/
structure CtlqDesc.Alike (d d' : CtlqDesc) : Prop where
  flags : d'.flags = d.flags
  datalen : d'.datalen = d.datalen
  param0 : d'.param0 = d.param0
  param1 : d'.param1 = d.param1
  addrHigh : d'.addrHigh = d.addrHigh
  addrLow : d'.addrLow = d.addrLow

theorem CtlqDesc.Alike.fill {d d' : CtlqDesc} (h : d.Alike d') (simics : Bool) (msg : CtlqMsg) :
    d'.fill simics msg = d.fill simics msg := by
  obtain ⟨flags, opcode, datalen, retVal, high, low, param0, param1, addrHigh, addrLow⟩ := d
  obtain ⟨flags', opcode', datalen', retVal', high', low', param0', param1', addrHigh', addrLow'⟩ :=
    d'
  obtain ⟨rfl, rfl, rfl, rfl, rfl, rfl⟩ := h
  rfl

theorem CtlqDesc.fill_refused (d : CtlqDesc) (simics : Bool) {msg : CtlqMsg}
    (bad : msg.sendable = false) : (d.fill simics msg).1 = { d with
      opcode := msg.opcode, retVal := msg.status, cookieHigh := msg.chnlOpcode
      cookieLow := msg.chnlRetval, flags := { hostId := msg.hostId % 8 } } := by
  unfold CtlqMsg.sendable at bad
  rw [Bool.or_eq_false_iff] at bad
  have long : msg.dataLen ≠ 0 := by simpa using bad.1
  have none : msg.payload = none := by simpa using bad.2
  unfold CtlqDesc.fill
  rw [if_pos long, none]

theorem SendQueue.handed_self (q : SendQueue) : q.handed q.tail = [] := by
  rw [SendQueue.handed, ringDist_self]
  rfl

theorem not_mem_ringSlots_dist {n i j : Nat} (hi : i < n) (hj : j < n) :
    j ∉ ringSlots n i (ringDist n i j) := by
  intro member
  obtain ⟨k, short, eq⟩ := mem_ringSlots.mp member
  have room : ringDist n i i + k < n := by
    have := ringDist_lt (n := n) (i := i) hj
    rw [ringDist_self]
    omega
  have dist := ringDist_add hi hi room
  rw [eq, ringDist_self, Nat.zero_add] at dist
  omega

/-- Descriptors that agree with those of the queue but for the free one at `next_to_use`. -/
structure SendQueue.Twin (q : SendQueue) (desc : Nat → CtlqDesc) : Prop where
  tail : q.tail < q.ringSize
  use : q.nextToUse < q.ringSize
  empty : q.txMsg q.nextToUse = none
  others : ∀ i, i ≠ q.nextToUse → desc i = q.desc i
  here : (q.desc q.nextToUse).Alike (desc q.nextToUse)

namespace SendQueue.Twin

variable {q : SendQueue} {desc : Nat → CtlqDesc}

theorem update (h : q.Twin desc) (d : CtlqDesc) :
    Function.update desc q.nextToUse d = Function.update q.desc q.nextToUse d := by
  funext i
  by_cases same : i = q.nextToUse
  · rw [same, Function.update_self, Function.update_self]
  · rw [Function.update_of_ne same, Function.update_of_ne same, h.others i same]

theorem putAll (h : q.Twin desc) (msg : CtlqMsg) (msgs : List CtlqMsg) :
    SendQueue.putAll { q with desc } (msg :: msgs) = q.putAll (msg :: msgs) := by
  have filled := h.here.fill q.simics msg
  have put : SendQueue.put { q with desc } msg = q.put msg := by
    unfold SendQueue.put
    dsimp only
    rw [filled, h.update]
  rw [SendQueue.putAll, SendQueue.putAll]
  dsimp only
  rw [filled, put, h.update]

/-- What is read at `next_to_clean`. -/
theorem read (h : q.Twin desc) : (desc q.nextToClean).flags = (q.desc q.nextToClean).flags ∧
    (q.txMsg q.nextToClean ≠ none → desc q.nextToClean = q.desc q.nextToClean) := by
  by_cases same : q.nextToClean = q.nextToUse
  · rw [same]
    exact ⟨h.here.flags, fun some => absurd h.empty some⟩
  · have other := h.others q.nextToClean same
    exact ⟨congrArg CtlqDesc.flags other, fun _ => other⟩

theorem pop (h : q.Twin desc) (held : q.txMsg q.nextToClean ≠ none) :
    q.pop.Twin (Function.update desc q.nextToClean {}) := by
  have apart : q.nextToUse ≠ q.nextToClean := by
    intro same
    rw [← same] at held
    exact held h.empty
  constructor
  · exact h.tail
  · exact h.use
  · exact (Function.update_of_ne apart _ _).trans h.empty
  · intro i other
    change Function.update desc q.nextToClean {} i = Function.update q.desc q.nextToClean {} i
    by_cases same : i = q.nextToClean
    · rw [same, Function.update_self, Function.update_self]
    · rw [Function.update_of_ne same, Function.update_of_ne same]
      exact h.others i other
  · change (Function.update q.desc q.nextToClean {} q.nextToUse).Alike
      (Function.update desc q.nextToClean {} q.nextToUse)
    rw [Function.update_of_ne apart, Function.update_of_ne apart]
    exact h.here

theorem popAll (h : q.Twin desc) (force : Bool) (n : Nat) :
    (SendQueue.popAll force n { q with desc }).2 = (SendQueue.popAll force n q).2 ∧
      ∃ desc', (SendQueue.popAll force n q).1.Twin desc' ∧
        (SendQueue.popAll force n { q with desc }).1 =
          { (SendQueue.popAll force n q).1 with desc := desc' } := by
  induction n generalizing q desc with
  | zero => exact ⟨rfl, desc, h, rfl⟩
  | succ n ih =>
      obtain ⟨flags, read⟩ := h.read
      rw [SendQueue.popAll, SendQueue.popAll]
      dsimp only
      rw [flags]
      split
      · cases held : q.txMsg q.nextToClean with
        | none => exact ⟨rfl, desc, h, rfl⟩
        | some msg =>
            have some : q.txMsg q.nextToClean ≠ none := by
              rw [held]
              exact Option.some_ne_none msg
            obtain ⟨same, desc', twin, eq⟩ := ih (h.pop some)
            dsimp only
            rw [read some]
            refine ⟨?_, desc', twin, eq⟩
            exact congrArg _ same
      · exact ⟨rfl, desc, h, rfl⟩

theorem handed (h : q.Twin desc) :
    SendQueue.handed { q with desc, tail := q.nextToUse } q.tail =
      SendQueue.handed { q with tail := q.nextToUse } q.tail := by
  apply List.map_congr_left
  intro i member
  have other : i ≠ q.nextToUse := by
    rintro rfl
    exact not_mem_ringSlots_dist h.tail h.use member
  exact congrArg (Prod.mk i) (h.others i other)

end SendQueue.Twin

def SendQueue.Like (q q' : SendQueue) : Prop :=
  q' = q ∨ ∃ desc, q.Twin desc ∧ q' = { q with desc }

theorem SendQueue.Like.react {q q' : SendQueue} (h : q.Like q') (op : SendOp) :
    (q'.react op).2 = (q.react op).2 ∧ (q.react op).1.Like (q'.react op).1 := by
  rcases h with rfl | ⟨desc, twin, rfl⟩
  · exact ⟨rfl, .inl rfl⟩
  · cases op with
    | send msgs =>
        unfold SendQueue.react
        dsimp only
        by_cases full : q.unused = 0 ∨ q.unused < msgs.length
        · have refused : q.send msgs = (q, -28) := if_pos full
          have refused' : SendQueue.send { q with desc } msgs = ({ q with desc }, -28) :=
            if_pos full
          rw [refused, refused']
          refine ⟨?_, .inr ⟨desc, twin, rfl⟩⟩
          dsimp only
          rw [q.handed_self]
          exact congrArg (fun sent => ({ ret := -28, sent } : SendObs))
            (SendQueue.handed_self { q with desc })
        · cases msgs with
          | nil =>
              have sent : q.send [] = ({ q with tail := q.nextToUse }, 0) := if_neg full
              have sent' : SendQueue.send { q with desc } [] =
                  ({ q with desc, tail := q.nextToUse }, 0) := if_neg full
              rw [sent, sent']
              refine ⟨?_, .inr ⟨desc, ?_, rfl⟩⟩
              · exact congrArg (fun sent => ({ ret := 0, sent } : SendObs)) twin.handed
              · exact ⟨twin.use, twin.use, twin.empty, twin.others, twin.here⟩
          | cons msg msgs =>
              have same : SendQueue.send { q with desc } (msg :: msgs) = q.send (msg :: msgs) := by
                have full' : ¬ (SendQueue.unused { q with desc } = 0 ∨
                    SendQueue.unused { q with desc } < (msg :: msgs).length) := full
                rw [SendQueue.send, SendQueue.send, if_neg full, if_neg full', twin.putAll]
              rw [same]
              exact ⟨rfl, .inl rfl⟩
    | clean count force =>
        unfold SendQueue.react SendQueue.cleanSq
        dsimp only
        split
        · exact ⟨rfl, .inr ⟨desc, twin, rfl⟩⟩
        · split
          · exact ⟨rfl, .inr ⟨desc, twin, rfl⟩⟩
          · obtain ⟨same, desc', next, eq⟩ := twin.popAll force count
            refine ⟨?_, .inr ⟨desc', next, eq⟩⟩
            rw [same]
    | done slot d =>
        refine ⟨rfl, ?_⟩
        unfold SendQueue.react
        dsimp only
        by_cases same : slot = q.nextToUse
        · rw [same, twin.update]
          exact .inl rfl
        · refine .inr ⟨_, ⟨twin.tail, twin.use, twin.empty, ?_, ?_⟩, rfl⟩
          · intro i other
            change Function.update desc slot _ i = Function.update q.desc slot _ i
            by_cases mine : i = slot
            · rw [mine, Function.update_self, Function.update_self]
            · rw [Function.update_of_ne mine, Function.update_of_ne mine]
              exact twin.others i other
          · change (Function.update q.desc slot _ q.nextToUse).Alike
              (Function.update desc slot _ q.nextToUse)
            rw [Function.update_of_ne (Ne.symm same), Function.update_of_ne (Ne.symm same)]
            exact twin.here

theorem SendQueue.Like.outputs {q q' : SendQueue} (h : q.Like q') (ops : List SendOp) :
    General.outputs SendQueue.react q ops = General.outputs SendQueue.react q' ops := by
  apply outputs_eq ?_ h
  intro q q' op like
  exact ⟨(like.react op).1.symm, (like.react op).2⟩

/-- A batch whose first message is refused rewrites the free descriptor only. -/
theorem SendQueue.Sound.refused {q : SendQueue} (v : q.Sound) {msg : CtlqMsg}
    {msgs : List CtlqMsg} (room : ¬ (q.unused = 0 ∨ q.unused < (msg :: msgs).length))
    (bad : msg.sendable = false)
    (flags : (q.desc q.nextToUse).flags = { hostId := msg.hostId % 8 }) :
    ∃ desc, q.Twin desc ∧ (∀ i, (desc i).flags = (q.desc i).flags) ∧
      q.send (msg :: msgs) = ({ q with desc }, -74) := by
  have written := CtlqDesc.fill_refused (q.desc q.nextToUse) q.simics bad
  obtain ⟨c, l, h⟩ := v.holds
  have empty : q.txMsg q.nextToUse = none := by
    rw [h.use]
    exact h.free _ (Nat.le_refl _) (Nat.add_lt_add_left h.room c)
  have alike : (q.desc q.nextToUse).Alike ((q.desc q.nextToUse).fill q.simics msg).1 := by
    rw [written]
    exact ⟨flags.symm, rfl, rfl, rfl, rfl, rfl⟩
  refine ⟨Function.update q.desc q.nextToUse ((q.desc q.nextToUse).fill q.simics msg).1,
    ⟨v.tail, v.use, empty, ?_, ?_⟩, ?_, ?_⟩
  · intro i other
    exact Function.update_of_ne other _ _
  · rw [Function.update_self]
    exact alike
  · intro i
    by_cases same : i = q.nextToUse
    · rw [same, Function.update_self]
      exact alike.flags
    · rw [Function.update_of_ne same]
  · rw [SendQueue.send, if_neg room, SendQueue.putAll, fill_snd, bad]
    rfl

/-- A batch that is refused behind its first message has moved `next_to_use`. -/
theorem SendQueue.Sound.moved {q : SendQueue} (v : q.Sound) {msg : CtlqMsg} {msgs : List CtlqMsg}
    (room : ¬ (q.unused = 0 ∨ q.unused < (msg :: msgs).length)) (good : msg.sendable = true) :
    (q.putAll (msg :: msgs)).1.nextToUse ≠ q.nextToUse := by
  obtain ⟨c, l, h⟩ := v.holds
  have space := h.unused v.small
  obtain ⟨held, size, -⟩ := h.putAll (msg :: msgs) (by omega)
  have few : ((msg :: msgs).takeWhile CtlqMsg.sendable).length ≤ (msg :: msgs).length :=
    (List.takeWhile_prefix _).length_le
  have some : 0 < ((msg :: msgs).takeWhile CtlqMsg.sendable).length := by
    rw [List.takeWhile_cons_of_pos good]
    exact Nat.zero_lt_succ _
  rw [held.use, h.use, size, List.length_append]
  exact (mod_ne_of_near (by omega) (by omega)).symm

/-- In any state of any run, a batch is refused without a trace if and only if it has no room, or
its first message is refused and had the flags of the free descriptor, or no message is. -/
theorem send_atomic_iff {s : SendSystem}
    (run : Reachable SendSystem.step anyStep SendSystem.start s) (msgs : List CtlqMsg) :
    SendAtomic s.q msgs ↔ sendAtomicOk s.q msgs = true := by
  have v := SendSystem.sound_of_reachable run
  obtain ⟨c, l, h⟩ := v.holds
  have space := h.unused v.small
  by_cases full : s.q.unused = 0 ∨ s.q.unused < msgs.length
  · have refused : s.q.send msgs = (s.q, -28) := if_pos full
    constructor
    · intro _
      rcases full with none | few
      · simp [sendAtomicOk, none]
      · simp [sendAtomicOk, few]
    · intro _
      constructor <;> rw [refused] <;> intros <;> rfl
  · obtain ⟨-, -, ok⟩ := h.putAll msgs (by omega)
    have none : s.q.unused ≠ 0 := fun zero => full (.inl zero)
    have few : ¬ s.q.unused < msgs.length := fun less => full (.inr less)
    cases all : msgs.all CtlqMsg.sendable with
    | true =>
        have sent : (s.q.send msgs).2 = 0 := by
          rw [SendQueue.send, if_neg full]
          dsimp only
          rw [ok, all, if_pos rfl]
        refine ⟨fun _ => by simp [sendAtomicOk, all], fun _ => ?_⟩
        constructor <;> intro failed <;> exact absurd sent failed
    | false =>
        cases msgs with
        | nil => exact absurd all Bool.false_ne_true.symm
        | cons msg msgs =>
            have result : s.q.send (msg :: msgs) = ((s.q.putAll (msg :: msgs)).1, -74) := by
              rw [SendQueue.send, if_neg full]
              dsimp only
              rw [ok, all, if_neg Bool.false_ne_true]
            have failed : (s.q.send (msg :: msgs)).2 ≠ 0 := by
              rw [result]
              exact (by decide : (-74 : Int) ≠ 0)
            have test : sendAtomicOk s.q (msg :: msgs) = true ↔ msg.sendable = false ∧
                (s.q.desc s.q.nextToUse).flags = { hostId := msg.hostId % 8 } := by
              rw [sendAtomicOk, all, decide_eq_false none, decide_eq_false few]
              simp
            rw [test]
            constructor
            · intro atomic
              have bad : msg.sendable = false := by
                by_contra good
                apply v.moved full (Bool.not_eq_false _ ▸ good)
                have use := atomic.use failed
                rwa [result] at use
              refine ⟨bad, ?_⟩
              have flags := atomic.flags failed s.q.nextToUse
              rw [result, SendQueue.putAll, fill_snd, bad, if_neg Bool.false_ne_true] at flags
              dsimp only at flags
              rw [Function.update_self, CtlqDesc.fill_refused _ _ bad] at flags
              exact flags.symm
            · rintro ⟨bad, flags⟩
              obtain ⟨desc, twin, kept, eq⟩ := v.refused full bad flags
              constructor <;> rw [eq]
              · exact fun _ => rfl
              · exact fun _ => kept
              · exact fun _ => rfl
              · exact fun _ => rfl
              · intro _ ops
                have like : s.q.Like { s.q with desc } := .inr ⟨desc, twin, rfl⟩
                exact (SendQueue.Like.outputs like ops).symm

/-- A message without its payload is refused behind one that has been sent. -/
theorem send_atomic_first : ∃ s, Reachable SendSystem.step anyStep SendSystem.start s ∧
    s.q.nextToUse = 1 ∧ (s.q.send [{ ptr := 2, dataLen := 8 }, { ptr := 3 }]).2 = -74 ∧
    SendAtomic s.q [{ ptr := 2, dataLen := 8 }, { ptr := 3 }] := by
  have run : (exec SendSystem.step ⟨sendQueueAdd 4 false, []⟩ [.send [{ ptr := 1 }]]).map
      (fun s => (s.q.nextToUse, (s.q.send [{ ptr := 2, dataLen := 8 }, { ptr := 3 }]).2,
        sendAtomicOk s.q [{ ptr := 2, dataLen := 8 }, { ptr := 3 }])) = some (1, -74, true) := by
    decide +kernel
  obtain ⟨s, steps, eq⟩ := Option.map_eq_some_iff.mp run
  have reached : Reachable SendSystem.step anyStep SendSystem.start s :=
    Reachable.exec (.start ⟨4, false, by decide, by decide, rfl⟩) steps
  obtain ⟨use, ret, ok⟩ := by simpa only [Prod.mk.injEq] using eq
  exact ⟨s, reached, use, ret, (send_atomic_iff reached _).mpr ok⟩

/-- The second of two messages has no payload: the call fails, and the next batch hands both its own
message and the first one to the device, which cleaning gives back. -/
theorem failed_batch_handed_over :
    let q := sendQueueAdd 4 false
    let batch : List CtlqMsg := [{ ptr := 1, opcode := 7 }, { ptr := 2, dataLen := 8 }]
    let next : SendOp := .send [{ ptr := 3, opcode := 9 }]
    (q.send batch).2 = -74 ∧ (q.send batch).1.nextToUse = 1 ∧ (q.send batch).1.tail = 0 ∧
    ((q.react next).2.sent.map fun d => d.2.opcode) = [9] ∧
    (((q.send batch).1.react next).2.sent.map fun d => d.2.opcode) = [7, 9] ∧
    ((((q.send batch).1.react next).1.react (.clean 4 true)).2.cleaned.map fun c => c.msg.ptr) =
      [1, 3] ∧
    ¬ SendAtomic q batch := by
  intro q batch next
  have failed : (q.send batch).2 = -74 := by decide +kernel
  have use : (q.send batch).1.nextToUse = 1 := by decide +kernel
  refine ⟨failed, use, by decide +kernel, by decide +kernel, by decide +kernel,
    by decide +kernel, ?_⟩
  intro atomic
  have same := atomic.use (by rw [failed]; decide)
  rw [use] at same
  exact absurd same (by decide)

end Idpf
