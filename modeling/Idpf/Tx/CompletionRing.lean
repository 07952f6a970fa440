import Idpf.General.Transition
import Idpf.Tx.System

/-! The completion ring under `idpf_tx_clean_complq`. The device writes at any
moment, also between two turns of the loop; other contexts may change the Tx
queues meanwhile. What the driver reads is compared with the stream written. -/
namespace Idpf
open General

/-- Truncation to `s16`. -/
def s16 (x : Int) : Int := (x + 32768) % 65536 - 32768

/-- The part of the completion queue the loop reads. A slot is a descriptor with
its generation bit. -/
structure ComplQueue where
  desc : Nat → ComplDesc × Bool
  descCount : Nat
  nextToClean : Nat
  genChk : Bool

/-- Locals of `idpf_tx_clean_complq`; `txDesc` is the pointer as an index. -/
structure CleanLoop where
  ntc : Int
  txDesc : Nat
  complqBudget : Nat

inductive CleanPhase where
  | idle
  | looping (l : CleanLoop)
  | leaving (l : CleanLoop)

/-- A finished call: its budget, what it processed, and what it returned. -/
structure CleanCall where
  budget : Nat
  descs : List ComplDesc
  completed : Bool

/-- What befalls the Tx queues of the group: a descriptor is handled, a pass ends, or
other contexts leave them in another state. -/
inductive GroupAct where
  | compl (d : ComplDesc) (env : TimerEnv)
  | pass (ok carrier : Bool)
  | outside (txqs : Nat → TxQueue)

namespace GroupAct

def desc? : GroupAct → Option ComplDesc
  | .compl d _ => some d
  | _ => none

/-- As queue `t` is to see it: a completion goes to the queue it names and to no other. -/
def on (t : Nat) (q : TxQueue) : GroupAct → TxQueue
  | .compl d env =>
    if d.qid = t ∧ ComplType.counted d.ctype then
      addCleaned (txHandleCompl q d.ctype d.tag env)
    else q
  | .pass ok carrier => txWakeQueue ok carrier q
  | .outside txqs => txqs t

end GroupAct

/-- The ring with the device's stream and the driver's calls; `budget` and `cur`
belong to the call under way, and `acts` is what has befallen the queues. -/
structure ComplSystem where
  q : ComplQueue
  grp : TxqGroup
  phase : CleanPhase
  budget : Nat
  cur : List ComplDesc
  calls : List CleanCall
  produced : List ComplDesc
  acts : List GroupAct

def ComplSystem.processed (s : ComplSystem) : List ComplDesc :=
  (s.calls.map CleanCall.descs).flatten ++ s.cur

namespace ComplQueue

def enter (q : ComplQueue) (budget : Nat) : CleanLoop :=
  ⟨s16 (s16 q.nextToClean - q.descCount), q.nextToClean, budget⟩

def descDone (q : ComplQueue) (l : CleanLoop) : Bool := q.genChk == (q.desc l.txDesc).2

/-- `fetch_next_desc` up to the budget: the pointer, the offset and the flag. -/
def fetchNext (q : ComplQueue) (l : CleanLoop) : ComplQueue × CleanLoop :=
  let ntc := s16 (l.ntc + 1)
  if ntc = 0 then
    ({ q with genChk := !q.genChk }, ⟨s16 (ntc - q.descCount), 0, u32Sub l.complqBudget 1⟩)
  else (q, ⟨ntc, l.txDesc + 1, u32Sub l.complqBudget 1⟩)

def leave (q : ComplQueue) (l : CleanLoop) : ComplQueue :=
  { q with nextToClean := (s16 (l.ntc + q.descCount) % 65536).toNat }

end ComplQueue

inductive ComplEvent where
  | write (d : ComplDesc)
  | begin (budget : Nat)
  | turn (env : TimerEnv)
  | finish (carrier : Bool)
  | outside (txqs : Nat → TxQueue) (pending : Nat)

/-- The device writes only into slots the driver has processed. Its generation
bit starts at one and alternates from lap to lap. -/
def ComplSystem.write (s : ComplSystem) (d : ComplDesc) : ComplSystem :=
  let k := s.produced.length
  let slot := (d, lapGen true (k / s.q.descCount))
  { s with
    q := { s.q with desc := Function.update s.q.desc (k % s.q.descCount) slot }
    produced := s.produced ++ [d] }

def ComplSystem.turn (s : ComplSystem) (l : CleanLoop) (env : TimerEnv) : ComplSystem :=
  if s.q.descDone l then
    let d := (s.q.desc l.txDesc).1
    let r := s.q.fetchNext l
    { s with
      q := r.1
      grp := txCleanDesc s.grp d env
      cur := s.cur ++ [d]
      acts := s.acts ++ [.compl d env]
      phase := if r.2.complqBudget = 0 then .leaving r.2 else .looping r.2 }
  else { s with phase := .leaving l }

def ComplSystem.finish (s : ComplSystem) (l : CleanLoop) (carrier : Bool) : ComplSystem :=
  { s with
    q := s.q.leave l
    grp := txFinishPass s.grp carrier
    phase := .idle
    cur := []
    acts := s.acts ++ [.pass (!(s.grp.pendingDiff > s.grp.thresh)) carrier]
    calls := s.calls ++ [⟨s.budget, s.cur, l.complqBudget ≠ 0⟩] }

def ComplSystem.step (s : ComplSystem) : ComplEvent → Option ComplSystem
  | .write d =>
    if s.produced.length < s.processed.length + s.q.descCount then some (s.write d) else none
  | .begin budget =>
    match s.phase with
    | .idle =>
      if budget < 4294967296 then
        some { s with phase := .looping (s.q.enter budget), budget }
      else none
    | _ => none
  | .turn env =>
    match s.phase with
    | .looping l => some (s.turn l env)
    | _ => none
  | .finish carrier =>
    match s.phase with
    | .leaving l => some (s.finish l carrier)
    | _ => none
  | .outside txqs pending =>
    some { s with
      grp := { s.grp with txqs, numCompletionsPending := pending }
      acts := s.acts ++ [.outside txqs] }

/-- A completion queue as `idpf_tx_desc_alloc_all` leaves it: zeroed descriptors
and the flag set, for any ring size the driver admits and any Tx queues. -/
def ComplStart (s : ComplSystem) : Prop :=
  ∃ descCount grp, minTxqComplqDesc ≤ descCount ∧ descCount ≤ maxDescs ∧
    grp.numCompletions = 0 ∧
    s = { q := ⟨fun _ => (⟨0, some .itrFlush, 0⟩, false), descCount, 0, true⟩
          grp, phase := .idle, budget := 0, cur := [], calls := [], produced := [], acts := [] }

theorem lapGen_false_succ (lap : Nat) : lapGen false (lap + 1) = lapGen true lap := by
  induction lap with
  | zero => rfl
  | succ lap ih => rw [lapGen, ih]; rfl

theorem lapGen_full_lap {n : Nat} (pos : 0 < n) (k : Nat) :
    lapGen false ((k + n) / n) = lapGen true (k / n) := by
  rw [Nat.add_div_right k pos]
  exact lapGen_false_succ _

/-- Where the driver stands after `k` descriptors. -/
def CleanPhase.At (n ntc k : Nat) : CleanPhase → Prop
  | .idle => ntc = k % n
  | .looping l | .leaving l => l.txDesc = k % n ∧ l.ntc = (l.txDesc : Int) - n

/-- What is left of the budget of the call under way. -/
def CleanPhase.Spent (budget done : Nat) : CleanPhase → Prop
  | .idle => done = 0
  | .looping l => l.complqBudget < 4294967296 ∧
      (budget ≠ 0 → done + l.complqBudget = budget ∧ l.complqBudget ≠ 0)
  | .leaving l => budget ≠ 0 → done + l.complqBudget = budget

structure ComplInv (s : ComplSystem) : Prop where
  small : s.q.descCount ≤ 32768
  ring : ∃ h, GenRing s.q.descCount false s.q.desc h (s.processed.length + s.q.descCount)
      (s.produced.length + s.q.descCount) ∧
    s.produced = backlog h s.q.descCount (s.produced.length + s.q.descCount) ∧
    s.processed = backlog h s.q.descCount (s.processed.length + s.q.descCount)
  gen : s.q.genChk = lapGen true (s.processed.length / s.q.descCount)
  place : s.phase.At s.q.descCount s.q.nextToClean s.processed.length
  spent : s.phase.Spent s.budget s.cur.length
  full : ∀ call ∈ s.calls, call.completed = false → call.budget ≠ 0 →
    call.descs.length = call.budget

theorem ComplInv.start {s : ComplSystem} (h : ComplStart s) : ComplInv s := by
  obtain ⟨n, grp, least, most, -, rfl⟩ := h
  have pos : 0 < n := Nat.lt_of_lt_of_le (by decide) least
  have small : n ≤ 32768 := most.trans (by decide)
  refine ⟨small, ⟨fun _ => ⟨0, some .itrFlush, 0⟩, ⟨pos, le_rfl, ?_, ?_, ?_⟩, ?_, ?_⟩,
    ?_, ?_, rfl, ?_⟩
  · simp [ComplSystem.processed]
  · simp
  · intro k lt _
    have first : k < n := by simpa using lt
    simp [Nat.div_eq_of_lt first, lapGen]
  · simp [backlog]
  · simp [ComplSystem.processed, backlog]
  · simp [ComplSystem.processed, lapGen]
  · simp [CleanPhase.At, ComplSystem.processed]
  · simp

theorem fetchNext_wrap {q : ComplQueue} {l : CleanLoop} {k left : Nat}
    (pos : 0 < q.descCount) (small : q.descCount ≤ 32768)
    (at_ : l.txDesc = k % q.descCount) (offset : l.ntc = (l.txDesc : Int) - q.descCount)
    (charge : u32Sub l.complqBudget 1 = left) :
    q.fetchNext l =
      ({ q with genChk := General.turn q.descCount (k % q.descCount) q.genChk },
       ⟨((k + 1) % q.descCount : Nat) - (q.descCount : Int), (k + 1) % q.descCount, left⟩) := by
  have inner := Nat.mod_lt k pos
  have bumped := bump_mod pos k
  unfold bump at bumped
  unfold ComplQueue.fetchNext General.turn
  rw [offset, at_, charge]
  by_cases wrap : k % q.descCount + 1 = q.descCount
  · rw [if_pos wrap] at bumped
    have zero : s16 (((k % q.descCount : Nat) : Int) - q.descCount + 1) = 0 := by
      unfold s16; omega
    have back : s16 (0 - (q.descCount : Int)) = -(q.descCount : Int) := by
      unfold s16; omega
    simp only [zero, back, wrap, if_true, ← bumped]
    simp
  · rw [if_neg wrap] at bumped
    have ahead : s16 (((k % q.descCount : Nat) : Int) - q.descCount + 1) =
        ((k % q.descCount + 1 : Nat) : Int) - q.descCount := by
      unfold s16; omega
    have nonzero : ((k % q.descCount + 1 : Nat) : Int) - q.descCount ≠ 0 := by omega
    simp only [ahead, if_neg nonzero, if_neg wrap, ← bumped]

theorem u32Sub_one {x : Nat} (fits : x < 4294967296) : u32Sub x 1 + 1 = x ∨ x = 0 := by
  unfold u32Sub u32
  omega

theorem CleanPhase.at_next {n ntc k : Nat} {l : CleanLoop} (txDesc : l.txDesc = k % n)
    (offset : l.ntc = (l.txDesc : Int) - n) :
    (if l.complqBudget = 0 then CleanPhase.leaving l else .looping l).At n ntc k := by
  by_cases out : l.complqBudget = 0
  · rw [if_pos out]
    exact ⟨txDesc, offset⟩
  · rw [if_neg out]
    exact ⟨txDesc, offset⟩

theorem CleanPhase.Spent.charge {budget done : Nat} {l : CleanLoop}
    (h : (CleanPhase.looping l).Spent budget done) (l' : CleanLoop)
    (charge : l'.complqBudget = u32Sub l.complqBudget 1) :
    (if l'.complqBudget = 0 then CleanPhase.leaving l' else .looping l').Spent budget
      (done + 1) := by
  have fits : l'.complqBudget < 4294967296 := charge ▸ u32_lt _
  have less : l'.complqBudget + 1 = l.complqBudget ∨ l.complqBudget = 0 :=
    charge ▸ u32Sub_one h.1
  have before := h.2
  by_cases out : l'.complqBudget = 0
  · rw [if_pos out]
    intro nz
    have := before nz
    omega
  · rw [if_neg out]
    refine ⟨fits, fun nz => ?_⟩
    have := before nz
    omega

theorem ComplInv.descDone_iff {s : ComplSystem} (v : ComplInv s) {l : CleanLoop}
    (at_ : l.txDesc = s.processed.length % s.q.descCount) :
    s.q.descDone l = true ↔ s.processed.length < s.produced.length := by
  obtain ⟨h, ring, -, -⟩ := v.ring
  have ready := ring.ready_iff
  rw [Nat.add_mod_right, lapGen_full_lap ring.pos] at ready
  unfold ComplQueue.descDone
  rw [v.gen, at_, beq_iff_eq, eq_comm, ready]
  omega

theorem ComplInv.write {s : ComplSystem} (v : ComplInv s) (d : ComplDesc)
    (room : s.produced.length < s.processed.length + s.q.descCount) : ComplInv (s.write d) := by
  obtain ⟨h, ring, wrote, read⟩ := v.ring
  refine ⟨v.small, ⟨Function.update h (s.produced.length + s.q.descCount) d, ?_, ?_, ?_⟩,
    v.gen, v.place, v.spent, v.full⟩
  · have pushed := ring.push (by omega) d
    rw [Nat.add_mod_right, lapGen_full_lap ring.pos] at pushed
    simpa [ComplSystem.write, ComplSystem.processed, Nat.add_right_comm] using pushed
  · have grown := backlog_push h (show s.q.descCount ≤ s.produced.length + s.q.descCount by omega) d
    have len : (s.write d).produced.length = s.produced.length + 1 := by simp [ComplSystem.write]
    rw [len, Nat.add_right_comm]
    exact (congrArg (· ++ [d]) wrote).trans grown.symm
  · have kept : backlog (Function.update h (s.produced.length + s.q.descCount) d) s.q.descCount
        (s.processed.length + s.q.descCount) =
        backlog h s.q.descCount (s.processed.length + s.q.descCount) := by
      apply List.map_congr_left
      intro k member
      rw [List.mem_range'_1] at member
      exact Function.update_of_ne (by have := ring.le; omega) _ _
    exact read.trans kept.symm

theorem ComplSystem.turn_ready {s : ComplSystem} {l : CleanLoop}
    (ready : s.q.descDone l = true) (env : TimerEnv) :
    s.turn l env =
      { s with
        q := (s.q.fetchNext l).1
        grp := txCleanDesc s.grp (s.q.desc l.txDesc).1 env
        phase :=
          if (s.q.fetchNext l).2.complqBudget = 0 then .leaving (s.q.fetchNext l).2
          else .looping (s.q.fetchNext l).2
        cur := s.cur ++ [(s.q.desc l.txDesc).1]
        acts := s.acts ++ [.compl (s.q.desc l.txDesc).1 env] } := by
  unfold ComplSystem.turn
  rw [if_pos ready]

theorem ComplSystem.processed_read (s : ComplSystem) (q : ComplQueue) (grp : TxqGroup)
    (phase : CleanPhase) (d : ComplDesc) (acts : List GroupAct) :
    ComplSystem.processed { s with q, grp, phase, cur := s.cur ++ [d], acts } =
      s.processed ++ [d] := by
  simp [ComplSystem.processed]

theorem ComplInv.turn {s : ComplSystem} (v : ComplInv s) {l : CleanLoop} (env : TimerEnv)
    (phase : s.phase = .looping l) : ComplInv (s.turn l env) := by
  obtain ⟨h, ring, wrote, read⟩ := v.ring
  have place := v.place
  have spent := v.spent
  rw [phase] at place spent
  obtain ⟨at_, offset⟩ := place
  by_cases ready : s.q.descDone l = true
  · have waits : s.processed.length + s.q.descCount < s.produced.length + s.q.descCount := by
      have := (v.descDone_iff at_).mp ready
      omega
    have entry : (s.q.desc l.txDesc).1 = h (s.processed.length + s.q.descCount) := by
      have got := ring.read waits
      rwa [Nat.add_mod_right, ← at_] at got
    have grown : s.processed ++ [(s.q.desc l.txDesc).1] =
        backlog h s.q.descCount (s.processed.length + s.q.descCount + 1) := by
      rw [@backlog_append _ h s.q.descCount (s.processed.length + s.q.descCount) _
        (by omega) (by omega), ← read, entry, backlog_cons h (by omega), backlog_nil]
    have charged := CleanPhase.Spent.charge spent
    generalize charge : u32Sub l.complqBudget 1 = left at charged
    rw [ComplSystem.turn_ready ready, fetchNext_wrap ring.pos v.small at_ offset charge]
    refine ⟨v.small, ⟨h, ?_, wrote, ?_⟩, ?_, ?_, ?_, v.full⟩
    · rw [ComplSystem.processed_read, List.length_append, List.length_singleton,
        Nat.add_right_comm]
      exact ring.pop waits
    · rw [ComplSystem.processed_read, List.length_append, List.length_singleton,
        Nat.add_right_comm]
      exact grown
    · rw [ComplSystem.processed_read, List.length_append, v.gen]
      exact turn_lapGen ring.pos true _
    · rw [ComplSystem.processed_read, List.length_append]
      exact CleanPhase.at_next rfl rfl
    · rw [List.length_append]
      exact charged _ rfl
  · unfold ComplSystem.turn
    rw [if_neg ready]
    exact ⟨v.small, ⟨h, ring, wrote, read⟩, v.gen, ⟨at_, offset⟩, fun nz => (spent.2 nz).1, v.full⟩

theorem ComplInv.finish {s : ComplSystem} (v : ComplInv s) {l : CleanLoop} (carrier : Bool)
    (phase : s.phase = .leaving l) : ComplInv (s.finish l carrier) := by
  have place := v.place
  have spent := v.spent
  rw [phase] at place spent
  obtain ⟨at_, offset⟩ := place
  have same : (s.finish l carrier).processed = s.processed := by
    simp [ComplSystem.processed, ComplSystem.finish]
  have inner : l.txDesc < s.q.descCount := by
    obtain ⟨_, ring, -⟩ := v.ring
    exact at_ ▸ Nat.mod_lt _ ring.pos
  refine ⟨v.small, ?_, ?_, ?_, rfl, ?_⟩
  · rw [same]
    exact v.ring
  · rw [same]
    exact v.gen
  · rw [same]
    have small := v.small
    have back : (s16 (l.ntc + s.q.descCount) % 65536).toNat = l.txDesc := by
      rw [offset]
      unfold s16
      omega
    exact back.trans at_
  · intro call member
    rcases List.mem_append.mp member with old | new
    · exact v.full call old
    · obtain rfl := List.mem_singleton.mp new
      intro out nz
      have left := spent nz
      simp only [ne_eq, decide_eq_false_iff_not, not_not] at out
      rwa [out, Nat.add_zero] at left

theorem ComplInv.begin {s : ComplSystem} (v : ComplInv s) {budget : Nat}
    (phase : s.phase = .idle) (fits : budget < 4294967296) :
    ComplInv { s with phase := .looping (s.q.enter budget), budget } := by
  have place := v.place
  have spent := v.spent
  rw [phase] at place spent
  have inner : s.q.nextToClean < s.q.descCount := by
    obtain ⟨_, ring, -⟩ := v.ring
    exact place ▸ Nat.mod_lt _ ring.pos
  have small := v.small
  have entered : s16 (s16 s.q.nextToClean - s.q.descCount) =
      (s.q.nextToClean : Int) - s.q.descCount := by
    unfold s16
    omega
  refine ⟨v.small, v.ring, v.gen, ⟨place, entered⟩, ⟨fits, fun nz => ⟨?_, nz⟩⟩, v.full⟩
  have none : s.cur.length = 0 := spent
  simp only [ComplQueue.enter]
  omega

theorem ComplInv.step {s t : ComplSystem} {e : ComplEvent} (v : ComplInv s)
    (taken : s.step e = some t) : ComplInv t := by
  cases e with
  | write d =>
      simp only [ComplSystem.step, Option.ite_none_right_eq_some, Option.some.injEq] at taken
      obtain ⟨room, rfl⟩ := taken
      exact v.write d room
  | begin budget =>
      cases phase : s.phase <;> simp only [ComplSystem.step, phase, reduceCtorEq,
        Option.ite_none_right_eq_some, Option.some.injEq] at taken
      obtain ⟨fits, rfl⟩ := taken
      exact v.begin phase fits
  | turn env =>
      cases phase : s.phase <;> simp only [ComplSystem.step, phase, reduceCtorEq,
        Option.some.injEq] at taken
      subst taken
      exact v.turn env phase
  | finish carrier =>
      cases phase : s.phase <;> simp only [ComplSystem.step, phase, reduceCtorEq,
        Option.some.injEq] at taken
      subst taken
      exact v.finish carrier phase
  | outside txqs pending =>
      simp only [ComplSystem.step, Option.some.injEq] at taken
      subst taken
      exact ⟨v.small, v.ring, v.gen, v.place, v.spent, v.full⟩

theorem ComplSystem.processed_finish (s : ComplSystem) (l : CleanLoop) (carrier : Bool) :
    (s.finish l carrier).processed = s.processed := by
  simp [ComplSystem.processed, ComplSystem.finish]

/-- A descriptor that is counted: it names a queue of the group and a known type. -/
def ComplDesc.known (numTxq : Nat) (d : ComplDesc) : Bool :=
  d.qid < numTxq && ComplType.counted d.ctype

/-- A descriptor as a queue of the group sees it. -/
theorem txCleanDesc_txqs (g : TxqGroup) (d : ComplDesc) (env : TimerEnv) {t : Nat}
    (inside : t < g.numTxq) :
    (txCleanDesc g d env).txqs t = GroupAct.on t (g.txqs t) (.compl d env) := by
  simp only [txCleanDesc, GroupAct.on]
  by_cases beyond : d.qid ≥ g.numTxq
  · rw [if_pos beyond, if_neg (by omega)]
  · rw [if_neg beyond]
    by_cases counted : ComplType.counted d.ctype = true
    · rw [if_pos counted]
      by_cases own : d.qid = t
      · subst own
        rw [if_pos ⟨rfl, counted⟩]
        exact Function.update_self ..
      · rw [if_neg (own ·.1)]
        exact Function.update_of_ne (Ne.symm own) _ _
    · rw [if_neg counted, if_neg (counted ·.2)]

theorem txCleanDesc_counts (g : TxqGroup) (d : ComplDesc) (env : TimerEnv) :
    (txCleanDesc g d env).numTxq = g.numTxq ∧ (txCleanDesc g d env).numCompletions =
      if d.known g.numTxq then u32 (g.numCompletions + 1) else g.numCompletions := by
  unfold txCleanDesc ComplDesc.known
  by_cases beyond : d.qid ≥ g.numTxq
  · simp [if_pos beyond, Nat.not_lt.mpr beyond]
  · by_cases counted : ComplType.counted d.ctype = true
    · simp [if_neg beyond, counted, Nat.not_le.mp beyond, TxqGroup.setQueue]
    · simp [counted]

/-- The queues against what has befallen them since `start`. -/
structure Handled (start s : ComplSystem) : Prop where
  queues : s.grp.numTxq = start.grp.numTxq
  descs : s.acts.filterMap GroupAct.desc? = s.processed
  seen : ∀ t, t < start.grp.numTxq →
    s.grp.txqs t = s.acts.foldl (GroupAct.on t) (start.grp.txqs t)
  counted : s.grp.numCompletions = u32 (s.processed.countP (ComplDesc.known start.grp.numTxq))

theorem Handled.start {s : ComplSystem} (h : ComplStart s) : Handled s s := by
  obtain ⟨n, grp, -, -, zero, rfl⟩ := h
  exact ⟨rfl, rfl, fun _ _ => rfl, zero⟩

theorem Handled.turn {start s : ComplSystem} (v : Handled start s) (l : CleanLoop)
    (env : TimerEnv) : Handled start (s.turn l env) := by
  by_cases ready : s.q.descDone l = true
  · rw [ComplSystem.turn_ready ready]
    generalize (s.q.desc l.txDesc).1 = d
    obtain ⟨queues, counted⟩ := txCleanDesc_counts s.grp d env
    refine ⟨queues.trans v.queues, ?_, fun t inside => ?_, ?_⟩
    · rw [ComplSystem.processed_read, ← v.descs, List.filterMap_append]
      rfl
    · rw [List.foldl_append, ← v.seen t inside]
      exact txCleanDesc_txqs s.grp d env (v.queues.symm ▸ inside)
    · rw [ComplSystem.processed_read, List.countP_append, List.countP_singleton]
      refine counted.trans ?_
      rw [v.queues, v.counted]
      split
      · exact Nat.mod_add_mod ..
      · rfl
  · unfold ComplSystem.turn
    rw [if_neg ready]
    exact ⟨v.queues, v.descs, v.seen, v.counted⟩

theorem Handled.finish {start s : ComplSystem} (v : Handled start s) (l : CleanLoop)
    (carrier : Bool) : Handled start (s.finish l carrier) := by
  refine ⟨v.queues, ?_, fun t inside => ?_, ?_⟩
  · rw [ComplSystem.processed_finish, ← v.descs]
    simp [ComplSystem.finish, GroupAct.desc?]
  · simp only [ComplSystem.finish, List.foldl_append, ← v.seen t inside]
    rfl
  · rw [ComplSystem.processed_finish]
    exact v.counted

theorem Handled.step {start s t : ComplSystem} {e : ComplEvent} (v : Handled start s)
    (taken : s.step e = some t) : Handled start t := by
  cases e with
  | write d =>
      simp only [ComplSystem.step, Option.ite_none_right_eq_some, Option.some.injEq] at taken
      obtain ⟨-, rfl⟩ := taken
      exact ⟨v.queues, v.descs, v.seen, v.counted⟩
  | begin budget =>
      cases phase : s.phase <;> simp only [ComplSystem.step, phase, reduceCtorEq,
        Option.ite_none_right_eq_some, Option.some.injEq] at taken
      obtain ⟨-, rfl⟩ := taken
      exact ⟨v.queues, v.descs, v.seen, v.counted⟩
  | turn env =>
      cases phase : s.phase <;> simp only [ComplSystem.step, phase, reduceCtorEq,
        Option.some.injEq] at taken
      subst taken
      exact v.turn _ env
  | finish carrier =>
      cases phase : s.phase <;> simp only [ComplSystem.step, phase, reduceCtorEq,
        Option.some.injEq] at taken
      subst taken
      exact v.finish _ carrier
  | outside txqs pending =>
      simp only [ComplSystem.step, Option.some.injEq] at taken
      subst taken
      refine ⟨v.queues, ?_, fun t inside => ?_, v.counted⟩
      · rw [List.filterMap_append, v.descs]
        exact List.append_nil _
      · simp only [List.foldl_append, List.foldl_cons, List.foldl_nil]
        rfl

/-- Over all calls the driver processes the device's stream in order and without
gap or repetition, each descriptor by the queue it names and counted once, its flag
follows the laps of what it has processed, a turn stops the loop only when nothing of
the stream is left, and a call that reports unfinished work has used its whole budget. -/
theorem clean_complq_in_order {start s : ComplSystem} (init : ComplStart start)
    (run : Reachable ComplSystem.step anyStep (· = start) s) :
    s.processed <+: s.produced ∧ Handled start s ∧
      s.q.genChk = lapGen true (s.processed.length / s.q.descCount) ∧
      (∀ l, s.phase = .looping l → (s.q.descDone l = false ↔ s.processed = s.produced)) ∧
      ∀ call ∈ s.calls, call.completed = false → call.budget ≠ 0 →
        call.descs.length = call.budget := by
  have v : ComplInv s := run.invariant (fun _ same => same ▸ .start init)
    fun _ _ _ v _ taken => v.step taken
  have handled : Handled start s := run.invariant (by rintro _ rfl; exact .start init)
    fun _ _ _ v _ taken => v.step taken
  obtain ⟨h, ring, wrote, read⟩ := v.ring
  have front : s.processed <+: s.produced := by
    refine ⟨backlog h (s.processed.length + s.q.descCount)
      (s.produced.length + s.q.descCount), ?_⟩
    have split := @backlog_append _ h s.q.descCount _ _ (by omega) ring.le
    rw [← wrote, ← read] at split
    exact split.symm
  refine ⟨front, handled, v.gen, fun l phase => ?_, v.full⟩
  have place := v.place
  rw [phase] at place
  rw [← Bool.not_eq_true, v.descDone_iff place.1, Nat.not_lt]
  exact ⟨fun all => front.eq_of_length_le all, fun all => all ▸ le_rfl⟩

/-- A packet is sent and its two completions come; the call that reads the first is
cut off by its budget and resumed by a second. The packet's skb is given back. -/
theorem clean_complq_in_order_run :
    let sent := TxSystem.send (TxConfig.init ⟨1, 128, 256, 32, false, fun _ => false, by decide,
      by decide, by decide, by decide⟩) 0 { headlen := 100, frags := [] } {}
    let start : ComplSystem :=
      { q := ⟨fun _ => (⟨0, some .itrFlush, 0⟩, false), 256, 0, true⟩
        grp := sent.grp, phase := .idle, budget := 0, cur := [], calls := [], produced := []
        acts := [] }
    let rs : ComplDesc := ⟨0, some .rs, 0⟩
    let re : ComplDesc := ⟨0, some .re, 1⟩
    let run := exec ComplSystem.step start
      [.write rs, .write re, .begin 1, .turn {}, .finish true, .begin 2, .turn {}]
    ∃ s, run = some s ∧ s.processed = [rs, re] ∧ .consumeSkb 1 ∈ (s.grp.txqs 0).mem.log ∧
      s.grp.numCompletions = 2 ∧ Handled start s := by
  intro sent start rs re run
  have seen : run.map (fun s => (s.processed, s.grp.numCompletions,
      decide (.consumeSkb 1 ∈ (s.grp.txqs 0).mem.log))) = some ([rs, re], 2, true) := by
    decide +kernel
  obtain ⟨s, reached, seen⟩ := Option.map_eq_some_iff.mp seen
  obtain ⟨processed, two, given⟩ := by simpa only [Prod.mk.injEq] using seen
  have init : ComplStart start := ⟨256, sent.grp, by decide, by decide, by decide +kernel, rfl⟩
  have began : Reachable ComplSystem.step anyStep (· = start) start := .start rfl
  obtain ⟨-, handled, -⟩ := clean_complq_in_order init (began.exec reached)
  exact ⟨s, reached, processed, of_decide_eq_true given, two, handled⟩

end Idpf
