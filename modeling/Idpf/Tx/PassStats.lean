import Idpf.Tx.MapChain
import Idpf.Tx.Steps
import Idpf.Tx.XdpFrames

/-! The statistics of a cleaning pass. `idpf_tx_clean_complq` counts packets and bytes for each
queue in two narrow fields over the whole pass and reports them at its end. -/
namespace Idpf
open General

def Effect.skb? : Effect → Option Nat
  | .consumeSkb skb => some skb
  | _ => none

def TxQueue.consumed (q : TxQueue) : List Nat := q.mem.log.filterMap Effect.skb?

/-- What skbs come to if each was sent as `size` says. -/
def skbTotal (size : Nat → NapiStats) (skbs : List Nat) : NapiStats :=
  ⟨(skbs.map fun skb => (size skb).packets).sum, (skbs.map fun skb => (size skb).bytes).sum⟩

def SqeType.countable : SqeType → Bool
  | .skb | .skbTstamp | .reinject => true
  | _ => false

/-- The buffers hold the number of packets and bytes their skbs were sent with. -/
def Sized (size : Nat → NapiStats) (q : TxQueue) : Prop :=
  ∀ b, (q.bufs b).type.countable = true →
    size (q.bufs b).skb = ⟨(q.bufs b).packets, (q.bufs b).bytes⟩

/-- The counters are left to the loop. -/
structure SameCounters (q q' : TxQueue) : Prop where
  cleanedPkts : q'.cleanedPkts = q.cleanedPkts
  cleanedBytes : q'.cleanedBytes = q.cleanedBytes
  xdp : q'.xdp = q.xdp

/-- The statistics of a completion are those of the skbs given back since `q`. -/
structure Tallied (size : Nat → NapiStats) (q : TxQueue) (s : Cleaning) : Prop where
  sized : Sized size s.q
  same : SameCounters q s.q
  counted : ∃ skbs, s.q.consumed = q.consumed ++ skbs ∧
    s.ss = ⟨u32 (skbTotal size skbs).packets, u32 (skbTotal size skbs).bytes⟩

theorem u32_add (x y : Nat) : u32 (u32 x + y) = u32 (x + y) := Nat.mod_add_mod x _ y

theorem skbTotal_snoc (size : Nat → NapiStats) (skbs : List Nat) (skb : Nat) :
    skbTotal size (skbs ++ [skb]) = ⟨(skbTotal size skbs).packets + (size skb).packets,
      (skbTotal size skbs).bytes + (size skb).bytes⟩ := by
  simp only [skbTotal, List.map_append, List.sum_append, List.map_cons, List.map_nil,
    List.sum_cons, List.sum_nil, Nat.add_zero]

theorem TxQueue.consumed_record (q : TxQueue) (e : Effect) :
    (q.record e).consumed = q.consumed ++ e.skb?.toList := by
  unfold TxQueue.consumed TxQueue.record
  rw [List.filterMap_append]
  cases e <;> rfl

theorem Sized.retype {size : Nat → NapiStats} {q : TxQueue} (v : Sized size q) {b : Nat}
    {type : SqeType} (less : type.countable = true → (q.bufs b).type.countable = true) :
    Sized size (q.modBuf b fun e => { e with type }) := by
  intro x
  by_cases own : x = b
  · subst own
    rw [TxQueue.modBuf_same]
    exact fun counts => v x (less counts)
  · rw [TxQueue.modBuf_other _ _ own]
    exact v x

namespace Tallied

variable {size : Nat → NapiStats} {q : TxQueue} {s : Cleaning}

theorem start (v : Sized size q) : Tallied size q ⟨q, {}⟩ := by
  refine ⟨v, ⟨rfl, rfl, rfl⟩, [], (List.append_nil _).symm, ?_⟩
  rfl

/-- What gives no skb back and leaves the counters alone. -/
theorem change (v : Tallied size q s) (q' : TxQueue) (sized : Sized size q')
    (same : SameCounters s.q q') (kept : q'.consumed = s.q.consumed) :
    Tallied size q ⟨q', s.ss⟩ := by
  obtain ⟨skbs, consumed, counted⟩ := v.counted
  refine ⟨sized, ⟨?_, ?_, ?_⟩, skbs, kept.trans consumed, counted⟩
  · exact same.cleanedPkts.trans v.same.cleanedPkts
  · exact same.cleanedBytes.trans v.same.cleanedBytes
  · exact same.xdp.trans v.same.xdp

theorem complete (v : Tallied size q s) (b : Nat) : Tallied size q (libethTxComplete s b) := by
  have whole := libethTxComplete_log s b
  obtain ⟨skbs, consumed, counted⟩ := v.counted
  have after : (libethTxComplete s b).q.consumed =
      q.consumed ++ (skbs ++ (s.q.bufs b).effects.filterMap Effect.skb?) := by
    rw [whole, ← List.append_assoc, ← consumed]
    exact List.filterMap_append
  constructor
  · rw [whole]
    intro x counts
    by_cases own : x ∈ [b]
    · simp only [TxQueue.emptied, if_pos own] at counts
      cases counts
    · rw [TxQueue.emptied_other _ _ own] at counts ⊢
      exact v.sized x counts
  · rw [whole]
    exact ⟨v.same.cleanedPkts, v.same.cleanedBytes, v.same.xdp⟩
  · refine ⟨_, after, ?_⟩
    unfold libethTxComplete TxBuf.effects
    cases type : (s.q.bufs b).type with
    | skb =>
        have held := v.sized b (by rw [type]; rfl)
        have found : List.filterMap Effect.skb? [.unmap (s.q.bufs b).dma,
            .consumeSkb (s.q.bufs b).skb] = [(s.q.bufs b).skb] := rfl
        rw [found, skbTotal_snoc, held]
        simp only [type, reduceCtorEq, if_false, counted, u32_add]
    | _ =>
        simp only [type, reduceCtorEq, if_false, if_true]
        exact counted.trans (congrArg (fun l => (⟨u32 (skbTotal size l).packets,
          u32 (skbTotal size l).bytes⟩ : NapiStats)) (List.append_nil skbs).symm)

theorem walk {f : Cleaning → Nat → Cleaning} (one : ∀ {s}, Tallied size q s → ∀ b,
    Tallied size q (f s b)) (fuel : Nat) (v : Tallied size q s) (b : Nat) :
    Tallied size q (walkChain f fuel s b) := by
  induction fuel generalizing s b with
  | zero => exact v
  | succ fuel ih =>
      unfold walkChain
      dsimp only
      split
      · exact one v b
      · exact ih (one v b) _

theorem post (v : Tallied size q s) (b : Nat) : Tallied size q (completeAndPost s b) := by
  have done := v.complete b
  refine done.change ((libethTxComplete s b).q.postBuf b) done.sized ⟨rfl, rfl, rfl⟩ ?_
  exact (TxQueue.consumed_record _ _).trans (List.append_nil _)

theorem rebase {q' : TxQueue} (v : Tallied size q' s) (same : SameCounters q q')
    (kept : q'.consumed = q.consumed) : Tallied size q s := by
  obtain ⟨skbs, consumed, counted⟩ := v.counted
  refine ⟨v.sized, ⟨?_, ?_, ?_⟩, skbs, kept ▸ consumed, counted⟩
  · exact v.same.cleanedPkts.trans same.cleanedPkts
  · exact v.same.cleanedBytes.trans same.cleanedBytes
  · exact v.same.xdp.trans same.xdp

theorem cleanBufs (v : Sized size q) (b : Nat) : Tallied size q (txCleanBufs q b) := by
  unfold txCleanBufs txCleanable
  cases type : (q.bufs b).type with
  | skb | xdpTx => exact (start v).walk post _ b
  | skbTstamp =>
      have retyped : Sized size (q.modBuf b fun e => { e with type := .skb }) :=
        v.retype fun _ => by rw [type]; rfl
      exact ((start retyped).walk post _ b).rebase ⟨rfl, rfl, rfl⟩ rfl
  | _ => exact start v

theorem miss (v : Sized size q) (tag : Nat) (env : TimerEnv) :
    Tallied size q (txHandleMissCompletion q tag env) := by
  have started : (txStartReinjectTimer q tag env).1.bufs = q.bufs ∧
      SameCounters q (txStartReinjectTimer q tag env).1 ∧
      (txStartReinjectTimer q tag env).1.consumed = q.consumed := by
    unfold txStartReinjectTimer
    cases env.kzalloc <;> cases env.xaStore <;> exact ⟨rfl, ⟨rfl, rfl, rfl⟩, rfl⟩
  unfold txHandleMissCompletion
  generalize txStartReinjectTimer q tag env = r at started
  obtain ⟨bufs, same, kept⟩ := started
  have timed : Sized size r.1 := fun b => by
    rw [bufs]
    exact v b
  split
  · next marked =>
    have retyped : Sized size (q.modBuf tag fun e => { e with type := .skb }) :=
      v.retype fun _ => by rw [marked]; rfl
    exact (cleanBufs retyped tag).rebase ⟨rfl, rfl, rfl⟩ rfl
  · dsimp only
    split
    · have retyped : Sized size (r.1.modBuf tag fun e => { e with type := .miss }) :=
        timed.retype fun none => absurd none Bool.false_ne_true
      have timedOut := (cleanBufs retyped tag).rebase (q := r.1) ⟨rfl, rfl, rfl⟩ rfl
      exact timedOut.rebase same kept
    · exact (cleanBufs timed tag).rebase same kept

theorem lose {q' : TxQueue} {b : Nat} (type : (q'.bufs b).type = .reinject)
    (others : ∀ x, x ≠ b → q'.bufs x = q.bufs x) (v : Sized size q) (same : SameCounters q q')
    (kept : q'.consumed = q.consumed) : Tallied size q (libethTxComplete ⟨q', {}⟩ b) := by
  have whole := libethTxComplete_log ⟨q', {}⟩ b
  have none : (q'.bufs b).effects = [] := by rw [TxBuf.effects, type]
  have quiet : (libethTxComplete ⟨q', {}⟩ b).ss = {} := by
    unfold libethTxComplete
    simp only [type, reduceCtorEq, if_false]
  rw [none, List.append_nil] at whole
  constructor
  · rw [whole]
    intro x counts
    by_cases own : x = b
    · subst own
      simp only [TxQueue.emptied, List.mem_singleton, if_true] at counts
      cases counts
    · have apart : x ∉ [b] := fun inside => own (List.mem_singleton.mp inside)
      rw [TxQueue.emptied_other _ _ apart, others x own] at counts ⊢
      exact v x counts
  · rw [whole]
    exact ⟨same.cleanedPkts, same.cleanedBytes, same.xdp⟩
  · refine ⟨[], ?_, quiet⟩
    rw [whole, List.append_nil]
    exact kept

theorem reinject (v : Sized size q) (tag : Nat) :
    Tallied size q (txHandleReinjectCompletion q tag) := by
  unfold txHandleReinjectCompletion
  dsimp only
  split
  · split
    · exact start v
    · refine lose ?_ (fun x other => ?_) v ⟨rfl, rfl, rfl⟩ rfl
      · rw [TxQueue.modBuf_same]
      · exact TxQueue.modBuf_other _ _ other
  · split
    · next whole =>
      have retyped : Sized size (q.modBuf tag fun e => { e with type := .reinject }) :=
        v.retype fun _ => by rw [whole]; rfl
      exact (start v).change _ retyped ⟨rfl, rfl, rfl⟩ rfl
    · exact start v

theorem ringRest (v : Tallied size q s) (eop fuel ntc : Nat) :
    Tallied size q (splitqCleanRest eop fuel s ntc).1 := by
  induction fuel generalizing s ntc with
  | zero => exact v
  | succ fuel ih =>
      unfold splitqCleanRest
      split
      · exact v
      · exact ih (v.complete _) _

theorem ringTurns (v : Tallied size q s) (end_ fuel ntc : Nat) :
    Tallied size q (splitqCleanTurns end_ fuel s ntc).1 := by
  induction fuel generalizing s ntc with
  | zero => exact v
  | succ fuel ih =>
      unfold splitqCleanTurns
      split
      · exact v
      · dsimp only
        split
        · exact ih v _
        · exact ih ((v.complete ntc).ringRest ..) _

theorem ring (v : Sized size q) (end_ : Nat) : Tallied size q (txSplitqClean q end_) := by
  have cleaned := (start v).ringTurns end_ q.descCount q.nextToClean
  exact cleaned.change _ cleaned.sized ⟨rfl, rfl, rfl⟩ rfl

theorem rs (v : Sized size q) (tag : Nat) (env : TimerEnv) :
    Tallied size q (txHandleRsCompletion q tag env) := by
  unfold txHandleRsCompletion
  split
  · exact miss v ..
  · exact cleanBufs v tag

end Tallied

/-- The `switch` of `idpf_tx_clean_complq` on a queue of either scheduling mode. -/
def handleComplDesc (q : TxQueue) (ctype : Option ComplType) (tag : Nat) (env : TimerEnv) :
    Cleaning :=
  match ctype with
  | some .rs => if q.flowSchEn then txHandleRsCompletion q tag env else txSplitqClean q tag
  | _ => txHandleCompl q ctype tag env

theorem handleComplDesc_tallied {size : Nat → NapiStats} {q : TxQueue} (v : Sized size q)
    (ctype : Option ComplType) (tag : Nat) (env : TimerEnv) :
    Tallied size q (handleComplDesc q ctype tag env) := by
  have none : Tallied size q ⟨q, {}⟩ := .start v
  cases ctype with
  | none => exact none
  | some ctype =>
      cases ctype with
      | rs =>
          change Tallied size q (if q.flowSchEn then _ else _)
          split
          · exact .rs v ..
          · exact .ring v tag
      | ruleMiss => exact .miss v ..
      | reinjected => exact .reinject v tag
      | re =>
          refine none.change { q with nextToClean := tag } (fun b => ?_) ⟨rfl, rfl, rfl⟩ rfl
          exact v b
      | swMarker | itrFlush => exact none

/-- What a pass has done for a queue: what its statistics were raised by, what was reported to the
byte queue limits, and the skbs it gave back. -/
structure PassReport where
  added : NapiStats
  bql : Option NapiStats
  done : List Nat

/-- A Tx queue with the reports of the finished passes; `added` and `done` belong to the pass under
way. -/
structure PassQueue where
  q : TxQueue
  added : NapiStats := {}
  done : List Nat := []
  reports : List PassReport := []

/-- The Tx queues of a completion queue. -/
structure PassSystem where
  numTxq : Nat
  txqs : Nat → PassQueue

/-- A turn of the loop, the loop over the queues that ends a pass, and what other contexts do to a
queue meanwhile. -/
inductive PassEvent where
  | turn (d : ComplDesc) (env : TimerEnv)
  | finish (complqOk carrier : Bool)
  | outside (t : Nat) (q : TxQueue)

/-- The call of `netdev_tx_completed_queue`. -/
def bqlReport (q : TxQueue) : Option NapiStats :=
  if q.xdp then none
  else if q.cleanedBytes = 0 then none
  else some ⟨q.cleanedPkts, q.cleanedBytes⟩

namespace PassQueue

def turn (x : PassQueue) (d : ComplDesc) (env : TimerEnv) : PassQueue :=
  let s := handleComplDesc x.q d.ctype d.tag env
  { x with
    q := addCleaned s
    added := ⟨x.added.packets + s.ss.packets, x.added.bytes + s.ss.bytes⟩
    done := x.done ++ s.q.consumed.drop x.q.consumed.length }

def finish (x : PassQueue) (complqOk carrier : Bool) : PassQueue :=
  { q := txWakeQueue complqOk carrier x.q
    reports := x.reports ++ [⟨x.added, bqlReport x.q, x.done⟩] }

end PassQueue

namespace PassSystem

def step (s : PassSystem) : PassEvent → Option PassSystem
  | .turn d env =>
    if d.qid ≥ s.numTxq then some s
    else if ComplType.counted d.ctype then
      some { s with txqs := Function.update s.txqs d.qid ((s.txqs d.qid).turn d env) }
    else some s
  | .finish complqOk carrier =>
    some { s with txqs := fun t =>
      if t < s.numTxq then (s.txqs t).finish complqOk carrier else s.txqs t }
  | .outside t q => some { s with txqs := Function.update s.txqs t { s.txqs t with q } }

/-- Other contexts put skbs on the ring with their sizes and leave the counters alone. -/
def ok (size : Nat → NapiStats) (s : PassSystem) : PassEvent → Prop
  | .outside t q => Sized size q ∧ SameCounters (s.txqs t).q q
  | _ => True

def Start (size : Nat → NapiStats) (s : PassSystem) : Prop :=
  ∀ t, ∃ q, s.txqs t = { q } ∧ Sized size q ∧ q.cleanedPkts = 0 ∧ q.cleanedBytes = 0

end PassSystem

namespace PassReport

variable (size : Nat → NapiStats) (r : PassReport)

/-- What is added and what is reported are the sums over the packets completed in the pass. -/
def Exact : Prop := r.added = skbTotal size r.done ∧ r.bql.getD {} = skbTotal size r.done

/-- The sums fit the two counters, and no packets are told without bytes. -/
def Fits : Prop :=
  (skbTotal size r.done).packets < 65536 ∧ (skbTotal size r.done).bytes < 4294967296 ∧
    ((skbTotal size r.done).bytes = 0 → (skbTotal size r.done).packets = 0)

end PassReport

/-- Between two turns of a pass that began with the counters at zero. -/
structure PassQueue.Counting (size : Nat → NapiStats) (x : PassQueue) : Prop where
  pkts : x.q.cleanedPkts = u16 (skbTotal size x.done).packets
  bytes : x.q.cleanedBytes = u32 (skbTotal size x.done).bytes

/-- The statistics of the pass under way, and all reports of the passes before. -/
structure PassQueue.Inv (size : Nat → NapiStats) (x : PassQueue) : Prop where
  sized : Sized size x.q
  packets : (skbTotal size x.done).packets < 4294967296 →
    x.added.packets = (skbTotal size x.done).packets
  bytes : (skbTotal size x.done).bytes < 4294967296 →
    x.added.bytes = (skbTotal size x.done).bytes
  counting : (∀ r ∈ x.reports, r.Fits size) → x.Counting size
  exact_iff : x.q.xdp = false → ((∀ r ∈ x.reports, r.Exact size) ↔ ∀ r ∈ x.reports, r.Fits size)

theorem skbTotal_append (size : Nat → NapiStats) (l l' : List Nat) :
    skbTotal size (l ++ l') = ⟨(skbTotal size l).packets + (skbTotal size l').packets,
      (skbTotal size l).bytes + (skbTotal size l').bytes⟩ := by
  simp only [skbTotal, List.map_append, List.sum_append]

namespace PassQueue.Inv

variable {size : Nat → NapiStats} {x : PassQueue}

theorem turn (v : x.Inv size) (d : ComplDesc) (env : TimerEnv) : (x.turn d env).Inv size := by
  have tallied := handleComplDesc_tallied v.sized d.ctype d.tag env
  obtain ⟨skbs, consumed, counted⟩ := tallied.counted
  have new : (x.turn d env).done = x.done ++ skbs := by
    change x.done ++ List.drop _ _ = _
    rw [consumed, List.drop_left]
  have raised : (x.turn d env).added = ⟨x.added.packets + u32 (skbTotal size skbs).packets,
      x.added.bytes + u32 (skbTotal size skbs).bytes⟩ := by
    change NapiStats.mk _ _ = _
    rw [counted]
  have total := skbTotal_append size x.done skbs
  constructor
  · exact tallied.sized
  · rw [new, raised, total]
    intro small
    have before := v.packets (by dsimp only at small; omega)
    have now : u32 (skbTotal size skbs).packets = (skbTotal size skbs).packets :=
      Nat.mod_eq_of_lt (by dsimp only at small; omega)
    dsimp only
    rw [before, now]
  · rw [new, raised, total]
    intro small
    have before := v.bytes (by dsimp only at small; omega)
    have now : u32 (skbTotal size skbs).bytes = (skbTotal size skbs).bytes :=
      Nat.mod_eq_of_lt (by dsimp only at small; omega)
    dsimp only
    rw [before, now]
  · intro fit
    obtain ⟨pkts, bytes⟩ := v.counting fit
    constructor
    · rw [new, total]
      change u16 ((handleComplDesc x.q d.ctype d.tag env).q.cleanedPkts +
        (handleComplDesc x.q d.ctype d.tag env).ss.packets) = _
      rw [tallied.same.cleanedPkts, pkts, counted]
      unfold u16 u32
      dsimp only
      omega
    · rw [new, total]
      change u32 ((handleComplDesc x.q d.ctype d.tag env).q.cleanedBytes +
        (handleComplDesc x.q d.ctype d.tag env).ss.bytes) = _
      rw [tallied.same.cleanedBytes, bytes, counted]
      unfold u32
      dsimp only
      omega
  · intro plain
    exact v.exact_iff (tallied.same.xdp.symm.trans plain)

theorem outside (v : x.Inv size) {q : TxQueue} (sized : Sized size q) (same : SameCounters x.q q) :
    ({ x with q } : PassQueue).Inv size := by
  constructor
  · exact sized
  · exact v.packets
  · exact v.bytes
  · intro fit
    obtain ⟨pkts, bytes⟩ := v.counting fit
    exact ⟨same.cleanedPkts.trans pkts, same.cleanedBytes.trans bytes⟩
  · intro plain
    exact v.exact_iff (same.xdp.symm.trans plain)

/-- The report of a pass that began with the counters at zero. -/
theorem report_iff (v : x.Inv size) (c : x.Counting size) (plain : x.q.xdp = false) :
    let r : PassReport := ⟨x.added, bqlReport x.q, x.done⟩
    r.Exact size ↔ r.Fits size := by
  intro r
  have told : r.bql = if x.q.cleanedBytes = 0 then none
      else some ⟨x.q.cleanedPkts, x.q.cleanedBytes⟩ := by
    change bqlReport x.q = _
    rw [bqlReport, plain, if_neg Bool.false_ne_true]
  unfold PassReport.Exact PassReport.Fits
  rw [told, c.pkts, c.bytes]
  change x.added = skbTotal size x.done ∧ _ = skbTotal size x.done ↔
    (skbTotal size x.done).packets < _ ∧ (skbTotal size x.done).bytes < _ ∧
      ((skbTotal size x.done).bytes = 0 → (skbTotal size x.done).packets = 0)
  have packets := v.packets
  have bytes := v.bytes
  generalize skbTotal size x.done = total at packets bytes
  constructor
  · rintro ⟨-, same⟩
    split at same
    · next none =>
      subst same
      exact ⟨by decide, by decide, fun _ => rfl⟩
    · next some =>
      obtain ⟨p, b⟩ := total
      obtain ⟨p', b'⟩ := NapiStats.mk.inj same
      dsimp only at some p' b' ⊢
      unfold u16 at p'
      unfold u32 at b' some
      omega
  · rintro ⟨fewer, smaller, nothing⟩
    have pkts : u16 total.packets = total.packets := Nat.mod_eq_of_lt fewer
    have whole : u32 total.bytes = total.bytes := Nat.mod_eq_of_lt smaller
    have added : x.added = total := congrArg₂ NapiStats.mk (packets (by omega)) (bytes smaller)
    refine ⟨added, ?_⟩
    rw [pkts, whole]
    split
    · next none => exact (congrArg₂ NapiStats.mk (nothing none) none).symm
    · rfl

/-- The counters are zero again after a pass that fits. -/
theorem restart (c : x.Counting size) (fits : PassReport.Fits size ⟨x.added, bqlReport x.q, x.done⟩)
    (complqOk carrier : Bool) :
    (txWakeQueue complqOk carrier x.q).cleanedPkts = 0 ∧
      (txWakeQueue complqOk carrier x.q).cleanedBytes = 0 := by
  unfold txWakeQueue
  split
  · exact ⟨rfl, rfl⟩
  · split
    · next none =>
      obtain ⟨-, smaller, nothing⟩ := fits
      have bytes := c.bytes
      rw [none, u32, Nat.mod_eq_of_lt smaller] at bytes
      refine ⟨?_, none⟩
      rw [c.pkts]
      exact congrArg u16 (nothing bytes.symm)
    · exact ⟨rfl, rfl⟩

theorem finish (v : x.Inv size) (complqOk carrier : Bool) :
    (x.finish complqOk carrier).Inv size := by
  have kept : (txWakeQueue complqOk carrier x.q).bufs = x.q.bufs ∧
      (txWakeQueue complqOk carrier x.q).xdp = x.q.xdp := by
    unfold txWakeQueue
    split
    · exact ⟨rfl, rfl⟩
    · split
      · exact ⟨rfl, rfl⟩
      · exact ⟨rfl, rfl⟩
  constructor
  · intro b
    change ((txWakeQueue complqOk carrier x.q).bufs b).type.countable = true → _
    rw [show (x.finish complqOk carrier).q.bufs = x.q.bufs from kept.1, kept.1]
    exact v.sized b
  · exact fun _ => rfl
  · exact fun _ => rfl
  · intro fit
    obtain ⟨before, now⟩ := List.forall_mem_append.mp fit
    have c := v.counting before
    obtain ⟨pkts, bytes⟩ := restart c (now _ List.mem_cons_self) complqOk carrier
    exact ⟨pkts, bytes⟩
  · intro plain
    have plain : x.q.xdp = false := kept.2.symm.trans plain
    change (∀ r ∈ x.reports ++ [_], r.Exact size) ↔ ∀ r ∈ x.reports ++ [_], r.Fits size
    rw [List.forall_mem_append, List.forall_mem_append, List.forall_mem_singleton,
      List.forall_mem_singleton, v.exact_iff plain]
    exact and_congr_right fun before => v.report_iff (v.counting before) plain

end PassQueue.Inv

/-- In every run of passes, of any length and over any queues, the packets and bytes added and
reported for a netdev queue are those of the packets completed in each pass if and only if these
fit the counters in each pass. -/
theorem pass_stats_iff {size : Nat → NapiStats} {s : PassSystem}
    (run : Reachable PassSystem.step (PassSystem.ok size) (PassSystem.Start size) s) {t : Nat}
    (plain : (s.txqs t).q.xdp = false) :
    (∀ r ∈ (s.txqs t).reports, r.Exact size) ↔ ∀ r ∈ (s.txqs t).reports, r.Fits size := by
  have v := run.invariant (I := fun s => (s.txqs t).Inv size) (fun s started => ?_) ?_
  · exact v.exact_iff plain
  · obtain ⟨q, same, sized, pkts, bytes⟩ := started t
    rw [same]
    constructor
    · exact sized
    · exact fun _ => rfl
    · exact fun _ => rfl
    · exact fun _ => ⟨pkts, bytes⟩
    · exact fun _ => iff_of_true (fun _ none => absurd none List.not_mem_nil)
        fun _ none => absurd none List.not_mem_nil
  · rintro s e s' v fine taken
    cases e with
    | turn d env =>
        simp only [PassSystem.step] at taken
        split at taken
        · obtain rfl := Option.some.inj taken
          exact v
        · split at taken
          · obtain rfl := Option.some.inj taken
            by_cases own : t = d.qid
            · subst own
              dsimp only
              rw [Function.update_self]
              exact v.turn d env
            · dsimp only
              rw [Function.update_of_ne own]
              exact v
          · obtain rfl := Option.some.inj taken
            exact v
    | finish complqOk carrier =>
        obtain rfl := Option.some.inj taken
        dsimp only
        split
        · exact v.finish complqOk carrier
        · exact v
    | outside u q =>
        obtain rfl := Option.some.inj taken
        by_cases own : t = u
        · subst own
          dsimp only
          rw [Function.update_self]
          exact v.outside fine.1 fine.2
        · dsimp only
          rw [Function.update_of_ne own]
          exact v

def PassEvent.inside : PassEvent → Bool
  | .outside .. => false
  | _ => true

/-- A completion queue with one queue, of which each buffer holds a TSO packet of 744 segments. -/
def tsoBusy : PassSystem where
  numTxq := 1
  txqs _ := {
    q := { txQueueAlloc 128 65535 32 false with
      bufs := fun b =>
        { type := .skb, skb := b + 1, packets := 744, bytes := 105648, next := none } } }

theorem tsoBusy_start : tsoBusy.Start fun _ => ⟨744, 105648⟩ :=
  fun _ => ⟨_, rfl, fun _ _ => rfl, rfl, rfl⟩

theorem tsoBusy_reachable {s : PassSystem} {es : List PassEvent}
    (run : execIf PassSystem.step (fun _ e => e.inside) tsoBusy es = some s) :
    Reachable PassSystem.step (PassSystem.ok fun _ => ⟨744, 105648⟩)
      (PassSystem.Start fun _ => ⟨744, 105648⟩) s := by
  refine (Reachable.execIf (.start tsoBusy_start) run).mono fun s e inside => ?_
  cases e with
  | outside t q => cases inside
  | _ => trivial

/-- RS completions for the first `n` of its buffers in one pass. -/
def tsoPass (n : Nat) : List PassEvent :=
  (List.range n).map (fun tag => .turn ⟨0, some .rs, tag⟩ {}) ++ [.finish true true]

/-- Two passes that fit. -/
theorem pass_stats_two :
    ∃ s, execIf PassSystem.step (fun _ e => e.inside) tsoBusy
        (tsoPass 3 ++ [.turn ⟨0, some .rs, 5⟩ {}, .finish true true]) = some s ∧
      ∀ r ∈ (s.txqs 0).reports, r.Exact fun _ => ⟨744, 105648⟩ := by
  have seen : ((execIf PassSystem.step (fun _ e => e.inside) tsoBusy
      (tsoPass 3 ++ [.turn ⟨0, some .rs, 5⟩ {}, .finish true true])).map fun s =>
      ((s.txqs 0).q.xdp, (s.txqs 0).reports.map PassReport.done)) =
      some (false, [[1, 2, 3], [6]]) := by decide +kernel
  obtain ⟨s, reached, told⟩ := Option.map_eq_some_iff.mp seen
  obtain ⟨plain, done⟩ := Prod.mk.inj told
  refine ⟨s, reached, (pass_stats_iff (tsoBusy_reachable reached) plain).mpr fun r member => ?_⟩
  have among : r.done ∈ [[1, 2, 3], [6]] := done ▸ List.mem_map_of_mem member
  unfold PassReport.Fits
  rcases List.mem_cons.mp among with first | second
  · rw [first]
    decide
  · rw [List.mem_singleton.mp second]
    decide

/-- 89 packets of 744 segments each within the budget of a pass: 66216 packets are reported as
680. -/
theorem pass_stats_wrapped :
    ∃ s, execIf PassSystem.step (fun _ e => e.inside) tsoBusy (tsoPass 89) = some s ∧
      ∃ r ∈ (s.txqs 0).reports, r.bql = some ⟨680, 9402672⟩ ∧
        skbTotal (fun _ => ⟨744, 105648⟩) r.done = ⟨66216, 9402672⟩ := by
  have seen : ((execIf PassSystem.step (fun _ e => e.inside) tsoBusy (tsoPass 89)).map fun s =>
      (s.txqs 0).reports.map fun r => (r.bql, skbTotal (fun _ => ⟨744, 105648⟩) r.done)) =
      some [(some ⟨680, 9402672⟩, ⟨66216, 9402672⟩)] := by decide +kernel
  obtain ⟨s, reached, told⟩ := Option.map_eq_some_iff.mp seen
  obtain ⟨r, member, report⟩ := List.mem_map.mp (told ▸ List.mem_cons_self)
  exact ⟨s, reached, r, member, Prod.mk.inj report⟩

end Idpf
