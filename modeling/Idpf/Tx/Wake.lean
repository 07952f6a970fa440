import Idpf.Tx.Conservation

/-! Whether a netdev queue that `idpf_tx_maybe_stop_splitq` has stopped is started again. The three
things a packet needs come back by different completions, and only a pass that has counted bytes for
the queue looks at them. -/
namespace Idpf
open General

/-- A completion that counts bytes for the queue is still to come: its pass looks at whether the queue
may go on. -/
def wakeOwed (pkts : List Pkt) : Bool := pkts.any fun p => p.rem.reading

/-- Between two passes the queue is stopped, there is room for the packet it was stopped for, and no
completion will let it go on. -/
def LostWake (s : TxSystem) (t : Nat) : Prop :=
  let q := s.grp.txqs t
  ∃ need, s.refused t = some need ∧ q.stopped = true ∧ s.carrier = true ∧ s.inPass = false ∧
    txqHasRoom q.descUnused s.grp.pendingDiff s.grp.thresh q.refillq need.1 need.2 = true ∧
    wakeOwed (s.dev t).pkts = false

/-- Steps after which no queue waits in vain. A packet is refused only while the device has another
one of its queue, the bytes counted in a pass do not wrap to nothing, and the pass that has seen the
last packet of a stopped queue finds the descriptors and the completion queue as the wake test asks
for them. -/
def wakeOk (s : TxSystem) (e : Event) : Bool :=
  exceptionOk s e &&
    match e with
    | .send t skb env =>
      match txSplitqAdmit (s.grp.txqs t) s.grp.pendingDiff s.grp.thresh skb env with
      | .busy => wakeOwed (s.dev t).pkts
      | .drop | .accept .. => true
    | .compl t i kind _ =>
      match (s.dev t).pkts[i]? with
      | none => true
      | some p =>
        kind == .reinject ||
          u32 ((s.grp.txqs t).cleanedBytes + ((s.grp.txqs t).bufs p.tag).bytes) != 0
    | .passEnd => (List.range s.grp.numTxq).all fun t =>
      let q := s.grp.txqs t
      !(q.stopped && (s.refused t).isSome && !wakeOwed (s.dev t).pkts) ||
        decide (s.grp.pendingDiff ≤ s.grp.thresh ∧ txWakeThresh ≤ q.descUnused)
    | _ => true

theorem clean_numTxq (s : TxSystem) (t : Nat) (ctype : ComplType) (tag : Nat) (env : TimerEnv) :
    (s.clean t ctype tag env).grp.numTxq = s.grp.numTxq := by
  unfold TxSystem.clean txCleanDesc
  split
  · rfl
  · split
    · rfl
    · rfl

theorem step_numTxq {s s' : TxSystem} {e : Event} (taken : s.step e = some s') :
    s'.grp.numTxq = s.grp.numTxq := by
  cases e with
  | send t skb env =>
      simp only [TxSystem.step, Option.ite_none_right_eq_some, Option.some.injEq] at taken
      obtain ⟨-, rfl⟩ := taken
      rfl
  | xdp t size dma =>
      simp only [TxSystem.step, Option.ite_none_right_eq_some, Option.some.injEq] at taken
      obtain ⟨-, rfl⟩ := taken
      rfl
  | fetch t n =>
      simp only [TxSystem.step, Option.ite_none_right_eq_some, Option.some.injEq] at taken
      obtain ⟨-, rfl⟩ := taken
      rfl
  | re t head =>
      cases reqs : (s.dev t).reqs with
      | nil => simp only [TxSystem.step, reqs, reduceCtorEq] at taken
      | cons pos rest =>
          simp only [TxSystem.step, reqs, Option.ite_none_right_eq_some,
            Option.some.injEq] at taken
          obtain ⟨-, rfl⟩ := taken
          exact clean_numTxq ..
  | divert t i =>
      obtain ⟨p, -, -, -, -, rfl⟩ := divert_taken taken
      rfl
  | compl t i kind env =>
      obtain ⟨p, rem, -, -, -, -, rfl⟩ := compl_taken taken
      exact clean_numTxq ..
  | expire t timer =>
      simp only [TxSystem.step, Option.ite_none_right_eq_some, Option.some.injEq] at taken
      obtain ⟨-, rfl⟩ := taken
      rfl
  | marker t =>
      simp only [TxSystem.step, Option.ite_none_right_eq_some, Option.some.injEq] at taken
      obtain ⟨-, rfl⟩ := taken
      exact clean_numTxq ..
  | flush =>
      obtain rfl := Option.some.inj taken
      rfl
  | passEnd =>
      obtain rfl := Option.some.inj taken
      rfl
  | link up =>
      obtain rfl := Option.some.inj taken
      rfl

theorem frame_cleanedBytes {q : TxQueue} (use : q.nextToUse < q.descCount)
    (pending thresh skbId : Nat) (skb : Skb) (env : SendEnv) :
    (txSplitqFrame q pending thresh skbId skb env).q.cleanedBytes = q.cleanedBytes := by
  by_cases accepted : ∃ skb' tso, txSplitqAdmit q pending thresh skb env = .accept skb' tso
  · obtain ⟨skb', tso, accepted⟩ := accepted
    obtain ⟨-, -, -, -, -, ⟨ring, after⟩, -⟩ | ⟨carried, -⟩ := frame_accepted use accepted skbId
    · rw [after]
      rfl
    · exact carried.same.cleanedBytes
  · obtain ⟨-, -, -, -, ⟨-, after⟩ | ⟨-, -, after⟩⟩ :=
      frame_refused (fun skb' tso same => accepted ⟨skb', tso, same⟩) skbId
    · rw [after]
      rfl
    · rw [after]

/-- A stopped queue waits for a packet, or for the end of a pass that has counted bytes. -/
structure WakeInv (s : TxSystem) (t : Nat) : Prop where
  use : s.InRing
  known : t < s.grp.numTxq
  books : s.BooksAt t
  small : (s.grp.txqs t).cleanedBytes < 4294967296
  owed : (s.grp.txqs t).stopped = true → (s.refused t).isSome = true → s.carrier = true →
    wakeOwed (s.dev t).pkts = true ∨ s.inPass = true ∧ (s.grp.txqs t).cleanedBytes ≠ 0

/-- Only the room check finds a queue busy. -/
theorem frame_busy {q : TxQueue} {pending thresh skbId : Nat} {skb : Skb} {env : SendEnv}
    (busy : (txSplitqFrame q pending thresh skbId skb env).verdict = .busy) :
    txSplitqAdmit q pending thresh skb env = .busy := by
  unfold txSplitqFrame at busy
  cases admission : txSplitqAdmit q pending thresh skb env with
  | busy => rfl
  | drop =>
      rw [admission] at busy
      cases busy
  | accept skb' tso =>
      rw [admission] at busy
      dsimp only at busy
      split at busy
      · cases busy
      · next p st begun =>
        unfold txSplitqMap at busy
        cases result : txSplitqMapLoop env.dma p.complTag skb'.frags 0 skb'.headlen st with
        | failed st' =>
            rw [result] at busy
            cases busy
        | mapped st' last =>
            rw [result] at busy
            cases busy

theorem wakeOwed_set {pkts : List Pkt} {i : Nat} {p : Pkt} (at_ : pkts[i]? = some p) {rem : Rem}
    (same : rem.reading = p.rem.reading) : wakeOwed (pkts.set i { p with rem }) = wakeOwed pkts := by
  obtain ⟨front, back, split, put⟩ := pkts_split at_
  rw [put, split, wakeOwed, wakeOwed, List.any_append, List.any_append, List.any_cons,
    List.any_cons, same]

/-- The fields of a queue that only the end of a pass puts back. -/
structure SameWake (q q' : TxQueue) : Prop where
  stopped : q'.stopped = q.stopped
  cleanedBytes : q'.cleanedBytes = q.cleanedBytes

theorem TxQueue.OnlyBufs.sameWake {q q' : TxQueue} (h : q.OnlyBufs q') : SameWake q q' :=
  ⟨h.same.stopped, h.same.cleanedBytes⟩

theorem txHandleMissCompletion_sameWake (q : TxQueue) (tag : Nat) (env : TimerEnv) :
    SameWake q (txHandleMissCompletion q tag env).q := by
  have started : SameWake q (txStartReinjectTimer q tag env).1 := by
    unfold txStartReinjectTimer
    cases env.kzalloc <;> cases env.xaStore <;> exact ⟨rfl, rfl⟩
  have cleaned (q' : TxQueue) : SameWake q' (txCleanBufs q' tag).q :=
    (txCleanBufs_only q' tag).sameWake
  unfold txHandleMissCompletion
  generalize txStartReinjectTimer q tag env = r at started
  split
  · obtain ⟨stopped, bytes⟩ := cleaned (q.modBuf tag fun e => { e with type := .skb })
    exact ⟨stopped, bytes⟩
  · dsimp only
    split
    · obtain ⟨stopped, bytes⟩ := cleaned (r.1.modBuf tag fun e => { e with type := .miss })
      exact ⟨stopped.trans started.stopped, bytes.trans started.cleanedBytes⟩
    · obtain ⟨stopped, bytes⟩ := cleaned r.1
      exact ⟨stopped.trans started.stopped, bytes.trans started.cleanedBytes⟩

theorem txHandleReinjectCompletion_sameWake (q : TxQueue) (tag : Nat) :
    SameWake q (txHandleReinjectCompletion q tag).q := by
  unfold txHandleReinjectCompletion
  dsimp only
  split
  · split
    · exact ⟨rfl, rfl⟩
    · obtain ⟨stopped, bytes⟩ := (libethTxComplete_only _ tag).sameWake
      exact ⟨stopped, bytes⟩
  · split
    · exact ⟨rfl, rfl⟩
    · exact ⟨rfl, rfl⟩

theorem txHandleCompl_sameWake (q : TxQueue) (kind : ComplKind) (tag : Nat) (env : TimerEnv) :
    SameWake q (txHandleCompl q (some kind.ctype) tag env).q := by
  cases kind with
  | rs =>
      change SameWake q (txHandleRsCompletion q tag env).q
      unfold txHandleRsCompletion
      split
      · exact txHandleMissCompletion_sameWake ..
      · exact (txCleanBufs_only q tag).sameWake
  | miss => exact txHandleMissCompletion_sameWake ..
  | reinject => exact txHandleReinjectCompletion_sameWake ..

/-- A queue that is still stopped at the end of a pass has counted no bytes, or the test has
failed. -/
theorem txWakeQueue_stopped {complqOk carrier : Bool} {q : TxQueue} (plain : q.xdp = false)
    (stopped : (txWakeQueue complqOk carrier q).stopped = true) :
    q.stopped = true ∧
      (q.cleanedBytes = 0 ∨ (complqOk && carrier && q.descUnused ≥ txWakeThresh) = false) := by
  unfold txWakeQueue at stopped
  rw [plain, if_neg Bool.false_ne_true] at stopped
  split at stopped
  · next none => exact ⟨stopped, .inl none⟩
  · obtain ⟨stops, failed⟩ := Bool.and_eq_true_iff.mp stopped
    exact ⟨stops, .inr (Bool.not_eq_true' _ |>.mp failed)⟩

theorem txWakeQueue_cleanedBytes_le (complqOk carrier : Bool) (q : TxQueue) :
    (txWakeQueue complqOk carrier q).cleanedBytes ≤ q.cleanedBytes := by
  unfold txWakeQueue
  split
  · exact Nat.zero_le _
  · split
    · exact le_rfl
    · exact Nat.zero_le _

namespace WakeInv

variable {s s' : TxSystem} {e : Event} {t : Nat}

theorem start (c : TxConfig) (known : t < c.numTxq) (plain : c.xdp t = false) :
    WakeInv c.init t := by
  constructor
  · exact TxSystem.InRing.start c
  · exact known
  · exact TxSystem.BooksAt.start c plain
  · exact Nat.zero_lt_succ _
  · exact fun stopped => absurd stopped Bool.false_ne_true

/-- A completion: the device reads on, or bytes are counted. -/
theorem compl (v : WakeInv s t) {i : Nat} {kind : ComplKind} {env : TimerEnv} {p : Pkt} {rem : Rem}
    (ok : wakeOk s (.compl t i kind env) = true) (at_ : (s.dev t).pkts[i]? = some p)
    (delivered : p.rem.deliver kind = some rem) :
    let cleaned := addCleaned (txHandleCompl (s.grp.txqs t) (some kind.ctype) p.tag env)
    cleaned.stopped = (s.grp.txqs t).stopped ∧ cleaned.cleanedBytes < 4294967296 ∧
      (wakeOwed ((s.dev t).pkts.set i { p with rem }) = wakeOwed (s.dev t).pkts ∧
        cleaned.cleanedBytes = (s.grp.txqs t).cleanedBytes ∨ cleaned.cleanedBytes ≠ 0) := by
  obtain ⟨n, free, books⟩ := v.books
  obtain ⟨front, back, split, put⟩ := pkts_split at_
  rw [split] at books
  have settles : kind.settles ((s.grp.txqs t).bufs p.tag).type env = true := by
    have sound := (Bool.and_eq_true_iff.mp ok).1
    simp only [exceptionOk, at_] at sound
    exact sound
  have small := v.small
  have kept := txHandleCompl_sameWake (s.grp.txqs t) kind p.tag env
  have counts : (addCleaned (txHandleCompl (s.grp.txqs t) (some kind.ctype) p.tag env)).cleanedBytes =
      u32 ((s.grp.txqs t).cleanedBytes +
        (txHandleCompl (s.grp.txqs t) (some kind.ctype) p.tag env).ss.bytes) := by
    rw [← kept.cleanedBytes]
    rfl
  refine ⟨kept.stopped, u32_lt _, ?_⟩
  rw [counts]
  obtain ⟨-, ⟨-, same, none⟩ | ⟨other, counted⟩⟩ := books.compl delivered settles
  · refine .inl ⟨wakeOwed_set at_ same, ?_⟩
    rw [none]
    exact Nat.mod_eq_of_lt small
  · refine .inr ?_
    have fits := (Bool.and_eq_true_iff.mp ok).2
    simp only [at_, Bool.or_eq_true, beq_iff_eq, bne_iff_ne, or_iff_right other] at fits
    rw [counted]
    unfold u32 at fits ⊢
    omega

theorem step (v : WakeInv s t) (ok : wakeOk s e = true) (taken : s.step e = some s') :
    WakeInv s' t := by
  have use := v.use.step taken
  have known := step_numTxq taken ▸ v.known
  have sound := (Bool.and_eq_true_iff.mp ok).1
  have books := v.books.step v.use sound taken
  cases queue_step taken t with
  | still same =>
      have bytes := same.bytes v.small
      refine ⟨use, known, books, bytes ▸ v.small, ?_⟩
      rw [same.refused, same.stopped, same.pkts, same.carrier, bytes]
      intro stopped refused carrier
      exact (v.owed stopped refused carrier).imp_right fun waits => ⟨same.inPass waits.1, waits.2⟩
  | send skb env r which framed after =>
      have queue : (s.send t skb env).grp.txqs t = r.q := by
        rw [framed]
        exact Function.update_self ..
      have dev : (s.send t skb env).dev t = if r.verdict = .sent then
          (s.dev t).accept s.nextSkb r.mapped r.slots.length r.re else s.dev t := by
        rw [framed]
        exact Function.update_self ..
      have refused : (s.send t skb env).refused t =
          if r.verdict = .busy then some (txNeeds (s.grp.txqs t) skb env) else none := by
        rw [framed]
        exact Function.update_self ..
      have kept : r.q.cleanedBytes = (s.grp.txqs t).cleanedBytes := by
        rw [framed]
        exact frame_cleanedBytes (v.use t) ..
      rw [which] at ok
      subst after
      refine ⟨use, known, books, ?_, ?_⟩
      · rw [queue, kept]
        exact v.small
      · rw [refused]
        intro _ waits _
        by_cases busy : r.verdict = .busy
        · have admission := frame_busy (framed ▸ busy)
          simp only [wakeOk, admission, Bool.and_eq_true] at ok
          rw [dev, if_neg (by rw [busy]; decide)]
          exact .inl ok.2
        · rw [if_neg busy] at waits
          exact absurd waits Bool.false_ne_true
  | xdp frames =>
      obtain ⟨n, free, b⟩ := v.books
      rw [b.plain] at frames
      cases frames
  | divert i p at_ fresh after =>
      subst after
      refine ⟨use, known, books, v.small, ?_⟩
      rw [setDev_same]
      dsimp only
      rw [wakeOwed_set at_ (by rw [fresh]; rfl)]
      exact v.owed
  | compl i kind env p rem which at_ delivered seen pkts refused carrier inPass nextSkb =>
      rw [which] at ok
      obtain ⟨stopped, small, counted⟩ := v.compl ok at_ delivered
      refine ⟨use, known, books, seen ▸ small, ?_⟩
      rw [seen, pkts, refused, carrier, stopped]
      intro stops waits up
      rcases counted with ⟨same, bytes⟩ | bytes
      · rw [same, bytes]
        exact (v.owed stops waits up).imp_right fun passing => ⟨inPass, passing.2⟩
      · exact .inr ⟨inPass, bytes⟩
  | expire timer which =>
      rw [which] at sound
      cases sound
  | passEnd which after =>
      obtain ⟨n, free, b⟩ := v.books
      rw [which] at ok
      have ends := List.all_eq_true.mp (Bool.and_eq_true_iff.mp ok).2 t (List.mem_range.mpr v.known)
      subst after
      refine ⟨use, known, books, (txWakeQueue_cleanedBytes_le ..).trans_lt v.small, ?_⟩
      intro stays waits up
      obtain ⟨stops, failed⟩ := txWakeQueue_stopped b.plain stays
      rcases v.owed stops waits up with owed | ⟨-, counted⟩
      · exact .inl owed
      · refine .inl (Bool.not_eq_false _ |>.mp fun none => ?_)
        change s.refused t |>.isSome at waits
        change wakeOwed (s.dev t).pkts = false at none
        dsimp only at ends
        rw [stops, waits, none] at ends
        obtain ⟨headroom, enough⟩ := of_decide_eq_true ends
        rcases failed with none | failed
        · exact counted none
        · have complqOk : (!(s.grp.pendingDiff > s.grp.thresh : Bool)) = true := by
            rw [Bool.not_eq_true', decide_eq_false_iff_not, not_lt]
            exact headroom
          rw [complqOk, show s.carrier = true from up, decide_eq_true enough] at failed
          cases failed
  | link up which same bytes dev refused nextSkb =>
      refine ⟨use, known, books, bytes ▸ v.small, ?_⟩
      rw [refused]
      exact fun _ none => absurd none Bool.false_ne_true

end WakeInv

/-- In every run whose steps are as `wakeOk` says, no netdev queue waits in vain. -/
theorem no_lost_wake (c : TxConfig) {s : TxSystem}
    (run : Reachable TxSystem.step (fun s e => wakeOk s e = true) (fun s => s = c.init) s)
    {t : Nat} (known : t < c.numTxq) (plain : c.xdp t = false) : ¬ LostWake s t := by
  have v : WakeInv s t := by
    refine run.invariant (I := fun s => WakeInv s t) (fun _ started => ?_)
      fun s e _ v ok taken => v.step ok taken
    exact started ▸ WakeInv.start c known plain
  rintro ⟨need, refused, stops, up, ended, -, none⟩
  rcases v.owed stops (by rw [refused]; rfl) up with owed | ⟨passing, -⟩
  · rw [none] at owed
    cases owed
  · rw [ended] at passing
    cases passing

/-- A ring that is full of packets of 18 descriptors each, with an eighth one refused. -/
def fullRing : List Event :=
  List.replicate 8 (.send 0 { headlen := 100, frags := List.replicate 17 200 } {})

def allSent : List Event := (List.range 7).map fun i => .compl 0 i .rs {}

/-- The queue is refused a packet, and the RE completions come before the RS completions. -/
theorem no_lost_wake_refused :
    let c : TxConfig := ⟨1, 128, 256, 32, false, fun _ => false, by decide, by decide, by decide,
      by decide⟩
    let refused := execIf TxSystem.step wakeOk c.init fullRing
    let run := execIf TxSystem.step wakeOk c.init
      (fullRing ++ [.fetch 0 126, .re 0 72, .re 0 126] ++ allSent ++ [.passEnd])
    (refused.map fun s => (s.grp.txqs 0).stopped) = some true ∧
      ∃ s, run = some s ∧ (s.grp.txqs 0).stopped = false ∧ ¬ LostWake s 0 := by
  intro c refused run
  have seen : (run.map fun s => (s.grp.txqs 0).stopped) = some false := by decide +kernel
  obtain ⟨s, reached, woken⟩ := Option.map_eq_some_iff.mp seen
  refine ⟨by decide +kernel, s, reached, woken, ?_⟩
  exact no_lost_wake c (Reachable.execIf (.start rfl) reached) Nat.zero_lt_one rfl

/-- The RS completions of a full ring come in a pass that finds one descriptor unused, and the RE
completions that free the others count no bytes: the queue stays stopped with nothing to come. -/
theorem wake_lost :
    let c : TxConfig := ⟨1, 128, 256, 32, false, fun _ => false, by decide, by decide, by decide,
      by decide⟩
    ∃ s, exec TxSystem.step c.init (fullRing ++ [.fetch 0 126] ++ allSent ++
      [.passEnd, .re 0 72, .re 0 126, .passEnd]) = some s ∧ LostWake s 0 := by
  intro c
  have seen : ((exec TxSystem.step c.init (fullRing ++ [.fetch 0 126] ++ allSent ++
      [.passEnd, .re 0 72, .re 0 126, .passEnd])).map fun s =>
      (s.refused 0, (s.grp.txqs 0).stopped, s.carrier, s.inPass,
        txqHasRoom (s.grp.txqs 0).descUnused s.grp.pendingDiff s.grp.thresh
          (s.grp.txqs 0).refillq 18 18, wakeOwed (s.dev 0).pkts)) =
      some (some (18, 18), true, true, false, true, false) := by decide +kernel
  obtain ⟨s, reached, lost⟩ := Option.map_eq_some_iff.mp seen
  simp only [Prod.mk.injEq] at lost
  exact ⟨s, reached, (18, 18), lost⟩

end Idpf
