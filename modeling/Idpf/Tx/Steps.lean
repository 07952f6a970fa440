import Idpf.Tx.Frame
import Idpf.Tx.System

/-! One step of the group as a single queue sees it. Whatever an event does to
buffers, timers and statistics, the ring fields of a queue and the device's view
of its ring change in one of five ways only. -/
namespace Idpf
open General

/-- The ring fields of two queues agree. -/
structure SameRing (q q' : TxQueue) : Prop where
  descCount : q'.descCount = q.descCount
  nextToUse : q'.nextToUse = q.nextToUse
  nextToClean : q'.nextToClean = q.nextToClean
  lastRe : q'.lastRe = q.lastRe
  flowSchEn : q'.flowSchEn = q.flowSchEn
  ring : q'.ring = q.ring

theorem SameRing.refl (q : TxQueue) : SameRing q q := ⟨rfl, rfl, rfl, rfl, rfl, rfl⟩

theorem SameRing.trans {q q' q'' : TxQueue} (h : SameRing q q') (h' : SameRing q' q'') :
    SameRing q q'' :=
  ⟨h'.descCount.trans h.descCount, h'.nextToUse.trans h.nextToUse,
    h'.nextToClean.trans h.nextToClean, h'.lastRe.trans h.lastRe,
    h'.flowSchEn.trans h.flowSchEn, h'.ring.trans h.ring⟩

theorem TxQueue.OnlyBufs.sameRing {q q' : TxQueue} (h : q.OnlyBufs q') : SameRing q q' := by
  rw [show q' = _ from h]
  constructor <;> rfl

theorem modBuf_sameRing (q : TxQueue) (b : Nat) (f : TxBuf → TxBuf) : SameRing q (q.modBuf b f) :=
  ⟨rfl, rfl, rfl, rfl, rfl, rfl⟩

/-- The device's view of a ring, apart from packets and markers. -/
structure SameDevRing (d d' : Dev) : Prop where
  reqs : d'.reqs = d.reqs
  tail : d'.tail = d.tail
  head : d'.head = d.head
  reported : d'.reported = d.reported

theorem SameDevRing.refl (d : Dev) : SameDevRing d d := ⟨rfl, rfl, rfl, rfl⟩

theorem completeAndPost_only (s : Cleaning) (b : Nat) :
    s.q.OnlyBufs (completeAndPost s b).q :=
  (libethTxComplete_only s b).trans rfl

theorem txCleanBufs_only (q : TxQueue) (bufId : Nat) : q.OnlyBufs (txCleanBufs q bufId).q := by
  unfold txCleanBufs txCleanable
  split
  · next q' clean =>
    have start : q.OnlyBufs q' := by
      split at clean
      · cases clean; rfl
      · cases clean; rfl
      · cases clean; rfl
      · cases clean
    exact start.trans (walkChain_only completeAndPost_only ..)
  · rfl

theorem txStartReinjectTimer_sameRing (q : TxQueue) (bufId : Nat) (env : TimerEnv) :
    SameRing q (txStartReinjectTimer q bufId env).1 := by
  unfold txStartReinjectTimer
  cases env.kzalloc <;> cases env.xaStore <;> exact ⟨rfl, rfl, rfl, rfl, rfl, rfl⟩

theorem txHandleMissCompletion_sameRing (q : TxQueue) (tag : Nat) (env : TimerEnv) :
    SameRing q (txHandleMissCompletion q tag env).q := by
  have started := txStartReinjectTimer_sameRing q tag env
  unfold txHandleMissCompletion
  generalize txStartReinjectTimer q tag env = r at started
  split
  · exact (modBuf_sameRing q tag _).trans (txCleanBufs_only _ tag).sameRing
  · dsimp only
    split
    · exact started.trans ((modBuf_sameRing r.1 tag _).trans (txCleanBufs_only _ tag).sameRing)
    · exact started.trans (txCleanBufs_only r.1 tag).sameRing

theorem txHandleRsCompletion_sameRing (q : TxQueue) (tag : Nat) (env : TimerEnv) :
    SameRing q (txHandleRsCompletion q tag env).q := by
  unfold txHandleRsCompletion
  split
  · exact txHandleMissCompletion_sameRing ..
  · exact (txCleanBufs_only ..).sameRing

/-- The index a reinject completion of an uncleaned packet writes back. -/
def reinjectNtc (q : TxQueue) (tag : Nat) : Nat :=
  if (q.bufs tag).rsIdx + 1 ≥ q.descCount then 0 else (q.bufs tag).rsIdx + 1

/-- A reinject completion leaves the ring alone unless it meets a buffer of type
SKB; then it moves `next_to_clean` behind that buffer's packet. -/
theorem txHandleReinjectCompletion_ring (q : TxQueue) (tag : Nat) :
    SameRing q (txHandleReinjectCompletion q tag).q ∨
      ((q.bufs tag).type = .skb ∧
        SameRing { q with nextToClean := reinjectNtc q tag }
          (txHandleReinjectCompletion q tag).q) := by
  unfold txHandleReinjectCompletion
  by_cases missed : (q.bufs tag).type = .miss
  · refine .inl ?_
    simp only [missed, if_true]
    split
    · exact SameRing.refl q
    · refine SameRing.trans ?_ (libethTxComplete_only _ tag).sameRing
      exact ⟨rfl, rfl, rfl, rfl, rfl, rfl⟩
  · by_cases plain : (q.bufs tag).type = .skb
    · refine .inr ⟨plain, ?_⟩
      simp only [plain, reduceCtorEq, if_false, if_true]
      exact ⟨rfl, rfl, rfl, rfl, rfl, rfl⟩
    · refine .inl ?_
      simp only [missed, plain, if_false]
      exact SameRing.refl q

theorem txWakeQueue_sameRing (ok carrier : Bool) (q : TxQueue) :
    SameRing q (txWakeQueue ok carrier q) := by
  unfold txWakeQueue
  split
  · exact ⟨rfl, rfl, rfl, rfl, rfl, rfl⟩
  · split
    · exact SameRing.refl q
    · exact ⟨rfl, rfl, rfl, rfl, rfl, rfl⟩

/-- A processed descriptor as seen by the queue it names and by the others. -/
theorem clean_txqs (s : TxSystem) {t : Nat} (known : t < s.grp.numTxq) (ctype : ComplType)
    (counted : ComplType.counted (some ctype) = true) (tag : Nat) (env : TimerEnv) (t' : Nat) :
    (s.clean t ctype tag env).grp.txqs t' =
      if t' = t then addCleaned (txHandleCompl (s.grp.txqs t) (some ctype) tag env)
      else s.grp.txqs t' := by
  unfold TxSystem.clean txCleanDesc
  rw [if_neg (by simp only; omega), if_pos counted]
  simp only [TxqGroup.setQueue, Function.update_apply]

theorem addCleaned_sameRing (s : Cleaning) : SameRing s.q (addCleaned s) :=
  ⟨rfl, rfl, rfl, rfl, rfl, rfl⟩

/-- The five ways a step can change a queue's ring, and the first: not at all. -/
inductive RingStep (s : TxSystem) (e : Event) (t : Nat) (q' : TxQueue) (d' : Dev) : Prop
  | idle : SameRing (s.grp.txqs t) q' → SameDevRing (s.dev t) d' → RingStep s e t q' d'
  | send (skb : Skb) (env : SendEnv) (r : FrameResult) : e = .send t skb env →
      r = txSplitqFrame (s.grp.txqs t) s.grp.pendingDiff s.grp.thresh s.nextSkb skb env →
      q' = r.q →
      d' = (if r.verdict = .sent then (s.dev t).accept s.nextSkb r.mapped r.slots.length r.re
        else s.dev t) → RingStep s e t q' d'
  | xdp (size : Nat) (dma : Option Nat) (r : XdpResult) : e = .xdp t size dma →
      r = txXmitXdpq (s.grp.txqs t) s.nextSkb size dma → q' = r.q →
      d' = (if r.sent then (s.dev t).accept s.nextSkb r.mapped 1 false else s.dev t) →
      RingStep s e t q' d'
  | fetch (n : Nat) : e = .fetch t n → q' = s.grp.txqs t →
      d' = { s.dev t with head := (s.dev t).head + n } →
      (s.dev t).head + n ≤ (s.dev t).tail → RingStep s e t q' d'
  | re (pos head : Nat) (rest : List Nat) : e = .re t head → (s.dev t).reqs = pos :: rest →
      pos < head → (s.dev t).reported ≤ head → head ≤ (s.dev t).head →
      SameRing { s.grp.txqs t with
        nextToClean := head % (s.grp.txqs t).descCount } q' →
      d' = { s.dev t with reqs := rest, reported := head } → RingStep s e t q' d'
  | reinject (i : Nat) (p : Pkt) (env : TimerEnv) : e = .compl t i .reinject env →
      (s.dev t).pkts[i]? = some p → ((s.grp.txqs t).bufs p.tag).type = .skb →
      SameRing { s.grp.txqs t with
        nextToClean := reinjectNtc (s.grp.txqs t) p.tag } q' →
      SameDevRing (s.dev t) d' → RingStep s e t q' d'

theorem setDev_same (s : TxSystem) (t : Nat) (d : Dev) : (s.setDev t d).dev t = d := by
  simp [TxSystem.setDev]

theorem setDev_other (s : TxSystem) {t t' : Nat} (d : Dev) (ne : t' ≠ t) :
    (s.setDev t d).dev t' = s.dev t' := by simp [TxSystem.setDev, ne]

theorem setDev_sameDevRing (s : TxSystem) {u : Nat} {d : Dev} (same : SameDevRing (s.dev u) d)
    (t : Nat) : SameDevRing (s.dev t) ((s.setDev u d).dev t) := by
  by_cases own : t = u
  · rw [own, setDev_same]
    exact same
  · rw [setDev_other _ _ own]
    exact SameDevRing.refl _

/-- The inversion of the device's decision for the exception path. -/
theorem divert_taken {s s' : TxSystem} {t i : Nat} (taken : s.step (.divert t i) = some s') :
    ∃ p, t < s.grp.numTxq ∧ (s.dev t).pkts[i]? = some p ∧ p.rem = .fresh ∧
      p.last < (s.dev t).head ∧
      s' = s.setDev t { s.dev t with pkts := (s.dev t).pkts.set i { p with rem := .exception } } := by
  simp only [TxSystem.step] at taken
  cases at_ : (s.dev t).pkts[i]? with
  | none => simp only [at_, reduceCtorEq] at taken
  | some p =>
      simp only [at_, Option.ite_none_right_eq_some, Option.some.injEq] at taken
      exact ⟨p, taken.1.1, rfl, taken.1.2.1, taken.1.2.2, taken.2.symm⟩

/-- The inversion of a packet completion. -/
theorem compl_taken {s s' : TxSystem} {t i : Nat} {kind : ComplKind} {env : TimerEnv}
    (taken : s.step (.compl t i kind env) = some s') :
    ∃ p rem, t < s.grp.numTxq ∧ (s.dev t).pkts[i]? = some p ∧ p.rem.deliver kind = some rem ∧
      p.last < (s.dev t).head ∧
      s' = (s.clean t kind.ctype p.tag env).setDev t
        { s.dev t with pkts := (s.dev t).pkts.set i { p with rem } } := by
  simp only [TxSystem.step] at taken
  cases at_ : (s.dev t).pkts[i]? with
  | none => simp only [at_, reduceCtorEq] at taken
  | some p =>
      simp only [at_] at taken
      cases delivered : p.rem.deliver kind with
      | none => simp only [delivered, reduceCtorEq] at taken
      | some rem =>
          simp only [delivered, Option.ite_none_right_eq_some, Option.some.injEq] at taken
          exact ⟨p, rem, taken.1.1, rfl, delivered, taken.1.2, taken.2.symm⟩

/-- A packet completion leaves the rings alone, but for the index that a reinject completion of an
uncleaned packet writes back. -/
theorem ring_compl {s s' : TxSystem} {u i : Nat} {kind : ComplKind} {env : TimerEnv}
    (taken : s.step (.compl u i kind env) = some s') (t : Nat) :
    RingStep s (.compl u i kind env) t (s'.grp.txqs t) (s'.dev t) := by
  obtain ⟨p, rem, known, at_, -, -, rfl⟩ := compl_taken taken
  have seen := clean_txqs s known kind.ctype (by cases kind <;> rfl) p.tag env t
  have dev : SameDevRing (s.dev t) (((s.clean u kind.ctype p.tag env).setDev u
      { s.dev u with pkts := (s.dev u).pkts.set i { p with rem } }).dev t) := by
    refine setDev_sameDevRing (s.clean u kind.ctype p.tag env) ?_ t
    exact ⟨rfl, rfl, rfl, rfl⟩
  by_cases own : t = u
  · subst u
    rw [if_pos rfl] at seen
    cases kind with
    | rs =>
        exact .idle (seen ▸ (txHandleRsCompletion_sameRing _ p.tag env).trans
          (addCleaned_sameRing _)) dev
    | miss =>
        exact .idle (seen ▸ (txHandleMissCompletion_sameRing _ p.tag env).trans
          (addCleaned_sameRing _)) dev
    | reinject =>
        rcases txHandleReinjectCompletion_ring (s.grp.txqs t) p.tag with same | ⟨skb, back⟩
        · exact .idle (seen ▸ same.trans (addCleaned_sameRing _)) dev
        · exact .reinject i p env rfl at_ skb
            (seen ▸ back.trans (addCleaned_sameRing _)) dev
  · rw [if_neg own] at seen
    exact .idle (seen ▸ SameRing.refl _) dev

theorem ring_step {s s' : TxSystem} {e : Event} (taken : s.step e = some s') (t : Nat) :
    RingStep s e t (s'.grp.txqs t) (s'.dev t) := by
  cases e with
  | send u skb env =>
      simp only [TxSystem.step, Option.ite_none_right_eq_some, Option.some.injEq] at taken
      obtain ⟨-, rfl⟩ := taken
      by_cases own : t = u
      · subst u
        refine .send skb env _ rfl rfl ?_ ?_
        · simp [TxSystem.send, TxqGroup.setQueue]
        · simp [TxSystem.send]
      · refine .idle ?_ ?_
        · simp only [TxSystem.send, TxqGroup.setQueue, Function.update_of_ne own]
          exact SameRing.refl _
        · simp only [TxSystem.send, Function.update_of_ne own]
          exact SameDevRing.refl _
  | xdp u size dma =>
      simp only [TxSystem.step, Option.ite_none_right_eq_some, Option.some.injEq] at taken
      obtain ⟨-, rfl⟩ := taken
      by_cases own : t = u
      · subst u
        refine .xdp size dma _ rfl rfl ?_ ?_
        · simp [TxSystem.xdp, TxqGroup.setQueue]
        · simp [TxSystem.xdp]
      · refine .idle ?_ ?_
        · simp only [TxSystem.xdp, TxqGroup.setQueue, Function.update_of_ne own]
          exact SameRing.refl _
        · simp only [TxSystem.xdp, Function.update_of_ne own]
          exact SameDevRing.refl _
  | fetch u n =>
      simp only [TxSystem.step, Option.ite_none_right_eq_some, Option.some.injEq] at taken
      obtain ⟨⟨-, room⟩, rfl⟩ := taken
      by_cases own : t = u
      · subst u
        exact .fetch n rfl rfl (setDev_same ..) room
      · refine .idle (SameRing.refl _) ?_
        rw [setDev_other _ _ own]
        exact SameDevRing.refl _
  | re u head =>
      cases reqs : (s.dev u).reqs with
      | nil => simp only [TxSystem.step, reqs, reduceCtorEq] at taken
      | cons pos rest =>
          simp only [TxSystem.step, reqs, Option.ite_none_right_eq_some,
            Option.some.injEq] at taken
          obtain ⟨⟨known, after, order, fetched⟩, rfl⟩ := taken
          have seen := clean_txqs s known .re rfl
            (head % (s.grp.txqs u).descCount) {} t
          by_cases own : t = u
          · subst u
            rw [if_pos rfl] at seen
            refine .re pos head rest rfl reqs after order fetched ?_ (setDev_same ..)
            exact seen ▸ ⟨rfl, rfl, rfl, rfl, rfl, rfl⟩
          · rw [if_neg own] at seen
            refine .idle (seen ▸ SameRing.refl _) ?_
            rw [setDev_other _ _ own]
            exact SameDevRing.refl _
  | divert u i =>
      obtain ⟨p, -, -, -, -, rfl⟩ := divert_taken taken
      refine .idle (SameRing.refl _) (setDev_sameDevRing s ?_ t)
      exact ⟨rfl, rfl, rfl, rfl⟩
  | compl u i kind env =>
      exact ring_compl taken t
  | expire u timer =>
      simp only [TxSystem.step, Option.ite_none_right_eq_some, Option.some.injEq] at taken
      obtain ⟨-, rfl⟩ := taken
      refine .idle ?_ (SameDevRing.refl _)
      by_cases own : t = u
      · subst u
        simp only [TxqGroup.setQueue, Function.update_self]
        exact ⟨rfl, rfl, rfl, rfl, rfl, rfl⟩
      · simp only [TxqGroup.setQueue, Function.update_of_ne own]
        exact SameRing.refl _
  | flush =>
      obtain rfl := Option.some.inj taken
      exact .idle (SameRing.refl _) ⟨rfl, rfl, rfl, rfl⟩
  | marker u =>
      simp only [TxSystem.step, Option.ite_none_right_eq_some, Option.some.injEq] at taken
      obtain ⟨⟨known, -⟩, rfl⟩ := taken
      have seen := clean_txqs s known .swMarker rfl 0 {} t
      refine .idle ?_ (setDev_sameDevRing (s.clean u .swMarker 0 {}) ?_ t)
      · by_cases own : t = u
        · subst u
          rw [if_pos rfl] at seen
          exact seen ▸ ⟨rfl, rfl, rfl, rfl, rfl, rfl⟩
        · rw [if_neg own] at seen
          exact seen ▸ SameRing.refl _
      · exact ⟨rfl, rfl, rfl, rfl⟩
  | passEnd =>
      obtain rfl := Option.some.inj taken
      exact .idle (txWakeQueue_sameRing ..) (SameDevRing.refl _)
  | link up =>
      obtain rfl := Option.some.inj taken
      exact .idle ⟨rfl, rfl, rfl, rfl, rfl, rfl⟩ (SameDevRing.refl _)

/-- The packet is rolled back after an RE completion was asked for on its behalf. -/
def losesRe (s : TxSystem) (t : Nat) (skb : Skb) (env : SendEnv) : Bool :=
  let q := s.grp.txqs t
  match txSplitqAdmit q s.grp.pendingDiff s.grp.thresh skb env with
  | .accept skb tso =>
    (nextRefill q.flowSchEn q.refillq).isSome && !(framePlan q env skb).2 && asksRe q env skb tso
  | _ => false

def TxSystem.InRing (s : TxSystem) : Prop :=
  ∀ t, (s.grp.txqs t).nextToUse < (s.grp.txqs t).descCount

theorem TxSystem.InRing.start (c : TxConfig) : c.init.InRing := fun _ =>
  Nat.lt_of_lt_of_le (show 0 < minTxqDesc by decide) c.descMin

theorem TxSystem.InRing.step {s s' : TxSystem} {e : Event} (v : s.InRing)
    (taken : s.step e = some s') : s'.InRing := by
  intro t
  have use := v t
  have same : ∀ {q' : TxQueue}, SameRing (s.grp.txqs t) q' → q'.nextToUse < q'.descCount :=
    fun h => by rw [h.nextToUse, h.descCount]; exact use
  cases ring_step taken t with
  | idle h => exact same h
  | send skb env r which run q =>
      subst run
      rw [q]
      by_cases accepted : ∃ skb' tso, txSplitqAdmit (s.grp.txqs t) s.grp.pendingDiff s.grp.thresh
          skb env = .accept skb' tso
      · obtain ⟨skb', tso, accepted⟩ := accepted
        rcases frame_accepted use accepted s.nextSkb with ⟨-, -, -, -, -, ⟨ring, eq⟩, -⟩ |
          ⟨carried, -, ⟨-, -, -, -, back⟩ | ⟨-, -, -, next, -⟩⟩
        · rw [eq]
          exact use
        · rw [back, carried.same.descCount]
          exact use
        · rw [next, carried.same.descCount]
          exact Nat.mod_lt _ (Nat.zero_lt_of_lt use)
      · obtain ⟨-, -, -, -, ⟨-, eq⟩ | ⟨-, -, eq⟩⟩ :=
          frame_refused (fun skb' tso eq => accepted ⟨skb', tso, eq⟩) s.nextSkb
        · rw [eq]
          exact use
        · rw [eq]
          exact use
  | xdp size dma r which run q =>
      subst run
      rw [q]
      rcases txXmitXdpq_cases (s.grp.txqs t) s.nextSkb size dma with ⟨-, -, -, only⟩ |
        ⟨-, -, -, count, -, next⟩
      · exact same only.sameRing
      · rw [count, next]
        exact bump_lt use
  | fetch n which q => rw [q]; exact use
  | re pos head rest which reqs after order fetched h =>
      rw [h.nextToUse, h.descCount]
      exact use
  | reinject i p env which at_ skb h =>
      rw [h.nextToUse, h.descCount]
      exact use

end Idpf
