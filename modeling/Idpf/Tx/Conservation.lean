import Idpf.Tx.Books
import Idpf.Tx.Steps

/-! What becomes of the mappings, the skb and the buffer IDs of every packet over the whole life of
a queue in flow scheduling mode, whatever completions it gets and in whatever order. -/
namespace Idpf
open General

/-- Steps that keep to the paths on which nothing is lost. No timer runs out either: the only ones
there are, are those that were freed because they could not be stored. -/
def exceptionOk (s : TxSystem) : Event → Bool
  | .compl t i kind env =>
    match (s.dev t).pkts[i]? with
    | none => true
    | some p => kind.settles ((s.grp.txqs t).bufs p.tag).type env
  | .expire .. => false
  | _ => true

/-- What a step leaves of a queue that it is not about. -/
structure StillAt (s s' : TxSystem) (t : Nat) : Prop where
  queue : (s.grp.txqs t).Untouched (s'.grp.txqs t)
  stopped : (s'.grp.txqs t).stopped = (s.grp.txqs t).stopped
  bytes : (s.grp.txqs t).cleanedBytes < 4294967296 →
    (s'.grp.txqs t).cleanedBytes = (s.grp.txqs t).cleanedBytes
  pkts : (s'.dev t).pkts = (s.dev t).pkts
  refused : s'.refused t = s.refused t
  carrier : s'.carrier = s.carrier
  inPass : s.inPass = true → s'.inPass = true
  nextSkb : s.nextSkb ≤ s'.nextSkb

/-- What a step can do to the packets of a queue and to its stop bit. -/
inductive QueueStep (s : TxSystem) (e : Event) (t : Nat) (s' : TxSystem) : Prop
  | still : StillAt s s' t → QueueStep s e t s'
  | send (skb : Skb) (env : SendEnv) (r : FrameResult) : e = .send t skb env →
      r = txSplitqFrame (s.grp.txqs t) s.grp.pendingDiff s.grp.thresh s.nextSkb skb env →
      s' = s.send t skb env → QueueStep s e t s'
  | xdp : (s.grp.txqs t).xdp = true → QueueStep s e t s'
  | divert (i : Nat) (p : Pkt) : (s.dev t).pkts[i]? = some p → p.rem = .fresh →
      s' = s.setDev t
        { s.dev t with pkts := (s.dev t).pkts.set i { p with rem := .exception } } →
      QueueStep s e t s'
  | compl (i : Nat) (kind : ComplKind) (env : TimerEnv) (p : Pkt) (rem : Rem) :
      e = .compl t i kind env → (s.dev t).pkts[i]? = some p → p.rem.deliver kind = some rem →
      s'.grp.txqs t = addCleaned (txHandleCompl (s.grp.txqs t) (some kind.ctype) p.tag env) →
      (s'.dev t).pkts = (s.dev t).pkts.set i { p with rem } → s'.refused = s.refused →
      s'.carrier = s.carrier → s'.inPass = true → s'.nextSkb = s.nextSkb → QueueStep s e t s'
  | expire (timer : Nat) : e = .expire t timer → QueueStep s e t s'
  | passEnd : e = .passEnd → s' = { s with
      grp := txFinishPass s.grp s.carrier, inPass := false } → QueueStep s e t s'
  | link (up : Bool) : e = .link up → (s.grp.txqs t).Untouched (s'.grp.txqs t) →
      (s'.grp.txqs t).cleanedBytes = (s.grp.txqs t).cleanedBytes → s'.dev = s.dev →
      s'.refused t = none → s'.nextSkb = s.nextSkb → QueueStep s e t s'

theorem TxQueue.Untouched.refl (q : TxQueue) : q.Untouched q := by
  constructor <;> rfl

/-- A step about another queue, or one that leaves the packets alone. -/
theorem StillAt.of_same {s s' : TxSystem} {t : Nat} (queue : s'.grp.txqs t = s.grp.txqs t)
    (pkts : (s'.dev t).pkts = (s.dev t).pkts) (refused : s'.refused t = s.refused t)
    (carrier : s'.carrier = s.carrier) (inPass : s.inPass = true → s'.inPass = true)
    (nextSkb : s.nextSkb ≤ s'.nextSkb) : StillAt s s' t := by
  constructor
  · exact queue ▸ .refl _
  · rw [queue]
  · rw [queue]
    exact fun _ => rfl
  · exact pkts
  · exact refused
  · exact carrier
  · exact inPass
  · exact nextSkb

/-- A completion that is about no packet, as a queue sees it. -/
theorem StillAt.of_cleaned {s s' : TxSystem} {t u : Nat} {q : TxQueue}
    (seen : s'.grp.txqs t = if t = u then addCleaned ⟨q, {}⟩ else s.grp.txqs t)
    (same : t = u → (s.grp.txqs t).Untouched q ∧ q.stopped = (s.grp.txqs t).stopped ∧
      q.cleanedBytes = (s.grp.txqs t).cleanedBytes)
    (pkts : (s'.dev t).pkts = (s.dev t).pkts) (refused : s'.refused = s.refused)
    (carrier : s'.carrier = s.carrier) (inPass : s'.inPass = true)
    (nextSkb : s'.nextSkb = s.nextSkb) : StillAt s s' t := by
  by_cases own : t = u
  · rw [if_pos own] at seen
    obtain ⟨⟨bufs, refillq, pool, flow, tag, xdp, log, nextMap, useAfterFree⟩, stopped, bytes⟩ :=
      same own
    constructor
    · exact seen ▸ ⟨bufs, refillq, pool, flow, tag, xdp, log, nextMap, useAfterFree⟩
    · exact seen ▸ stopped
    · intro small
      rw [seen, ← bytes] at *
      exact Nat.mod_eq_of_lt small
    · exact pkts
    · rw [refused]
    · exact carrier
    · exact fun _ => inPass
    · exact nextSkb.ge
  · rw [if_neg own] at seen
    exact .of_same seen pkts (congrFun refused t) carrier (fun _ => inPass) nextSkb.ge

theorem setDev_pkts (s : TxSystem) {u : Nat} {d : Dev} (same : d.pkts = (s.dev u).pkts) (t : Nat) :
    ((s.setDev u d).dev t).pkts = (s.dev t).pkts := by
  by_cases own : t = u
  · subst u
    rw [setDev_same, same]
  · rw [setDev_other _ _ own]

theorem queue_step {s s' : TxSystem} {e : Event} (taken : s.step e = some s') (t : Nat) :
    QueueStep s e t s' := by
  cases e with
  | send u skb env =>
      simp only [TxSystem.step, Option.ite_none_right_eq_some, Option.some.injEq] at taken
      obtain ⟨-, rfl⟩ := taken
      by_cases own : t = u
      · subst u
        exact .send skb env _ rfl rfl rfl
      · refine .still (.of_same ?_ ?_ ?_ rfl id (Nat.le_succ _))
        · exact Function.update_of_ne own _ _
        · simp only [TxSystem.send, Function.update_of_ne own]
        · exact Function.update_of_ne own _ _
  | xdp u size dma =>
      simp only [TxSystem.step, Option.ite_none_right_eq_some, Option.some.injEq] at taken
      obtain ⟨⟨-, frames⟩, rfl⟩ := taken
      by_cases own : t = u
      · subst u
        exact .xdp frames
      · refine .still (.of_same ?_ ?_ rfl rfl id (Nat.le_succ _))
        · exact Function.update_of_ne own _ _
        · simp only [TxSystem.xdp, Function.update_of_ne own]
  | fetch u n =>
      simp only [TxSystem.step, Option.ite_none_right_eq_some, Option.some.injEq] at taken
      obtain ⟨-, rfl⟩ := taken
      exact .still (.of_same rfl (setDev_pkts s (by rfl) t) rfl rfl id le_rfl)
  | re u head =>
      cases reqs : (s.dev u).reqs with
      | nil => simp only [TxSystem.step, reqs, reduceCtorEq] at taken
      | cons pos rest =>
          simp only [TxSystem.step, reqs, Option.ite_none_right_eq_some,
            Option.some.injEq] at taken
          obtain ⟨⟨known, -⟩, rfl⟩ := taken
          have seen := clean_txqs s known .re rfl (head % (s.grp.txqs u).descCount) {} t
          refine .still (.of_cleaned seen (fun own => ?_) (setDev_pkts _ (by rfl) t) rfl rfl rfl rfl)
          subst u
          exact ⟨by constructor <;> rfl, rfl, rfl⟩
  | divert u i =>
      obtain ⟨p, -, at_, fresh, -, rfl⟩ := divert_taken taken
      by_cases own : t = u
      · subst u
        exact .divert i p at_ fresh rfl
      · refine .still (.of_same rfl ?_ rfl rfl id le_rfl)
        rw [setDev_other _ _ own]
  | compl u i kind env =>
      obtain ⟨p, rem, known, at_, delivered, -, rfl⟩ := compl_taken taken
      have seen := clean_txqs s known kind.ctype (by cases kind <;> rfl) p.tag env t
      by_cases own : t = u
      · subst u
        rw [if_pos rfl] at seen
        refine .compl i kind env p rem rfl at_ delivered seen ?_ rfl rfl rfl rfl
        rw [setDev_same]
      · rw [if_neg own] at seen
        refine .still (.of_same seen ?_ rfl rfl (fun _ => rfl) le_rfl)
        rw [setDev_other _ _ own]
        rfl
  | expire u timer =>
      simp only [TxSystem.step, Option.ite_none_right_eq_some, Option.some.injEq] at taken
      obtain ⟨-, rfl⟩ := taken
      by_cases own : t = u
      · subst u
        exact .expire timer rfl
      · exact .still (.of_same (Function.update_of_ne own _ _) rfl rfl rfl id le_rfl)
  | flush =>
      obtain rfl := Option.some.inj taken
      exact .still (.of_same rfl rfl rfl rfl id le_rfl)
  | marker u =>
      simp only [TxSystem.step, Option.ite_none_right_eq_some, Option.some.injEq] at taken
      obtain ⟨⟨known, -⟩, rfl⟩ := taken
      have seen := clean_txqs s known .swMarker rfl 0 {} t
      refine .still (.of_cleaned seen (fun own => ?_) (setDev_pkts _ (by rfl) t) rfl rfl rfl rfl)
      subst u
      exact ⟨.refl _, rfl, rfl⟩
  | passEnd =>
      obtain rfl := Option.some.inj taken
      exact .passEnd rfl rfl
  | link up =>
      obtain rfl := Option.some.inj taken
      exact .link up rfl (by constructor <;> rfl) rfl rfl rfl rfl

/-- The books of a queue and of the packets in its device. -/
def TxSystem.BooksAt (s : TxSystem) (t : Nat) : Prop :=
  ∃ n free, TxBooks n s.nextSkb (s.grp.txqs t) (s.dev t).pkts free

namespace TxSystem.BooksAt

variable {s s' : TxSystem} {e : Event} {t : Nat}

theorem congr (v : s.BooksAt t) (later : s.nextSkb ≤ s'.nextSkb)
    (same : (s.grp.txqs t).Untouched (s'.grp.txqs t)) (pkts : (s'.dev t).pkts = (s.dev t).pkts) :
    s'.BooksAt t := by
  obtain ⟨n, free, v⟩ := v
  refine ⟨n, free, ?_⟩
  rw [pkts]
  exact v.congr later same

theorem start (c : TxConfig) (plain : c.xdp t = false) : c.init.BooksAt t := by
  have pos : 0 < c.poolSize := by unfold TxConfig.poolSize; split <;> decide
  have small : c.poolSize ≤ 65536 := by unfold TxConfig.poolSize; split <;> decide
  refine ⟨c.poolSize, List.range c.poolSize, ?_⟩
  constructor
  · exact small
  · rfl
  · rfl
  · rfl
  · rfl
  · exact plain
  · exact rflAlloc_free pos small
  · exact (List.append_nil _).symm ▸ List.Perm.refl _
  · exact fun _ _ => rfl
  · exact fun _ missed => SqeType.noConfusion missed
  · exact fun _ none => absurd none List.not_mem_nil
  · exact List.nodup_nil
  · exact fun _ none => absurd none List.not_mem_nil
  · exact fun _ none => absurd none List.not_mem_nil
  · exact fun _ none => absurd none List.not_mem_nil
  · rfl

theorem step (v : s.BooksAt t) (use : s.InRing) (ok : exceptionOk s e = true)
    (taken : s.step e = some s') : s'.BooksAt t := by
  cases queue_step taken t with
  | still same => exact v.congr same.nextSkb same.queue same.pkts
  | send skb env r which framed after =>
      obtain ⟨n, free, v⟩ := v
      obtain ⟨free', v'⟩ := v.send (use t) s.grp.pendingDiff s.grp.thresh (s.dev t).tail skb env
      refine ⟨n, free', ?_⟩
      rw [after]
      simp only [TxSystem.send, TxqGroup.setQueue, Function.update_self]
      split
      · next sent =>
        rw [if_pos sent] at v'
        exact v'
      · next kept =>
        rw [if_neg kept] at v'
        exact v'
  | xdp frames =>
      obtain ⟨n, free, v⟩ := v
      rw [v.plain] at frames
      cases frames
  | divert i p at_ fresh after =>
      obtain ⟨n, free, v⟩ := v
      obtain ⟨front, back, split, put⟩ := pkts_split at_
      refine ⟨n, free, ?_⟩
      rw [after, setDev_same, put]
      rw [split] at v
      exact v.relabel (by rw [fresh]; rfl)
  | compl i kind env p rem which at_ delivered seen pkts refused carrier inPass nextSkb =>
      obtain ⟨n, free, v⟩ := v
      obtain ⟨front, back, split, put⟩ := pkts_split at_
      rw [split] at v
      rw [which] at ok
      simp only [exceptionOk, at_] at ok
      obtain ⟨⟨free', v'⟩, -⟩ := v.compl delivered ok
      refine ⟨n, free', ?_⟩
      rw [seen, pkts, put, nextSkb]
      exact v'
  | expire timer which =>
      rw [which] at ok
      cases ok
  | passEnd which after =>
      rw [after]
      refine v.congr le_rfl ?_ rfl
      change TxQueue.Untouched _ (txWakeQueue ..)
      unfold txWakeQueue
      split
      · constructor <;> rfl
      · split
        · exact .refl _
        · constructor <;> rfl
  | link up which same bytes dev refused nextSkb =>
      exact v.congr nextSkb.ge same (by rw [dev])

end TxSystem.BooksAt

/-- The packets a queue has handed over have got what is due to them. A packet of which all
completions have come has each mapping undone, its skb freed and each ID posted exactly once, one
whose buffers the device may still read none of it; each ID is in the refill queue or in one packet;
and no timer is used after it has been freed. -/
structure TxConserved (q : TxQueue) (pkts : List Pkt) : Prop where
  done : ∀ p ∈ pkts, p.rem = .done → ∀ e ∈ p.settlement, q.mem.log.count e = 1
  early : ∀ p ∈ pkts, p.rem.reading = true → ∀ e ∈ p.settlement, q.mem.log.count e = 0
  ids : (rflValid q.bufPoolSize q.refillq ++ pkts.flatMap Pkt.owned).Perm
    (List.range q.bufPoolSize)
  sound : q.mem.useAfterFree = false

theorem TxBooks.conserved {n k : Nat} {q : TxQueue} {pkts : List Pkt} {free : List Nat}
    (v : TxBooks n k q pkts free) : TxConserved q pkts := by
  constructor
  · intro p member done e due
    have paid := v.paid p member e due
    rw [done] at paid
    exact paid
  · intro p member reading e due
    have paid := v.paid p member e due
    rw [reading] at paid
    exact paid
  · have len := v.places.length_eq
    rw [List.length_append, List.length_range] at len
    rw [v.pool, rflValid_eq v.refill (by omega)]
    exact v.places
  · exact v.sound

/-- In every run whose completions keep to the paths on which nothing is lost, in whatever order
they come, the packets of every queue that carries no XDP frames have got what is due to them. -/
theorem tx_buffers_conserved (c : TxConfig) {s : TxSystem}
    (run : Reachable TxSystem.step (fun s e => exceptionOk s e = true) (fun s => s = c.init) s)
    {t : Nat} (plain : c.xdp t = false) : TxConserved (s.grp.txqs t) (s.dev t).pkts := by
  obtain ⟨-, v⟩ := run.invariant (I := fun s => s.InRing ∧ s.BooksAt t)
    (fun _ started => started ▸ ⟨TxSystem.InRing.start c, TxSystem.BooksAt.start c plain⟩)
    fun s e _ v ok taken => ⟨v.1.step taken, v.2.step v.1 ok taken⟩
  obtain ⟨n, free, v⟩ := v
  exact v.conserved

/-- A packet on the exception path whose reinject completion comes first. -/
theorem tx_buffers_conserved_reinject :
    let c : TxConfig := ⟨1, 128, 256, 32, false, fun _ => false, by decide, by decide, by decide,
      by decide⟩
    let skb : Skb := { headlen := 100, frags := [200] }
    let run := execIf TxSystem.step exceptionOk c.init
      [.send 0 skb {}, .fetch 0 2, .divert 0 0, .compl 0 0 .reinject {}, .compl 0 0 .miss {}]
    ∃ s, run = some s ∧ (s.dev 0).pkts.map Pkt.rem = [.done] ∧
      TxConserved (s.grp.txqs 0) (s.dev 0).pkts := by
  intro c skb run
  have seen : (run.map fun s => (s.dev 0).pkts.map Pkt.rem) = some [.done] := by decide +kernel
  obtain ⟨s, reached, done⟩ := Option.map_eq_some_iff.mp seen
  exact ⟨s, reached, done, tx_buffers_conserved c (Reachable.execIf (.start rfl) reached) rfl⟩

/-- A packet whose miss completion comes first: both completions have come and nothing has been
unmapped, freed or posted. If the timer runs out in between, the reinject completion uses it after
it has been freed. -/
theorem missed_packet_lost :
    let c : TxConfig := ⟨1, 128, 256, 32, false, fun _ => false, by decide, by decide, by decide,
      by decide⟩
    let skb : Skb := { headlen := 100, frags := [200] }
    let missed : List Event := [.send 0 skb {}, .fetch 0 2, .divert 0 0, .compl 0 0 .miss {}]
    (∃ s, exec TxSystem.step c.init (missed ++ [.compl 0 0 .reinject {}]) = some s ∧
      (∃ p ∈ (s.dev 0).pkts, p.rem = .done ∧
        ∀ e ∈ p.settlement, (s.grp.txqs 0).mem.log.count e = 0) ∧
      ¬ TxConserved (s.grp.txqs 0) (s.dev 0).pkts) ∧
    ∃ s, exec TxSystem.step c.init (missed ++ [.expire 0 0, .compl 0 0 .reinject {}]) = some s ∧
      (s.grp.txqs 0).mem.useAfterFree = true := by
  intro c skb missed
  constructor
  · have seen : ((exec TxSystem.step c.init (missed ++ [.compl 0 0 .reinject {}])).map fun s =>
        decide (∃ p ∈ (s.dev 0).pkts, p.rem = .done ∧
          ∀ e ∈ p.settlement, (s.grp.txqs 0).mem.log.count e = 0)) = some true := by
      decide +kernel
    obtain ⟨s, reached, lost⟩ := Option.map_eq_some_iff.mp seen
    have lost := of_decide_eq_true lost
    refine ⟨s, reached, lost, fun v => ?_⟩
    obtain ⟨p, member, done, none⟩ := lost
    have freed := v.done p member done (.consumeSkb p.skb) List.mem_cons_self
    rw [none (.consumeSkb p.skb) List.mem_cons_self] at freed
    cases freed
  · have seen : ((exec TxSystem.step c.init
        (missed ++ [.expire 0 0, .compl 0 0 .reinject {}])).map fun s =>
        (s.grp.txqs 0).mem.useAfterFree) = some true := by decide +kernel
    exact Option.map_eq_some_iff.mp seen

end Idpf
