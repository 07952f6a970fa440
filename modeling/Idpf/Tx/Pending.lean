import Idpf.Tx.Steps
import Mathlib.Algebra.BigOperators.Group.Finset.Basic
import Mathlib.Data.Int.ModEq
import Mathlib.Tactic.Ring

/-! The counters of pending completions against what the device owes. A step
charges the queues for the completions it causes and a processed descriptor
credits the completion queue; the two disagree by the drift of the steps taken. -/
namespace Idpf
open General

def Dev.owed (d : Dev) : Nat := (d.pkts.map fun p => p.rem.owed).sum + d.reqs.length + d.markers

/-- Completions the device still has to write to the completion queue. -/
def TxSystem.owed (s : TxSystem) : Nat := ∑ t ∈ Finset.range s.grp.numTxq, (s.dev t).owed

/-- What a step charges beyond the completions it causes. A rolled-back packet
keeps its charge for an RE completion; an XDP frame is charged for one it does
not get but not for its own; the second completion of a packet on the exception
path and software markers are charged nowhere. -/
def drift (s : TxSystem) : Event → Int
  | .send t skb env => if losesRe s t skb env then 1 else 0
  | .xdp t _ dma =>
    if xdpFits (s.grp.txqs t) dma then (xdpAsksRe (s.grp.txqs t)).toNat - 1 else 0
  | .divert .. => -1
  | .flush => -s.grp.numTxq
  | _ => 0

/-- Completions a step causes without asking for headroom on the completion queue. -/
def unchecked (s : TxSystem) : Event → Nat
  | .xdp t _ dma => (xdpFits (s.grp.txqs t) dma).toNat
  | .divert .. => 1
  | .flush => s.grp.numTxq
  | _ => 0

/-- The books of one step: what it adds to the counter of pending completions, to
that of completions, and to what the device owes. -/
structure Booked (s s' : TxSystem) (charge paid due : Nat) : Prop where
  pending : (s'.grp.numCompletionsPending : Int) ≡ s.grp.numCompletionsPending + charge
    [ZMOD 4294967296]
  completed : (s'.grp.numCompletions : Int) ≡ s.grp.numCompletions + paid [ZMOD 4294967296]
  owed : s'.owed + paid = s.owed + due
  thresh : s'.grp.thresh = s.grp.thresh

theorem u32_modEq (x : Nat) : (u32 x : Int) ≡ x [ZMOD 4294967296] :=
  (Nat.mod_modEq x 4294967296 |> Int.natCast_modEq_iff.mpr)

theorem pendingDiff_modEq (g : TxqGroup) :
    (g.pendingDiff : Int) ≡ g.numCompletionsPending - g.numCompletions [ZMOD 4294967296] := by
  unfold TxqGroup.pendingDiff txComplqPending u32Sub u32 Int.ModEq
  omega

theorem sum_rem_set (f : Rem → Nat) {l : List Pkt} {i : Nat} {p : Pkt} (at_ : l[i]? = some p)
    (p' : Pkt) : ((l.set i p').map fun p => f p.rem).sum + f p.rem =
      (l.map fun p => f p.rem).sum + f p'.rem := by
  induction l generalizing i with
  | nil => cases at_
  | cons x l ih =>
      cases i with
      | zero =>
          obtain rfl := Option.some.inj at_
          simp only [List.set_cons_zero, List.map_cons, List.sum_cons]
          omega
      | succ i =>
          have rest := ih (i := i) (by simpa using at_)
          simp only [List.set_cons_succ, List.map_cons, List.sum_cons]
          omega

theorem Rem.deliver_owed {rem rem' : Rem} {kind : ComplKind}
    (delivered : rem.deliver kind = some rem') : rem.owed = rem'.owed + 1 := by
  cases rem <;> cases kind <;> cases delivered <;> rfl

theorem owed_setDev (s : TxSystem) {t : Nat} (known : t < s.grp.numTxq) (d : Dev) :
    (s.setDev t d).owed + (s.dev t).owed = s.owed + d.owed := by
  have member : t ∈ Finset.range s.grp.numTxq := Finset.mem_range.mpr known
  have rest : ∑ u ∈ (Finset.range s.grp.numTxq).erase t, ((s.setDev t d).dev u).owed =
      ∑ u ∈ (Finset.range s.grp.numTxq).erase t, (s.dev u).owed :=
    Finset.sum_congr rfl fun u inside => by
      rw [setDev_other s d (Finset.ne_of_mem_erase inside)]
  have after := Finset.add_sum_erase _ (fun u => ((s.setDev t d).dev u).owed) member
  have before := Finset.add_sum_erase _ (fun u => (s.dev u).owed) member
  rw [setDev_same] at after
  unfold TxSystem.owed
  change ∑ u ∈ Finset.range s.grp.numTxq, ((s.setDev t d).dev u).owed + _ = _
  omega

theorem accept_owed (d : Dev) (skb : Nat) (bufs : List (Nat × DmaMap)) (n : Nat) (re : Bool) :
    (d.accept skb bufs n re).owed = d.owed + 1 + re.toNat := by
  unfold Dev.owed Dev.accept
  cases re <;> simp only [List.map_append, List.map_cons, List.map_nil, List.sum_append,
    List.sum_cons, List.sum_nil, Rem.owed, if_true, if_false, Bool.false_eq_true,
    List.length_append, List.length_cons, List.length_nil, Bool.toNat_true, Bool.toNat_false] <;>
    omega

/-- A processed descriptor is counted once. -/
theorem clean_counts (s : TxSystem) {t : Nat} (known : t < s.grp.numTxq) (ctype : ComplType)
    (counted : ComplType.counted (some ctype) = true) (tag : Nat) (env : TimerEnv) :
    (s.clean t ctype tag env).grp = { s.grp with
      txqs := (s.clean t ctype tag env).grp.txqs
      numCompletions := u32 (s.grp.numCompletions + 1) } := by
  unfold TxSystem.clean txCleanDesc
  rw [if_neg (by simp only; omega), if_pos counted]
  rfl

theorem Booked.none {s s' : TxSystem}
    (pending : s'.grp.numCompletionsPending = s.grp.numCompletionsPending)
    (completed : s'.grp.numCompletions = s.grp.numCompletions) (owed : s'.owed = s.owed)
    (thresh : s'.grp.thresh = s.grp.thresh) : Booked s s' 0 0 0 := by
  refine ⟨?_, ?_, congrArg (· + 0) owed, thresh⟩
  · rw [pending, Nat.cast_zero, add_zero]
  · rw [completed, Nat.cast_zero, add_zero]

/-- A completion the device owed is paid. -/
theorem Booked.pay (s : TxSystem) {t : Nat} (known : t < s.grp.numTxq) (ctype : ComplType)
    (counted : ComplType.counted (some ctype) = true) (tag : Nat) (env : TimerEnv) {d : Dev}
    (paid : d.owed + 1 = (s.dev t).owed) :
    Booked s ((s.clean t ctype tag env).setDev t d) 0 1 0 := by
  have counts := clean_counts s known ctype counted tag env
  have same : ((s.clean t ctype tag env).setDev t d).owed = (s.setDev t d).owed := by
    have queues : (s.clean t ctype tag env).grp.numTxq = s.grp.numTxq := by rw [counts]
    unfold TxSystem.owed
    exact Finset.sum_congr (congrArg Finset.range queues) fun _ _ => rfl
  have moved := owed_setDev s known d
  refine ⟨?_, ?_, by omega, ?_⟩
  · change ((s.clean t ctype tag env).grp.numCompletionsPending : Int) ≡ _ [ZMOD 4294967296]
    rw [counts, Nat.cast_zero, add_zero]
  · change ((s.clean t ctype tag env).grp.numCompletions : Int) ≡ _ [ZMOD 4294967296]
    rw [counts]
    exact u32_modEq _
  · change (s.clean t ctype tag env).grp.thresh = _
    rw [counts]
    rfl

theorem Booked.charge {s s' : TxSystem} {t charge due : Nat} {d : Dev} (known : t < s.grp.numTxq)
    (grp : s'.grp = { s.grp with
      txqs := s'.grp.txqs
      numCompletionsPending := u32 (s.grp.numCompletionsPending + charge) })
    (dev : s'.dev = Function.update s.dev t d) (caused : d.owed = (s.dev t).owed + due) :
    Booked s s' charge 0 due := by
  have same : s'.owed = (s.setDev t d).owed := by
    unfold TxSystem.owed
    rw [grp, dev]
    rfl
  have moved := owed_setDev s known d
  refine ⟨?_, ?_, by omega, by rw [grp]; rfl⟩
  · rw [grp]
    exact u32_modEq _
  · rw [grp, Nat.cast_zero, add_zero]

def FrameResult.due (r : FrameResult) : Nat := if r.verdict = .sent then 1 + r.re.toNat else 0

/-- A transmission is charged for its packet and its RE bit; what it does not
cause then is the RE completion of a rolled-back packet. -/
theorem frame_charged {s : TxSystem} {t : Nat} (use : s.InRing) (skb : Skb) (env : SendEnv) :
    let r := txSplitqFrame (s.grp.txqs t) s.grp.pendingDiff s.grp.thresh s.nextSkb skb env
    r.charged = r.due + (losesRe s t skb env).toNat ∧
      (r.charged = 0 ∨ s.grp.pendingDiff ≤ s.grp.thresh ∧ r.charged ≤ 2) := by
  intro r
  by_cases accepted : ∃ skb' tso, txSplitqAdmit (s.grp.txqs t) s.grp.pendingDiff s.grp.thresh
      skb env = .accept skb' tso
  · obtain ⟨skb', tso, accepted⟩ := accepted
    have room := (admit_accept accepted).2.2.2.2.1
    simp only [losesRe, accepted]
    rcases frame_accepted (use t) accepted s.nextSkb with ⟨dropped, spent, free, -⟩ |
      ⟨carried, some, ⟨rolled, plan, charged, -, -⟩ | ⟨sent, plan, charged, -⟩⟩
    · have due : r.due = 0 := if_neg (by rw [show r.verdict = _ from dropped]; decide)
      rw [due, show r.charged = _ from free, spent]
      exact ⟨rfl, .inl rfl⟩
    · have due : r.due = 0 := if_neg (by rw [show r.verdict = _ from rolled]; decide)
      rw [due, show r.charged = _ from charged, Option.isSome_iff_ne_none.mpr some, plan,
        ← carried.re]
      have one := Bool.toNat_le r.re
      exact ⟨(Nat.zero_add _).symm, .inr ⟨room, by show r.re.toNat ≤ 2; omega⟩⟩
    · have due : r.due = 1 + r.re.toNat := if_pos sent
      rw [due, show r.charged = _ from charged, plan]
      have one := Bool.toNat_le r.re
      simp only [Bool.not_true, Bool.and_false, Bool.false_and, Bool.toNat_false]
      exact ⟨Nat.add_comm .., .inr ⟨room, by show r.re.toNat + 1 ≤ 2; omega⟩⟩
  · have refused : ∀ skb' tso, txSplitqAdmit (s.grp.txqs t) s.grp.pendingDiff s.grp.thresh
        skb env ≠ .accept skb' tso := fun skb' tso eq => accepted ⟨skb', tso, eq⟩
    obtain ⟨-, free, -, -, verdict⟩ := frame_refused refused s.nextSkb
    have unsent : r.verdict ≠ .sent := by
      rcases verdict with ⟨dropped, -⟩ | ⟨busy, -⟩
      · rw [show r.verdict = _ from dropped]; decide
      · rw [show r.verdict = _ from busy]; decide
    have due : r.due = 0 := if_neg unsent
    have kept : losesRe s t skb env = false := by
      unfold losesRe
      dsimp only
      split
      · next skb' tso eq => exact absurd eq (refused skb' tso)
      · rfl
    rw [due, kept, show r.charged = _ from free]
    exact ⟨rfl, .inl rfl⟩

/-- Completions are charged where they are caused, up to the drift of the step, and
caused with headroom on the completion queue or unchecked. -/
def Fair (s : TxSystem) (e : Event) (charge due : Nat) : Prop :=
  (charge : Int) = due + drift s e ∧
    (s.grp.pendingDiff ≤ s.grp.thresh ∧ due ≤ charge ∧ charge ≤ 2 ∨
      charge ≤ due ∧ due ≤ unchecked s e)

theorem Fair.none {s : TxSystem} {e : Event} (drifts : drift s e = 0) : Fair s e 0 0 :=
  ⟨by rw [drifts]; rfl, .inr ⟨le_rfl, Nat.zero_le _⟩⟩

theorem booked_send {s : TxSystem} {t : Nat} {skb : Skb} {env : SendEnv}
    (known : t < s.grp.numTxq) (use : s.InRing) :
    ∃ charge due, Booked s (s.send t skb env) charge 0 due ∧
      Fair s (.send t skb env) charge due := by
  obtain ⟨charged, checked⟩ := frame_charged use skb env (t := t)
  generalize run : txSplitqFrame (s.grp.txqs t) s.grp.pendingDiff s.grp.thresh s.nextSkb skb env =
    r at charged checked
  refine ⟨r.charged, r.due, Booked.charge known ?_ rfl ?_, ?_, ?_⟩
  · simp only [TxSystem.send, TxqGroup.setQueue, run]
  · rw [run]
    unfold FrameResult.due
    by_cases sent : r.verdict = .sent
    · rw [if_pos sent, if_pos sent, accept_owed, Nat.add_assoc]
    · rw [if_neg sent, if_neg sent, Nat.add_zero]
  · rw [charged]
    unfold drift
    cases lost : losesRe s t skb env <;> simp [lost]
  · rcases checked with free | ⟨room, few⟩
    · exact .inr ⟨by omega, by omega⟩
    · exact .inl ⟨room, by omega, few⟩

theorem booked_xdp {s : TxSystem} {t size : Nat} {dma : Option Nat} (known : t < s.grp.numTxq) :
    ∃ charge due, Booked s (s.xdp t size dma) charge 0 due ∧ Fair s (.xdp t size dma) charge due := by
  have outcome := txXmitXdpq_cases (s.grp.txqs t) s.nextSkb size dma
  generalize run : txXmitXdpq (s.grp.txqs t) s.nextSkb size dma = r at outcome
  have grp : (s.xdp t size dma).grp = { s.grp with
      txqs := (s.xdp t size dma).grp.txqs
      numCompletionsPending := u32 (s.grp.numCompletionsPending + r.charged) } := by
    simp only [TxSystem.xdp, TxqGroup.setQueue, run]
  rcases outcome with ⟨fits, sent, charged, -⟩ | ⟨fits, sent, charged, -⟩
  · refine ⟨r.charged, 0, Booked.charge known grp rfl ?_, ?_, ?_⟩
    · rw [run, sent, if_neg Bool.false_ne_true, Nat.add_zero]
    · simp [charged, drift, fits]
    · exact .inr ⟨charged.le, Nat.zero_le _⟩
  · refine ⟨r.charged, 1, Booked.charge known grp rfl ?_, ?_, ?_⟩
    · rw [run, sent, if_pos rfl, accept_owed, Bool.toNat_false, Nat.add_zero]
    · simp only [charged, drift, fits, if_true, Nat.cast_one, add_sub_cancel]
    · refine .inr ⟨charged ▸ Bool.toNat_le _, ?_⟩
      simp only [unchecked, fits, Bool.toNat_true, le_refl]

theorem booked {s s' : TxSystem} {e : Event} (use : s.InRing) (taken : s.step e = some s') :
    ∃ charge paid due, Booked s s' charge paid due ∧ Fair s e charge due := by
  cases e with
  | send t skb env =>
      simp only [TxSystem.step, Option.ite_none_right_eq_some, Option.some.injEq] at taken
      obtain ⟨⟨known, -⟩, rfl⟩ := taken
      obtain ⟨charge, due, book, fair⟩ := booked_send known use
      exact ⟨charge, 0, due, book, fair⟩
  | xdp t size dma =>
      simp only [TxSystem.step, Option.ite_none_right_eq_some, Option.some.injEq] at taken
      obtain ⟨⟨known, -⟩, rfl⟩ := taken
      obtain ⟨charge, due, book, fair⟩ := booked_xdp known
      exact ⟨charge, 0, due, book, fair⟩
  | fetch t n =>
      simp only [TxSystem.step, Option.ite_none_right_eq_some, Option.some.injEq] at taken
      obtain ⟨⟨known, -⟩, rfl⟩ := taken
      have moved := owed_setDev s known { s.dev t with head := (s.dev t).head + n }
      exact ⟨0, 0, 0, .none rfl rfl (Nat.add_right_cancel moved) rfl, .none rfl⟩
  | re t head =>
      cases reqs : (s.dev t).reqs with
      | nil => simp only [TxSystem.step, reqs, reduceCtorEq] at taken
      | cons pos rest =>
          simp only [TxSystem.step, reqs, Option.ite_none_right_eq_some,
            Option.some.injEq] at taken
          obtain ⟨⟨known, -⟩, rfl⟩ := taken
          refine ⟨0, 1, 0, .pay s known .re rfl _ _ ?_, .none rfl⟩
          simp only [Dev.owed, reqs, List.length_cons]
          omega
  | divert t i =>
      obtain ⟨p, known, at_, fresh, -, rfl⟩ := divert_taken taken
      have packets := sum_rem_set Rem.owed at_ { p with rem := .exception }
      rw [fresh] at packets
      have one : Dev.owed { s.dev t with pkts := (s.dev t).pkts.set i { p with rem := .exception } } =
          (s.dev t).owed + 1 := by
        have two : ∀ x y : Nat, x + Rem.fresh.owed = y + Rem.exception.owed → x = y + 1 :=
          fun x y eq => by simpa [Rem.owed] using eq
        simp only [Dev.owed, two _ _ packets]
        omega
      have moved := owed_setDev s known
        { s.dev t with pkts := (s.dev t).pkts.set i { p with rem := .exception } }
      refine ⟨0, 0, 1, ⟨?_, ?_, ?_, rfl⟩, rfl, .inr ⟨Nat.zero_le _, le_rfl⟩⟩
      · rw [Nat.cast_zero, add_zero]
        rfl
      · rw [Nat.cast_zero, add_zero]
        rfl
      · omega
  | compl t i kind env =>
      obtain ⟨p, rem, known, at_, delivered, -, rfl⟩ := compl_taken taken
      have packets := sum_rem_set Rem.owed at_ { p with rem }
      rw [Rem.deliver_owed delivered] at packets
      refine ⟨0, 1, 0, .pay s known kind.ctype (by cases kind <;> rfl) _ _ ?_, .none rfl⟩
      simp only [Dev.owed] at packets ⊢
      omega
  | expire t timer =>
      simp only [TxSystem.step, Option.ite_none_right_eq_some, Option.some.injEq] at taken
      obtain ⟨-, rfl⟩ := taken
      exact ⟨0, 0, 0, .none rfl rfl rfl rfl, .none rfl⟩
  | flush =>
      obtain rfl := Option.some.inj taken
      refine ⟨0, 0, s.grp.numTxq, ⟨?_, ?_, ?_, rfl⟩, ?_, .inr ⟨Nat.zero_le _, le_rfl⟩⟩
      · rw [Nat.cast_zero, add_zero]
      · rw [Nat.cast_zero, add_zero]
      · simp only [TxSystem.owed, Dev.owed, ← Nat.add_assoc, Finset.sum_add_distrib,
          ← Finset.card_eq_sum_ones, Finset.card_range, add_zero]
      · simp [drift]
  | marker t =>
      simp only [TxSystem.step, Option.ite_none_right_eq_some, Option.some.injEq] at taken
      obtain ⟨⟨known, some⟩, rfl⟩ := taken
      refine ⟨0, 1, 0, .pay s known .swMarker rfl _ _ ?_, .none rfl⟩
      simp only [Dev.owed]
      omega
  | passEnd =>
      obtain rfl := Option.some.inj taken
      exact ⟨0, 0, 0, .none rfl rfl rfl rfl, .none rfl⟩
  | link up =>
      obtain rfl := Option.some.inj taken
      exact ⟨0, 0, 0, .none rfl rfl rfl rfl, .none rfl⟩

/-- The books of a run whose steps have drifted by `m.1` and caused `m.2` unchecked
completions. The bounds say that nothing has wrapped. -/
structure Balanced (c : TxConfig) (m : Int × Nat) (s : TxSystem) : Prop where
  use : s.InRing
  balance : (s.grp.numCompletionsPending : Int) - s.grp.numCompletions ≡ s.owed + m.1
    [ZMOD 4294967296]
  thresh : s.grp.thresh = c.complqDescCount / 2
  within : m.2 < 2147000000 → -(m.2 : Int) ≤ m.1 ∧ s.owed ≤ s.grp.thresh + 2 + m.2 ∧
    s.owed + m.1 ≤ s.grp.thresh + 2 + m.2

def ledger (s : TxSystem) (e : Event) : Int × Nat := (drift s e, unchecked s e)

theorem Balanced.start (c : TxConfig) : Balanced c 0 c.init := by
  have owed : c.init.owed = 0 := Finset.sum_eq_zero fun _ _ => rfl
  refine ⟨.start c, ?_, rfl, fun _ => ?_⟩
  · rw [owed]
    rfl
  · rw [owed]
    refine ⟨le_rfl, Nat.zero_le _, ?_⟩
    simp only [Prod.fst_zero, Prod.snd_zero]
    omega

theorem Balanced.step {c : TxConfig} {m : Int × Nat} {s s' : TxSystem} {e : Event}
    (v : Balanced c m s) (taken : s.step e = some s') : Balanced c (m + ledger s e) s' := by
  obtain ⟨charge, paid, due, ⟨pending, completed, owed, thresh⟩, matched, checked⟩ :=
    booked v.use taken
  have diff := pendingDiff_modEq s.grp
  have balance := v.balance
  have small := v.thresh
  have most := c.complqMax
  refine ⟨v.use.step taken, ?_, thresh.trans small, fun few => ?_⟩
  · have total : (s'.owed : Int) = s.owed + due - paid := by omega
    have credit : (s'.grp.numCompletionsPending : Int) - s'.grp.numCompletions ≡
        (s.owed + m.1) + charge - paid [ZMOD 4294967296] := by
      have both := (balance.add_right (charge : Int)).sub_right (paid : Int)
      refine (pending.sub completed).trans (Eq.trans ?_ both)
      congr 1
      ring
    rw [total]
    refine credit.trans (Eq.trans ?_ rfl)
    congr 1
    change _ = (s.owed : Int) + due - paid + (m.1 + drift s e)
    rw [matched]
    ring
  · have few' : m.2 + unchecked s e < 2147000000 := few
    obtain ⟨low, few, high⟩ := v.within (by omega)
    have fst : (m + ledger s e).1 = m.1 + drift s e := rfl
    have snd : (m + ledger s e).2 = m.2 + unchecked s e := rfl
    rw [fst, snd, thresh]
    rcases checked with ⟨room, covered, two⟩ | ⟨less, unasked⟩
    · -- the room check has seen the true balance: nothing is near wrapping
      have seen : (s.grp.pendingDiff : Int) = s.owed + m.1 := by
        have same := diff.trans balance
        unfold Int.ModEq at same
        simp only [maxDescs] at most
        omega
      omega
    · omega

theorem Balanced.run (c : TxConfig) {es : List Event} {s : TxSystem}
    (run : exec TxSystem.step c.init es = some s) :
    Balanced c (tally TxSystem.step ledger c.init es) s := by
  have v := exec_tally (I := Balanced c) (fun _ _ _ _ v taken => v.step taken) (Balanced.start c) run
  rwa [zero_add] at v

/-- The counters tell what the device owes after a run exactly when the steps of
the run have drifted by a multiple of 2^32, and as long as less than 2^31 unchecked
completions were caused, exactly when they have not drifted. -/
theorem pending_is_owed_iff (c : TxConfig) {es : List Event} {s : TxSystem}
    (run : exec TxSystem.step c.init es = some s) :
    let m := tally TxSystem.step ledger c.init es
    (s.grp.pendingDiff = u32 s.owed ↔ (4294967296 : Int) ∣ m.1) ∧
      (m.2 < 2147000000 → (s.grp.pendingDiff = s.owed ↔ m.1 = 0)) := by
  intro m
  have v := Balanced.run c run
  have seen := (pendingDiff_modEq s.grp).trans v.balance
  have bound : s.grp.pendingDiff < 4294967296 := u32_lt _
  have small := v.thresh
  have most := c.complqMax
  unfold Int.ModEq at seen
  refine ⟨?_, fun few => ?_⟩
  · have owed := u32_modEq s.owed
    have owedBound := u32_lt s.owed
    unfold Int.ModEq at owed
    generalize u32 s.owed = o at owed owedBound ⊢
    change _ ↔ (4294967296 : Int) ∣ (tally TxSystem.step ledger c.init es).1
    omega
  · obtain ⟨low, owed, high⟩ := v.within few
    change _ ↔ (tally TxSystem.step ledger c.init es).1 = 0
    have few' : (tally TxSystem.step ledger c.init es).2 < 2147000000 := few
    simp only [maxDescs] at most
    omega

/-- One packet on the exception path is charged once and completed twice: after
its two completions and its RE completion the counters read -1. -/
theorem exception_wraps_pending :
    let c : TxConfig := ⟨1, 128, 256, 32, false, fun _ => false, by decide, by decide, by decide,
      by decide⟩
    let run := exec TxSystem.step c.init
      [.send 0 { headlen := 100, frags := [] } {}, .fetch 0 1, .divert 0 0, .re 0 1,
        .compl 0 0 .miss {}, .compl 0 0 .reinject {}]
    ∃ s, run = some s ∧ s.owed = 0 ∧ s.grp.pendingDiff = 4294967295 := by
  intro c run
  have seen : run.map (fun s => (s.owed, s.grp.pendingDiff)) = some (0, 4294967295) := by
    decide +kernel
  obtain ⟨s, reached, eq⟩ := Option.map_eq_some_iff.mp seen
  exact ⟨s, reached, Prod.mk.inj eq⟩

/-- Two packets in flight, one of which has asked for an RE completion. -/
theorem pending_is_owed_packets :
    let c : TxConfig := ⟨1, 128, 256, 32, false, fun _ => false, by decide, by decide, by decide,
      by decide⟩
    let es : List Event := [.send 0 { headlen := 100, frags := [] } {},
      .send 0 { headlen := 100, frags := [] } {}]
    ∃ s, exec TxSystem.step c.init es = some s ∧ s.owed = 3 ∧ s.grp.pendingDiff = s.owed := by
  intro c es
  have seen : (exec TxSystem.step c.init es).map (fun s => (s.owed,
      tally TxSystem.step ledger c.init es)) = some (3, (0, 0)) := by decide +kernel
  obtain ⟨s, reached, eq⟩ := Option.map_eq_some_iff.mp seen
  obtain ⟨owed, total⟩ := Prod.mk.inj eq
  have agree := (pending_is_owed_iff c reached).2 (by rw [total]; decide)
  rw [total] at agree
  exact ⟨s, reached, owed, agree.mpr rfl⟩

/-! What the completion queue has to hold, split by whether the room check was asked
for it. On the completions that were asked for the counters may run behind the device,
as each one processed but never charged takes one off them. -/

/-- The completion of a packet that the room check was not asked for: the second one
of the exception path. -/
def Rem.extra : Rem → Nat
  | .exception | .awaitMiss | .awaitReinject => 1
  | .fresh | .done => 0

/-- What the device owes for a queue without the room check having been asked: the
second completions of its packets and its markers, on an XDP queue everything. -/
def Dev.unasked (d : Dev) (xdp : Bool) : Nat :=
  if xdp then d.owed else (d.pkts.map fun p => p.rem.extra).sum + d.markers

/-- What the device owes for a queue after the room check. -/
def Dev.asked (d : Dev) (xdp : Bool) : Nat :=
  if xdp then 0 else (d.pkts.map fun p => p.rem.owed - p.rem.extra).sum + d.reqs.length

def TxSystem.unasked (s : TxSystem) : Nat :=
  ∑ t ∈ Finset.range s.grp.numTxq, (s.dev t).unasked (s.grp.txqs t).xdp

def TxSystem.asked (s : TxSystem) : Nat :=
  ∑ t ∈ Finset.range s.grp.numTxq, (s.dev t).asked (s.grp.txqs t).xdp

/-- What the threshold leaves of the completion queue when a packet that has just
passed the room check has taken its two. -/
def TxConfig.slack (c : TxConfig) : Nat := c.complqDescCount - c.complqDescCount / 2 - 2

/-- A step that leaves room on the completion queue, `k` of the slack being set aside
for what the counters do not show. An unchecked completion is caused while the
outstanding ones leave room for it, and a packet passes the room check while the
counters are at most `k` behind what was asked for. -/
def RoomKept (c : TxConfig) (k : Nat) (s : TxSystem) (e : Event) : Prop :=
  (0 < unchecked s e → s.unasked + unchecked s e + k ≤ c.slack) ∧
    match e with
    | .send t _ _ =>
      if (s.grp.txqs t).xdp then s.unasked + 2 + k ≤ c.slack
      else s.grp.pendingDiff ≤ s.grp.thresh → s.asked ≤ s.grp.pendingDiff + k
    | _ => True

theorem Rem.extra_le_owed (rem : Rem) : rem.extra ≤ rem.owed := by
  cases rem <;> decide

theorem Dev.asked_add_unasked (d : Dev) (xdp : Bool) : d.asked xdp + d.unasked xdp = d.owed := by
  unfold Dev.asked Dev.unasked
  cases xdp with
  | true => exact Nat.zero_add _
  | false =>
      have packets : ∀ l : List Pkt, (l.map fun p => p.rem.owed - p.rem.extra).sum +
          (l.map fun p => p.rem.extra).sum = (l.map fun p => p.rem.owed).sum := by
        intro l
        induction l with
        | nil => rfl
        | cons p l ih =>
            have part := p.rem.extra_le_owed
            simp only [List.map_cons, List.sum_cons]
            omega
      have all := packets d.pkts
      simp only [Bool.false_eq_true, if_false, Dev.owed]
      omega

theorem asked_add_unasked (s : TxSystem) : s.asked + s.unasked = s.owed := by
  unfold TxSystem.asked TxSystem.unasked TxSystem.owed
  rw [← Finset.sum_add_distrib]
  exact Finset.sum_congr rfl fun t _ => (s.dev t).asked_add_unasked _

theorem txStartReinjectTimer_xdp (q : TxQueue) (bufId : Nat) (env : TimerEnv) :
    (txStartReinjectTimer q bufId env).1.xdp = q.xdp := by
  unfold txStartReinjectTimer
  cases env.kzalloc <;> cases env.xaStore <;> rfl

theorem txHandleMissCompletion_xdp (q : TxQueue) (tag : Nat) (env : TimerEnv) :
    (txHandleMissCompletion q tag env).q.xdp = q.xdp := by
  have started := txStartReinjectTimer_xdp q tag env
  unfold txHandleMissCompletion
  generalize txStartReinjectTimer q tag env = r at started
  split
  · exact (txCleanBufs_only _ tag).same.xdp
  · dsimp only
    split
    · exact (txCleanBufs_only _ tag).same.xdp.trans started
    · exact (txCleanBufs_only r.1 tag).same.xdp.trans started

theorem txHandleReinjectCompletion_xdp (q : TxQueue) (tag : Nat) :
    (txHandleReinjectCompletion q tag).q.xdp = q.xdp := by
  unfold txHandleReinjectCompletion
  dsimp only
  split
  · split
    · rfl
    · exact (libethTxComplete_only _ tag).same.xdp
  · split <;> rfl

theorem txHandleCompl_xdp (q : TxQueue) (ctype : ComplType) (tag : Nat) (env : TimerEnv) :
    (txHandleCompl q (some ctype) tag env).q.xdp = q.xdp := by
  cases ctype with
  | rs =>
      change (txHandleRsCompletion q tag env).q.xdp = q.xdp
      unfold txHandleRsCompletion
      split
      · exact txHandleMissCompletion_xdp ..
      · exact (txCleanBufs_only q tag).same.xdp
  | ruleMiss => exact txHandleMissCompletion_xdp q tag env
  | reinjected => exact txHandleReinjectCompletion_xdp q tag
  | re => rfl
  | swMarker => rfl
  | itrFlush => rfl

theorem txXmitXdpq_xdp (q : TxQueue) (frame size : Nat) (dma : Option Nat) :
    (txXmitXdpq q frame size dma).q.xdp = q.xdp := by
  unfold txXmitXdpq
  cases dma with
  | none => rfl
  | some addr =>
      dsimp only
      split
      · rfl
      · split
        · rfl
        · next buf q' got => exact (nextBufId_onlyBufs got).same.xdp

theorem txSplitqFrame_xdp {q : TxQueue} (use : q.nextToUse < q.descCount)
    (pending thresh skbId : Nat) (skb : Skb) (env : SendEnv) :
    (txSplitqFrame q pending thresh skbId skb env).q.xdp = q.xdp := by
  by_cases accepted : ∃ skb' tso, txSplitqAdmit q pending thresh skb env = .accept skb' tso
  · obtain ⟨skb', tso, accepted⟩ := accepted
    rcases frame_accepted use accepted skbId with ⟨-, -, -, -, -, ⟨ring, same⟩, -⟩ | ⟨carried, -⟩
    · rw [same]
      rfl
    · exact carried.same.xdp
  · obtain ⟨-, -, -, -, ⟨-, same⟩ | ⟨-, -, same⟩⟩ :=
      frame_refused (fun skb' tso eq => accepted ⟨skb', tso, eq⟩) skbId
    · rw [same]
      rfl
    · rw [same]

theorem clean_queues (s : TxSystem) {t : Nat} (known : t < s.grp.numTxq) (ctype : ComplType)
    (counted : ComplType.counted (some ctype) = true) (tag : Nat) (env : TimerEnv) :
    (s.clean t ctype tag env).grp.numTxq = s.grp.numTxq ∧
      ∀ u, ((s.clean t ctype tag env).grp.txqs u).xdp = (s.grp.txqs u).xdp := by
  refine ⟨by rw [clean_counts s known ctype counted], fun u => ?_⟩
  rw [clean_txqs s known ctype counted]
  split
  · next own =>
      subst own
      exact txHandleCompl_xdp ..
  · rfl

/-- The queues of a group stay, XDP ones and others. -/
theorem queues_step {s s' : TxSystem} {e : Event} (use : s.InRing) (taken : s.step e = some s') :
    s'.grp.numTxq = s.grp.numTxq ∧ ∀ u, (s'.grp.txqs u).xdp = (s.grp.txqs u).xdp := by
  cases e with
  | send t skb env =>
      simp only [TxSystem.step, Option.ite_none_right_eq_some, Option.some.injEq] at taken
      obtain ⟨-, rfl⟩ := taken
      refine ⟨rfl, fun u => ?_⟩
      by_cases own : u = t
      · subst own
        simp only [TxSystem.send, TxqGroup.setQueue, Function.update_self]
        exact txSplitqFrame_xdp (use u) ..
      · simp only [TxSystem.send, TxqGroup.setQueue, Function.update_of_ne own]
  | xdp t size dma =>
      simp only [TxSystem.step, Option.ite_none_right_eq_some, Option.some.injEq] at taken
      obtain ⟨-, rfl⟩ := taken
      refine ⟨rfl, fun u => ?_⟩
      by_cases own : u = t
      · subst own
        simp only [TxSystem.xdp, TxqGroup.setQueue, Function.update_self]
        exact txXmitXdpq_xdp ..
      · simp only [TxSystem.xdp, TxqGroup.setQueue, Function.update_of_ne own]
  | fetch t n =>
      simp only [TxSystem.step, Option.ite_none_right_eq_some, Option.some.injEq] at taken
      obtain ⟨-, rfl⟩ := taken
      exact ⟨rfl, fun _ => rfl⟩
  | re t head =>
      cases reqs : (s.dev t).reqs with
      | nil => simp only [TxSystem.step, reqs, reduceCtorEq] at taken
      | cons pos rest =>
          simp only [TxSystem.step, reqs, Option.ite_none_right_eq_some,
            Option.some.injEq] at taken
          obtain ⟨⟨known, -⟩, rfl⟩ := taken
          exact clean_queues s known .re rfl _ _
  | divert t i =>
      obtain ⟨p, -, -, -, -, rfl⟩ := divert_taken taken
      exact ⟨rfl, fun _ => rfl⟩
  | compl t i kind env =>
      obtain ⟨p, rem, known, -, -, -, rfl⟩ := compl_taken taken
      exact clean_queues s known kind.ctype (by cases kind <;> rfl) _ _
  | expire t timer =>
      simp only [TxSystem.step, Option.ite_none_right_eq_some, Option.some.injEq] at taken
      obtain ⟨-, rfl⟩ := taken
      refine ⟨rfl, fun u => ?_⟩
      by_cases own : u = t
      · subst own
        simp only [TxqGroup.setQueue, Function.update_self]
        rfl
      · simp only [TxqGroup.setQueue, Function.update_of_ne own]
  | flush =>
      obtain rfl := Option.some.inj taken
      exact ⟨rfl, fun _ => rfl⟩
  | marker t =>
      simp only [TxSystem.step, Option.ite_none_right_eq_some, Option.some.injEq] at taken
      obtain ⟨⟨known, -⟩, rfl⟩ := taken
      exact clean_queues s known .swMarker rfl _ _
  | passEnd =>
      obtain rfl := Option.some.inj taken
      refine ⟨rfl, fun u => ?_⟩
      change (txWakeQueue _ _ (s.grp.txqs u)).xdp = _
      unfold txWakeQueue
      split
      · rfl
      · split <;> rfl
  | link up =>
      obtain rfl := Option.some.inj taken
      exact ⟨rfl, fun _ => rfl⟩

/-- One queue's share grows by `a` at most and the others' stay. -/
theorem sum_le_of_one {n t a : Nat} {f g : Nat → Nat} (known : t < n)
    (rest : ∀ u, u ≠ t → g u = f u) (one : g t ≤ f t + a) :
    ∑ u ∈ Finset.range n, g u ≤ ∑ u ∈ Finset.range n, f u + a := by
  have member : t ∈ Finset.range n := Finset.mem_range.mpr known
  have others : ∑ u ∈ (Finset.range n).erase t, g u = ∑ u ∈ (Finset.range n).erase t, f u :=
    Finset.sum_congr rfl fun u inside => rest u (Finset.ne_of_mem_erase inside)
  have after := Finset.add_sum_erase _ g member
  have before := Finset.add_sum_erase _ f member
  omega

/-- What a step adds at most to what was asked for and to what was not. -/
structure Adds (s s' : TxSystem) (asked unasked : Nat) : Prop where
  asked : s'.asked ≤ s.asked + asked
  unasked : s'.unasked ≤ s.unasked + unasked

theorem Adds.of_dev {s s' : TxSystem} {t a u : Nat} {d : Dev} (known : t < s.grp.numTxq)
    (kept : s'.grp.numTxq = s.grp.numTxq ∧ ∀ v, (s'.grp.txqs v).xdp = (s.grp.txqs v).xdp)
    (dev : s'.dev = Function.update s.dev t d)
    (asked : d.asked (s.grp.txqs t).xdp ≤ (s.dev t).asked (s.grp.txqs t).xdp + a)
    (unasked : d.unasked (s.grp.txqs t).xdp ≤ (s.dev t).unasked (s.grp.txqs t).xdp + u) :
    Adds s s' a u := by
  constructor
  · unfold TxSystem.asked
    rw [kept.1]
    refine sum_le_of_one known (fun v ne => ?_) ?_
    · rw [kept.2, dev, Function.update_of_ne ne]
    · rw [kept.2, dev, Function.update_self]
      exact asked
  · unfold TxSystem.unasked
    rw [kept.1]
    refine sum_le_of_one known (fun v ne => ?_) ?_
    · rw [kept.2, dev, Function.update_of_ne ne]
    · rw [kept.2, dev, Function.update_self]
      exact unasked

theorem Adds.none {s s' : TxSystem}
    (kept : s'.grp.numTxq = s.grp.numTxq ∧ ∀ v, (s'.grp.txqs v).xdp = (s.grp.txqs v).xdp)
    (dev : s'.dev = s.dev) : Adds s s' 0 0 := by
  constructor
  · simp only [TxSystem.asked, kept.1, kept.2, dev, add_zero, le_refl]
  · simp only [TxSystem.unasked, kept.1, kept.2, dev, add_zero, le_refl]

theorem accept_asked (d : Dev) (skb : Nat) (bufs : List (Nat × DmaMap)) (n : Nat) (re : Bool) :
    (d.accept skb bufs n re).asked false = d.asked false + 1 + re.toNat ∧
      (d.accept skb bufs n re).unasked false = d.unasked false := by
  unfold Dev.asked Dev.unasked Dev.accept
  cases re <;> simp [Rem.owed, Rem.extra, Nat.add_assoc, Nat.add_comm, Nat.add_left_comm]

theorem Rem.deliver_share {rem rem' : Rem} {kind : ComplKind}
    (delivered : rem.deliver kind = some rem') :
    rem'.extra ≤ rem.extra ∧ rem'.owed - rem'.extra ≤ rem.owed - rem.extra := by
  cases rem <;> cases kind <;> cases delivered <;> decide

/-- A packet owes no more than before on either side, up to `u` of the unasked. -/
theorem set_share (d : Dev) {i u : Nat} {p : Pkt} (at_ : d.pkts[i]? = some p) (rem : Rem)
    (asked : rem.owed - rem.extra ≤ p.rem.owed - p.rem.extra) (extra : rem.extra ≤ p.rem.extra + u)
    (xdp : Bool) :
    Dev.asked { d with pkts := d.pkts.set i { p with rem } } xdp ≤ d.asked xdp + 0 ∧
      Dev.unasked { d with pkts := d.pkts.set i { p with rem } } xdp ≤ d.unasked xdp + u := by
  have first := sum_rem_set (fun r => r.owed - r.extra) at_ { p with rem }
  have second := sum_rem_set Rem.extra at_ { p with rem }
  have whole := sum_rem_set Rem.owed at_ { p with rem }
  have before := p.rem.extra_le_owed
  have after := rem.extra_le_owed
  dsimp only at first second whole
  cases xdp with
  | true =>
      simp only [Dev.asked, Dev.unasked, Dev.owed, if_true]
      omega
  | false =>
      simp only [Dev.asked, Dev.unasked, Bool.false_eq_true, if_false]
      omega

def Asks (s : TxSystem) (e : Event) (a u : Nat) : Prop :=
  match e with
  | .send t _ _ =>
    if (s.grp.txqs t).xdp then a = 0 ∧ u = 2
    else u = 0 ∧ (a = 0 ∨ s.grp.pendingDiff ≤ s.grp.thresh ∧ a = 2)
  | _ => a = 0 ∧ u = unchecked s e

theorem adds_send {s : TxSystem} {t : Nat} {skb : Skb} {env : SendEnv} (known : t < s.grp.numTxq)
    (use : s.InRing)
    (kept : (s.send t skb env).grp.numTxq = s.grp.numTxq ∧
      ∀ v, ((s.send t skb env).grp.txqs v).xdp = (s.grp.txqs v).xdp) :
    ∃ a u, Adds s (s.send t skb env) a u ∧ Asks s (.send t skb env) a u := by
  obtain ⟨charged, checked⟩ := frame_charged use skb env (t := t)
  generalize run : txSplitqFrame (s.grp.txqs t) s.grp.pendingDiff s.grp.thresh s.nextSkb skb env =
    r at charged checked
  have dev : (s.send t skb env).dev = Function.update s.dev t (if r.verdict = .sent then
      (s.dev t).accept s.nextSkb r.mapped r.slots.length r.re else s.dev t) := by
    rw [← run]
    rfl
  have re := Bool.toNat_le r.re
  simp only [Asks]
  cases frames : (s.grp.txqs t).xdp with
  | true =>
      simp only [if_true]
      refine ⟨0, 2, .of_dev known kept dev ?_ ?_, rfl, rfl⟩
      · rw [frames]
        exact Nat.zero_le _
      · rw [frames]
        simp only [Dev.unasked, if_true]
        split
        · rw [accept_owed]
          omega
        · exact Nat.le_add_right _ 2
  | false =>
      simp only [Bool.false_eq_true, if_false]
      by_cases sent : r.verdict = .sent
      · rw [if_pos sent] at dev
        have due : r.due = 1 + r.re.toNat := if_pos sent
        obtain free | ⟨room, -⟩ := checked
        · omega
        · obtain ⟨asked, unasked⟩ := accept_asked (s.dev t) s.nextSkb r.mapped r.slots.length r.re
          refine ⟨2, 0, .of_dev known kept dev ?_ ?_, rfl, .inr ⟨room, rfl⟩⟩
          · rw [frames, asked]
            omega
          · rw [frames, unasked]
            rfl
      · rw [if_neg sent] at dev
        exact ⟨0, 0, .of_dev known kept dev le_rfl le_rfl, rfl, .inl rfl⟩

theorem adds_xdp {s : TxSystem} {t size : Nat} {dma : Option Nat} (known : t < s.grp.numTxq)
    (frames : (s.grp.txqs t).xdp = true)
    (kept : (s.xdp t size dma).grp.numTxq = s.grp.numTxq ∧
      ∀ v, ((s.xdp t size dma).grp.txqs v).xdp = (s.grp.txqs v).xdp) :
    Adds s (s.xdp t size dma) 0 (unchecked s (.xdp t size dma)) := by
  have outcome := txXmitXdpq_cases (s.grp.txqs t) s.nextSkb size dma
  refine .of_dev known kept rfl ?_ ?_
  · rw [frames]
    exact Nat.zero_le _
  · rw [frames]
    simp only [Dev.unasked, if_true, unchecked]
    rcases outcome with ⟨fits, sent, -⟩ | ⟨fits, sent, -⟩
    · rw [if_neg (by rw [sent]; exact Bool.false_ne_true)]
      exact Nat.le_add_right _ _
    · rw [if_pos sent, accept_owed, fits]
      rfl

theorem adds {s s' : TxSystem} {e : Event} (use : s.InRing) (taken : s.step e = some s') :
    ∃ a u, Adds s s' a u ∧ Asks s e a u := by
  have kept := queues_step use taken
  cases e with
  | send t skb env =>
      simp only [TxSystem.step, Option.ite_none_right_eq_some, Option.some.injEq] at taken
      obtain ⟨⟨known, -⟩, rfl⟩ := taken
      exact adds_send known use kept
  | xdp t size dma =>
      simp only [TxSystem.step, Option.ite_none_right_eq_some, Option.some.injEq] at taken
      obtain ⟨⟨known, frames⟩, rfl⟩ := taken
      exact ⟨0, _, adds_xdp known frames kept, rfl, rfl⟩
  | fetch t n =>
      simp only [TxSystem.step, Option.ite_none_right_eq_some, Option.some.injEq] at taken
      obtain ⟨⟨known, -⟩, rfl⟩ := taken
      exact ⟨0, 0, .of_dev known kept rfl le_rfl le_rfl, rfl, rfl⟩
  | re t head =>
      cases reqs : (s.dev t).reqs with
      | nil => simp only [TxSystem.step, reqs, reduceCtorEq] at taken
      | cons pos rest =>
          simp only [TxSystem.step, reqs, Option.ite_none_right_eq_some,
            Option.some.injEq] at taken
          obtain ⟨⟨known, -⟩, rfl⟩ := taken
          have shorter : rest.length ≤ (s.dev t).reqs.length := by simp [reqs]
          refine ⟨0, 0, .of_dev known kept rfl ?_ ?_, rfl, rfl⟩
          · unfold Dev.asked
            split
            · exact le_rfl
            · exact Nat.add_le_add_left shorter _
          · unfold Dev.unasked Dev.owed
            split
            · dsimp only
              omega
            · exact le_rfl
  | divert t i =>
      obtain ⟨p, known, at_, fresh, -, rfl⟩ := divert_taken taken
      obtain ⟨asked, unasked⟩ := set_share (s.dev t) (u := 1) at_ .exception
        (by rw [fresh]; decide) (by rw [fresh]; decide) (s.grp.txqs t).xdp
      exact ⟨0, 1, .of_dev known kept rfl asked unasked, rfl, rfl⟩
  | compl t i kind env =>
      obtain ⟨p, rem, known, at_, delivered, -, rfl⟩ := compl_taken taken
      obtain ⟨extra, rest⟩ := Rem.deliver_share delivered
      obtain ⟨asked, unasked⟩ := set_share (s.dev t) (u := 0) at_ rem rest extra (s.grp.txqs t).xdp
      exact ⟨0, 0, .of_dev known kept rfl asked unasked, rfl, rfl⟩
  | expire t timer =>
      simp only [TxSystem.step, Option.ite_none_right_eq_some, Option.some.injEq] at taken
      obtain ⟨-, rfl⟩ := taken
      exact ⟨0, 0, .none kept rfl, rfl, rfl⟩
  | flush =>
      obtain rfl := Option.some.inj taken
      refine ⟨0, s.grp.numTxq, ⟨le_rfl, ?_⟩, rfl, rfl⟩
      have one : ∀ t, Dev.unasked { s.dev t with markers := (s.dev t).markers + 1 }
          (s.grp.txqs t).xdp = (s.dev t).unasked (s.grp.txqs t).xdp + 1 := by
        intro t
        unfold Dev.unasked Dev.owed
        split <;> rfl
      simp only [TxSystem.unasked, one, Finset.sum_add_distrib, ← Finset.card_eq_sum_ones,
        Finset.card_range, le_refl]
  | marker t =>
      simp only [TxSystem.step, Option.ite_none_right_eq_some, Option.some.injEq] at taken
      obtain ⟨⟨known, some⟩, rfl⟩ := taken
      refine ⟨0, 0, .of_dev known kept rfl le_rfl ?_, rfl, rfl⟩
      unfold Dev.unasked Dev.owed
      split
      · dsimp only
        omega
      · dsimp only
        omega
  | passEnd =>
      obtain rfl := Option.some.inj taken
      exact ⟨0, 0, .none kept rfl, rfl, rfl⟩
  | link up =>
      obtain rfl := Option.some.inj taken
      exact ⟨0, 0, .none kept rfl, rfl, rfl⟩

/-- Both sides keep to their part of the completion queue. -/
structure Roomy (c : TxConfig) (k : Nat) (s : TxSystem) : Prop where
  use : s.InRing
  thresh : s.grp.thresh = c.complqDescCount / 2
  asked : s.asked ≤ c.complqDescCount / 2 + 2 + k
  unasked : s.unasked + k ≤ c.slack

theorem Roomy.start {c : TxConfig} {k : Nat} (part : k ≤ c.slack) : Roomy c k c.init := by
  have none : ∀ xdp, Dev.asked {} xdp = 0 ∧ Dev.unasked {} xdp = 0 := by decide
  have asked : c.init.asked = 0 := Finset.sum_eq_zero fun _ _ => (none _).1
  have unasked : c.init.unasked = 0 := Finset.sum_eq_zero fun _ _ => (none _).2
  exact ⟨.start c, rfl, by omega, by omega⟩

theorem Roomy.step {c : TxConfig} {k : Nat} {s s' : TxSystem} {e : Event} (v : Roomy c k s)
    (ok : RoomKept c k s e) (taken : s.step e = some s') : Roomy c k s' := by
  obtain ⟨a, u, added, asks⟩ := adds v.use taken
  obtain ⟨_, _, _, books, -⟩ := booked v.use taken
  obtain ⟨free, send⟩ := ok
  have asked := added.asked
  have unasked := added.unasked
  have before := v.asked
  have room := v.unasked
  have thresh := v.thresh
  refine ⟨v.use.step taken, books.thresh.trans thresh, ?_, ?_⟩
  · cases e with
    | send t skb env =>
        simp only [Asks] at asks send
        split at asks
        · omega
        · next plain =>
            rw [if_neg plain] at send
            rcases asks with ⟨-, none | ⟨passed, two⟩⟩
            · omega
            · have behind := send passed
              omega
    | _ =>
        obtain ⟨none, -⟩ := asks
        omega
  · cases e with
    | send t skb env =>
        simp only [Asks] at asks send
        split at asks
        · next frames =>
            rw [if_pos frames] at send
            omega
        · omega
    | _ =>
        obtain ⟨-, rfl⟩ := asks
        omega

/-- The completion queue has a slot for everything the device owes in every state of a
run whose steps leave room: the completions caused without the room check and still
outstanding stay within the slack, and no packet passes the check while the counters
are further behind than the part of the slack set aside for that. -/
theorem owed_fits_complq (c : TxConfig) {k : Nat} (part : k ≤ c.slack) {s : TxSystem}
    (run : Reachable TxSystem.step (RoomKept c k) (· = c.init) s) :
    s.owed ≤ c.complqDescCount := by
  have v : Roomy c k s := run.invariant (fun _ start => start ▸ .start part)
    fun _ _ _ v ok taken => v.step ok taken
  have split := asked_add_unasked s
  have asked := v.asked
  have unasked := v.unasked
  have least := c.complqMin
  simp only [minTxqComplqDesc, TxConfig.slack] at least unasked
  omega

/-- Packets that have all taken the exception path owe more completions than the
completion queue of a vport with the default sizes has slots. -/
theorem exceptions_overflow_complq :
    let c : TxConfig := ⟨1, 512, 512, 32, false, fun _ => false, by decide, by decide, by decide,
      by decide⟩
    let packet : Event := .send 0 { headlen := 100, frags := [] } {}
    let run := exec TxSystem.step c.init
      (List.replicate 253 packet ++ [.fetch 0 253, .re 0 1, .re 0 65, .re 0 129, .re 0 193] ++
        List.replicate 4 packet ++ [.fetch 0 4, .re 0 257] ++ (List.range 257).map (.divert 0))
    ∃ s, run = some s ∧ c.complqDescCount < s.owed := by
  intro c packet run
  have seen : run.map (fun s => s.owed) = some 514 := by decide +kernel
  obtain ⟨s, reached, owed⟩ := Option.map_eq_some_iff.mp seen
  exact ⟨s, reached, by rw [owed]; decide⟩


instance (c : TxConfig) (k : Nat) (s : TxSystem) (e : Event) : Decidable (RoomKept c k s e) := by
  unfold RoomKept
  cases e <;> infer_instance

/-- A packet on the exception path, and more XDP frames than the slack has places, each
completed before the next. -/
theorem owed_fits_complq_mixed :
    let c : TxConfig := ⟨2, 256, 256, 32, false, fun t => t == 1, by decide, by decide, by decide,
      by decide⟩
    ∃ s, Reachable TxSystem.step (RoomKept c 1) (· = c.init) s ∧ 0 < s.owed ∧ s.owed ≤ 256 := by
  intro c
  let es : List Event := [.send 0 { headlen := 100, frags := [] } {}, .fetch 0 1, .divert 0 0] ++
    (List.range 130).flatMap fun i => [.xdp 1 60 (some 0), .fetch 1 1, .compl 1 i .rs {}]
  have seen : (execIf TxSystem.step (fun s e => decide (RoomKept c 1 s e)) c.init es).map
      (fun s => s.owed) = some 3 := by decide +kernel
  obtain ⟨s, run, owed⟩ := Option.map_eq_some_iff.mp seen
  have start : Reachable TxSystem.step (fun s e => decide (RoomKept c 1 s e) = true)
    (· = c.init) c.init := .start rfl
  have kept := (start.execIf run).mono fun _ _ => of_decide_eq_true
  exact ⟨s, kept, by omega, owed_fits_complq c (by decide) kept⟩

end Idpf
