import Idpf.Tx.Reservation
import Idpf.Tx.Steps

/-! How `next_to_clean` moves. An RE completion puts it where the device has read
to. A reinject completion that comes before its miss completion puts it behind the
packet, by an index saved when the packet was sent. -/
namespace Idpf
open General

/-- The position `next_to_clean` stands for. -/
def cleanPos (q : TxQueue) (d : Dev) : Nat := d.tail - ringDist q.descCount q.nextToClean q.nextToUse

/-- Steps that keep `next_to_clean` in order. An RE completion finds it where the
last one put it, or not ahead of the head it reports. A reinject completion that
finds a buffer of type SKB finds the packet's own, and one whose descriptors are
not reclaimed yet. A packet writes no more descriptors than it asked for. -/
def cleanOk (s : TxSystem) : Event → Bool
  | .send t skb env =>
    let q := s.grp.txqs t
    match txSplitqAdmit q s.grp.pendingDiff s.grp.thresh skb env with
    | .accept skb' tso => decide (SendFits q env skb skb' tso)
    | _ => true
  | .re t head =>
    let pos := cleanPos (s.grp.txqs t) (s.dev t)
    pos == (s.dev t).reported || decide (pos ≤ head)
  | .compl t i .reinject _ =>
    let q := s.grp.txqs t
    match (s.dev t).pkts[i]? with
    | none => true
    | some p =>
      (q.bufs p.tag).type != .skb ||
        (q.bufs p.tag).rsIdx == p.last % q.descCount &&
          decide (cleanPos q (s.dev t) ≤ p.last + 1)
  | _ => true

/-- `next_to_clean` stands for position `c`, which the device has fetched up to. -/
structure CleanInv (q : TxQueue) (d : Dev) (c : Nat) : Prop where
  fetched : c ≤ d.head
  given : d.head ≤ d.tail
  lap : d.tail < c + q.descCount
  clean : q.nextToClean = c % q.descCount
  use : q.nextToUse = d.tail % q.descCount

namespace CleanInv

variable {q q' : TxQueue} {d d' : Dev} {c c' : Nat}

theorem pos (v : CleanInv q d c) : 0 < q.descCount := by
  have := v.fetched
  have := v.given
  have := v.lap
  omega

theorem used (v : CleanInv q d c) :
    ringDist q.descCount q.nextToClean q.nextToUse = d.tail - c := by
  rw [v.clean, v.use]
  exact ringDist_mod (v.fetched.trans v.given) (by have := v.lap; have := v.pos; omega)

theorem cleanPos_eq (v : CleanInv q d c) : cleanPos q d = c := by
  unfold cleanPos
  rw [v.used]
  have := v.fetched
  have := v.given
  omega

theorem inRing (v : CleanInv q d c) : q.nextToUse < q.descCount := by
  rw [v.use]
  exact Nat.mod_lt _ v.pos

theorem unused (v : CleanInv q d c) : q.descUnused + (d.tail - c) + 1 = q.descCount := by
  rw [← v.used]
  exact descUnused_dist q (by rw [v.clean]; exact Nat.mod_lt _ v.pos) v.inRing

theorem unfetched (v : CleanInv q d c) {k : Nat} (ahead : d.head ≤ k) (given : k < d.tail) :
    ringDist q.descCount q.nextToClean (k % q.descCount) <
      ringDist q.descCount q.nextToClean q.nextToUse := by
  have := v.fetched
  have := v.lap
  rw [v.used, v.clean, ringDist_mod (by omega) (by omega)]
  omega

theorem congr (v : CleanInv q d c) (same : SameRing q q') (dev : SameDevRing d d') :
    CleanInv q' d' c := by
  constructor
  · rw [dev.head]; exact v.fetched
  · rw [dev.head, dev.tail]; exact v.given
  · rw [dev.tail, same.descCount]; exact v.lap
  · rw [same.nextToClean, same.descCount]; exact v.clean
  · rw [same.nextToUse, same.descCount, dev.tail]; exact v.use

theorem advance (v : CleanInv q d c) (forward : c ≤ c') (fetched : c' ≤ d.head) {ntc : Nat}
    (clean : ntc = c' % q.descCount) : CleanInv { q with nextToClean := ntc } d c' :=
  ⟨fetched, v.given, by have := v.lap; show d.tail < c' + q.descCount; omega, clean, v.use⟩

theorem accept (v : CleanInv q d c) {len : Nat} (room : len ≤ q.descUnused)
    (descCount : q'.descCount = q.descCount) (nextToClean : q'.nextToClean = q.nextToClean)
    (nextToUse : q'.nextToUse = (q.nextToUse + len) % q.descCount) (skb : Nat)
    (bufs : List (Nat × DmaMap)) (re : Bool) : CleanInv q' (d.accept skb bufs len re) c := by
  have unused := v.unused
  refine ⟨v.fetched, Nat.le_add_right_of_le v.given, ?_, ?_, ?_⟩
  · change d.tail + len < c + q'.descCount
    rw [descCount]
    omega
  · rw [nextToClean, descCount]; exact v.clean
  · rw [nextToUse, descCount, v.use, Nat.mod_add_mod]
    rfl

theorem send {s : TxSystem} {t : Nat} {skb : Skb} {env : SendEnv}
    (v : CleanInv (s.grp.txqs t) (s.dev t) c) (ok : cleanOk s (.send t skb env) = true) :
    let r := txSplitqFrame (s.grp.txqs t) s.grp.pendingDiff s.grp.thresh s.nextSkb skb env
    r.q.descCount = (s.grp.txqs t).descCount ∧
      CleanInv r.q (if r.verdict = .sent then
        (s.dev t).accept s.nextSkb r.mapped r.slots.length r.re else s.dev t) c := by
  intro r
  by_cases accepted : ∃ skb' tso, txSplitqAdmit (s.grp.txqs t) s.grp.pendingDiff s.grp.thresh
      skb env = .accept skb' tso
  · obtain ⟨skb', tso, accepted⟩ := accepted
    simp only [cleanOk, accepted, decide_eq_true_eq] at ok
    have few := ((sendFits_iff v.inRing accepted s.nextSkb).mp ok).trans (admit_room accepted)
    rcases frame_accepted v.inRing accepted s.nextSkb with ⟨dropped, -, -, -, -, ⟨ring, eq⟩, -⟩ |
      ⟨carried, -, ⟨rolled, -, -, -, back⟩ | ⟨sent, -, -, next, -⟩⟩
    · rw [if_neg (by rw [show r.verdict = _ from dropped]; decide), show r.q = _ from eq]
      exact ⟨rfl, v.fetched, v.given, v.lap, v.clean, v.use⟩
    · rw [if_neg (by rw [show r.verdict = _ from rolled]; decide)]
      refine ⟨carried.same.descCount, v.fetched, v.given, ?_, ?_, ?_⟩
      · rw [carried.same.descCount]; exact v.lap
      · rw [carried.same.nextToClean, carried.same.descCount]; exact v.clean
      · rw [show r.q.nextToUse = _ from back, carried.same.descCount]; exact v.use
    · rw [if_pos sent]
      exact ⟨carried.same.descCount, v.accept few carried.same.descCount carried.same.nextToClean
        next _ _ _⟩
  · obtain ⟨-, -, -, -, ⟨dropped, eq⟩ | ⟨busy, -, eq⟩⟩ :=
      frame_refused (fun skb' tso eq => accepted ⟨skb', tso, eq⟩) s.nextSkb
    · rw [if_neg (by rw [show r.verdict = _ from dropped]; decide), show r.q = _ from eq]
      exact ⟨rfl, v.congr ⟨rfl, rfl, rfl, rfl, rfl, rfl⟩ (SameDevRing.refl _)⟩
    · rw [if_neg (by rw [show r.verdict = _ from busy]; decide), show r.q = _ from eq]
      exact ⟨rfl, v.congr ⟨rfl, rfl, rfl, rfl, rfl, rfl⟩ (SameDevRing.refl _)⟩

/-- One step moves the position forward, if at all, and not past what the device
has fetched. -/
theorem step {s s' : TxSystem} {e : Event} {t : Nat} (v : CleanInv (s.grp.txqs t) (s.dev t) c)
    (ok : cleanOk s e = true) (taken : s.step e = some s') :
    ∃ c', c ≤ c' ∧ c' ≤ (s.dev t).head ∧ (s.dev t).tail ≤ (s'.dev t).tail ∧
      (s'.grp.txqs t).descCount = (s.grp.txqs t).descCount ∧
      CleanInv (s'.grp.txqs t) (s'.dev t) c' := by
  cases ring_step taken t with
  | idle same dev =>
      exact ⟨c, le_rfl, v.fetched, dev.tail.ge, same.descCount, v.congr same dev⟩
  | send skb env r which run q d =>
      subst which run
      obtain ⟨count, next⟩ := v.send ok
      rw [q, d]
      refine ⟨c, le_rfl, v.fetched, ?_, count, next⟩
      split
      · exact Nat.le_add_right ..
      · exact le_rfl
  | xdp size dma r which run q d =>
      subst run
      rw [q, d]
      rcases txXmitXdpq_cases (s.grp.txqs t) s.nextSkb size dma with ⟨-, sent, -, only⟩ |
        ⟨fits, sent, -, count, clean, next⟩
      · rw [if_neg (by rw [sent]; exact Bool.false_ne_true)]
        exact ⟨c, le_rfl, v.fetched, le_rfl, only.sameRing.descCount,
          v.congr only.sameRing (SameDevRing.refl _)⟩
      · rw [if_pos sent]
        have room : 1 ≤ (s.grp.txqs t).descUnused := by
          simp only [xdpFits, Bool.and_eq_true, bne_iff_ne] at fits
          omega
        refine ⟨c, le_rfl, v.fetched, Nat.le_add_right .., count,
          v.accept room count clean ?_ _ _ _⟩
        rw [next, v.use, Nat.mod_add_mod]
        exact bump_mod v.pos _
  | fetch n which q d room =>
      rw [q, d]
      exact ⟨c, le_rfl, v.fetched, le_rfl, rfl, v.fetched.trans (Nat.le_add_right ..), room, v.lap,
        v.clean, v.use⟩
  | re pos head rest which reqs after order fetched same d =>
      subst which
      have forward : c ≤ head := by
        simp only [cleanOk, v.cleanPos_eq, Bool.or_eq_true, beq_iff_eq, decide_eq_true_eq] at ok
        rcases ok with last | beyond
        · exact last ▸ order
        · exact beyond
      have moved := (v.advance forward fetched rfl).congr same (SameDevRing.refl _)
      rw [d]
      exact ⟨head, forward, fetched, le_rfl, same.descCount, moved.fetched, moved.given, moved.lap,
        moved.clean, moved.use⟩
  | reinject i p env which at_ skb same dev =>
      subst which
      simp only [cleanOk, at_, skb, bne_self_eq_false, Bool.false_or, Bool.and_eq_true, beq_iff_eq,
        decide_eq_true_eq, v.cleanPos_eq] at ok
      obtain ⟨own, forward⟩ := ok
      have fetched : p.last + 1 ≤ (s.dev t).head := by
        obtain ⟨p', -, -, at', -, before, -⟩ := compl_taken taken
        rw [at_] at at'
        obtain rfl := Option.some.inj at'
        exact before
      have next : reinjectNtc (s.grp.txqs t) p.tag = (p.last + 1) % (s.grp.txqs t).descCount := by
        have slot := Nat.mod_lt p.last v.pos
        rw [reinjectNtc, own, ← bump_mod v.pos]
        unfold bump
        split <;> split <;> omega
      exact ⟨p.last + 1, forward, fetched, dev.tail.ge, same.descCount,
        (v.advance forward fetched next).congr same dev⟩

/-- What a move forward means for the indices alone. -/
theorem forward (v : CleanInv q d c) (v' : CleanInv q' d' c') (le : c ≤ c') (fetched : c' ≤ d.head)
    (grown : d.tail ≤ d'.tail) (count : q'.descCount = q.descCount) :
    ringDist q.descCount q.nextToClean q'.nextToClean ≤ ringDist q.descCount q.nextToClean q.nextToUse ∧
      (q'.nextToUse = q.nextToUse → q.descUnused ≤ q'.descUnused) := by
  have given := v.given
  have lap := v.lap
  have lap' := v'.lap
  rw [count] at lap'
  refine ⟨?_, fun still => ?_⟩
  · rw [v.used, v.clean, v'.clean, count, ringDist_mod le (by omega)]
    omega
  · have same : d.tail = d'.tail := by
      refine mod_inj_of_near grown (n := q.descCount) (by omega) ?_
      rw [← v.use, ← still, v'.use, count]
    have before := v.unused
    have after := v'.unused
    rw [count] at after
    omega

theorem start {s : TxSystem} (h : TxStart s) (t : Nat) :
    CleanInv (s.grp.txqs t) (s.dev t) 0 := by
  obtain ⟨c, rfl⟩ := h
  have large : 128 ≤ c.descCount := c.descMin
  refine ⟨le_rfl, le_rfl, ?_, (Nat.zero_mod _).symm, (Nat.zero_mod _).symm⟩
  change 0 < 0 + c.descCount
  omega

end CleanInv

/-- In every run whose steps keep `next_to_clean` in order, each descriptor the
device has not fetched lies between `next_to_clean` and `next_to_use`, and every
further such step moves `next_to_clean` forward, not past `next_to_use`, and takes no
descriptor out of those unused. -/
theorem next_to_clean_forward {s : TxSystem}
    (run : Reachable TxSystem.step (fun s e => cleanOk s e = true) TxStart s) (t : Nat) :
    let q := s.grp.txqs t
    (∀ k, (s.dev t).head ≤ k → k < (s.dev t).tail →
      ringDist q.descCount q.nextToClean (k % q.descCount) <
        ringDist q.descCount q.nextToClean q.nextToUse) ∧
    ∀ e s', cleanOk s e = true → s.step e = some s' →
      let q' := s'.grp.txqs t
      ringDist q.descCount q.nextToClean q'.nextToClean ≤
          ringDist q.descCount q.nextToClean q.nextToUse ∧
        (q'.nextToUse = q.nextToUse → q.descUnused ≤ q'.descUnused) := by
  obtain ⟨c, v⟩ := run.invariant (I := fun s => ∀ t, ∃ c, CleanInv (s.grp.txqs t) (s.dev t) c)
    (fun _ h t => ⟨0, CleanInv.start h t⟩)
    (fun _ _ _ v ok taken t =>
      have ⟨_, v⟩ := v t
      have ⟨c', _, _, _, _, v'⟩ := v.step ok taken
      ⟨c', v'⟩) t
  refine ⟨fun k ahead given => v.unfetched ahead given, fun e s' ok taken => ?_⟩
  obtain ⟨c', forward, fetched, grown, count, v'⟩ := v.step ok taken
  exact v.forward v' forward fetched grown count

/-- An RE completion has reported that the device has read both descriptors; the
reinject completion of the first packet then takes `next_to_clean` back to 1. -/
theorem next_to_clean_back :
    let c : TxConfig := ⟨1, 128, 256, 32, false, fun _ => false, by decide, by decide, by decide,
      by decide⟩
    let skb : Skb := { headlen := 100, frags := [] }
    let run := exec TxSystem.step c.init
      [.send 0 skb {}, .send 0 skb {}, .fetch 0 2, .re 0 2, .divert 0 0]
    ∃ s s', run = some s ∧ s.step (.compl 0 0 .reinject {}) = some s' ∧
      (s.grp.txqs 0).nextToClean = 2 ∧ (s'.grp.txqs 0).nextToClean = 1 ∧
      (s.grp.txqs 0).descUnused = 127 ∧ (s'.grp.txqs 0).descUnused = 126 := by
  intro c skb run
  have seen : (run.bind fun s => (s.step (.compl 0 0 .reinject {})).map fun s' =>
      ((s.grp.txqs 0).nextToClean, (s'.grp.txqs 0).nextToClean, (s.grp.txqs 0).descUnused,
        (s'.grp.txqs 0).descUnused)) = some (2, 1, 127, 126) := by decide +kernel
  obtain ⟨s, reached, next⟩ := Option.bind_eq_some_iff.mp seen
  obtain ⟨s', taken, eq⟩ := Option.map_eq_some_iff.mp next
  simp only [Prod.mk.injEq] at eq
  exact ⟨s, s', reached, taken, eq⟩

/-- A reinject completion before any other moves `next_to_clean` behind its packet. -/
theorem next_to_clean_forward_reinject :
    let c : TxConfig := ⟨1, 128, 256, 32, false, fun _ => false, by decide, by decide, by decide,
      by decide⟩
    let skb : Skb := { headlen := 100, frags := [] }
    let run := execIf TxSystem.step cleanOk c.init
      [.send 0 skb {}, .send 0 skb {}, .fetch 0 2, .divert 0 0]
    ∃ s s', run = some s ∧ s.step (.compl 0 0 .reinject {}) = some s' ∧
      (s'.grp.txqs 0).nextToClean = 1 ∧
      ((s'.grp.txqs 0).nextToUse = (s.grp.txqs 0).nextToUse →
        (s.grp.txqs 0).descUnused ≤ (s'.grp.txqs 0).descUnused) := by
  intro c skb run
  have seen : (run.bind fun s => (s.step (.compl 0 0 .reinject {})).map fun s' =>
      (cleanOk s (.compl 0 0 .reinject {}), (s'.grp.txqs 0).nextToClean)) = some (true, 1) := by
    decide +kernel
  obtain ⟨s, reached, next⟩ := Option.bind_eq_some_iff.mp seen
  obtain ⟨s', taken, eq⟩ := Option.map_eq_some_iff.mp next
  obtain ⟨ok, moved⟩ := Prod.mk.inj eq
  have started : TxStart c.init := ⟨c, rfl⟩
  have passed := Reachable.execIf (.start started) reached
  exact ⟨s, s', reached, taken, moved,
    ((next_to_clean_forward passed 0).2 _ s' ok taken).2⟩

end Idpf
