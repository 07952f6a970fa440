import Idpf.Rx.Group
import Mathlib.Algebra.Order.BigOperators.Group.Finset

/-! Where the buffer IDs of a receive queue group are. An ID is posted to the device,
named by a completion not yet consumed, or waiting in a refill queue, and every step
but one moves it from one of these places to the next: a completion of an unexpected
format takes its ID out of the group. -/
namespace Idpf
open General

/-- Steps that do not consume a completion of an unexpected format. -/
def rxFormatOk (s : RxGroup) : RxOp → Bool
  | .turn j _ =>
    match s.poll j with
    | none => true
    | some p =>
      let d := ((s.rxq j).ring p.ntc).desc
      decide (p.budget ≤ p.totalRxPkts) || (s.rxq j).genChk != d.gen ||
        d.rxdid == rxdid2FlexSplitq
  | _ => true

/-- The completion queue holds the completions `c` to `p` ever written, those the
driver has not consumed. -/
structure RxqView (q : Rxq) (ntc devTail : Nat) (devGen : Bool) (c p : Nat) : Prop where
  gens : ∃ h, GenRing q.descCount true (fun i => (q.ring i, (q.ring i).desc.gen)) h c p
  room : p - c < q.descCount
  ntc : ntc = c % q.descCount
  genChk : q.genChk = lapGen true (c / q.descCount)
  tail : devTail = p % q.descCount
  devGen : devGen = lapGen true (p / q.descCount)

namespace RxqView

variable {q : Rxq} {ntc devTail c p : Nat} {devGen : Bool}

theorem le (v : RxqView q ntc devTail devGen c p) : c ≤ p := by
  obtain ⟨_, g⟩ := v.gens
  exact g.le

theorem ready_iff (v : RxqView q ntc devTail devGen c p) :
    q.genChk = (q.ring ntc).desc.gen ↔ c < p := by
  obtain ⟨_, g⟩ := v.gens
  rw [v.genChk, v.ntc, eq_comm]
  exact g.ready_iff

theorem seg_length (v : RxqView q ntc devTail devGen c p) :
    (ringSeg q.descCount q.ring ntc devTail).length = p - c := by
  rw [v.ntc, v.tail, ringSeg_length q.ring v.le v.room]

theorem pop (v : RxqView q ntc devTail devGen c p) (ready : q.genChk = (q.ring ntc).desc.gen) :
    RxqView { q with genChk := turn q.descCount ntc q.genChk } (bump q.descCount ntc) devTail devGen
        (c + 1) p ∧
      ringSeg q.descCount q.ring ntc devTail =
        q.ring ntc :: ringSeg q.descCount q.ring (bump q.descCount ntc) devTail := by
  have waits := v.ready_iff.mp ready
  obtain ⟨h, g⟩ := v.gens
  have next : bump q.descCount ntc = (c + 1) % q.descCount := by rw [v.ntc, bump_mod g.pos]
  refine ⟨⟨⟨h, g.pop waits⟩, ?_, next, ?_, v.tail, v.devGen⟩, ?_⟩
  · change p - (c + 1) < q.descCount
    have := v.room
    omega
  · change turn q.descCount ntc q.genChk = _
    rw [v.ntc, v.genChk]
    exact turn_lapGen g.pos true c
  · rw [next, v.ntc, v.tail]
    exact ringSeg_cons q.ring waits v.room

theorem push (v : RxqView q ntc devTail devGen c p) (space : p + 1 - c < q.descCount)
    {compl : RxCompl} (stamped : compl.desc.gen = devGen) :
    RxqView { q with ring := Function.update q.ring devTail compl } ntc (bump q.descCount devTail)
        (turn q.descCount devTail devGen) c (p + 1) ∧
      ringSeg q.descCount (Function.update q.ring devTail compl) ntc (bump q.descCount devTail) =
        ringSeg q.descCount q.ring ntc devTail ++ [compl] := by
  obtain ⟨h, g⟩ := v.gens
  have next : bump q.descCount devTail = (p + 1) % q.descCount := by rw [v.tail, bump_mod g.pos]
  refine ⟨⟨⟨Function.update h p compl, ?_⟩, space, v.ntc, v.genChk, next, ?_⟩, ?_⟩
  · have slots : (fun i => (Function.update q.ring devTail compl i,
        (Function.update q.ring devTail compl i).desc.gen)) =
        Function.update (fun i => (q.ring i, (q.ring i).desc.gen)) (p % q.descCount)
          (compl, lapGen true (p / q.descCount)) := by
      funext i
      simp only [v.tail, Function.update_apply]
      split
      · rw [stamped, v.devGen]
      · rfl
    change GenRing q.descCount true _ _ _ _
    rw [slots]
    exact g.push (by omega) compl
  · rw [v.tail, v.devGen]
    exact turn_lapGen g.pos true p
  · rw [next, v.ntc, v.tail]
    exact ringSeg_push q.ring v.le space compl

end RxqView

/-- The buffer queue holds the descriptors `d` to `a` ever written, of which the tail
covers those up to `t`. What the driver compares with is the tail itself, or the tail still
is where it was when the vport was opened. -/
structure BufqView (q : RxBufq) (tail head nta : Nat) (d t a : Nat) : Prop where
  covered : d ≤ t
  written : t ≤ a
  room : a - d < q.descCount
  lap : q.descCount ≤ a + 1
  use : q.nextToUse = tail ∨ t + 1 = q.descCount
  head : head = d % q.descCount
  tail : tail = t % q.descCount
  nta : nta = a % q.descCount

namespace BufqView

variable {q : RxBufq} {tail head nta d t a : Nat}

theorem seg_length (v : BufqView q tail head nta d t a) :
    (ringSeg q.descCount q.ring head nta).length = a - d := by
  rw [v.head, v.nta, ringSeg_length q.ring (v.covered.trans v.written) v.room]

theorem fetch (v : BufqView q tail head nta d t a) (some : head ≠ tail) :
    BufqView q tail (bump q.descCount head) nta (d + 1) t a ∧
      ringSeg q.descCount q.ring head nta =
        q.ring head :: ringSeg q.descCount q.ring (bump q.descCount head) nta := by
  have room := v.room
  have covered := v.covered
  have written := v.written
  have ahead : d ≠ t := fun same => some (by rw [v.head, v.tail, same])
  have next : bump q.descCount head = (d + 1) % q.descCount := by rw [v.head, bump_mod (by omega)]
  refine ⟨⟨by omega, written, by omega, v.lap, v.use, next, v.tail, v.nta⟩, ?_⟩
  rw [next, v.head, v.nta]
  exact ringSeg_cons q.ring (by omega) room

theorem write (v : BufqView q tail head nta d t a) (space : a + 1 - d < q.descCount) (b : Nat) :
    BufqView { q with ring := Function.update q.ring nta b } tail head (bump q.descCount nta) d t
        (a + 1) ∧
      ringSeg q.descCount (Function.update q.ring nta b) head (bump q.descCount nta) =
        ringSeg q.descCount q.ring head nta ++ [b] := by
  have next : bump q.descCount nta = (a + 1) % q.descCount := by
    rw [v.nta, bump_mod (by omega)]
  refine ⟨⟨v.covered, Nat.le_succ_of_le v.written, space, Nat.le_succ_of_le v.lap, v.use,
    v.head, v.tail, next⟩, ?_⟩
  rw [next, v.head, v.nta]
  exact ringSeg_push q.ring (v.covered.trans v.written) space b

/-- Moving the tail up to a multiple of the stride stays within what is written. Once the
ring has been written to its end, that is no step back from where the tail was at first. -/
theorem post (v : BufqView q tail head nta d t a) (wrote : q.descCount ≤ a)
    (enough : rxRefillFilled q nta ≥ rxBufPostStride) :
    BufqView { q with nextToAlloc := nta, nextToUse := nta / rxBufPostStride * rxBufPostStride }
      (nta / rxBufPostStride * rxBufPostStride) head nta d (a - nta % rxBufPostStride) a := by
  have room := v.room
  have covered := v.covered
  have written := v.written
  have stride : rxBufPostStride = 16 := rfl
  rw [stride] at enough ⊢
  have pos : 0 < q.descCount := by omega
  have slot := v.nta
  have lap := Nat.mod_add_div a q.descCount
  have inside := Nat.mod_lt a pos
  have ahead : t ≤ a - nta % 16 := by
    rcases v.use with same | first
    · have filled := ringDist_mod written (n := q.descCount) (by omega)
      rw [← v.tail, ← v.nta, ← same] at filled
      unfold rxRefillFilled at enough
      unfold ringDist at filled
      split at filled <;> split at enough <;> omega
    · have once : q.descCount * 1 ≤ q.descCount * (a / q.descCount) :=
        Nat.mul_le_mul_left _ (Nat.div_pos wrote pos)
      omega
  refine ⟨by omega, by omega, room, v.lap, .inl rfl, v.head, ?_, v.nta⟩
  have split : a - nta % 16 = nta / 16 * 16 + q.descCount * (a / q.descCount) := by omega
  change nta / 16 * 16 = _
  rw [split, Nat.add_mul_mod_self_left, Nat.mod_eq_of_lt]
  omega

end BufqView

@[simp] theorem passView_descCount (pass : Option (Nat × RefillPass)) (j : Nat) (r : SwQueue) :
    (passView pass j r).descCount = r.descCount := by
  unfold passView
  split
  · split <;> rfl
  · rfl

theorem passView_post (pass : Option (Nat × RefillPass)) (j : Nat) (r : SwQueue) (b : Nat) :
    passView pass j (postBufRefill r b) = postBufRefill (passView pass j r) b := by
  unfold passView
  split
  · split <;> rfl
  · rfl

theorem RxGroup.waiting_eq {s : RxGroup} {k j : Nat} {free : List Nat}
    (f : RflFree (s.refillView k j) free) : s.waiting k j = free := by
  refine rflValid_eq f (f.length_le.trans_eq ?_)
  rw [RxGroup.refillView, passView_descCount]

/-- In how many places buffer `b` of buffer queue `k` is. -/
def RxGroup.places (s : RxGroup) (numRxq k b : Nat) : Nat :=
  (s.posted k).count b +
    ∑ j ∈ Finset.range numRxq, ((s.named j).count (k, b) + (s.waiting k j).count b)

/-- A step that concerns one completion queue keeps the number of places if it keeps
it among the posted buffers and those of that queue. -/
theorem RxGroup.places_move {s s' : RxGroup} {m j k b : Nat} (inside : j < m)
    (others : ∀ j', j' ≠ j → s'.named j' = s.named j' ∧ s'.waiting k j' = s.waiting k j')
    (balance : (s'.posted k).count b + (s'.named j).count (k, b) + (s'.waiting k j).count b =
      (s.posted k).count b + (s.named j).count (k, b) + (s.waiting k j).count b) :
    s'.places m k b = s.places m k b := by
  have moved := sum_range_move (f := fun j => (s.named j).count (k, b) + (s.waiting k j).count b)
    (g := fun j => (s'.named j).count (k, b) + (s'.waiting k j).count b) inside fun j' ne => by
      rw [(others j' ne).1, (others j' ne).2]
  unfold places
  omega

/-- Every buffer of every buffer queue is in exactly one place, and the queues are in
a state in which the driver and the device find what is there. -/
structure RxGroupInv (c : RxGroupCfg) (s : RxGroup) : Prop where
  rxqDesc : ∀ j < c.numRxq, (s.rxq j).descCount = c.rxqDesc
  rxq : ∀ j < c.numRxq, ∃ h p, RxqView (s.rxq j) (s.ntc j) (s.devTail j) (s.devGen j) h p
  bufqDesc : ∀ k < c.numBufq, (s.bufq k).descCount = c.bufqDesc k
  bufq : ∀ k < c.numBufq, ∃ d t a,
    BufqView (s.bufq k) (s.tail k) (s.devHead k) (s.nta k) d t a ∧
      ∀ j p, s.pass k = some (j, p) → p.cleaned ≠ 0 → (s.bufq k).descCount ≤ a
  refillDesc : ∀ k < c.numBufq, ∀ j < c.numRxq, (s.refillq k j).descCount = c.bufqDesc k
  refill : ∀ k < c.numBufq, ∀ j < c.numRxq, RflFree (s.refillView k j) (s.waiting k j)
  pass : ∀ k j p, s.pass k = some (j, p) → j < c.numRxq ∧
    (p.cleaned = 0 → p.ntc = (s.refillq k j).nextToClean ∧ p.bufqNta = (s.bufq k).nextToAlloc)
  named : ∀ j < c.numRxq, ∀ x ∈ s.named j, x.1 < c.numBufq
  places : ∀ k < c.numBufq, ∀ b,
    s.places c.numRxq k b = if b < c.bufqDesc k - 1 then 1 else 0
  logs : s.consumed = s.returned

namespace RxGroupInv

variable {c : RxGroupCfg} {s s' : RxGroup} {j k : Nat}

theorem place_le (v : RxGroupInv c s) (hj : j < c.numRxq) (hk : k < c.numBufq) (b : Nat) :
    (s.posted k).count b + ((s.named j).count (k, b) + (s.waiting k j).count b) ≤
      if b < c.bufqDesc k - 1 then 1 else 0 := by
  rw [← v.places k hk b]
  have one := Finset.single_le_sum
    (f := fun j => (s.named j).count (k, b) + (s.waiting k j).count b)
    (fun _ _ => Nat.zero_le _) (Finset.mem_range.mpr hj)
  exact Nat.add_le_add_left one _

theorem posted_room (v : RxGroupInv c s) (hj : j < c.numRxq) (hk : k < c.numBufq) {b : Nat}
    (waits : b ∈ s.waiting k j) : (s.posted k ++ [b]).length ≤ c.bufqDesc k - 1 := by
  apply length_le_of_count
  intro b'
  have le := v.place_le hj hk b'
  rw [List.count_append, List.count_singleton]
  split
  · next same =>
    have := List.count_pos_iff.mpr waits
    rw [beq_iff_eq] at same
    subst same
    omega
  · omega

theorem waiting_room (v : RxGroupInv c s) (hj : j < c.numRxq) (hk : k < c.numBufq) :
    (s.waiting k j).length ≤ c.bufqDesc k - 1 := by
  apply length_le_of_count
  intro b
  have := v.place_le hj hk b
  omega

theorem named_room (v : RxGroupInv c s) (fits : c.Fits) (hj : j < c.numRxq) {x : Nat × Nat}
    (hx : x.1 < c.numBufq) (held : x.2 ∈ s.posted x.1) :
    (s.named j ++ [x]).length < c.rxqDesc := by
  obtain ⟨k', b'⟩ := x
  have few : (s.named j ++ [(k', b')]).length ≤ ∑ k ∈ Finset.range c.numBufq, (c.bufqDesc k - 1) := by
    apply length_le_of_pair_count
    intro k b
    by_cases hk : k < c.numBufq
    · have le := v.place_le hj hk b
      rw [List.count_append, List.count_singleton]
      simp only [hk, true_and]
      split
      · next same =>
        obtain ⟨rfl, rfl⟩ := Prod.mk.inj (beq_iff_eq.mp same)
        have some : 0 < (s.posted k').count b' := List.count_pos_iff.mpr held
        omega
      · omega
    · have absent : (k, b) ∉ s.named j ++ [(k', b')] := by
        intro member
        rcases List.mem_append.mp member with old | new
        · exact hk (v.named j hj _ old)
        · obtain ⟨rfl, rfl⟩ := Prod.mk.inj (List.mem_singleton.mp new)
          exact hk hx
      rw [List.count_eq_zero.mpr absent]
      exact Nat.zero_le _
  have less : ∑ k ∈ Finset.range c.numBufq, (c.bufqDesc k - 1) <
      ∑ k ∈ Finset.range c.numBufq, c.bufqDesc k := by
    refine Finset.sum_lt_sum (fun k _ => Nat.sub_le _ _) ⟨k', Finset.mem_range.mpr hx, ?_⟩
    have := c.bufqPos k' hx
    omega
  unfold RxGroupCfg.Fits at fits
  omega

theorem fetch (v : RxGroupInv c s) (hk : k < c.numBufq)
    (some : s.devHead k ≠ s.tail k) : RxGroupInv c (s.stepFetch k) := by
  obtain ⟨d, t, a, view, wrote⟩ := v.bufq k hk
  obtain ⟨view', seg⟩ := view.fetch some
  have nta : (s.stepFetch k).nta = s.nta := rfl
  have bufq : (s.stepFetch k).bufq = s.bufq := rfl
  have head : (s.stepFetch k).devHead k = bump (s.bufq k).descCount (s.devHead k) :=
    Function.update_self ..
  have held : (s.stepFetch k).held k = s.held k ++ [(s.bufq k).ring (s.devHead k)] :=
    Function.update_self ..
  have posted : ∀ k' b, ((s.stepFetch k).posted k').count b = (s.posted k').count b := by
    intro k' b
    by_cases own : k' = k
    · subst own
      simp only [RxGroup.posted, nta, bufq, head, held, seg, List.count_append, List.count_cons,
        List.count_nil]
      omega
    · simp only [RxGroup.posted, nta, bufq]
      simp only [RxGroup.stepFetch, Function.update_of_ne own]
  refine ⟨v.rxqDesc, v.rxq, v.bufqDesc, fun k' hk' => ?_, v.refillDesc, v.refill, v.pass, v.named,
    fun k' hk' b => ?_, v.logs⟩
  · rw [nta, bufq]
    by_cases own : k' = k
    · subst own
      rw [head]
      exact ⟨d + 1, t, a, view', wrote⟩
    · simp only [RxGroup.stepFetch, Function.update_of_ne own]
      exact v.bufq k' hk'
  · rw [← v.places k' hk' b]
    exact congrArg (· + _) (posted k' b)

theorem complete (v : RxGroupInv c s) (fits : c.Fits) (hj : j < c.numRxq) {compl : RxCompl}
    (hk : compl.buf.1 < c.numBufq) (held : compl.buf.2 ∈ s.held compl.buf.1)
    (stamped : compl.desc.gen = s.devGen j) : RxGroupInv c (s.stepComplete j compl) := by
  obtain ⟨h, p, view⟩ := v.rxq j hj
  have few := v.named_room fits hj hk (List.mem_append_right _ held)
  have length : (s.named j).length = p - h := by
    rw [RxGroup.named, List.length_map, view.seg_length]
  have space : p + 1 - h < (s.rxq j).descCount := by
    rw [List.length_append, length] at few
    have := view.le
    rw [v.rxqDesc j hj]
    simp only [List.length_singleton] at few
    omega
  obtain ⟨view', seg⟩ := view.push space stamped
  have rxq : (s.stepComplete j compl).rxq j =
      { s.rxq j with ring := Function.update (s.rxq j).ring (s.devTail j) compl } :=
    Function.update_self ..
  have tail : (s.stepComplete j compl).devTail j = bump (s.rxq j).descCount (s.devTail j) :=
    Function.update_self ..
  have devGen : (s.stepComplete j compl).devGen j =
      General.turn (s.rxq j).descCount (s.devTail j) (s.devGen j) := Function.update_self ..
  have ntc : (s.stepComplete j compl).ntc j = s.ntc j := by
    unfold RxGroup.ntc
    rw [rxq]
    rfl
  have named : (s.stepComplete j compl).named j = s.named j ++ [compl.buf] := by
    simp only [RxGroup.named, ntc, rxq, tail, seg, List.map_append]
    rfl
  have others : ∀ j', j' ≠ j → (s.stepComplete j compl).named j' = s.named j' := by
    intro j' ne
    simp only [RxGroup.named, RxGroup.stepComplete, RxGroup.ntc, Function.update_of_ne ne]
  refine ⟨fun j' hj' => ?_, fun j' hj' => ?_, v.bufqDesc, v.bufq, v.refillDesc, v.refill, v.pass,
    fun j' hj' x member => ?_, fun k hk' b => ?_, v.logs⟩
  · by_cases own : j' = j
    · subst own
      rw [rxq]
      exact v.rxqDesc j' hj'
    · simp only [RxGroup.stepComplete, Function.update_of_ne own]
      exact v.rxqDesc j' hj'
  · by_cases own : j' = j
    · subst own
      rw [rxq, ntc, tail, devGen]
      exact ⟨h, p + 1, view'⟩
    · simp only [RxGroup.stepComplete, RxGroup.ntc, Function.update_of_ne own]
      exact v.rxq j' hj'
  · by_cases own : j' = j
    · subst own
      rw [named] at member
      rcases List.mem_append.mp member with old | new
      · exact v.named j' hj' x old
      · rw [List.mem_singleton.mp new]
        exact hk
    · rw [others j' own] at member
      exact v.named j' hj' x member
  · rw [← v.places k hk' b]
    refine RxGroup.places_move hj (fun j' ne => ⟨others j' ne, rfl⟩) ?_
    rw [named]
    have same : (s.stepComplete j compl).waiting k j = s.waiting k j := rfl
    rw [same]
    by_cases own : k = compl.buf.1
    · subst own
      have some := List.count_pos_iff.mpr held
      simp only [RxGroup.posted, RxGroup.stepComplete, RxGroup.nta, Function.update_self,
        List.count_append, List.count_erase, List.count_singleton, beq_iff_eq]
      by_cases it : compl.buf.2 = b
      · subst it
        simp only [Prod.eta, if_true]
        omega
      · have other : compl.buf ≠ (compl.buf.1, b) := fun eq => it (congrArg Prod.snd eq)
        simp only [if_neg it, if_neg other]
        omega
    · have other : compl.buf ≠ (k, b) := fun eq => own (congrArg Prod.fst eq).symm
      simp only [RxGroup.posted, RxGroup.stepComplete, RxGroup.nta, Function.update_of_ne own,
        List.count_append, List.count_singleton, beq_iff_eq, if_neg other]
      omega

/-- Neither the place nor the state of a completion queue depends on whether it is
being polled. -/
theorem poll_congr (v : RxGroupInv c s) {rxq : Nat → Rxq} {poll : Nat → Option RxPoll}
    (same : ∀ j, rxq j = { s.rxq j with nextToClean := (rxq j).nextToClean, skb := (rxq j).skb })
    (ntc : ({ s with rxq, poll } : RxGroup).ntc = s.ntc) : RxGroupInv c { s with rxq, poll } := by
  have descCount : ∀ j, (rxq j).descCount = (s.rxq j).descCount := fun j => by rw [same j]
  have ring : ∀ j, (rxq j).ring = (s.rxq j).ring := fun j => by rw [same j]
  have genChk : ∀ j, (rxq j).genChk = (s.rxq j).genChk := fun j => by rw [same j]
  have named : ({ s with rxq, poll } : RxGroup).named = s.named := by
    funext j
    simp only [RxGroup.named, ntc, descCount, ring]
  refine ⟨fun j hj => (descCount j).trans (v.rxqDesc j hj), fun j hj => ?_, v.bufqDesc, v.bufq,
    v.refillDesc, v.refill, v.pass, named ▸ v.named, fun k hk b => ?_, v.logs⟩
  · obtain ⟨h, p, view⟩ := v.rxq j hj
    refine ⟨h, p, ?_⟩
    rw [ntc]
    constructor
    · change ∃ h', GenRing (rxq j).descCount true _ h' h p
      rw [descCount, ring]
      exact view.gens
    · exact (descCount j).symm ▸ view.room
    · exact (descCount j).symm ▸ view.ntc
    · exact (genChk j).trans ((descCount j).symm ▸ view.genChk)
    · exact (descCount j).symm ▸ view.tail
    · exact (descCount j).symm ▸ view.devGen
  · rw [← v.places k hk b]
    unfold RxGroup.places
    rw [named]
    rfl

/-- What a turn does that consumes a completion and returns its buffer: queue `j`
moves on, and refill queue `k` of it gains the buffer. -/
structure Consumed (s s' : RxGroup) (j : Nat) (x : Nat × Nat) (ntc : Nat) (genChk : Bool) : Prop where
  rxq : s'.rxq = Function.update s.rxq j { s.rxq j with genChk }
  ntc : s'.ntc = Function.update s.ntc j ntc
  bufq : s'.bufq = s.bufq
  pass : s'.pass = s.pass
  tail : s'.tail = s.tail
  devHead : s'.devHead = s.devHead
  held : s'.held = s.held
  devTail : s'.devTail = s.devTail
  devGen : s'.devGen = s.devGen
  refill : s'.refillq x.1 j = postBufRefill (s.refillq x.1 j) (u16 x.2)
  others : ∀ k' j', k' ≠ x.1 ∨ j' ≠ j → s'.refillq k' j' = s.refillq k' j'
  logs : s.consumed = s.returned → s'.consumed = s'.returned

theorem stepTurn_consumed {p p' : RxPoll} {env : RxTurnEnv} {genChk : Bool}
    {deliver : Option RxSkb} {x : Nat × Nat}
    (next : rxTurn (c.rxq j) (s.rxq j) p env = .next p' genChk (some x) deliver)
    (named : ((s.rxq j).ring p.ntc).buf = x) :
    Consumed s (s.stepTurn c j p env) j x p'.ntc genChk := by
  simp only [RxGroup.stepTurn, next, named, RxGroup.postRefill]
  refine ⟨rfl, ?_, rfl, rfl, rfl, rfl, rfl, rfl, rfl, ?_, ?_, ?_⟩
  · funext j'
    unfold RxGroup.ntc
    by_cases own : j' = j
    · subst own
      simp only [Function.update_self]
    · simp only [Function.update_of_ne own]
  · simp only [Function.update_self]
  · rintro k' j' other
    by_cases own : k' = x.1
    · subst own
      have ne := other.resolve_left (fun ne => ne rfl)
      simp only [Function.update_self, Function.update_of_ne ne]
    · simp only [Function.update_of_ne own]
  · intro same
    simp only [same]

namespace Consumed

variable {x : Nat × Nat} {ntc : Nat} {genChk : Bool}

theorem nta (d : Consumed s s' j x ntc genChk) : s'.nta = s.nta := by
  funext k'
  simp only [RxGroup.nta, d.pass, d.bufq]

theorem posted (d : Consumed s s' j x ntc genChk) : s'.posted = s.posted := by
  funext k'
  simp only [RxGroup.posted, d.bufq, d.devHead, d.held, d.nta]

theorem named (d : Consumed s s' j x ntc genChk) :
    s'.named j = (ringSeg (s.rxq j).descCount (s.rxq j).ring ntc (s.devTail j)).map RxCompl.buf := by
  simp only [RxGroup.named, d.ntc, d.rxq, d.devTail, Function.update_self]

theorem named_other (d : Consumed s s' j x ntc genChk) {j' : Nat} (ne : j' ≠ j) :
    s'.named j' = s.named j' := by
  simp only [RxGroup.named, d.ntc, d.rxq, d.devTail, Function.update_of_ne ne]

theorem refillView (d : Consumed s s' j x ntc genChk) :
    s'.refillView x.1 j = postBufRefill (s.refillView x.1 j) (u16 x.2) := by
  rw [RxGroup.refillView, d.pass, d.refill, passView_post]
  rfl

theorem refillView_other (d : Consumed s s' j x ntc genChk) {k' j' : Nat}
    (other : k' ≠ x.1 ∨ j' ≠ j) : s'.refillView k' j' = s.refillView k' j' := by
  rw [RxGroup.refillView, d.pass, d.others k' j' other]
  rfl

theorem waiting_other (d : Consumed s s' j x ntc genChk) {k' j' : Nat}
    (other : k' ≠ x.1 ∨ j' ≠ j) : s'.waiting k' j' = s.waiting k' j' := by
  rw [RxGroup.waiting, d.refillView_other other, d.others k' j' other]
  rfl

end Consumed

/-- The completion's buffer moves from the ring to its refill queue. -/
theorem consume (v : RxGroupInv c s) (hj : j < c.numRxq) {ntc : Nat} {genChk : Bool}
    (ready : (s.rxq j).genChk = ((s.rxq j).ring (s.ntc j)).desc.gen)
    (moved : ntc = bump (s.rxq j).descCount (s.ntc j))
    (turned : genChk = General.turn (s.rxq j).descCount (s.ntc j) (s.rxq j).genChk)
    (d : Consumed s s' j ((s.rxq j).ring (s.ntc j)).buf ntc genChk) : RxGroupInv c s' := by
  obtain ⟨h, pos, view⟩ := v.rxq j hj
  obtain ⟨view', seg⟩ := view.pop ready
  rw [← turned, ← moved] at view'
  rw [← moved] at seg
  generalize hx : ((s.rxq j).ring (s.ntc j)).buf = x at d
  obtain ⟨k, b⟩ := x
  have before : s.named j = (k, b) :: s'.named j := by
    rw [d.named, RxGroup.named, seg, List.map_cons, hx]
  have hk : k < c.numBufq := v.named j hj (k, b) (before ▸ List.mem_cons_self)
  have small : u16 b = b := by
    have le := v.place_le hj hk b
    have := c.bufqMax k hk
    rw [before, List.count_cons_self] at le
    refine Nat.mod_eq_of_lt ?_
    split at le <;> omega
  have room : (s.waiting k j).length < (s.refillView k j).descCount := by
    have := v.waiting_room hj hk
    have := c.bufqPos k hk
    rw [RxGroup.refillView, passView_descCount, v.refillDesc k hk j hj]
    omega
  have refill : RflFree (s'.refillView k j) (s.waiting k j ++ [b]) := by
    rw [d.refillView, small]
    exact (v.refill k hk j hj).post room (small ▸ Nat.mod_lt _ (by decide))
  have waiting := RxGroup.waiting_eq refill
  refine ⟨fun j' hj' => ?_, fun j' hj' => ?_, d.bufq ▸ v.bufqDesc, ?_, fun k' hk' j' hj' => ?_,
    fun k' hk' j' hj' => ?_, fun k' j' p eq => ?_, fun j' hj' y member => ?_,
    fun k' hk' b' => ?_, d.logs v.logs⟩
  · rw [d.rxq]
    by_cases own : j' = j
    · subst own
      simpa only [Function.update_self] using v.rxqDesc j' hj'
    · simpa only [Function.update_of_ne own] using v.rxqDesc j' hj'
  · rw [d.rxq, d.ntc, d.devTail, d.devGen]
    by_cases own : j' = j
    · subst own
      simp only [Function.update_self]
      exact ⟨h + 1, pos, view'⟩
    · simp only [Function.update_of_ne own]
      exact v.rxq j' hj'
  · rw [d.bufq, d.tail, d.devHead, d.nta, d.pass]
    exact v.bufq
  · by_cases own : k' = k ∧ j' = j
    · obtain ⟨rfl, rfl⟩ := own
      rw [d.refill]
      exact v.refillDesc k' hk' j' hj'
    · rw [d.others k' j' (not_and_or.mp own)]
      exact v.refillDesc k' hk' j' hj'
  · by_cases own : k' = k ∧ j' = j
    · obtain ⟨rfl, rfl⟩ := own
      rw [waiting]
      exact refill
    · rw [d.refillView_other (not_and_or.mp own), d.waiting_other (not_and_or.mp own)]
      exact v.refill k' hk' j' hj'
  · rw [d.pass] at eq
    obtain ⟨inside, idle⟩ := v.pass k' j' p eq
    refine ⟨inside, fun zero => ?_⟩
    rw [d.bufq]
    by_cases own : k' = k ∧ j' = j
    · obtain ⟨rfl, rfl⟩ := own
      rw [d.refill]
      exact idle zero
    · rw [d.others k' j' (not_and_or.mp own)]
      exact idle zero
  · by_cases own : j' = j
    · subst own
      exact v.named j' hj' y (before ▸ List.mem_cons_of_mem _ member)
    · exact v.named j' hj' y (d.named_other own ▸ member)
  · rw [← v.places k' hk' b']
    refine RxGroup.places_move hj
      (fun j' ne => ⟨d.named_other ne, d.waiting_other (Or.inr ne)⟩) ?_
    rw [d.posted, before, List.count_cons]
    by_cases own : k' = k
    · subst own
      rw [waiting, List.count_append, List.count_singleton]
      by_cases it : b = b'
      · subst it
        simp only [beq_self_eq_true, if_true]
        omega
      · simp only [beq_iff_eq, Prod.mk.injEq, it, and_false, if_false]
        omega
    · have other : ¬ (k = k' ∧ b = b') := fun eq => own eq.1.symm
      rw [d.waiting_other (Or.inl own)]
      simp only [beq_iff_eq, Prod.mk.injEq, other, if_false]
      omega

theorem turn (v : RxGroupInv c s) (hj : j < c.numRxq) {p : RxPoll} {env : RxTurnEnv}
    (poll : s.poll j = some p) (ok : rxFormatOk s (.turn j env) = true) :
    RxGroupInv c (s.stepTurn c j p env) := by
  have at_ : s.ntc j = p.ntc := by rw [RxGroup.ntc, poll]
  cases result : rxTurn (c.rxq j) (s.rxq j) p env with
  | stop skb =>
      simp only [RxGroup.stepTurn, result]
      refine v.poll_congr (fun j' => ?_) ?_
      · by_cases own : j' = j
        · subst own
          simp only [Function.update_self, rxPollEnd]
        · simp only [Function.update_of_ne own]
      · funext j'
        unfold RxGroup.ntc
        by_cases own : j' = j
        · subst own
          simp only [Function.update_self, rxPollEnd, poll]
        · simp only [Function.update_of_ne own]
  | next p' genChk post deliver =>
      obtain ⟨budget, ready, moved, turned, posted⟩ := rxTurn_next result
      simp only [rxFormatOk, poll, Bool.or_eq_true, decide_eq_true_eq, bne_iff_ne, ne_eq,
        beq_iff_eq] at ok
      have good : ((s.rxq j).ring p.ntc).desc.rxdid = rxdid2FlexSplitq := by
        rcases ok with (spent | idle) | good
        · exact absurd spent (not_le.mpr budget)
        · exact absurd ready idle
        · exact good
      rw [posted, if_pos good] at result
      rw [← at_] at ready moved turned
      have consumed := stepTurn_consumed result rfl
      refine v.consume hj ready moved turned ?_
      rw [at_]
      exact consumed

theorem pollBegin (v : RxGroupInv c s) (idle : s.poll j = none) (budget : Nat) :
    RxGroupInv c { s with poll := Function.update s.poll j (some (rxPollBegin (s.rxq j) budget)) } := by
  refine v.poll_congr (fun _ => rfl) ?_
  funext j'
  unfold RxGroup.ntc
  by_cases own : j' = j
  · subst own
    simp only [Function.update_self, rxPollBegin, idle]
  · simp only [Function.update_of_ne own]

/-- Neither the buffers posted nor those waiting depend on whether a pass is under way. -/
theorem pass_congr (v : RxGroupInv c s)
    (desc : ∀ k j, (s'.refillq k j).descCount = (s.refillq k j).descCount)
    (view : s'.refillView = s.refillView) (nta : s'.nta = s.nta)
    (ring : ∀ k, (s'.bufq k).ring = (s.bufq k).ring)
    (bufqDesc : ∀ k, (s'.bufq k).descCount = (s.bufq k).descCount)
    (bufq : ∀ k < c.numBufq, ∃ d t a,
      BufqView (s'.bufq k) (s'.tail k) (s.devHead k) (s.nta k) d t a ∧
        ∀ j p, s'.pass k = some (j, p) → p.cleaned ≠ 0 → (s'.bufq k).descCount ≤ a)
    (pass : ∀ k j p, s'.pass k = some (j, p) → j < c.numRxq ∧ (p.cleaned = 0 →
      p.ntc = (s'.refillq k j).nextToClean ∧ p.bufqNta = (s'.bufq k).nextToAlloc))
    (rxq : s'.rxq = s.rxq) (poll : s'.poll = s.poll) (head : s'.devHead = s.devHead)
    (held : s'.held = s.held) (tail : s'.devTail = s.devTail) (gen : s'.devGen = s.devGen)
    (consumed : s'.consumed = s.consumed) (returned : s'.returned = s.returned) :
    RxGroupInv c s' := by
  have ntc : s'.ntc = s.ntc := by
    funext j
    simp only [RxGroup.ntc, poll, rxq]
  have named : s'.named = s.named := by
    funext j
    simp only [RxGroup.named, ntc, rxq, tail]
  have waiting : s'.waiting = s.waiting := by
    funext k j
    simp only [RxGroup.waiting, view, desc]
  have posted : s'.posted = s.posted := by
    funext k
    simp only [RxGroup.posted, bufqDesc, ring, head, nta, held]
  refine ⟨rxq ▸ v.rxqDesc, ?_, fun k hk => (bufqDesc k).trans (v.bufqDesc k hk), ?_,
    fun k hk j hj => (desc k j).trans (v.refillDesc k hk j hj), ?_, pass, named ▸ v.named, ?_, ?_⟩
  · rw [rxq, ntc, tail, gen]
    exact v.rxq
  · rw [head, nta]
    exact bufq
  · rw [view, waiting]
    exact v.refill
  · intro k hk b
    rw [← v.places k hk b, RxGroup.places, posted, named, waiting]
    rfl
  · rw [consumed, returned]
    exact v.logs

theorem refillBegin (v : RxGroupInv c s) (hj : j < c.numRxq) (idle : s.pass k = none) :
    RxGroupInv c { s with
      pass := Function.update s.pass k (some (j, rxRefillBegin (s.refillq k j) (s.bufq k))) } := by
  refine v.pass_congr (fun _ _ => rfl) ?_ ?_ (fun _ => rfl) (fun _ => rfl) (fun k' hk' => ?_) ?_
    rfl rfl rfl rfl rfl rfl rfl rfl
  · funext k' j'
    unfold RxGroup.refillView
    by_cases own : k' = k
    · subst own
      simp only [Function.update_self, idle, passView]
      split
      · next same => subst same; rfl
      · rfl
    · simp only [Function.update_of_ne own]
  · funext k'
    unfold RxGroup.nta
    by_cases own : k' = k
    · subst own
      simp only [Function.update_self, rxRefillBegin, idle]
    · simp only [Function.update_of_ne own]
  · obtain ⟨d, t, a, view, wrote⟩ := v.bufq k' hk'
    refine ⟨d, t, a, view, fun j' p eq some => ?_⟩
    by_cases own : k' = k
    · subst own
      simp only [Function.update_self, Option.some.injEq, Prod.mk.injEq] at eq
      exact absurd (congrArg RefillPass.cleaned eq.2).symm some
    · simp only [Function.update_of_ne own] at eq
      exact wrote j' p eq some
  · intro k' j' p eq
    by_cases own : k' = k
    · subst own
      simp only [Function.update_self, Option.some.injEq, Prod.mk.injEq] at eq
      obtain ⟨rfl, rfl⟩ := eq
      exact ⟨hj, fun _ => ⟨rfl, rfl⟩⟩
    · simp only [Function.update_of_ne own] at eq
      exact v.pass k' j' p eq

/-- The pass ends: what it took from the refill queue is settled, and the tail moves. -/
theorem refillStop (v : RxGroupInv c s) (hk : k < c.numBufq) {p : RefillPass} {ok : Bool}
    (pass : s.pass k = some (j, p))
    (stop : rxRefillTurn (s.refillq k j) (s.bufq k) p ok = none) :
    RxGroupInv c (s.stepRefill k j p ok) := by
  obtain ⟨hj, idle⟩ := v.pass k j p pass
  obtain ⟨d, t, a, view, wrote⟩ := v.bufq k hk
  have at_ : s.nta k = p.bufqNta := by rw [RxGroup.nta, pass]
  simp only [RxGroup.stepRefill, stop]
  have left : (rxRefillEnd (s.refillq k j) (s.bufq k) p).1 = p.view (s.refillq k j) := by
    by_cases zero : p.cleaned = 0
    · rw [rxRefillEnd_idle zero, RefillPass.view, (idle zero).1]
    · rw [rxRefillEnd_used zero]
  have alloc : (rxRefillEnd (s.refillq k j) (s.bufq k) p).2.nextToAlloc = p.bufqNta := by
    by_cases zero : p.cleaned = 0
    · rw [rxRefillEnd_idle zero, (idle zero).2]
    · rw [rxRefillEnd_used zero]
  generalize tails : (if p.cleaned ≠ 0 ∧ rxRefillFilled (s.bufq k) p.bufqNta ≥ rxBufPostStride then
    Function.update s.tail k (rxRefillEnd (s.refillq k j) (s.bufq k) p).2.nextToUse else s.tail) =
    tail
  have others : ∀ k', k' ≠ k → tail k' = s.tail k' := by
    intro k' ne
    rw [← tails]
    split
    · exact Function.update_of_ne ne _ _
    · rfl
  have same : (rxRefillEnd (s.refillq k j) (s.bufq k) p).2.ring = (s.bufq k).ring ∧
      (rxRefillEnd (s.refillq k j) (s.bufq k) p).2.descCount = (s.bufq k).descCount ∧
      ∃ t, BufqView (rxRefillEnd (s.refillq k j) (s.bufq k) p).2 (tail k) (s.devHead k) (s.nta k)
        d t a := by
    by_cases zero : p.cleaned = 0
    · rw [if_neg (fun both => both.1 zero)] at tails
      rw [rxRefillEnd_idle zero, ← tails]
      exact ⟨rfl, rfl, t, view⟩
    · rw [rxRefillEnd_used zero] at tails ⊢
      by_cases enough : rxRefillFilled (s.bufq k) p.bufqNta ≥ rxBufPostStride
      · rw [if_pos ⟨zero, enough⟩, if_pos enough] at tails
        rw [if_pos enough, ← tails, Function.update_self]
        rw [at_] at view ⊢
        exact ⟨rfl, rfl, _, view.post (wrote j p pass zero) enough⟩
      · rw [if_neg (fun both => enough both.2)] at tails
        rw [if_neg enough, ← tails]
        exact ⟨rfl, rfl, t, view.covered, view.written, view.room, view.lap, view.use, view.head,
          view.tail, view.nta⟩
  obtain ⟨ring, descCount, t', view'⟩ := same
  refine v.pass_congr (fun k' j' => ?_) ?_ ?_ (fun k' => ?_) (fun k' => ?_) (fun k' hk' => ?_) ?_
    rfl rfl rfl rfl rfl rfl rfl rfl
  · by_cases ownK : k' = k
    · subst ownK
      by_cases ownJ : j' = j
      · subst ownJ
        simp only [Function.update_self, left]
        rfl
      · simp only [Function.update_self, Function.update_of_ne ownJ]
    · simp only [Function.update_of_ne ownK]
  · funext k' j'
    unfold RxGroup.refillView
    by_cases ownK : k' = k
    · subst ownK
      by_cases ownJ : j' = j
      · subst ownJ
        simp only [Function.update_self, left, pass, passView, if_true]
      · simp only [Function.update_self, Function.update_of_ne ownJ, pass, passView,
          if_neg (Ne.symm ownJ)]
    · simp only [Function.update_of_ne ownK]
  · funext k'
    unfold RxGroup.nta
    by_cases own : k' = k
    · subst own
      simp only [Function.update_self, alloc, pass]
    · simp only [Function.update_of_ne own]
  · by_cases own : k' = k
    · subst own
      simp only [Function.update_self, ring]
    · simp only [Function.update_of_ne own]
  · by_cases own : k' = k
    · subst own
      simp only [Function.update_self, descCount]
    · simp only [Function.update_of_ne own]
  · by_cases own : k' = k
    · subst own
      simp only [Function.update_self]
      exact ⟨d, t', a, view', fun _ _ eq => absurd eq.symm (Option.some_ne_none _)⟩
    · simp only [Function.update_of_ne own, others k' own]
      exact v.bufq k' hk'
  · intro k' j' p' eq
    by_cases own : k' = k
    · subst own
      simp only [Function.update_self] at eq
      exact absurd eq.symm (Option.some_ne_none _)
    · simp only [Function.update_of_ne own] at eq ⊢
      exact v.pass k' j' p' eq

/-- What a turn of a pass does that moves a buffer: the pass goes on, buffer queue `k`
gains what refill queue `j` of it loses. -/
structure Refilled (s s' : RxGroup) (k j : Nat) (p : RefillPass) (r : SwQueue) (bufq : RxBufq) :
    Prop where
  bufq : s'.bufq = Function.update s.bufq k bufq
  pass : s'.pass = Function.update s.pass k (some (j, p))
  refill : s'.refillq k j = r
  others : ∀ k' j', k' ≠ k ∨ j' ≠ j → s'.refillq k' j' = s.refillq k' j'
  rxq : s'.rxq = s.rxq
  ntc : s'.ntc = s.ntc
  tail : s'.tail = s.tail
  devHead : s'.devHead = s.devHead
  held : s'.held = s.held
  devTail : s'.devTail = s.devTail
  devGen : s'.devGen = s.devGen
  logs : s.consumed = s.returned → s'.consumed = s'.returned

theorem stepRefill_refilled {p p' : RefillPass} {ok : Bool} {r : SwQueue} {bufq : RxBufq}
    (moved : rxRefillTurn (s.refillq k j) (s.bufq k) p ok = some (r, bufq, p')) :
    Refilled s (s.stepRefill k j p ok) k j p' r bufq := by
  simp only [RxGroup.stepRefill, moved]
  refine ⟨rfl, rfl, ?_, ?_, rfl, rfl, rfl, rfl, rfl, rfl, rfl, id⟩
  · simp only [Function.update_self]
  · rintro k' j' other
    by_cases own : k' = k
    · subst own
      have ne := other.resolve_left (fun ne => ne rfl)
      simp only [Function.update_self, Function.update_of_ne ne]
    · simp only [Function.update_of_ne own]

namespace Refilled

variable {p p' : RefillPass} {r : SwQueue} {bufq : RxBufq}

theorem named (d : Refilled s s' k j p' r bufq) : s'.named = s.named := by
  funext j'
  simp only [RxGroup.named, d.ntc, d.rxq, d.devTail]

theorem nta (d : Refilled s s' k j p' r bufq) :
    s'.nta = Function.update s.nta k p'.bufqNta := by
  funext k'
  unfold RxGroup.nta
  by_cases own : k' = k
  · subst own
    simp only [d.pass, Function.update_self]
  · simp only [d.pass, d.bufq, Function.update_of_ne own]

theorem refillView (d : Refilled s s' k j p' r bufq) : s'.refillView k j = p'.view r := by
  simp only [RxGroup.refillView, d.pass, d.refill, Function.update_self, passView, if_true]

theorem refillView_other (d : Refilled s s' k j p' r bufq) (pass : s.pass k = some (j, p))
    {k' j' : Nat} (other : k' ≠ k ∨ j' ≠ j) : s'.refillView k' j' = s.refillView k' j' := by
  rw [RxGroup.refillView, d.others k' j' other, RxGroup.refillView, d.pass]
  by_cases own : k' = k
  · subst own
    have ne := other.resolve_left (fun ne => ne rfl)
    simp only [Function.update_self, pass, passView, if_neg (Ne.symm ne)]
  · simp only [Function.update_of_ne own]

theorem waiting_other (d : Refilled s s' k j p' r bufq) (pass : s.pass k = some (j, p))
    {k' j' : Nat} (other : k' ≠ k ∨ j' ≠ j) : s'.waiting k' j' = s.waiting k' j' := by
  rw [RxGroup.waiting, d.refillView_other pass other, d.others k' j' other]
  rfl

theorem posted_other (d : Refilled s s' k j p' r bufq) {k' : Nat} (ne : k' ≠ k) :
    s'.posted k' = s.posted k' := by
  simp only [RxGroup.posted, d.nta, d.bufq, d.devHead, d.held, Function.update_of_ne ne]

/-- The refill queues after the move: the one that lost a buffer, and the others. -/
theorem refills (d : Refilled s s' k j p' r bufq) (v : RxGroupInv c s)
    (pass : s.pass k = some (j, p)) (desc : r.descCount = (s.refillq k j).descCount)
    {rest : List Nat} (left : RflFree (p'.view r) rest) (k' j' : Nat) (hk : k' < c.numBufq)
    (hj : j' < c.numRxq) : (s'.refillq k' j').descCount = c.bufqDesc k' ∧
      RflFree (s'.refillView k' j') (s'.waiting k' j') := by
  by_cases same : k' = k ∧ j' = j
  · obtain ⟨rfl, rfl⟩ := same
    have view : RflFree (s'.refillView k' j') rest := d.refillView ▸ left
    rw [d.refill, desc, RxGroup.waiting_eq view]
    exact ⟨v.refillDesc k' hk j' hj, view⟩
  · rw [d.others k' j' (not_and_or.mp same), d.refillView_other pass (not_and_or.mp same),
      d.waiting_other pass (not_and_or.mp same)]
    exact ⟨v.refillDesc k' hk j' hj, v.refill k' hk j' hj⟩

/-- The buffer queues after the move. -/
theorem bufqs (d : Refilled s s' k j p' r bufq) (v : RxGroupInv c s) {h t a : Nat}
    (desc : bufq.descCount = (s.bufq k).descCount) (lap : bufq.descCount ≤ a)
    (view : BufqView bufq (s.tail k) (s.devHead k) p'.bufqNta h t a) (k' : Nat)
    (hk : k' < c.numBufq) : (s'.bufq k').descCount = c.bufqDesc k' ∧
      ∃ h t a, BufqView (s'.bufq k') (s'.tail k') (s'.devHead k') (s'.nta k') h t a ∧
        ∀ j p, s'.pass k' = some (j, p) → p.cleaned ≠ 0 → (s'.bufq k').descCount ≤ a := by
  rw [d.bufq, d.tail, d.devHead, d.nta, d.pass]
  by_cases own : k' = k
  · subst own
    simp only [Function.update_self]
    exact ⟨desc.trans (v.bufqDesc k' hk), h, t, a, view, fun _ _ _ _ => lap⟩
  · simp only [Function.update_of_ne own]
    exact ⟨v.bufqDesc k' hk, v.bufq k' hk⟩

end Refilled

/-- A buffer moves from the refill queue into the ring of the buffer queue. -/
theorem refillMove (v : RxGroupInv c s) (hk : k < c.numBufq) {p p' : RefillPass} {ok : Bool}
    {r : SwQueue} {bufq : RxBufq} (pass : s.pass k = some (j, p))
    (moved : rxRefillTurn (s.refillq k j) (s.bufq k) p ok = some (r, bufq, p')) :
    RxGroupInv c (s.stepRefill k j p ok) := by
  obtain ⟨hj, -⟩ := v.pass k j p pass
  obtain ⟨h, t, a, view, -⟩ := v.bufq k hk
  have at_ : s.nta k = p.bufqNta := by rw [RxGroup.nta, pass]
  have viewed : s.refillView k j = p.view (s.refillq k j) := by
    simp only [RxGroup.refillView, pass, passView, if_true]
  obtain ⟨b, rest, taken, own, left, desc⟩ := (viewed ▸ v.refill k hk j hj).turn moved
  have posted := v.posted_room hj hk (b := b) (taken ▸ List.mem_cons_self)
  have space : a + 1 - h < (s.bufq k).descCount := by
    rw [RxGroup.posted, List.append_assoc, List.length_append, view.seg_length,
      List.length_append, List.length_singleton] at posted
    have := view.covered.trans view.written
    have := c.bufqPos k hk
    rw [v.bufqDesc k hk]
    omega
  obtain ⟨view', seg⟩ := view.write space b
  rw [at_] at view' seg
  have d := stepRefill_refilled moved
  generalize s.stepRefill k j p ok = s' at d
  simp only [rxRefillTurn, Option.ite_none_left_eq_some, Option.some.injEq, Prod.mk.injEq] at moved
  obtain ⟨-, -, -, -, written, next⟩ := moved
  rw [← own] at written
  have nta : p'.bufqNta = bump (s.bufq k).descCount p.bufqNta := by rw [← next]
  have refills := d.refills v pass desc left
  have bufqs := d.bufqs v (h := h) (t := t) (a := a + 1) (by rw [← written])
    (by rw [← written]; exact view.lap) (by rw [← written, nta]; exact view')
  have waiting : s'.waiting k j = rest := RxGroup.waiting_eq (d.refillView ▸ left)
  have gained : ∀ b', (s'.posted k).count b' = (s.posted k).count b' + [b].count b' := by
    intro b'
    simp only [RxGroup.posted, d.nta, d.bufq, d.devHead, d.held, Function.update_self, ← written,
      nta, seg, at_, List.count_append]
    omega
  refine ⟨d.rxq ▸ v.rxqDesc, ?_, fun _ hk' => (bufqs _ hk').1, fun _ hk' => (bufqs _ hk').2,
    fun _ hk' _ hj' => (refills _ _ hk' hj').1, fun _ hk' _ hj' => (refills _ _ hk' hj').2,
    fun k' j' p'' same => ?_, d.named ▸ v.named, fun k' hk' b' => ?_, d.logs v.logs⟩
  · rw [d.rxq, d.ntc, d.devTail, d.devGen]
    exact v.rxq
  · rw [d.pass] at same
    by_cases ownK : k' = k
    · subst ownK
      rw [Function.update_self] at same
      obtain ⟨rfl, rfl⟩ := Prod.mk.inj (Option.some.inj same)
      refine ⟨hj, fun zero => ?_⟩
      rw [← next] at zero
      exact absurd zero (Nat.succ_ne_zero _)
    · rw [Function.update_of_ne ownK] at same
      rw [d.bufq, Function.update_of_ne ownK, d.others k' j' (Or.inl ownK)]
      exact v.pass k' j' p'' same
  · rw [← v.places k' hk' b']
    refine RxGroup.places_move hj
      (fun j' ne => ⟨congrFun d.named j', d.waiting_other pass (Or.inr ne)⟩) ?_
    rw [d.named]
    by_cases ownK : k' = k
    · subst ownK
      rw [waiting, gained, taken]
      simp only [List.count_cons, List.count_nil]
      omega
    · rw [d.posted_other ownK, d.waiting_other pass (Or.inl ownK)]

theorem start (c : RxGroupCfg) : RxGroupInv c c.init := by
  have seg : ∀ k < c.numBufq, c.init.posted k = List.range (c.bufqDesc k - 1) := by
    intro k hk
    have pos := c.bufqPos k hk
    have dist : ringDist (c.bufqDesc k) 0 (c.bufqDesc k - 1) = c.bufqDesc k - 1 := by
      simp [ringDist]
    simp only [RxGroup.posted, RxGroup.nta, RxGroupCfg.init, rxPostInitBufs, ringSeg, dist,
      List.append_nil, Nat.zero_add]
    refine (List.map_congr_left fun i member => ?_).trans (List.map_id _)
    rw [List.mem_range] at member
    exact Nat.mod_eq_of_lt (by omega)
  have named : ∀ j, c.init.named j = [] := by
    intro j
    simp only [RxGroup.named, RxGroup.ntc, RxGroupCfg.init, ringSeg_self, List.map_nil]
  have refill : ∀ k < c.numBufq, ∀ j, RflFree (c.init.refillView k j) [] :=
    fun k hk _ => rxRflAlloc_free (c.bufqPos k hk)
  refine ⟨fun _ _ => rfl, fun j _ => ⟨2 * c.rxqDesc, 2 * c.rxqDesc, ?_⟩, fun _ _ => rfl,
    fun k hk => ⟨0, c.bufqDesc k - 1, c.bufqDesc k - 1, ?_,
      fun _ _ eq => absurd eq.symm (Option.some_ne_none _)⟩,
    fun _ _ _ _ => rfl,
    fun k hk j _ => ?_, fun _ _ _ pass => absurd pass.symm (Option.some_ne_none _),
    fun j _ x member => ?_, fun k hk b => ?_, rfl⟩
  · have pos := c.rxqPos
    have laps : 2 * c.rxqDesc / c.rxqDesc = 2 := Nat.mul_div_cancel _ pos
    refine ⟨⟨fun _ => .blank, pos, le_rfl, Nat.le_add_right _ _, ?_, ?_⟩, ?_, ?_, ?_, ?_, ?_⟩
    · change c.rxqDesc ≤ 2 * c.rxqDesc
      omega
    · intro i lt near
      have lap : i / c.rxqDesc = 1 := by
        change 2 * c.rxqDesc ≤ i + c.rxqDesc at near
        rw [Nat.div_eq_iff pos]
        omega
      change (RxCompl.blank, RxCompl.blank.desc.gen) = (RxCompl.blank, lapGen true (i / c.rxqDesc))
      rw [lap, RxCompl.blank_gen]
      rfl
    · rw [Nat.sub_self]
      exact pos
    · exact (Nat.mul_mod_left 2 _).symm
    · change true = lapGen true (2 * c.rxqDesc / c.rxqDesc)
      rw [laps]
      rfl
    · exact (Nat.mul_mod_left 2 _).symm
    · change true = lapGen true (2 * c.rxqDesc / c.rxqDesc)
      rw [laps]
      rfl
  · have pos := c.bufqPos k hk
    have slot : c.bufqDesc k - 1 = (c.bufqDesc k - 1) % c.bufqDesc k :=
      (Nat.mod_eq_of_lt (by omega)).symm
    refine ⟨Nat.zero_le _, le_rfl, ?_, ?_, .inr ?_, (Nat.zero_mod _).symm, slot, slot⟩
    · change c.bufqDesc k - 1 - 0 < c.bufqDesc k
      omega
    · change c.bufqDesc k ≤ c.bufqDesc k - 1 + 1
      omega
    · change c.bufqDesc k - 1 + 1 = c.bufqDesc k
      omega
  · rw [RxGroup.waiting_eq (refill k hk j)]
    exact refill k hk j
  · rw [named] at member
    exact absurd member List.not_mem_nil
  · have empty : ∀ j, (c.init.named j).count (k, b) + (c.init.waiting k j).count b = 0 := by
      intro j
      rw [named, RxGroup.waiting_eq (refill k hk j)]
      rfl
    rw [RxGroup.places, seg k hk, Finset.sum_eq_zero fun j _ => empty j, Nat.add_zero]
    by_cases inside : b < c.bufqDesc k - 1
    · rw [if_pos inside]
      exact List.count_eq_one_of_mem List.nodup_range (List.mem_range.mpr inside)
    · rw [if_neg inside]
      exact List.count_eq_zero.mpr (fun member => inside (List.mem_range.mp member))

theorem step (v : RxGroupInv c s) (fits : c.Fits) {op : RxOp} (ok : rxFormatOk s op = true)
    (taken : s.step c op = some s') : RxGroupInv c s' := by
  cases op with
  | fetch k =>
      simp only [RxGroup.step, Option.ite_none_right_eq_some, Option.some.injEq] at taken
      obtain ⟨⟨hk, some⟩, rfl⟩ := taken
      exact v.fetch hk some
  | complete j compl =>
      simp only [RxGroup.step, Option.ite_none_right_eq_some, Option.some.injEq] at taken
      obtain ⟨⟨hj, hk, held, stamped⟩, rfl⟩ := taken
      exact v.complete fits hj hk held stamped
  | pollBegin j budget =>
      simp only [RxGroup.step, Option.ite_none_right_eq_some, Option.some.injEq,
        Option.isNone_iff_eq_none] at taken
      obtain ⟨⟨-, idle⟩, rfl⟩ := taken
      exact v.pollBegin idle budget
  | turn j env =>
      simp only [RxGroup.step, Option.ite_none_right_eq_some, Option.map_eq_some_iff] at taken
      obtain ⟨hj, p, poll, rfl⟩ := taken
      exact v.turn hj poll ok
  | refillBegin k j =>
      simp only [RxGroup.step, Option.ite_none_right_eq_some, Option.some.injEq,
        Option.isNone_iff_eq_none] at taken
      obtain ⟨⟨-, hj, idle⟩, rfl⟩ := taken
      exact v.refillBegin hj idle
  | refillTurn k ok' =>
      simp only [RxGroup.step, Option.ite_none_right_eq_some, Option.map_eq_some_iff] at taken
      obtain ⟨hk, ⟨j, p⟩, pass, rfl⟩ := taken
      cases moved : rxRefillTurn (s.refillq k j) (s.bufq k) p ok' with
      | none => exact v.refillStop hk pass moved
      | some next =>
          obtain ⟨r, bufq, p'⟩ := next
          exact v.refillMove hk pass moved

end RxGroupInv

/-- In every run of a group with no more buffers than completion descriptors in which no
completion of an unexpected format is consumed, each completion consumed returns its buffer
once, and each buffer ID of the working set of a buffer queue is in exactly one place:
posted, named by a completion, or waiting. -/
theorem rx_buffer_ids_conserved {c : RxGroupCfg} {s : RxGroup} (fits : c.Fits)
    (run : Reachable (RxGroup.step c) (fun s op => rxFormatOk s op = true) (RxStart c) s) :
    s.consumed = s.returned ∧ ∀ k < c.numBufq, ∀ b,
      s.places c.numRxq k b = if b < c.bufqDesc k - 1 then 1 else 0 := by
  have v : RxGroupInv c s := run.invariant
    (fun s (start : s = c.init) => start ▸ RxGroupInv.start c)
    (fun _ _ _ v ok taken => v.step fits ok taken)
  exact ⟨v.logs, v.places⟩

theorem small_pos : 0 < 64 := by decide

/-- One completion queue of 64 descriptors on two buffer queues of 32. -/
def smallRxGroup : RxGroupCfg :=
  ⟨1, 2, 64, fun _ => 32, fun _ => {}, by decide, by decide, small_pos⟩

theorem smallRxGroup_fits : smallRxGroup.Fits := by
  unfold RxGroupCfg.Fits
  decide

/-- A packet of 60 octets in buffer 0, in a descriptor of format `rxdid`. -/
def smallCompl (rxdid : Nat) : RxCompl :=
  ⟨{ rxdidUcast := rxdid, pktlenGenBufqId := 16384 + 60, statusErr0Qw1 := 2 }, fun _ => 0,
    fun _ => 0⟩

/-- The buffer of a completion of format 1 is in no place once it is consumed. -/
theorem rx_buffer_id_lost :
    let run := exec (RxGroup.step smallRxGroup) smallRxGroup.init
      [.fetch 0, .complete 0 (smallCompl 1), .pollBegin 0 64, .turn 0 {}]
    ∃ s, run = some s ∧ s.consumed 0 = [(0, 0)] ∧ s.returned 0 = [] ∧
      s.places smallRxGroup.numRxq 0 0 = 0 := by
  intro run
  have seen : run.map (fun s => (s.consumed 0, s.returned 0, s.places smallRxGroup.numRxq 0 0)) =
      some ([(0, 0)], [], 0) := by decide +kernel
  obtain ⟨s, reached, eq⟩ := Option.map_eq_some_iff.mp seen
  simp only [Prod.mk.injEq] at eq
  exact ⟨s, reached, eq⟩

/-- The same packet in the expected format, and the pass that posts its buffer again. -/
theorem rx_buffer_ids_conserved_packet :
    let run := execIf (RxGroup.step smallRxGroup) rxFormatOk smallRxGroup.init
      [.fetch 0, .complete 0 (smallCompl 2), .pollBegin 0 64, .turn 0 {}, .refillBegin 0 0,
        .refillTurn 0 true]
    ∃ s, run = some s ∧ s.returned 0 = [(0, 0)] ∧ s.consumed = s.returned ∧
      s.places smallRxGroup.numRxq 0 0 = if 0 < smallRxGroup.bufqDesc 0 - 1 then 1 else 0 := by
  intro run
  have seen : run.map (fun s => s.returned 0) = some [(0, 0)] := by decide +kernel
  obtain ⟨s, reached, returned⟩ := Option.map_eq_some_iff.mp seen
  have started : RxStart smallRxGroup smallRxGroup.init := rfl
  obtain ⟨logs, places⟩ :=
    rx_buffer_ids_conserved smallRxGroup_fits (Reachable.execIf (.start started) reached)
  exact ⟨s, reached, returned, logs, places 0 (by decide) 0⟩

end Idpf
