import Idpf.Tx.Steps

/-! Why a full ring empties again. An RE completion is asked for whenever 64
descriptors have gone out since the last one was, so a queue that refuses a packet
of 32 has one pending. The argument needs `last_re` to name a packet the device
was given; a rollback does not put it back. -/
namespace Idpf
open General

theorem txSplitqNeedRe_iff {n i j : Nat} (_hi : i < n) (_hj : j < n) :
    txSplitqNeedRe n i j = true ↔ 64 ≤ ringDist n j i := by
  unfold txSplitqNeedRe ringDist txSplitqReMinGap
  dsimp only
  rw [decide_eq_true_iff]
  split <;> split <;> omega

def atMost32 (s : TxSystem) (t : Nat) (skb : Skb) (env : SendEnv) : Bool :=
  let q := s.grp.txqs t
  decide ((txNeeds q skb env).1 ≤ 32) &&
    match txSplitqAdmit q s.grp.pendingDiff s.grp.thresh skb env with
    | .accept skb tso => decide (ctxCount env skb tso + planDescs (framePlan q env skb).1 ≤ 32)
    | _ => true

/-- Runs of sends and of completions that leave `next_to_clean` to RE completions,
in which no rolled-back packet has asked for one. -/
def gapOk (s : TxSystem) : Event → Bool
  | .send t skb env => atMost32 s t skb env && !losesRe s t skb env
  | .xdp .. => false
  | .compl _ _ .reinject _ => false
  | _ => true

/-- `r` is where `last_re` points, `e` the descriptor that carries the last RE bit
and `c` where the ring was last cleaned to. -/
structure GapInv (q : TxQueue) (d : Dev) : Prop where
  large : 128 ≤ q.descCount
  flow : q.flowSchEn = true
  clean : q.nextToClean < q.descCount
  use : q.nextToUse = d.tail % q.descCount
  fetched : d.head ≤ d.tail
  gap : ∃ r, r ≤ d.tail + q.descCount ∧ d.tail + q.descCount ≤ r + 95 ∧
    q.lastRe = r % q.descCount ∧
    ((d.reqs = [] ∧ ∃ c, c ≤ d.tail ∧ r < c + q.descCount ∧
        q.nextToClean = c % q.descCount) ∨
      ∃ e, d.reqs.getLast? = some e ∧ r ≤ e + q.descCount ∧ e < d.tail ∧
        (q.ring (e % q.descCount)).carriesRe = true)

theorem GapInv.congr {q q' : TxQueue} {d d' : Dev} (v : GapInv q d) (same : SameRing q q')
    (dev : SameDevRing d d') : GapInv q' d' := by
  obtain ⟨large, flow, clean, use, fetched, gap⟩ := v
  constructor
  · rw [same.descCount]; exact large
  · rw [same.flowSchEn]; exact flow
  · rw [same.nextToClean, same.descCount]; exact clean
  · rw [same.nextToUse, same.descCount, dev.tail]; exact use
  · rw [dev.head, dev.tail]; exact fetched
  · rw [same.descCount, same.lastRe, same.nextToClean, same.ring, dev.tail, dev.reqs]
    exact gap

/-- Writing slots other than the pending RE descriptor's changes nothing. -/
theorem GapInv.ofRing {q q' : TxQueue} {d : Dev} (v : GapInv q d)
    (descCount : q'.descCount = q.descCount) (nextToUse : q'.nextToUse = q.nextToUse)
    (nextToClean : q'.nextToClean = q.nextToClean) (lastRe : q'.lastRe = q.lastRe)
    (flowSchEn : q'.flowSchEn = q.flowSchEn)
    (kept : ∀ e, e < d.tail → d.tail ≤ e + 95 →
      q'.ring (e % q.descCount) = q.ring (e % q.descCount)) : GapInv q' d := by
  obtain ⟨large, flow, clean, use, fetched, r, low, near, last, pending⟩ := v
  refine ⟨descCount ▸ large, flowSchEn.trans flow, ?_, ?_, fetched, r, ?_⟩
  · rw [nextToClean, descCount]; exact clean
  · rw [nextToUse, descCount]; exact use
  · rw [descCount, lastRe, nextToClean]
    refine ⟨low, near, last, ?_⟩
    rcases pending with done | ⟨e, lastReq, after, before, flag⟩
    · exact .inl done
    · exact .inr ⟨e, lastReq, after, before, by rw [kept e before (by omega)]; exact flag⟩

/-- Slots written from `tail` on do not reach a descriptor at most 95 behind it. -/
theorem slot_kept {n tail e len : Nat} {slots : List Nat} (large : 128 ≤ n)
    (before : e < tail) (near : tail ≤ e + 95) (few : len ≤ 32)
    (written : slots = (List.range len).map fun j => (tail % n + j) % n) : e % n ∉ slots := by
  rw [written]
  intro member
  obtain ⟨j, inside, same⟩ := List.mem_map.mp member
  have below := List.mem_range.mp inside
  simp only [Nat.mod_add_mod] at same
  exact mod_ne_of_near (show e < tail + j by omega) (by omega) same.symm

/-- A packet handed over: the gap is measured afresh if it carries the RE bit. -/
theorem GapInv.sent {q q' : TxQueue} {d : Dev} (v : GapInv q d) {ctx len : Nat} {re : Bool}
    (skbId : Nat) (mapped : List (Nat × DmaMap)) (inner : ctx < len) (few : len ≤ 32)
    (descCount : q'.descCount = q.descCount)
    (nextToUse : q'.nextToUse = (q.nextToUse + len) % q.descCount)
    (nextToClean : q'.nextToClean = q.nextToClean) (flowSchEn : q'.flowSchEn = q.flowSchEn)
    (asks : re = txSplitqNeedRe q.descCount ((q.nextToUse + ctx) % q.descCount) q.lastRe)
    (lastRe : q'.lastRe = if re then (q.nextToUse + ctx) % q.descCount else q.lastRe)
    (kept : ∀ e, e < d.tail → d.tail ≤ e + 95 →
      q'.ring (e % q.descCount) = q.ring (e % q.descCount))
    (flag : (q'.ring ((q.nextToUse + len - 1) % q.descCount)).carriesRe = re) :
    GapInv q' (d.accept skbId mapped len re) := by
  obtain ⟨large, flow, clean, use, fetched, r, low, near, last, pending⟩ := v
  have pos : 0 < q.descCount := by omega
  have place : ∀ k, (q.nextToUse + k) % q.descCount = (d.tail + k) % q.descCount := fun k => by
    rw [use, Nat.mod_add_mod]
  have behind : ∀ k, (d.tail + k) % q.descCount = (d.tail + k + q.descCount) % q.descCount :=
    fun k => (Nat.add_mod_right ..).symm
  have gap : txSplitqNeedRe q.descCount ((q.nextToUse + ctx) % q.descCount) q.lastRe = true ↔
      64 ≤ d.tail + ctx + q.descCount - r := by
    rw [txSplitqNeedRe_iff (Nat.mod_lt _ pos) (last ▸ Nat.mod_lt _ pos), place, behind, last,
      ringDist_mod (by omega) (by omega)]
  refine ⟨descCount ▸ large, flowSchEn.trans flow, ?_, ?_, ?_, ?_⟩
  · rw [nextToClean, descCount]; exact clean
  · rw [nextToUse, descCount, place]; rfl
  · exact Nat.le_add_right_of_le fetched
  · rw [descCount, nextToClean]
    cases re with
    | true =>
        refine ⟨d.tail + ctx + q.descCount, ?_, ?_, ?_, .inr ⟨d.tail + len - 1, ?_, ?_, ?_, ?_⟩⟩
        · simp only [Dev.accept]; omega
        · simp only [Dev.accept]; omega
        · rw [lastRe, if_pos rfl, place, behind]
        · simp [Dev.accept]
        · omega
        · simp only [Dev.accept]; omega
        · rw [Nat.add_sub_assoc (by omega), place, ← Nat.add_sub_assoc (by omega)] at flag
          exact flag
    | false =>
        have short : ¬ 64 ≤ d.tail + ctx + q.descCount - r := fun far => by
          rw [← gap, ← asks] at far
          cases far
        refine ⟨r, ?_, ?_, by rw [lastRe]; exact last, ?_⟩
        · simp only [Dev.accept]; omega
        · simp only [Dev.accept]; omega
        · rcases pending with ⟨none, c, done, after, at_⟩ | ⟨e, lastReq, after, before, flag'⟩
          · exact .inl ⟨by simpa [Dev.accept] using none, c, Nat.le_add_right_of_le done, after, at_⟩
          · refine .inr ⟨e, by simpa [Dev.accept] using lastReq, after,
              Nat.lt_add_right _ before, ?_⟩
            rw [kept e before (by omega)]
            exact flag'

theorem GapInv.send {s : TxSystem} {t : Nat} {skb : Skb} {env : SendEnv}
    (v : GapInv (s.grp.txqs t) (s.dev t)) (small : atMost32 s t skb env = true)
    (safe : losesRe s t skb env = false) :
    let r := txSplitqFrame (s.grp.txqs t) s.grp.pendingDiff s.grp.thresh s.nextSkb skb env
    GapInv r.q (if r.verdict = .sent then (s.dev t).accept s.nextSkb r.mapped r.slots.length r.re
      else s.dev t) := by
  have pos : 0 < (s.grp.txqs t).descCount := by have := v.large; omega
  have use : (s.grp.txqs t).nextToUse < (s.grp.txqs t).descCount := by
    rw [v.use]
    exact Nat.mod_lt _ pos
  by_cases accepted : ∃ skb' tso, txSplitqAdmit (s.grp.txqs t) s.grp.pendingDiff s.grp.thresh
      skb env = .accept skb' tso
  · obtain ⟨skb', tso, accepted⟩ := accepted
    simp only [atMost32, losesRe, accepted, Bool.and_eq_true, decide_eq_true_eq] at small safe
    have few := small.2
    intro r
    have kept : ∀ {slots : List Nat}, slots.length ≤ 32 →
        slots = (List.range slots.length).map
          (fun j => ((s.grp.txqs t).nextToUse + j) % (s.grp.txqs t).descCount) →
        ∀ e, e < (s.dev t).tail → (s.dev t).tail ≤ e + 95 →
          e % (s.grp.txqs t).descCount ∉ slots := by
      intro slots short written e before near
      rw [v.use] at written
      exact slot_kept v.large before near short written
    rcases frame_accepted use accepted s.nextSkb with ⟨dropped, -, -, -, -, ⟨ring, eq⟩, len, slots,
      frame⟩ | ⟨carried, some, ⟨rolled, plan, -, -, back⟩ | ⟨sent, plan, -, next, re, -⟩⟩
    · rw [if_neg (by rw [dropped]; decide)]
      have untouched := kept (by omega) slots
      refine v.ofRing ?_ ?_ ?_ ?_ ?_ fun e before near => frame _ (untouched e before near) <;>
        rw [eq] <;> rfl
    · rw [if_neg (by rw [rolled]; decide)]
      have untouched := kept (by have := carried.length; omega) carried.slots
      have quiet : r.re = false := by
        cases asked : r.re with
        | false => rfl
        | true =>
            rw [Option.isSome_iff_ne_none.mpr some, plan, ← carried.re, asked] at safe
            cases safe
      refine v.ofRing carried.same.descCount back carried.same.nextToClean ?_
        carried.same.flowSchEn fun e before near => carried.ring _ (untouched e before near)
      exact carried.lastRe.trans (by rw [show (txSplitqFrame _ _ _ _ _ _).re = _ from quiet]; rfl)
    · rw [if_pos sent]
      have untouched := kept (by have := carried.length; omega) carried.slots
      have some' : 0 < planDescs (framePlan (s.grp.txqs t) env skb').1 := by
        unfold framePlan at plan ⊢
        split at plan
        · cases plan
        · exact planDescs_pos plan
      have asks := carried.re
      have lastRe := carried.lastRe
      rw [asksRe, v.flow, Bool.true_and, rePos_eq use] at asks
      rw [rePos_eq use] at lastRe
      have len : r.slots.length = _ := carried.length
      exact v.sent _ _ (by omega) (by omega)
        carried.same.descCount next carried.same.nextToClean carried.same.flowSchEn asks lastRe
        (fun e before near => carried.ring _ (untouched e before near)) re
  · have refused : ∀ skb' tso, txSplitqAdmit (s.grp.txqs t) s.grp.pendingDiff s.grp.thresh
        skb env ≠ .accept skb' tso := fun skb' tso eq => accepted ⟨skb', tso, eq⟩
    obtain ⟨-, -, -, -, ⟨dropped, eq⟩ | ⟨busy, -, eq⟩⟩ := frame_refused refused s.nextSkb
    · simp only [dropped, reduceCtorEq, if_false, eq]
      exact v.congr ⟨rfl, rfl, rfl, rfl, rfl, rfl⟩ (SameDevRing.refl _)
    · simp only [busy, reduceCtorEq, if_false, eq]
      exact v.congr ⟨rfl, rfl, rfl, rfl, rfl, rfl⟩ (SameDevRing.refl _)

theorem GapInv.re {q q' : TxQueue} {d : Dev} (v : GapInv q d) {pos head : Nat} {rest : List Nat}
    (reqs : d.reqs = pos :: rest) (after : pos < head) (fetched : head ≤ d.head)
    (same : SameRing { q with nextToClean := head % q.descCount } q') :
    GapInv q' { d with reqs := rest, reported := head } := by
  obtain ⟨large, flow, clean, use, below, r, low, near, last, pending⟩ := v
  have bound := Nat.mod_lt head (show 0 < q.descCount by omega)
  refine ⟨same.descCount ▸ large, same.flowSchEn.trans flow, ?_, ?_, below, r, ?_⟩
  · rw [same.nextToClean, same.descCount]; exact bound
  · rw [same.nextToUse, same.descCount]; exact use
  · rw [same.descCount, same.lastRe, same.nextToClean, same.ring]
    refine ⟨low, near, last, ?_⟩
    rcases pending with ⟨none, -⟩ | ⟨e, lastReq, behind, before, flag⟩
    · rw [reqs] at none
      cases none
    · rw [reqs] at lastReq
      cases rest with
      | nil =>
          rw [List.getLast?_singleton] at lastReq
          obtain rfl := Option.some.inj lastReq
          have within : head ≤ d.tail := fetched.trans below
          have beyond : r < head + q.descCount := by omega
          exact .inl ⟨rfl, head, within, beyond, rfl⟩
      | cons pos' rest => exact .inr ⟨e, lastReq, behind, before, flag⟩

theorem GapInv.step {s s' : TxSystem} {e : Event} (v : ∀ t, GapInv (s.grp.txqs t) (s.dev t))
    (ok : gapOk s e = true) (taken : s.step e = some s') (t : Nat) :
    GapInv (s'.grp.txqs t) (s'.dev t) := by
  cases ring_step taken t with
  | idle same dev => exact (v t).congr same dev
  | send skb env r which run q d =>
      subst which run
      rw [q, d]
      simp only [gapOk, Bool.and_eq_true, Bool.not_eq_true'] at ok
      exact (v t).send ok.1 ok.2
  | xdp size dma r which =>
      subst which
      cases ok
  | fetch n which q d room =>
      rw [q, d]
      exact ⟨(v t).large, (v t).flow, (v t).clean, (v t).use, room, (v t).gap⟩
  | re pos head rest which reqs after order fetched same d =>
      rw [d]
      exact (v t).re reqs after fetched same
  | reinject i p env which =>
      subst which
      cases ok

theorem GapInv.start {s : TxSystem} (h : TxStart s) (t : Nat) :
    GapInv (s.grp.txqs t) (s.dev t) := by
  obtain ⟨c, rfl⟩ := h
  have large : 128 ≤ c.descCount := c.descMin
  have mod : (c.descCount - 64) % c.descCount = c.descCount - 64 := Nat.mod_eq_of_lt (by omega)
  refine ⟨large, rfl, by show 0 < c.descCount; omega, (Nat.zero_mod _).symm, le_rfl,
    c.descCount - 64, ?_, ?_, mod.symm, .inl ⟨rfl, 0, le_rfl, ?_, (Nat.zero_mod _).symm⟩⟩ <;>
    simp only [TxConfig.init, txQueueAlloc] <;> omega

/-- In every run without a rollback that loses an RE request, a queue too full for
a packet of at most 32 descriptors holds, between `next_to_clean` and
`next_to_use`, a descriptor with the RE bit whose completion is still to come. -/
theorem full_ring_has_re {s : TxSystem}
    (run : Reachable TxSystem.step (fun s e => gapOk s e = true) TxStart s)
    (t : Nat) (skb : Skb) (env : SendEnv) (small : (txNeeds (s.grp.txqs t) skb env).1 ≤ 32)
    (full : (s.grp.txqs t).descUnused < (txNeeds (s.grp.txqs t) skb env).1) :
    let q := s.grp.txqs t
    ∃ pos ∈ (s.dev t).reqs, (q.ring (pos % q.descCount)).carriesRe = true ∧
      ringDist q.descCount q.nextToClean (pos % q.descCount) <
        ringDist q.descCount q.nextToClean q.nextToUse := by
  have v := run.invariant (I := fun s => ∀ t, GapInv (s.grp.txqs t) (s.dev t))
    (fun _ h t => GapInv.start h t) (fun _ _ _ v ok taken => GapInv.step v ok taken) t
  obtain ⟨large, -, clean, use, -, r, low, near, -, pending⟩ := v
  intro q
  have pos : 0 < q.descCount := Nat.lt_of_lt_of_le (by decide) large
  have inside : q.nextToUse < q.descCount := by
    rw [use]
    exact Nat.mod_lt _ pos
  have room := descUnused_dist q clean inside
  have far : 96 ≤ ringDist q.descCount q.nextToClean q.nextToUse := by
    have : q.descUnused < 32 := Nat.lt_of_lt_of_le full small
    have : 128 ≤ q.descCount := large
    omega
  rcases pending with ⟨-, c, done, after, at_⟩ | ⟨e, lastReq, after, before, flag⟩
  · have short : ringDist q.descCount q.nextToClean q.nextToUse = (s.dev t).tail - c := by
      rw [use, at_]
      exact ringDist_mod done (by omega)
    omega
  · refine ⟨e, List.mem_of_getLast? lastReq, flag, ?_⟩
    have gap : ringDist q.descCount (e % q.descCount) q.nextToUse = (s.dev t).tail - e := by
      rw [use]
      exact ringDist_mod before.le (by omega)
    have slot := Nat.mod_lt e pos
    unfold ringDist at gap far ⊢
    split at gap <;> split at far <;> split <;> omega

/-- A ring of 128 that fills up without an RE bit: the only two packets that asked
for one were rolled back. -/
theorem full_ring_without_re :
    let c : TxConfig := ⟨1, 128, 256, 32, false, fun _ => false, by decide, by decide, by decide,
      by decide⟩
    let skb (k : Nat) : Skb := { headlen := 100, frags := List.replicate k 100 }
    let noDma : SendEnv := { dma := fun _ => none }
    let run := exec TxSystem.step c.init
      [.send 0 (skb 0) noDma, .send 0 (skb 17) {}, .send 0 (skb 17) {}, .send 0 (skb 17) {},
        .send 0 (skb 9) {}, .send 0 (skb 0) noDma, .send 0 (skb 17) {}, .send 0 (skb 17) {},
        .send 0 (skb 17) {}, .send 0 (skb 8) {}]
    ∃ s, run = some s ∧ (txNeeds (s.grp.txqs 0) (skb 0) {}).1 = 1 ∧
      (s.grp.txqs 0).descUnused = 0 ∧ (s.dev 0).reqs = [] ∧
      ∀ x < 128, ((s.grp.txqs 0).ring x).carriesRe = false := by
  intro c skb noDma run
  have seen : run.map (fun s => ((txNeeds (s.grp.txqs 0) (skb 0) {}).1,
      (s.grp.txqs 0).descUnused, (s.dev 0).reqs,
      (List.range 128).all fun x => !((s.grp.txqs 0).ring x).carriesRe)) =
      some (1, 0, [], true) := by decide +kernel
  obtain ⟨s, reached, eq⟩ := Option.map_eq_some_iff.mp seen
  simp only [Prod.mk.injEq, List.all_eq_true, List.mem_range, Bool.not_eq_true'] at eq
  exact ⟨s, reached, eq⟩

/-- Seven packets of 18 descriptors fill a ring of 128; the first carries the RE bit. -/
theorem full_ring_has_re_packets :
    let c : TxConfig := ⟨1, 128, 256, 32, false, fun _ => false, by decide, by decide, by decide,
      by decide⟩
    let skb : Skb := { headlen := 100, frags := List.replicate 17 100 }
    let run := execIf TxSystem.step gapOk c.init (List.replicate 7 (.send 0 skb {}))
    ∃ s, run = some s ∧ (s.grp.txqs 0).descUnused = 1 ∧
      let q := s.grp.txqs 0
      ∃ pos ∈ (s.dev 0).reqs, (q.ring (pos % q.descCount)).carriesRe = true ∧
        ringDist q.descCount q.nextToClean (pos % q.descCount) <
          ringDist q.descCount q.nextToClean q.nextToUse := by
  intro c skb run
  have seen : run.map (fun s => ((s.grp.txqs 0).descUnused,
      (txNeeds (s.grp.txqs 0) skb {}).1)) = some (1, 18) := by decide +kernel
  obtain ⟨s, reached, eq⟩ := Option.map_eq_some_iff.mp seen
  obtain ⟨unused, needed⟩ := Prod.mk.inj eq
  have started : TxStart c.init := ⟨c, rfl⟩
  have passed := Reachable.execIf (.start started) reached
  exact ⟨s, reached, unused, full_ring_has_re passed 0 skb {} (by omega) (by omega)⟩

end Idpf
