import Idpf.Tx.ReGap
import Idpf.Tx.ZeroCopy

/-! The RE bit in the last descriptor of a packet against the books that are kept of it: `last_re`
and the charge for the RE completion, for the three functions that put packets on a split queue. -/
namespace Idpf
open General

/-- A call of one of the three. -/
inductive ReCall where
  | frame (q : TxQueue) (pending thresh skbId : Nat) (skb : Skb) (env : SendEnv)
  | xdpq (q : TxQueue) (xdpf size : Nat) (dma : Option Nat)
  | zc (x : XskTxq) (budget : Nat)

/-- How many frames of a batch are put on the ring, and whether a buffer ID is missing for one. -/
def xskPlan (flow : Bool) : Nat → List XskDesc → SwQueue → Nat × Bool
  | 0, _, _ => (0, false)
  | _ + 1, [], _ => (0, false)
  | budget + 1, _ :: pool, r =>
    match nextRefill flow r with
    | none => (0, true)
    | some r' =>
      let rest := xskPlan flow budget pool r'
      (rest.1 + 1, rest.2)

theorem xskPlan_le (flow : Bool) (budget : Nat) (pool : List XskDesc) (r : SwQueue) :
    (xskPlan flow budget pool r).1 ≤ budget := by
  induction budget generalizing pool r with
  | zero => exact Nat.le_refl 0
  | succ budget ih =>
      cases pool with
      | nil => exact Nat.zero_le _
      | cons d pool =>
          unfold xskPlan
          cases nextRefill flow r with
          | none => exact Nat.zero_le _
          | some r' => exact Nat.succ_le_succ (ih pool r')

namespace ReCall

def before : ReCall → TxQueue
  | .frame q .. => q
  | .xdpq q .. => q
  | .zc x _ => x.q

def after : ReCall → TxQueue
  | .frame q pending thresh skbId skb env => (txSplitqFrame q pending thresh skbId skb env).q
  | .xdpq q xdpf size dma => (txXmitXdpq q xdpf size dma).q
  | .zc x budget => (xmitSplitqZc x budget).x.q

/-- How often the call has charged an RE completion; a packet that is sent is charged once more in
`idpf_tx_splitq_map`. -/
def charged : ReCall → Nat
  | .frame q pending thresh skbId skb env =>
    let r := txSplitqFrame q pending thresh skbId skb env
    r.charged - if r.verdict = .sent then 1 else 0
  | .xdpq q xdpf size dma => (txXmitXdpq q xdpf size dma).charged
  | .zc x budget => (xmitSplitqZc x budget).charged

/-- The packets that `next_to_use` has moved over, each with its slots. -/
def packets : ReCall → List (List Nat)
  | .frame q pending thresh skbId skb env =>
    let r := txSplitqFrame q pending thresh skbId skb env
    if r.verdict = .sent then [r.slots] else []
  | .xdpq q xdpf size dma =>
    if (txXmitXdpq q xdpf size dma).sent then [[q.nextToUse]] else []
  | .zc x budget =>
    (ringSlots x.q.descCount x.q.nextToUse (xmitSplitqZc x budget).sent.length).map fun i => [i]

/-- What the last descriptor of a packet says once the call is over. -/
def eopRe (c : ReCall) (slots : List Nat) : Bool :=
  (c.after.ring (slots.getLast?.getD 0)).carriesRe

/-- The indexes are within the ring. -/
structure Inside (c : ReCall) : Prop where
  use : c.before.nextToUse < c.before.descCount
  clean : c.before.nextToClean < c.before.descCount

/-- A packet has the RE bit if and only if `last_re` was moved to it and the completion charged, and
neither is done without such a packet. -/
structure Agrees (c : ReCall) : Prop where
  bit : ∀ p ∈ c.packets, c.eopRe p = true ↔
    c.after.lastRe ≠ c.before.lastRe ∧ c.after.lastRe ∈ p ∧ c.charged = 1
  books : c.after.lastRe ≠ c.before.lastRe ∨ c.charged ≠ 0 → ∃ p ∈ c.packets, c.eopRe p = true

/-- The calls that keep the books: no packet that asks for an RE completion is rolled back, no XDP
frame asks for one, and no batch that asks for one runs out of buffer IDs on its way. -/
def ok : ReCall → Bool
  | .frame q pending thresh _ skb env =>
    match txSplitqAdmit q pending thresh skb env with
    | .accept skb' tso =>
      !(asksRe q env skb' tso && (nextRefill q.flowSchEn q.refillq).isSome &&
        !(framePlan q env skb').2)
    | _ => true
  | .xdpq q _ _ dma => !(xdpFits q dma && xdpAsksRe q)
  | .zc x budget =>
    let plan := xskPlan x.q.flowSchEn (min budget x.q.descUnused) x.pool x.q.refillq
    !(txSplitqNeedRe x.q.descCount x.q.nextToUse x.q.lastRe && 0 < plan.1 && plan.2)

end ReCall

theorem ne_of_needRe {n i j : Nat} (need : txSplitqNeedRe n i j = true) : i ≠ j := by
  intro same
  unfold txSplitqNeedRe txSplitqReMinGap at need
  have gap := of_decide_eq_true need
  rw [same, Int.sub_self] at gap
  simp only [Int.lt_irrefl, if_false] at gap
  omega

namespace ReCall

theorem agrees_of_idle {c : ReCall} (none : c.packets = []) (lastRe : c.after.lastRe = c.before.lastRe)
    (charged : c.charged = 0) : c.Agrees := by
  constructor
  · intro p member
    rw [none] at member
    exact absurd member List.not_mem_nil
  · intro kept
    cases kept with
    | inl moved => exact absurd lastRe moved
    | inr some => exact absurd charged some

theorem not_agrees_of_charged {c : ReCall} (none : c.packets = []) (charged : c.charged ≠ 0) :
    ¬ c.Agrees := by
  intro agrees
  obtain ⟨p, member, -⟩ := agrees.books (.inr charged)
  rw [none] at member
  exact absurd member List.not_mem_nil

/-- One packet, with the bit where it is asked for. -/
theorem agrees_of_one {c : ReCall} {slots : List Nat} {re : Bool} {pos : Nat}
    (one : c.packets = [slots]) (bit : c.eopRe slots = re)
    (lastRe : c.after.lastRe = if re then pos else c.before.lastRe)
    (charged : c.charged = re.toNat) (moves : re = true → pos ≠ c.before.lastRe)
    (member : pos ∈ slots) : c.Agrees := by
  constructor
  · intro p here
    rw [one] at here
    obtain rfl := List.mem_singleton.mp here
    rw [bit, lastRe, charged]
    cases re with
    | true => exact ⟨fun _ => ⟨moves rfl, member, rfl⟩, fun _ => rfl⟩
    | false =>
        constructor
        · exact fun this => Bool.noConfusion this
        · exact fun ⟨moved, _⟩ => absurd rfl moved
  · intro kept
    rw [lastRe, charged] at kept
    rw [one]
    refine ⟨slots, List.mem_singleton_self slots, ?_⟩
    rw [bit]
    cases re with
    | true => rfl
    | false =>
        cases kept with
        | inl moved => exact absurd rfl moved
        | inr some => exact absurd rfl some

theorem getLast_ringSlots (n p : Nat) {k : Nat} (some : 0 < k) :
    (ringSlots n p k).getLast?.getD 0 = (p + k - 1) % n := by
  obtain ⟨k, rfl⟩ := Nat.exists_eq_succ_of_ne_zero some.ne'
  rw [Nat.succ_eq_add_one, ringSlots_snoc, List.getLast?_append, List.getLast?_singleton]
  rfl

section frame

variable {q : TxQueue} {pending thresh skbId : Nat} {skb : Skb} {env : SendEnv}

theorem frame_packets (other : (txSplitqFrame q pending thresh skbId skb env).verdict ≠ .sent) :
    (ReCall.frame q pending thresh skbId skb env).packets = [] := if_neg other

theorem frame_charged (other : (txSplitqFrame q pending thresh skbId skb env).verdict ≠ .sent) :
    (ReCall.frame q pending thresh skbId skb env).charged =
      (txSplitqFrame q pending thresh skbId skb env).charged := by
  change (txSplitqFrame q pending thresh skbId skb env).charged - _ = _
  rw [if_neg other, Nat.sub_zero]

/-- A packet that is accepted and then not sent: without an ID nothing is charged, after a rollback
what was charged stays. -/
theorem frame_unsent {r : FrameResult} (result : txSplitqFrame q pending thresh skbId skb env = r)
    (other : r.verdict ≠ .sent) {pos : Nat} (lastRe : r.q.lastRe = if r.re then pos else q.lastRe)
    (charged : r.charged = r.re.toNat) :
    (ReCall.frame q pending thresh skbId skb env).Agrees ↔ r.re = false := by
  subst result
  have none := frame_packets other
  have kept := (frame_charged other).trans charged
  cases re : (txSplitqFrame q pending thresh skbId skb env).re with
  | true =>
      have owed : (ReCall.frame q pending thresh skbId skb env).charged ≠ 0 := by
        rw [kept, re]
        exact Nat.one_ne_zero
      have never := not_agrees_of_charged none owed
      exact ⟨fun agrees => absurd agrees never, fun this => Bool.noConfusion this⟩
  | false =>
      rw [re, if_neg Bool.false_ne_true] at lastRe
      rw [re] at kept
      exact ⟨fun _ => rfl, fun _ => agrees_of_idle none lastRe kept⟩

/-- A packet that is sent. -/
theorem frame_sent {r : FrameResult} (result : txSplitqFrame q pending thresh skbId skb env = r)
    (verdict : r.verdict = .sent) {pos : Nat}
    (lastRe : r.q.lastRe = if r.re then pos else q.lastRe)
    (moves : r.re = true → pos ≠ q.lastRe) (charged : r.charged = r.re.toNat + 1)
    (slots : r.slots = ringSlots q.descCount q.nextToUse r.slots.length)
    (filled : 0 < r.slots.length)
    (bit : (r.q.ring ((q.nextToUse + r.slots.length - 1) % q.descCount)).carriesRe = r.re)
    (member : pos ∈ r.slots) : (ReCall.frame q pending thresh skbId skb env).Agrees := by
  subst result
  have one : (ReCall.frame q pending thresh skbId skb env).packets =
      [(txSplitqFrame q pending thresh skbId skb env).slots] := if_pos verdict
  apply agrees_of_one one _ lastRe _ moves member
  · unfold ReCall.eopRe
    rw [slots, getLast_ringSlots _ _ filled]
    exact bit
  · change (txSplitqFrame q pending thresh skbId skb env).charged - _ = _
    rw [if_pos verdict, charged, Nat.add_sub_cancel]

/-- The place at which the need for the bit is judged is one of the slots of the packet. -/
theorem rePos_mem (use : q.nextToUse < q.descCount) {tso : Tso}
    (whole : (framePlan q env skb).2 = true) {len : Nat}
    (length : len = ctxCount env skb tso + planDescs (framePlan q env skb).1) :
    rePos q env skb tso ∈ ringSlots q.descCount q.nextToUse len := by
  have some : 0 < planDescs (framePlan q env skb).1 := by
    unfold framePlan at whole ⊢
    split at whole
    · exact Bool.noConfusion whole
    · exact planDescs_pos whole
  rw [rePos_eq use]
  apply List.mem_map.mpr
  refine ⟨ctxCount env skb tso, ?_, rfl⟩
  rw [List.mem_range]
  omega

theorem frame_agrees_iff (inside : (ReCall.frame q pending thresh skbId skb env).Inside) :
    (ReCall.frame q pending thresh skbId skb env).Agrees ↔
      (ReCall.frame q pending thresh skbId skb env).ok = true := by
  have use : q.nextToUse < q.descCount := inside.use
  have refused (nothing : ∀ skb' tso, txSplitqAdmit q pending thresh skb env ≠ .accept skb' tso) :
      (ReCall.frame q pending thresh skbId skb env).Agrees := by
    obtain ⟨-, charged, -, -, ⟨verdict, after⟩ | ⟨verdict, -, after⟩⟩ :=
      frame_refused nothing skbId
    · have other : (txSplitqFrame q pending thresh skbId skb env).verdict ≠ .sent :=
        verdict ▸ fun same => Verdict.noConfusion same
      exact agrees_of_idle (frame_packets other) (congrArg TxQueue.lastRe after :)
        ((frame_charged other).trans charged)
    · have other : (txSplitqFrame q pending thresh skbId skb env).verdict ≠ .sent :=
        verdict ▸ fun same => Verdict.noConfusion same
      exact agrees_of_idle (frame_packets other) (congrArg TxQueue.lastRe after :)
        ((frame_charged other).trans charged)
  unfold ReCall.ok
  dsimp only
  cases admission : txSplitqAdmit q pending thresh skb env with
  | drop => exact iff_of_true (refused fun _ _ other => by rw [admission] at other; cases other) rfl
  | busy => exact iff_of_true (refused fun _ _ other => by rw [admission] at other; cases other) rfl
  | accept skb' tso =>
      dsimp only
      obtain ⟨verdict, spent, charged, -, re, ⟨ring, after⟩, -⟩ | ⟨carried, more, done⟩ :=
        frame_accepted use admission skbId
      · have other : (txSplitqFrame q pending thresh skbId skb env).verdict ≠ .sent :=
          verdict ▸ fun same => Verdict.noConfusion same
        rw [spent]
        apply iff_of_true
        · exact agrees_of_idle (frame_packets other) (congrArg TxQueue.lastRe after :)
            ((frame_charged other).trans charged)
        · simp only [Option.isSome_none, Bool.and_false, Bool.false_and, Bool.not_false]
      · rw [Option.isSome_iff_ne_none.mpr more, Bool.and_true, ← carried.re]
        obtain ⟨verdict, cut, charged, -, -⟩ | ⟨verdict, whole, charged, -, bit, filled⟩ := done
        · have other : (txSplitqFrame q pending thresh skbId skb env).verdict ≠ .sent :=
            verdict ▸ fun same => Verdict.noConfusion same
          rw [cut, Bool.not_false, Bool.and_true, Bool.not_eq_true']
          exact frame_unsent rfl other carried.lastRe charged
        · rw [whole, Bool.not_true, Bool.and_false]
          apply iff_of_true
          · apply frame_sent rfl verdict carried.lastRe _ charged carried.slots filled bit
            · rw [carried.slots]
              exact rePos_mem use whole carried.length
            · intro re
              rw [carried.re] at re
              exact ne_of_needRe (Bool.and_eq_true_iff.mp re).2
          · rfl

end frame

section xdpq

variable {q : TxQueue} {xdpf size : Nat} {dma : Option Nat}

theorem txXmitXdpq_books (xdpf size : Nat) (fits : xdpFits q dma = true) :
    (txXmitXdpq q xdpf size dma).q.lastRe = (if xdpAsksRe q then q.nextToUse else q.lastRe) ∧
      ((txXmitXdpq q xdpf size dma).q.ring q.nextToUse).carriesRe = false := by
  unfold xdpFits at fits
  cases dma with
  | none => exact Bool.noConfusion fits
  | some addr =>
      simp only [Option.isSome_some, Bool.true_and, Bool.and_eq_true, bne_iff_ne] at fits
      obtain ⟨room, more⟩ := fits
      have room' : { q with
        mem := { q.mem with nextMap := q.mem.nextMap + 1 } }.descUnused ≠ 0 := room
      have refill := nextBufId_refill
        { q with mem := { q.mem with nextMap := q.mem.nextMap + 1 } } q.nextToUse
      unfold txXmitXdpq
      dsimp only
      rw [if_neg room']
      cases got : nextBufId
          { q with mem := { q.mem with nextMap := q.mem.nextMap + 1 } } q.nextToUse with
      | none =>
          rw [got] at refill
          have spent : nextRefill q.flowSchEn q.refillq = none := refill.symm
          rw [spent] at more
          exact Bool.noConfusion more
      | some r =>
          constructor
          · rfl
          · change (Function.update q.ring q.nextToUse _ q.nextToUse).carriesRe = false
            rw [Function.update_self]
            rfl

theorem xdpq_agrees_iff :
    (ReCall.xdpq q xdpf size dma).Agrees ↔ (ReCall.xdpq q xdpf size dma).ok = true := by
  unfold ReCall.ok
  dsimp only
  obtain ⟨fits, sent, charged, only⟩ | ⟨fits, sent, charged, -⟩ :=
    txXmitXdpq_cases q xdpf size dma
  · have none : (ReCall.xdpq q xdpf size dma).packets = [] :=
      if_neg (sent ▸ Bool.false_ne_true)
    rw [fits, Bool.false_and]
    exact iff_of_true (agrees_of_idle none only.lastRe charged) rfl
  · obtain ⟨lastRe, bit⟩ := txXmitXdpq_books xdpf size fits
    have one : (ReCall.xdpq q xdpf size dma).packets = [[q.nextToUse]] := if_pos sent
    rw [fits, Bool.true_and]
    cases asks : xdpAsksRe q with
    | false =>
        rw [asks] at charged lastRe
        apply iff_of_true
        · exact agrees_of_one one bit lastRe charged (fun this => Bool.noConfusion this)
            (List.mem_singleton_self _)
        · rfl
    | true =>
        constructor
        · intro agrees
          have owed : (ReCall.xdpq q xdpf size dma).charged ≠ 0 := by
            have one : (ReCall.xdpq q xdpf size dma).charged = 1 := by
              rw [asks] at charged
              exact charged
            rw [one]
            exact Nat.one_ne_zero
          obtain ⟨p, member, carries⟩ := agrees.books (.inr owed)
          rw [one] at member
          obtain rfl := List.mem_singleton.mp member
          exact Bool.noConfusion (bit.symm.trans carries)
        · exact fun this => Bool.noConfusion this

end xdpq

section zc

/-- A batch after some frames: the first one alone may have the bit. -/
structure BatchBooks (q : TxQueue) (s : XskBatch) : Prop where
  count : s.q.descCount = q.descCount
  use : s.q.nextToUse = q.nextToUse
  place : s.ntu = (q.nextToUse + s.sent.length) % q.descCount
  bit : ∀ i < s.sent.length, (s.q.ring ((q.nextToUse + i) % q.descCount)).carriesRe =
    (txSplitqNeedRe q.descCount q.nextToUse q.lastRe && i = 0)
  lastRe : s.q.lastRe =
    if (txSplitqNeedRe q.descCount q.nextToUse q.lastRe && 0 < s.sent.length) then q.nextToUse
    else q.lastRe
  charged : s.charged =
    (txSplitqNeedRe q.descCount q.nextToUse q.lastRe && 0 < s.sent.length).toNat

theorem not_needRe (n i : Nat) : txSplitqNeedRe n i i = false := by
  apply Bool.eq_false_iff.mpr
  intro need
  exact ne_of_needRe need rfl

variable {q : TxQueue} {s : XskBatch} {d : XskDesc} {pool : List XskDesc} {buf : Nat}
  {q' : TxQueue} {x : XskTxq} {budget : Nat}

theorem BatchBooks.need (books : BatchBooks q s) :
    txSplitqNeedRe q.descCount q.nextToUse s.q.lastRe =
      (txSplitqNeedRe q.descCount q.nextToUse q.lastRe && s.sent.length = 0) := by
  rw [books.lastRe]
  cases need : txSplitqNeedRe q.descCount q.nextToUse q.lastRe with
  | false =>
      rw [Bool.false_and, Bool.false_and, if_neg Bool.false_ne_true]
      exact need
  | true =>
      rw [Bool.true_and, Bool.true_and]
      by_cases first : s.sent.length = 0
      · rw [first, if_neg (by decide)]
        exact need
      · rw [if_pos (decide_eq_true (Nat.pos_of_ne_zero first)), not_needRe]
        exact (decide_eq_false first).symm

theorem OnlyBufs.nextToUse {q q' : TxQueue} (only : q.OnlyBufs q') :
    q'.nextToUse = q.nextToUse := by
  rw [show q' = _ from only]

theorem BatchBooks.put (books : BatchBooks q s) (pos : 0 < q.descCount)
    (got : nextBufId s.q s.ntu = some (buf, q')) (room : s.sent.length < q.descCount) :
    BatchBooks q (xskPut s d pool buf q') := by
  have only := nextBufId_onlyBufs got
  have count : q'.descCount = q.descCount := only.descCount.trans books.count
  have use : q'.nextToUse = q.nextToUse := (OnlyBufs.nextToUse only).trans books.use
  have need : txSplitqNeedRe q'.descCount q'.nextToUse q'.lastRe =
      (txSplitqNeedRe q.descCount q.nextToUse q.lastRe && s.sent.length = 0) := by
    rw [count, use, only.lastRe]
    exact books.need
  have length : (xskPut s d pool buf q').sent.length = s.sent.length + 1 := by
    change (s.sent ++ [buf]).length = _
    rw [List.length_append]
    rfl
  constructor
  · exact count
  · exact use
  · change bump q'.descCount s.ntu = _
    rw [count, books.place, bump_mod pos, length]
    rfl
  · intro i low
    rw [length] at low
    change (Function.update q'.ring s.ntu _ _).carriesRe = _
    rw [books.place]
    by_cases last : i = s.sent.length
    · rw [last, Function.update_self]
      exact need
    · rw [Function.update_of_ne, only.ring]
      · exact books.bit i (by omega)
      · exact mod_ne_of_near (by omega) (by omega)
  · show (if txSplitqNeedRe q'.descCount q'.nextToUse q'.lastRe then q'.nextToUse else q'.lastRe) = _
    rw [need, use, only.lastRe, books.lastRe, length]
    cases txSplitqNeedRe q.descCount q.nextToUse q.lastRe with
    | false => rfl
    | true =>
        simp only [Bool.true_and, decide_eq_true_eq, Nat.zero_lt_succ, if_true]
        split
        · rfl
        next more => rw [if_pos (Nat.pos_of_ne_zero more)]
  · change s.charged + (txSplitqNeedRe q'.descCount q'.nextToUse q'.lastRe).toNat = _
    rw [need, books.charged, length]
    cases txSplitqNeedRe q.descCount q.nextToUse q.lastRe with
    | false => rfl
    | true =>
        simp only [Bool.true_and, Nat.zero_lt_succ, decide_true, Bool.toNat_true]
        by_cases first : s.sent.length = 0
        · rw [first]
          rfl
        · rw [decide_eq_false first, decide_eq_true (Nat.pos_of_ne_zero first)]
          rfl

/-- The loop keeps the books and does what is planned. -/
theorem BatchBooks.turns {k : Nat} (books : BatchBooks q s) (pos : 0 < q.descCount)
    (room : s.sent.length + k ≤ q.descCount) :
    BatchBooks q (xskTurns k s).1 ∧
      (xskTurns k s).1.sent.length =
        s.sent.length + (xskPlan s.q.flowSchEn k s.pool s.q.refillq).1 ∧
      ((xskTurns k s).2 = .noBuf ↔ (xskPlan s.q.flowSchEn k s.pool s.q.refillq).2 = true) := by
  induction k generalizing s with
  | zero => exact ⟨books, rfl, fun this => XskEnd.noConfusion this, fun this => Bool.noConfusion this⟩
  | succ k ih =>
      unfold xskTurns xskPlan
      cases more : s.pool with
      | nil => exact ⟨books, rfl, fun this => XskEnd.noConfusion this, fun this => Bool.noConfusion this⟩
      | cons d pool =>
          have refill := nextBufId_refill s.q s.ntu
          dsimp only
          cases got : nextBufId s.q s.ntu with
          | none =>
              rw [got] at refill
              have spent : nextRefill s.q.flowSchEn s.q.refillq = none := refill.symm
              rw [spent]
              exact ⟨⟨books.count, books.use, books.place, books.bit, books.lastRe, books.charged⟩,
                rfl, fun _ => rfl, fun _ => rfl⟩
          | some r =>
              rw [got] at refill
              have next : nextRefill s.q.flowSchEn s.q.refillq = some r.2.refillq := refill.symm
              rw [next]
              have put : BatchBooks q (xskPut s d pool r.1 r.2) := books.put pos got (by omega)
              have length : (xskPut s d pool r.1 r.2).sent.length = s.sent.length + 1 := by
                change (s.sent ++ [r.1]).length = _
                rw [List.length_append]
                rfl
              have flow : r.2.flowSchEn = s.q.flowSchEn := (nextBufId_onlyBufs got).same.flowSchEn
              obtain ⟨after, sent, ends⟩ := ih put (by omega)
              have plan : xskPlan (xskPut s d pool r.1 r.2).q.flowSchEn k
                  (xskPut s d pool r.1 r.2).pool (xskPut s d pool r.1 r.2).q.refillq =
                    xskPlan s.q.flowSchEn k pool r.2.refillq := by
                change xskPlan r.2.flowSchEn k pool r.2.refillq = _
                rw [flow]
              rw [plan] at sent ends
              refine ⟨after, ?_, ends⟩
              rw [sent, length]
              dsimp only
              omega

/-- A batch whose frames the tail covers keeps the books. -/
theorem zc_agrees_of_put (books : BatchBooks x.q s) (use : x.q.nextToUse < x.q.descCount)
    (room : s.sent.length ≤ x.q.descCount) (sent : (xmitSplitqZc x budget).sent = s.sent)
    (ring : (xmitSplitqZc x budget).x.q.ring = s.q.ring)
    (lastRe : (xmitSplitqZc x budget).x.q.lastRe = s.q.lastRe)
    (charged : (xmitSplitqZc x budget).charged = s.charged) : (ReCall.zc x budget).Agrees := by
  have packets : (ReCall.zc x budget).packets =
      (ringSlots x.q.descCount x.q.nextToUse s.sent.length).map fun i => [i] :=
    sent ▸ rfl
  have last : (ReCall.zc x budget).after.lastRe = _ := lastRe.trans books.lastRe
  have owed : (ReCall.zc x budget).charged = _ := charged.trans books.charged
  have bit : ∀ j < s.sent.length,
      (ReCall.zc x budget).eopRe [(x.q.nextToUse + j) % x.q.descCount] =
        (txSplitqNeedRe x.q.descCount x.q.nextToUse x.q.lastRe && j = 0) := by
    intro j low
    rw [← books.bit j low, ← ring]
    rfl
  cases need : txSplitqNeedRe x.q.descCount x.q.nextToUse x.q.lastRe with
  | false =>
      rw [need, Bool.false_and] at owed
      rw [need, Bool.false_and, if_neg Bool.false_ne_true] at last
      constructor
      · intro p member
        rw [packets] at member
        obtain ⟨i, slot, rfl⟩ := List.mem_map.mp member
        obtain ⟨j, low, rfl⟩ := List.mem_map.mp slot
        rw [bit j (List.mem_range.mp low), need, Bool.false_and]
        constructor
        · exact fun this => Bool.noConfusion this
        · exact fun ⟨moved, _⟩ => absurd last moved
      · intro kept
        cases kept with
        | inl moved => exact absurd last moved
        | inr some => exact absurd owed some
  | true =>
      rw [need, Bool.true_and] at owed last
      have moves := ne_of_needRe need
      constructor
      · intro p member
        rw [packets] at member
        obtain ⟨i, slot, rfl⟩ := List.mem_map.mp member
        obtain ⟨j, low, rfl⟩ := List.mem_map.mp slot
        have low := List.mem_range.mp low
        have filled : 0 < s.sent.length := by omega
        rw [if_pos (decide_eq_true filled)] at last
        rw [decide_eq_true filled] at owed
        rw [bit j low, need, Bool.true_and, decide_eq_true_eq, last]
        constructor
        · rintro rfl
          refine ⟨moves, ?_, owed⟩
          rw [Nat.add_zero, Nat.mod_eq_of_lt use]
          exact List.mem_singleton_self _
        · intro ⟨_, own, _⟩
          have own := List.mem_singleton.mp own
          by_contra later
          have near : x.q.nextToUse % x.q.descCount ≠ (x.q.nextToUse + j) % x.q.descCount :=
            mod_ne_of_near (by omega) (by omega)
          rw [Nat.mod_eq_of_lt use] at near
          exact near own
      · intro kept
        have filled : 0 < s.sent.length := by
          by_contra empty
          rw [decide_eq_false empty] at last owed
          cases kept with
          | inl moved => exact absurd last moved
          | inr some => exact absurd owed some
        refine ⟨[(x.q.nextToUse + 0) % x.q.descCount], ?_, ?_⟩
        · rw [packets]
          apply List.mem_map_of_mem
          exact List.mem_map_of_mem (List.mem_range.mpr filled)
        · rw [bit 0 filled, need]
          rfl

theorem zc_re_agrees_iff (inside : (ReCall.zc x budget).Inside) :
    (ReCall.zc x budget).Agrees ↔ (ReCall.zc x budget).ok = true := by
  have use : x.q.nextToUse < x.q.descCount := inside.use
  have unused := descUnused_dist x.q inside.clean use
  have start : BatchBooks x.q ⟨x.q, x.pool, x.q.nextToUse, [], 0⟩ := by
    constructor
    · rfl
    · rfl
    · exact (Nat.mod_eq_of_lt use).symm
    · intro i low
      exact absurd low (Nat.not_lt_zero i)
    · simp only [List.length_nil, Nat.lt_irrefl, decide_false, Bool.and_false,
        Bool.false_eq_true, if_false]
    · simp only [List.length_nil, Nat.lt_irrefl, decide_false, Bool.and_false, Bool.toNat_false]
  have room : ([] : List Nat).length + min budget x.q.descUnused ≤ x.q.descCount := by
    rw [List.length_nil]
    omega
  obtain ⟨books, length, ends⟩ := start.turns (Nat.zero_lt_of_lt use) room
  rw [List.length_nil, Nat.zero_add] at length
  have fits : (xskTurns (min budget x.q.descUnused)
      ⟨x.q, x.pool, x.q.nextToUse, [], 0⟩).1.sent.length ≤ x.q.descCount :=
    length.trans_le ((xskPlan_le _ _ _ _).trans (by omega))
  have fine (planned : (xskPlan x.q.flowSchEn (min budget x.q.descUnused) x.pool
      x.q.refillq).2 = false) : (ReCall.zc x budget).ok = true := by
    unfold ReCall.ok
    dsimp only
    rw [planned, Bool.and_false]
    rfl
  by_cases finish : (xskTurns (min budget x.q.descUnused)
      ⟨x.q, x.pool, x.q.nextToUse, [], 0⟩).2 = .noBuf
  · have result := xmitSplitqZc_short finish
    have none : (ReCall.zc x budget).packets = [] := by
      unfold ReCall.packets
      dsimp only
      rw [result]
      rfl
    have owed : (ReCall.zc x budget).charged = _ := (congrArg XskXmit.charged result).trans books.charged
    have last : (ReCall.zc x budget).after.lastRe = _ :=
      (congrArg (fun r => r.x.q.lastRe) result).trans books.lastRe
    unfold ReCall.ok
    dsimp only
    rw [ends.mp finish, Bool.and_true, ← length]
    cases asks : txSplitqNeedRe x.q.descCount x.q.nextToUse x.q.lastRe &&
        decide (0 < (xskTurns (min budget x.q.descUnused)
          ⟨x.q, x.pool, x.q.nextToUse, [], 0⟩).1.sent.length) with
    | true =>
        have owed : (ReCall.zc x budget).charged ≠ 0 := by
          rw [owed, asks]
          exact Nat.one_ne_zero
        have never := not_agrees_of_charged none owed
        exact ⟨fun agrees => absurd agrees never, fun this => Bool.noConfusion this⟩
    | false =>
        rw [asks] at owed
        rw [asks, if_neg Bool.false_ne_true] at last
        exact iff_of_true (agrees_of_idle none last owed) rfl
  · obtain ⟨done, result⟩ := xmitSplitqZc_put finish
    have planned := Bool.eq_false_iff.mpr fun short => finish (ends.mpr short)
    apply iff_of_true _ (fine planned)
    apply zc_agrees_of_put books use fits <;> rw [result]

end zc

end ReCall

/-- The bit and the books agree in exactly the calls that keep them. -/
theorem re_agrees_iff (c : ReCall) (inside : c.Inside) : c.Agrees ↔ c.ok = true := by
  cases c with
  | frame q pending thresh skbId skb env => exact ReCall.frame_agrees_iff inside
  | xdpq q xdpf size dma => exact ReCall.xdpq_agrees_iff
  | zc x budget => exact ReCall.zc_re_agrees_iff inside

/-- The first batch of a zero-copy queue: its first frame has the bit. -/
theorem re_agrees_first :
    let c : ReCall := .zc ⟨txQueueAlloc 128 65535 8 true, 0, [⟨4096, 60⟩, ⟨8192, 60⟩], 0, 0, []⟩ 8
    c.packets = [[0], [1]] ∧ c.eopRe [0] = true ∧ c.Agrees := by
  have seen : (fun c : ReCall => (c.packets, c.eopRe [0], c.ok))
      (.zc ⟨txQueueAlloc 128 65535 8 true, 0, [⟨4096, 60⟩, ⟨8192, 60⟩], 0, 0, []⟩ 8) =
        ([[0], [1]], true, true) := by
    decide +kernel
  have inside : ReCall.Inside
      (.zc ⟨txQueueAlloc 128 65535 8 true, 0, [⟨4096, 60⟩, ⟨8192, 60⟩], 0, 0, []⟩ 8) :=
    ⟨by decide, by decide⟩
  simp only [Prod.mk.injEq] at seen
  obtain ⟨packets, bit, fine⟩ := seen
  exact ⟨packets, bit, (re_agrees_iff _ inside).mpr fine⟩

/-- The first frame of an XDP queue is charged for a completion its descriptor does not ask for. -/
theorem xdpq_re_lost :
    ∃ c : ReCall, c.Inside ∧ c.packets = [[0]] ∧ c.after.lastRe = 0 ∧ c.before.lastRe = 64 ∧
      c.charged = 1 ∧ c.eopRe [0] = false ∧ ¬ c.Agrees := by
  have seen : (fun c : ReCall =>
      (c.packets, c.after.lastRe, c.before.lastRe, c.charged, c.eopRe [0]))
      (.xdpq (txQueueAlloc 128 65535 8 true) 1 60 (some 4096)) = ([[0]], 0, 64, 1, false) := by
    decide +kernel
  simp only [Prod.mk.injEq] at seen
  obtain ⟨packets, after, before, charged, bit⟩ := seen
  refine ⟨.xdpq (txQueueAlloc 128 65535 8 true) 1 60 (some 4096), ⟨by decide, by decide⟩, packets,
    after, before, charged, bit, ?_⟩
  intro agrees
  obtain ⟨p, member, carries⟩ := agrees.books (.inr (charged ▸ Nat.one_ne_zero))
  rw [packets] at member
  obtain rfl := List.mem_singleton.mp member
  exact Bool.noConfusion (bit.symm.trans carries)

end Idpf
