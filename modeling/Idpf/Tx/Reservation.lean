import Idpf.Tx.System
import Idpf.Tx.Frame

/-! Descriptors reserved against descriptors written. The room check counts one
descriptor for a linear part of any size, none for an empty one and none for a
timestamp; the map function may write more. What can make up for it is that a
fragment of 16K or more is counted by rounding up. -/
namespace Idpf
open General

/-- `idpf_tx_res_count_required` asks for the packet to be linearized. -/
def mustLinearize (txMaxBufs : Nat) (skb : Skb) : Bool :=
  skb.dataLen ≠ 0 && chkLinearize skb txMaxBufs
    ((if skb.headlen = 0 then 0 else 1) + (skb.frags.map fragTxdCount).sum)

def headTxds (txMaxBufs : Nat) (skb : Skb) : Nat :=
  if mustLinearize txMaxBufs skb then sizeToTxdCount skb.len
  else if skb.headlen = 0 then 0 else 1

def countedFrags (skb : Skb) : List Nat := if skb.dataLen = 0 then [] else skb.frags

def headDescs : List (Nat × Nat) → Nat
  | [] => 0
  | b :: _ => bufDescs b.1 b.2

/-- Descriptors counted for fragments and not written for them: what rounding up
gives away on fragments mapped, and all of those not mapped. -/
def fragSlack (bufs : List (Nat × Nat)) (frags : List Nat) : Nat :=
  (bufs.tail.map fun b => fragTxdCount b.2 - bufDescs b.1 b.2).sum +
    ((frags.drop (bufs.length - 1)).map fragTxdCount).sum

theorem bufDescs_le (addr size : Nat) : bufDescs addr size ≤ fragTxdCount size := by
  have wide : txMaxDescDataAligned ≤ firstMaxData addr := Nat.le_add_right ..
  unfold bufDescs fragTxdCount
  by_cases small : size ≤ txMaxDescData
  · rw [if_pos small, if_neg (by simp only [txMaxDescData] at small; omega)]
  · rw [if_neg small, if_pos (by simp only [txMaxDescData] at small; omega)]
    simp only [sizeToTxdCount, txMaxDescData, txMaxDescDataAligned] at wide small ⊢
    omega

theorem mapPlan_sizes (flow : Bool) (dma : Nat → Option Nat) (frags : List Nat) (k size : Nat)
    (r : SwQueue) :
    (mapPlan flow dma frags k size r).1.map Prod.snd =
      (size :: frags).take (mapPlan flow dma frags k size r).1.length := by
  induction frags generalizing k size r with
  | nil =>
      unfold mapPlan
      cases dma k <;> rfl
  | cons f fs ih =>
      unfold mapPlan
      cases dma k with
      | none => rfl
      | some addr =>
          dsimp only
          split
          · rfl
          · split
            · rfl
            · next r' _ => rw [List.map_cons, List.length_cons, List.take_succ_cons, ih]

theorem mapPlan_length (flow : Bool) (dma : Nat → Option Nat) {frags : List Nat}
    (empty : frags.sum = 0) (k size : Nat) (r : SwQueue) :
    (mapPlan flow dma frags k size r).1.length ≤ 1 := by
  unfold mapPlan
  cases dma k with
  | none => exact Nat.zero_le 1
  | some addr =>
      cases frags with
      | nil => exact le_rfl
      | cons f fs =>
          dsimp only
          rw [if_pos empty]
          exact le_rfl

theorem fragSlack_spec {bufs : List (Nat × Nat)} {size : Nat} {frags : List Nat}
    (sizes : bufs.map Prod.snd = (size :: frags).take bufs.length) :
    (frags.map fragTxdCount).sum + headDescs bufs = planDescs bufs + fragSlack bufs frags := by
  have counted : ∀ l : List (Nat × Nat), ((l.map Prod.snd).map fragTxdCount).sum =
      planDescs l + (l.map fun b => fragTxdCount b.2 - bufDescs b.1 b.2).sum := by
    intro l
    induction l with
    | nil => rfl
    | cons b l ih =>
        have := bufDescs_le b.1 b.2
        simp only [planDescs, List.map_cons, List.sum_cons] at ih ⊢
        omega
  cases bufs with
  | nil => simp [fragSlack, headDescs, planDescs]
  | cons b bufs =>
      simp only [List.map_cons, List.length_cons, List.take_succ_cons, List.cons.injEq] at sizes
      have split := List.take_append_drop bufs.length frags
      have mapped := counted bufs
      rw [sizes.2] at mapped
      rw [← split, List.map_append, List.sum_append, mapped, split]
      simp only [fragSlack, headDescs, planDescs, List.tail_cons, List.length_cons,
        Nat.add_sub_cancel, List.map_cons, List.sum_cons]
      omega

/-- The reservation, part by part. -/
theorem txResCountRequired_count {txMaxBufs : Nat} {linearize : Bool} {skb : Skb}
    (counted : (txResCountRequired txMaxBufs linearize skb).count ≠ 0) :
    (txResCountRequired txMaxBufs linearize skb).count = headTxds txMaxBufs skb +
      ((countedFrags (txResCountRequired txMaxBufs linearize skb).skb).map fragTxdCount).sum := by
  by_cases none : skb.dataLen = 0
  · simp [txResCountRequired, headTxds, mustLinearize, countedFrags, none]
  · cases wide : chkLinearize skb txMaxBufs
      ((if skb.headlen = 0 then 0 else 1) + (skb.frags.map fragTxdCount).sum) with
    | false => simp [txResCountRequired, headTxds, mustLinearize, countedFrags, none, wide]
    | true =>
        cases linearize with
        | false => simp [txResCountRequired, none, wide] at counted
        | true =>
            simp [txResCountRequired, headTxds, mustLinearize, countedFrags, none, wide,
              Skb.linearized]

theorem framePlan_sizes (q : TxQueue) (env : SendEnv) (skb : Skb) :
    (framePlan q env skb).1.map Prod.snd =
      (skb.headlen :: countedFrags skb).take (framePlan q env skb).1.length := by
  unfold framePlan
  split
  · rfl
  · next r _ =>
    have sizes := mapPlan_sizes q.flowSchEn env.dma skb.frags 0 skb.headlen r
    unfold countedFrags
    split
    · next none =>
      have one := mapPlan_length q.flowSchEn env.dma none 0 skb.headlen r
      rw [sizes]
      cases len : (mapPlan q.flowSchEn env.dma skb.frags 0 skb.headlen r).1.length with
      | zero => rfl
      | succ n =>
          obtain rfl : n = 0 := by omega
          rfl
    · exact sizes

/-- What the room check promised: no more descriptors than it counted, none of them
in a slot between `next_to_clean` and `next_to_use`, and the two never meeting. -/
structure WithinReservation (q : TxQueue) (needed : Nat) (r : FrameResult) : Prop where
  count : r.slots.length ≤ needed
  apart : ringDist q.descCount q.nextToClean q.nextToUse + r.slots.length < q.descCount
  free : ∀ x ∈ r.slots, ringDist q.descCount q.nextToClean q.nextToUse ≤
    ringDist q.descCount q.nextToClean x

/-- The timestamp descriptor and the descriptors of the linear part fit in what
was counted for the linear part and what the fragments leave over. -/
def SendFits (q : TxQueue) (env : SendEnv) (skb skb' : Skb) (tso : Tso) : Prop :=
  (txTstamp env.latch skb' tso).isSome.toNat + headDescs (framePlan q env skb').1 ≤
    headTxds q.txMaxBufs skb + fragSlack (framePlan q env skb').1 (countedFrags skb')

instance (q : TxQueue) (env : SendEnv) (skb skb' : Skb) (tso : Tso) :
    Decidable (SendFits q env skb skb' tso) := inferInstanceAs (Decidable (_ ≤ _))

theorem admit_linearized {q : TxQueue} {pending thresh : Nat} {skb skb' : Skb} {env : SendEnv}
    {tso : Tso} (accepted : txSplitqAdmit q pending thresh skb env = .accept skb' tso) :
    skb'.vlanTag = skb.vlanTag := by
  obtain ⟨-, rfl, -⟩ := admit_accept accepted
  simp only [txResCountRequired]
  generalize (if skb.headlen = 0 then 0 else 1) + (skb.frags.map fragTxdCount).sum = count
  by_cases none : skb.dataLen = 0 <;> cases chkLinearize skb q.txMaxBufs count <;>
    cases env.linearize <;> simp [none, Skb.linearized]

/-- Slots written from `next_to_use` on lie beyond those in use. -/
theorem slots_beyond {q : TxQueue} (use : q.nextToUse < q.descCount)
    (clean : q.nextToClean < q.descCount) {len : Nat}
    (apart : ringDist q.descCount q.nextToClean q.nextToUse + len < q.descCount) :
    ∀ x ∈ (List.range len).map fun j => (q.nextToUse + j) % q.descCount,
      ringDist q.descCount q.nextToClean q.nextToUse ≤ ringDist q.descCount q.nextToClean x := by
  intro x member
  obtain ⟨j, inside, rfl⟩ := List.mem_map.mp member
  have below := List.mem_range.mp inside
  rw [ringDist_add clean use (by omega)]
  omega

/-- The slots an accepted packet writes. -/
theorem frame_written {q : TxQueue} (use : q.nextToUse < q.descCount) {pending thresh : Nat}
    {skb skb' : Skb} {env : SendEnv} {tso : Tso}
    (accepted : txSplitqAdmit q pending thresh skb env = .accept skb' tso) (skbId : Nat) :
    let slots := (txSplitqFrame q pending thresh skbId skb env).slots
    slots.length = ctxCount env skb' tso + planDescs (framePlan q env skb').1 ∧
      slots = (List.range slots.length).map fun j => (q.nextToUse + j) % q.descCount := by
  rcases frame_accepted use accepted skbId with ⟨-, spent, -, -, -, -, len, slots, -⟩ | ⟨c, -⟩
  · exact ⟨by rw [len, framePlan, spent]; rfl, slots⟩
  · exact ⟨c.length, c.slots⟩

/-- The counting errors do not add up exactly when no more is written than was
asked for. -/
theorem sendFits_iff {q : TxQueue} (use : q.nextToUse < q.descCount) {pending thresh : Nat}
    {skb skb' : Skb} {env : SendEnv} {tso : Tso}
    (accepted : txSplitqAdmit q pending thresh skb env = .accept skb' tso) (skbId : Nat) :
    SendFits q env skb skb' tso ↔
      (txSplitqFrame q pending thresh skbId skb env).slots.length ≤ (txNeeds q skb env).1 := by
  have vlan := admit_linearized accepted
  obtain ⟨counted, same, kind, -⟩ := admit_accept accepted
  have count := txResCountRequired_count counted
  have slack := fragSlack_spec (framePlan_sizes q env skb')
  rw [← same] at count kind
  rw [(frame_written use accepted skbId).1]
  unfold SendFits txNeeds ctxCount
  dsimp only
  rw [← same, ← kind, count, vlan]
  omega

theorem admit_room {q : TxQueue} {pending thresh : Nat} {skb skb' : Skb} {env : SendEnv}
    {tso : Tso} (accepted : txSplitqAdmit q pending thresh skb env = .accept skb' tso) :
    (txNeeds q skb env).1 ≤ q.descUnused := by
  obtain ⟨-, same, kind, room, -⟩ := admit_accept accepted
  rw [kind] at room
  exact room

/-- The reservation suffices exactly when the counting errors do not add up. -/
theorem reservation_suffices_iff {q : TxQueue} (use : q.nextToUse < q.descCount)
    (clean : q.nextToClean < q.descCount) (pending thresh skbId : Nat) (skb : Skb)
    (env : SendEnv) :
    WithinReservation q (txNeeds q skb env).1 (txSplitqFrame q pending thresh skbId skb env) ↔
      ∀ skb' tso, txSplitqAdmit q pending thresh skb env = .accept skb' tso →
        SendFits q env skb skb' tso := by
  have unused := descUnused_dist q clean use
  have near : ringDist q.descCount q.nextToClean q.nextToUse < q.descCount := ringDist_lt use
  by_cases accepted : ∃ skb' tso, txSplitqAdmit q pending thresh skb env = .accept skb' tso
  · obtain ⟨skb', tso, accepted⟩ := accepted
    have fits := sendFits_iff use accepted skbId
    have slots := (frame_written use accepted skbId).2
    have total := admit_room accepted
    constructor
    · intro within skb'' tso' accepted'
      obtain ⟨rfl, rfl⟩ := Admission.accept.inj (accepted.symm.trans accepted')
      exact fits.mpr within.count
    · intro enough
      have few := fits.mp (enough skb' tso accepted)
      have apart : ringDist q.descCount q.nextToClean q.nextToUse +
          (txSplitqFrame q pending thresh skbId skb env).slots.length < q.descCount := by omega
      exact ⟨few, apart, by rw [slots]; exact slots_beyond use clean apart⟩
  · have refused : ∀ skb' tso, txSplitqAdmit q pending thresh skb env ≠ .accept skb' tso :=
      fun skb' tso eq => accepted ⟨skb', tso, eq⟩
    have none := (frame_refused refused skbId).1
    refine ⟨fun _ skb' tso eq => absurd eq (refused skb' tso), fun _ => ⟨?_, ?_, ?_⟩⟩
    · rw [none]
      exact Nat.zero_le _
    · rw [none]
      exact near
    · rw [none]
      exact nofun

/-- A timestamp request of one buffer on a queue with one descriptor left: the two
descriptors written take `next_to_use` onto `next_to_clean`. -/
theorem reservation_exceeded :
    let q : TxQueue := { txQueueAlloc 128 65535 8 false with nextToUse := 126 }
    let skb : Skb := { headlen := 100, hwTstamp := true }
    let env : SendEnv := { latch := some 0 }
    let r := txSplitqFrame q 0 128 1 skb env
    r.verdict = .sent ∧ (txNeeds q skb env).1 = 1 ∧ r.slots = [126, 127] ∧
      r.q.nextToUse = q.nextToClean ∧ ¬ WithinReservation q (txNeeds q skb env).1 r := by
  refine ⟨by decide, by decide, by decide, by decide, fun within => ?_⟩
  exact absurd within.count (by decide)

/-- The same timestamp made up for by a fragment that is counted one too many. -/
theorem reservation_suffices_iff_fragment :
    let q : TxQueue := txQueueAlloc 128 65535 8 false
    let skb : Skb := { headlen := 100, frags := [24577], hwTstamp := true }
    let env : SendEnv := { latch := some 0 }
    WithinReservation q (txNeeds q skb env).1 (txSplitqFrame q 0 128 1 skb env) := by
  refine (reservation_suffices_iff (by decide) (by decide) ..).mpr fun skb' tso accepted => ?_
  obtain ⟨rfl, rfl⟩ := Admission.accept.inj accepted
  unfold SendFits
  decide

end Idpf
