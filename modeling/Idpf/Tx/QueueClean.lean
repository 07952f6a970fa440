import Idpf.General.Transition
import Idpf.Tx.Reservation
import Idpf.Tx.Rollback
import Idpf.Tx.XdpFrames
import Mathlib.Data.List.Sort

/-! A Tx queue with queue-based scheduling: the room check, which reads through a refill queue that
such a queue does not have; the ring that the transmit path would fill behind it; and
`idpf_tx_splitq_clean`, which goes from packet to packet by the `rs_idx` words in the buffers. -/
namespace Idpf
open General

/-- The position behind the slot that the word at a position names. -/
def hop (n : Nat) (w : Nat → Nat) (p : Nat) : Nat := p + ringDist n (p % n) (w (p % n)) + 1

theorem lt_hop (n : Nat) (w : Nat → Nat) (p : Nat) : p < hop n w p :=
  Nat.lt_succ_of_le (Nat.le_add_right _ _)

theorem le_hops (n : Nat) (w : Nat → Nat) (p j : Nat) : p ≤ (hop n w)^[j] p := by
  induction j with
  | zero => exact Nat.le_refl p
  | succ j ih =>
      rw [Function.iterate_succ_apply']
      exact ih.trans (lt_hop n w _).le

/-- What the cleaning loop relies on: no buffer is marked as that of a context descriptor, and each
word names a slot. -/
structure Words (n : Nat) (w : Nat → Nat) (q : TxQueue) : Prop where
  count : q.descCount = n
  plain : ∀ b, (q.bufs b).type ≠ .ctx
  words : ∀ b, (q.bufs b).rsIdx = w b
  inside : ∀ b, w b < n

namespace Words

variable {n : Nat} {w : Nat → Nat} {q : TxQueue}

theorem emptied (v : Words n w q) (l : List Nat) (log : List Effect) :
    Words n w (q.emptied l log) := by
  constructor
  · exact v.count
  · intro b
    unfold TxQueue.emptied
    dsimp only
    split
    · exact fun same => SqeType.noConfusion same
    · exact v.plain b
  · intro b
    unfold TxQueue.emptied
    dsimp only
    split
    · exact v.words b
    · exact v.words b
  · exact v.inside

theorem complete {s : Cleaning} (v : Words n w s.q) (b : Nat) :
    Words n w (libethTxComplete s b).q := by
  rw [libethTxComplete_log]
  exact v.emptied _ _

theorem completeAll {s : Cleaning} (v : Words n w s.q) (l : List Nat) :
    Words n w (l.foldl libethTxComplete s).q := by
  induction l generalizing s with
  | nil => exact v
  | cons b l ih => exact ih (v.complete b)

/-- The inner loop completes every slot up to the one that the word names. -/
theorem rest {s : Cleaning} (v : Words n w s.q) (pos : 0 < n) {d p fuel : Nat}
    (enough : d < fuel) (short : d < n) :
    splitqCleanRest ((p + d) % n) fuel s (p % n) =
      ((ringSlots n (p + 1) d).foldl libethTxComplete s, (p + d) % n) := by
  induction d generalizing p fuel s with
  | zero =>
      obtain ⟨fuel, rfl⟩ := Nat.exists_eq_succ_of_ne_zero enough.ne'
      exact if_pos rfl
  | succ d ih =>
      obtain ⟨fuel, rfl⟩ := Nat.exists_eq_succ_of_ne_zero (Nat.zero_lt_of_lt enough).ne'
      have further : p % n ≠ (p + (d + 1)) % n := mod_ne_of_near (by omega) (by omega)
      have next : bump s.q.descCount (p % n) = (p + 1) % n := by
        rw [v.count]
        exact bump_mod pos p
      have behind : p + (d + 1) = p + 1 + d := by omega
      rw [splitqCleanRest, if_neg further]
      dsimp only
      rw [next, ringSlots_cons, List.foldl_cons, behind]
      exact ih (v.complete _) (Nat.lt_of_succ_lt_succ enough) (by omega)

theorem word_place (v : Words n w q) (pos : 0 < n) (p : Nat) :
    w (p % n) = (p + ringDist n (p % n) (w (p % n))) % n := by
  have slot := Nat.mod_lt p pos
  have inside := v.inside (p % n)
  generalize w (p % n) = x at inside
  rw [← Nat.mod_add_mod]
  generalize p % n = i at slot
  unfold ringDist
  split
  · rw [Nat.add_sub_cancel' (by assumption), Nat.mod_eq_of_lt inside]
  · have around : i + (n + x - i) = x + n := by omega
    rw [around, Nat.add_mod_right, Nat.mod_eq_of_lt inside]

/-- One turn of the outer loop. -/
theorem turn {s : Cleaning} (v : Words n w s.q) (pos : 0 < n) {end_ p fuel : Nat}
    (further : p % n ≠ end_) :
    splitqCleanTurns end_ (fuel + 1) s (p % n) =
      splitqCleanTurns end_ fuel ((ringSlots n p (hop n w p - p)).foldl libethTxComplete s)
        (hop n w p % n) := by
  have far : ringDist n (p % n) (w (p % n)) < n := ringDist_lt (v.inside _)
  have word : (s.q.bufs (p % n)).rsIdx = (p + ringDist n (p % n) (w (p % n))) % n := by
    rw [v.words]
    exact v.word_place pos p
  have inner : splitqCleanRest _ n _ (p % n) = _ := (v.complete (p % n)).rest pos far far
  have length : hop n w p - p = ringDist n (p % n) (w (p % n)) + 1 := by
    unfold hop
    omega
  have next : bump (((ringSlots n (p + 1) (ringDist n (p % n) (w (p % n)))).foldl libethTxComplete
      (libethTxComplete s (p % n))).q.descCount) ((p + ringDist n (p % n) (w (p % n))) % n) =
        hop n w p % n := by
    rw [((v.complete _).completeAll _).count, bump_mod pos]
    rfl
  rw [splitqCleanTurns, if_neg further]
  dsimp only
  rw [if_neg (v.plain _), word, v.count, inner]
  dsimp only
  rw [next, length, ringSlots_cons]
  rfl

/-- The outer loop goes from hop to hop, until it meets the end or has no turn left. -/
theorem turns {s : Cleaning} (v : Words n w s.q) (pos : 0 < n) (end_ fuel p : Nat) :
    ∃ j ≤ fuel, splitqCleanTurns end_ fuel s (p % n) =
        ((ringSlots n p ((hop n w)^[j] p - p)).foldl libethTxComplete s, (hop n w)^[j] p % n) ∧
      (∀ i < j, (hop n w)^[i] p % n ≠ end_) ∧ (j < fuel → (hop n w)^[j] p % n = end_) := by
  induction fuel generalizing s p with
  | zero =>
      refine ⟨0, Nat.le_refl 0, ?_, fun i low => absurd low (Nat.not_lt_zero i),
        fun low => absurd low (Nat.not_lt_zero 0)⟩
      rw [Function.iterate_zero, id, Nat.sub_self]
      rfl
  | succ fuel ih =>
      by_cases met : p % n = end_
      · refine ⟨0, Nat.zero_le _, ?_, fun i low => absurd low (Nat.not_lt_zero i), fun _ => met⟩
        rw [splitqCleanTurns, if_pos met, Function.iterate_zero, id, Nat.sub_self]
        rfl
      · obtain ⟨j, few, result, before, after⟩ :=
          ih (v.completeAll (ringSlots n p (hop n w p - p))) (hop n w p)
        refine ⟨j + 1, Nat.succ_le_succ few, ?_, ?_, fun low => after (Nat.lt_of_succ_lt_succ low)⟩
        · have first := lt_hop n w p
          have rest := le_hops n w (hop n w p) j
          have split : (hop n w)^[j] (hop n w p) - p =
              hop n w p - p + ((hop n w)^[j] (hop n w p) - hop n w p) := by omega
          have start : p + (hop n w p - p) = hop n w p := by omega
          rw [v.turn pos met, result, Function.iterate_succ_apply, split, ringSlots_append, start,
            List.foldl_append]
        · intro i low
          cases i with
          | zero => exact met
          | succ i => exact before i (Nat.lt_of_succ_lt_succ low)

end Words

theorem foldl_libethTxComplete_idle {l : List Nat} {s : Cleaning}
    (idle : ∀ b ∈ l, (s.q.bufs b).type = .empty) : l.foldl libethTxComplete s = s := by
  induction l generalizing s with
  | nil => rfl
  | cons b l ih =>
      have one : libethTxComplete s b = s := libethTxComplete_empty (idle b List.mem_cons_self)
      rw [List.foldl_cons, one]
      exact ih fun x member => idle x (List.mem_cons_of_mem b member)

theorem ringSlots_sublist (n p : Nat) {j k : Nat} (le : j ≤ k) :
    (ringSlots n p j).Sublist (ringSlots n p k) := by
  obtain ⟨more, rfl⟩ := Nat.exists_eq_add_of_le le
  rw [ringSlots_append]
  exact List.sublist_append_left _ _

theorem mem_ringSlots_lap {n : Nat} (p : Nat) {i : Nat} (inside : i < n) : i ∈ ringSlots n p n := by
  obtain ⟨x, low, high, same⟩ := exists_mod_eq p inside
  apply mem_ringSlots.mpr
  refine ⟨x - p, by omega, ?_⟩
  rw [Nat.add_sub_cancel' low]
  exact same

/-- Going over a stretch of the ring completes each slot once; what is beyond a lap finds nothing
left. -/
theorem foldl_stretch {n : Nat} (pos : 0 < n) (p k : Nat) (s : Cleaning) :
    ((ringSlots n p k).foldl libethTxComplete s).q = s.q.emptied (ringSlots n p (min k n))
      (s.q.mem.log ++ (ringSlots n p (min k n)).flatMap fun b => (s.q.bufs b).effects) := by
  by_cases lap : k ≤ n
  · rw [Nat.min_eq_left lap]
    exact foldl_libethTxComplete_log (ringSlots_nodup p lap) s
  · obtain ⟨more, rfl⟩ := Nat.exists_eq_add_of_le (Nat.le_of_not_le lap)
    have whole := foldl_libethTxComplete_log (ringSlots_nodup p (Nat.le_refl n)) s
    rw [Nat.min_eq_right (Nat.le_add_right n more), ringSlots_append, List.foldl_append,
      foldl_libethTxComplete_idle]
    · exact whole
    · intro b member
      obtain ⟨j, -, rfl⟩ := mem_ringSlots.mp member
      rw [whole]
      unfold TxQueue.emptied
      dsimp only
      rw [if_pos (mem_ringSlots_lap p (Nat.mod_lt _ pos))]

section ids

variable {n : Nat} {dma : Nat → Option Nat} {frags : List Nat} {k size i : Nat} {r : SwQueue}

/-- Without flow scheduling the buffers lie at the first descriptors of the fragments: how far they
are from the first descriptor of the packet. -/
theorem mapIds_ring (n : Nat) (dma : Nat → Option Nat) (frags : List Nat) (k size : Nat)
    (r : SwQueue) (i : Nat) :
    ∃ ds : List Nat, mapIds false n dma frags k size r i = ds.map (fun d => (i + d) % n) ∧
      ds.Pairwise (· < ·) ∧ ∀ d ∈ ds, 0 < d ∧ d ≤ planDescs (mapPlan false dma frags k size r).1 ∧
        ((mapPlan false dma frags k size r).2 = true →
          d < planDescs (mapPlan false dma frags k size r).1) := by
  induction frags generalizing k size i with
  | nil =>
      refine ⟨[], ?_, List.Pairwise.nil, fun d member => absurd member List.not_mem_nil⟩
      cases mapping : dma k with
      | none => exact mapIds_failed mapping
      | some addr => exact mapIds_last mapping rfl
  | cons f fs ih =>
      cases mapping : dma k with
      | none =>
          exact ⟨[], mapIds_failed mapping, List.Pairwise.nil,
            fun d member => absurd member List.not_mem_nil⟩
      | some addr =>
          by_cases last : (f :: fs).sum = 0
          · exact ⟨[], mapIds_last mapping last, List.Pairwise.nil,
              fun d member => absurd member List.not_mem_nil⟩
          · obtain ⟨ds, rest, increasing, bounds⟩ := ih (k + 1) f (i + bufDescs addr size)
            have some := bufDescs_pos addr size
            have plan : mapPlan false dma (f :: fs) k size r =
                ((addr, size) :: (mapPlan false dma fs (k + 1) f r).1,
                  (mapPlan false dma fs (k + 1) f r).2) := by
              rw [mapPlan, mapping]
              exact if_neg last
            have total : planDescs ((addr, size) :: (mapPlan false dma fs (k + 1) f r).1) =
                bufDescs addr size + planDescs (mapPlan false dma fs (k + 1) f r).1 := rfl
            refine ⟨bufDescs addr size :: ds.map (bufDescs addr size + ·), ?_, ?_, ?_⟩
            · rw [mapIds_next mapping last]
              change (i + bufDescs addr size) % n :: mapIds false n dma fs (k + 1) f r _ = _
              rw [rest, List.map_cons, List.map_map]
              congr 1
              apply List.map_congr_left
              intro d _
              change (i + bufDescs addr size + d) % n = (i + (bufDescs addr size + d)) % n
              rw [Nat.add_assoc]
            · apply List.pairwise_cons.mpr
              constructor
              · intro d member
                obtain ⟨e, inside, rfl⟩ := List.mem_map.mp member
                have := (bounds e inside).1
                omega
              · apply increasing.map
                intro a b lt
                omega
            · intro d member
              rw [plan, total]
              cases List.mem_cons.mp member with
              | inl first =>
                  refine ⟨first ▸ some, first ▸ Nat.le_add_right _ _, ?_⟩
                  intro whole
                  have behind := planDescs_pos whole
                  omega
              | inr later =>
                  obtain ⟨e, inside, rfl⟩ := List.mem_map.mp later
                  obtain ⟨low, high, strict⟩ := bounds e inside
                  refine ⟨by omega, by omega, ?_⟩
                  intro whole
                  have := strict whole
                  omega

end ids

theorem increasing_sublist_range {ds : List Nat} {m : Nat} (increasing : ds.Pairwise (· < ·))
    (low : ∀ d ∈ ds, d < m) : ds.Sublist (List.range m) := by
  have inside : ds ⊆ List.range m := fun d member => List.mem_range.mpr (low d member)
  exact List.sublist_of_subperm_of_pairwise (List.subperm_of_subset increasing.nodup inside)
    increasing List.pairwise_lt_range

/-- The buffers of a packet on a queue without flow scheduling: they are slots of the ring in their
order, for a packet that fails up to the slot behind those written. -/
theorem frameIds_ring {q : TxQueue} {env : SendEnv} {skb : Skb} {tso : Tso}
    (flow : q.flowSchEn = false) :
    frameIds q env skb tso ≠ [] ∧
      (frameIds q env skb tso).Sublist (ringSlots q.descCount q.nextToUse
        (ctxCount env skb tso + planDescs (framePlan q env skb).1 + 1)) ∧
      ((framePlan q env skb).2 = true → (frameIds q env skb tso).Sublist
        (ringSlots q.descCount q.nextToUse
          (ctxCount env skb tso + planDescs (framePlan q env skb).1))) := by
  have plan : framePlan q env skb =
      mapPlan false env.dma skb.frags 0 skb.headlen q.refillq := by
    unfold framePlan nextRefill
    rw [flow]
    rfl
  obtain ⟨ds, rest, increasing, bounds⟩ := mapIds_ring q.descCount env.dma skb.frags 0 skb.headlen
    q.refillq (q.nextToUse + ctxCount env skb tso)
  have ids : frameIds q env skb tso =
      (ctxCount env skb tso :: ds.map (ctxCount env skb tso + ·)).map
        fun d => (q.nextToUse + d) % q.descCount := by
    unfold frameIds
    dsimp only
    rw [flow]
    change _ % _ :: mapIds false _ _ _ _ _ _ _ = _
    rw [rest, List.map_cons, List.map_map]
    congr 1
    apply List.map_congr_left
    intro d _
    change (q.nextToUse + ctxCount env skb tso + d) % _ =
      (q.nextToUse + (ctxCount env skb tso + d)) % _
    rw [Nat.add_assoc]
  have ordered : (ctxCount env skb tso :: ds.map (ctxCount env skb tso + ·)).Pairwise (· < ·) := by
    apply List.pairwise_cons.mpr
    constructor
    · intro d member
      obtain ⟨e, inside, rfl⟩ := List.mem_map.mp member
      have := (bounds e inside).1
      omega
    · apply increasing.map
      intro a b lt
      omega
  rw [plan, ids]
  refine ⟨List.cons_ne_nil _ _, ?_, ?_⟩
  · apply List.Sublist.map
    apply increasing_sublist_range ordered
    intro d member
    cases List.mem_cons.mp member with
    | inl first => omega
    | inr later =>
        obtain ⟨e, inside, rfl⟩ := List.mem_map.mp later
        have := (bounds e inside).2.1
        omega
  · intro whole
    have some := planDescs_pos whole
    apply List.Sublist.map
    apply increasing_sublist_range ordered
    intro d member
    cases List.mem_cons.mp member with
    | inl first => omega
    | inr later =>
        obtain ⟨e, inside, rfl⟩ := List.mem_map.mp later
        have := (bounds e inside).2.2 whole
        omega

/-- A packet on the ring, with all its slots and with the mappings made for it. -/
structure RingPacket where
  skb : Nat
  tsyn : Bool
  slots : List Nat
  bufs : List (Nat × DmaMap)

namespace RingPacket

def effects (p : RingPacket) : List Effect :=
  match p.bufs with
  | [] => []
  | x :: xs => .unmap x.2 :: .consumeSkb p.skb :: xs.map fun y => .unmap y.2

/-- The buffers of a packet are as the transmit path left them. -/
structure Held (q : TxQueue) (p : RingPacket) : Prop where
  some : p.bufs ≠ []
  first : ∀ x ∈ p.bufs.head?, (q.bufs x.1).type = (if p.tsyn then .skbTstamp else .skb) ∧
    (q.bufs x.1).skb = p.skb ∧ (q.bufs x.1).dma = x.2
  rest : ∀ x ∈ p.bufs.tail, (q.bufs x.1).type = .frag ∧ (q.bufs x.1).dma = x.2
  word : ∀ x ∈ p.bufs.head?, p.slots.getLast? = Option.some (q.bufs x.1).rsIdx
  order : (p.bufs.map Prod.fst).Sublist p.slots
  idle : ∀ i ∈ p.slots, i ∉ p.bufs.map Prod.fst → (q.bufs i).type = .empty

theorem Held.congr {q q' : TxQueue} {p : RingPacket} (h : p.Held q)
    (same : ∀ i ∈ p.slots, q'.bufs i = q.bufs i) : p.Held q' := by
  have own : ∀ x ∈ p.bufs, q'.bufs x.1 = q.bufs x.1 :=
    fun x member => same x.1 (h.order.subset (List.mem_map_of_mem member))
  constructor
  · exact h.some
  · intro x member
    rw [own x (List.mem_of_mem_head? member)]
    exact h.first x member
  · intro x member
    rw [own x (List.mem_of_mem_tail member)]
    exact h.rest x member
  · intro x member
    rw [own x (List.mem_of_mem_head? member)]
    exact h.word x member
  · exact h.order
  · intro i inside out
    rw [same i inside]
    exact h.idle i inside out

end RingPacket

/-- A queue with queue-based scheduling and the packets on its ring, the oldest first. -/
structure RingSystem where
  q : TxQueue
  pkts : List RingPacket

/-- A packet is sent, or the device reports the head behind the first `k` packets and the cleaning
loop gets there in `fuel` turns. -/
inductive RingOp where
  | send (pending thresh skbId : Nat) (skb : Skb) (env : SendEnv)
  | clean (k fuel : Nat)

namespace RingSystem

def slotsOf (ps : List RingPacket) : List Nat := ps.flatMap RingPacket.slots

def idsOf (ps : List RingPacket) : List Nat := ps.flatMap fun p => p.bufs.map Prod.fst

/-- The position behind the first `k` packets. -/
def head (s : RingSystem) (k : Nat) : Nat :=
  (s.q.nextToClean + (slotsOf (s.pkts.take k)).length) % s.q.descCount

def send (s : RingSystem) (pending thresh skbId : Nat) (skb : Skb) (env : SendEnv) :
    RingSystem :=
  let r := txSplitqFrame s.q pending thresh skbId skb env
  let tsyn := match txSplitqAdmit s.q pending thresh skb env with
    | .accept skb tso => (txTstamp env.latch skb tso).isSome
    | _ => false
  { q := r.q
    pkts := if r.verdict = .sent then s.pkts ++ [⟨skbId, tsyn, r.slots, r.mapped⟩] else s.pkts }

/-- The cleaning loop for the head behind the first `k` packets. -/
def cleaned (s : RingSystem) (k fuel : Nat) : Cleaning × Nat :=
  splitqCleanTurns (s.head k) fuel ⟨s.q, {}⟩ s.q.nextToClean

def step (s : RingSystem) : RingOp → Option RingSystem
  | .send pending thresh skbId skb env => some (s.send pending thresh skbId skb env)
  | .clean k fuel =>
    let r := s.cleaned k fuel
    if k ≤ s.pkts.length ∧ r.2 = s.head k then
      some ⟨{ r.1.q with nextToClean := r.2 }, s.pkts.drop k⟩
    else none

end RingSystem

/-- A queue that has just been set up for queue-based scheduling, with the refill queue that only
flow-based scheduling has. -/
def TxConfig.ringInit (c : TxConfig) : RingSystem where
  q := { txQueueAlloc c.descCount c.descCount c.txMaxBufs false with
    lastRe := 0
    flowSchEn := false }
  pkts := []

def RingStart (s : RingSystem) : Prop := ∃ c : TxConfig, s = c.ringInit

theorem flatMap_of_sublist {α β : Type*} {f : α → List β} {l l' : List α} (order : l'.Sublist l)
    (once : l.Nodup) (none : ∀ x ∈ l, x ∉ l' → f x = []) : l.flatMap f = l'.flatMap f := by
  induction order with
  | slnil => rfl
  | cons x order ih =>
      obtain ⟨new, once⟩ := List.nodup_cons.mp once
      have out : x ∉ _ := fun member => new (order.subset member)
      rw [List.flatMap_cons, none x List.mem_cons_self out, List.nil_append]
      exact ih once fun y member => none y (List.mem_cons_of_mem x member)
  | cons_cons x order ih =>
      obtain ⟨new, once⟩ := List.nodup_cons.mp once
      rw [List.flatMap_cons, List.flatMap_cons, ih once]
      intro y member out
      apply none y (List.mem_cons_of_mem x member)
      intro inside
      cases List.mem_cons.mp inside with
      | inl same => exact new (same ▸ member)
      | inr later => exact out later

namespace RingPacket

variable {q : TxQueue} {p : RingPacket}

/-- What completing the slots of a packet does to memory: a packet with a timestamp keeps its skb
and its first mapping. -/
def slotEffects (p : RingPacket) : List Effect :=
  if p.tsyn then p.effects.drop 2 else p.effects

theorem Held.effects (h : p.Held q) (once : p.slots.Nodup) :
    (p.slots.flatMap fun b => (q.bufs b).effects) = p.slotEffects := by
  have idle : ∀ i ∈ p.slots, i ∉ p.bufs.map Prod.fst → (q.bufs i).effects = [] := by
    intro i inside out
    rw [TxBuf.effects, h.idle i inside out]
  rw [flatMap_of_sublist h.order once idle]
  unfold slotEffects RingPacket.effects
  cases bufs : p.bufs with
  | nil => exact absurd bufs h.some
  | cons x xs =>
      obtain ⟨type, skb, dma⟩ := h.first x (bufs ▸ rfl)
      have rest : ((xs.map Prod.fst).flatMap fun b => (q.bufs b).effects) =
          xs.map fun y => .unmap y.2 := by
        rw [List.flatMap_map, ← List.flatMap_pure_eq_map]
        apply List.flatMap_congr
        intro y member
        obtain ⟨type, dma⟩ := h.rest y (bufs ▸ member)
        rw [TxBuf.effects, type, dma]
        rfl
      rw [List.map_cons, List.flatMap_cons, rest, TxBuf.effects, type, skb, dma]
      cases p.tsyn with
      | true => rfl
      | false => rfl

theorem slotEffects_length (h : p.bufs ≠ []) :
    p.slotEffects.length ≤ p.effects.length ∧
      (p.slotEffects.length = p.effects.length → p.tsyn = false) := by
  unfold slotEffects effects
  cases bufs : p.bufs with
  | nil => exact absurd bufs h
  | cons x xs =>
      cases p.tsyn with
      | false => exact ⟨Nat.le_refl _, fun _ => rfl⟩
      | true =>
          simp only [if_true, List.drop_succ_cons, List.drop_zero, List.length_cons]
          constructor
          · omega
          · intro same
            omega

theorem untimed_of_effects {ps : List RingPacket} (some : ∀ p ∈ ps, p.bufs ≠ [])
    (same : (ps.flatMap slotEffects).length = (ps.flatMap effects).length) :
    ∀ p ∈ ps, p.tsyn = false := by
  have most : ∀ ps : List RingPacket, (∀ p ∈ ps, p.bufs ≠ []) →
      (ps.flatMap slotEffects).length ≤ (ps.flatMap effects).length := by
    intro ps some
    induction ps with
    | nil => exact Nat.le_refl 0
    | cons p ps ih =>
        have one := (slotEffects_length (some p List.mem_cons_self)).1
        have rest := ih fun x member => some x (List.mem_cons_of_mem p member)
        rw [List.flatMap_cons, List.flatMap_cons, List.length_append, List.length_append]
        omega
  induction ps with
  | nil => exact fun p member => absurd member List.not_mem_nil
  | cons p ps ih =>
      obtain ⟨less, whole⟩ := slotEffects_length (some p List.mem_cons_self)
      have later := fun x member => some x (List.mem_cons_of_mem p member)
      have rest := most ps later
      rw [List.flatMap_cons, List.flatMap_cons, List.length_append, List.length_append] at same
      intro x member
      cases List.mem_cons.mp member with
      | inl first =>
          rw [first]
          exact whole (by omega)
      | inr inside => exact ih later (by omega) x inside

end RingPacket

theorem emptied_of_idle {q : TxQueue} {l l' : List Nat} (less : l' ⊆ l)
    (idle : ∀ b ∈ l, b ∉ l' → (q.bufs b).type = .empty) (log : List Effect) :
    q.emptied l log = q.emptied l' log := by
  have bufs : (q.emptied l log).bufs = (q.emptied l' log).bufs := by
    funext b
    unfold TxQueue.emptied
    dsimp only
    by_cases kept : b ∈ l'
    · rw [if_pos kept, if_pos (less kept)]
    · rw [if_neg kept]
      by_cases inside : b ∈ l
      · rw [if_pos inside, ← idle b inside kept]
      · rw [if_neg inside]
  exact congrArg (fun bufs => { q with bufs, mem := { q.mem with log } }) bufs

namespace RingSystem

def words (s : RingSystem) (i : Nat) : Nat := (s.q.bufs i).rsIdx

/-- The loop ends with the first `k` packets undone and nothing else touched. -/
def Exact (s : RingSystem) (k : Nat) : Prop :=
  ∃ fuel, (s.cleaned k fuel).2 = s.head k ∧
    (s.cleaned k fuel).1.q = s.q.emptied (idsOf (s.pkts.take k))
      (s.q.mem.log ++ (s.pkts.take k).flatMap RingPacket.effects)

/-- From `next_to_clean` on, always behind the slot that the word in a buffer names, one comes to the
head; and not past it, unless no packet is left behind it. -/
def Leads (s : RingSystem) (k : Nat) : Prop :=
  ∃ m, (hop s.q.descCount s.words)^[m] s.q.nextToClean % s.q.descCount = s.head k ∧
    (k < s.pkts.length → (hop s.q.descCount s.words)^[m] s.q.nextToClean =
      s.q.nextToClean + (slotsOf (s.pkts.take k)).length)

/-- The first `k` packets can be cleaned. -/
structure Cleanable (s : RingSystem) (k : Nat) : Prop where
  untimed : ∀ p ∈ s.pkts.take k, p.tsyn = false
  leads : s.Leads k

/-- Steps that go well: a packet takes no more descriptors than the room check has counted, and a
head is one up to which the ring can be cleaned. -/
def ok (s : RingSystem) : RingOp → Prop
  | .send pending thresh _ skb env => ∀ skb' tso,
    txSplitqAdmit s.q pending thresh skb env = .accept skb' tso → SendFits s.q env skb skb' tso
  | .clean k _ => s.Cleanable k

end RingSystem

open RingSystem

/-- A packet without a timestamp whose first buffer lies in its first slot: it has no context
descriptors. -/
def RingPacket.Plain (p : RingPacket) : Prop :=
  p.tsyn = false ∧ p.slots.head? = p.bufs.head?.map Prod.fst

instance (p : RingPacket) : Decidable p.Plain := inferInstanceAs (Decidable (_ ∧ _))

structure RingInv (s : RingSystem) : Prop where
  flow : s.q.flowSchEn = false
  clean : s.q.nextToClean < s.q.descCount
  pool : s.q.bufPoolSize = s.q.descCount
  words : Words s.q.descCount s.words s.q
  slots : slotsOf s.pkts = ringSlots s.q.descCount s.q.nextToClean (slotsOf s.pkts).length
  room : (slotsOf s.pkts).length < s.q.descCount
  use : s.q.nextToUse = (s.q.nextToClean + (slotsOf s.pkts).length) % s.q.descCount
  held : ∀ p ∈ s.pkts, p.Held s.q
  idle : ∀ i < s.q.descCount, i ∉ slotsOf s.pkts → (s.q.bufs i).type = .empty

theorem slotsOf_take (ps : List RingPacket) (k : Nat) :
    slotsOf ps = slotsOf (ps.take k) ++ slotsOf (ps.drop k) := by
  unfold slotsOf
  rw [← List.flatMap_append, List.take_append_drop]

namespace RingInv

variable {s : RingSystem} {k : Nat}

theorem pos (v : RingInv s) : 0 < s.q.descCount := Nat.zero_lt_of_lt v.clean

theorem once (v : RingInv s) : (slotsOf s.pkts).Nodup := by
  rw [v.slots]
  exact ringSlots_nodup _ v.room.le

/-- The slots of the first packets are the first slots. -/
theorem first (v : RingInv s) (k : Nat) :
    slotsOf (s.pkts.take k) =
      ringSlots s.q.descCount s.q.nextToClean (slotsOf (s.pkts.take k)).length ∧
      slotsOf (s.pkts.drop k) = ringSlots s.q.descCount
        (s.q.nextToClean + (slotsOf (s.pkts.take k)).length) (slotsOf (s.pkts.drop k)).length := by
  have split := slotsOf_take s.pkts k
  have slots := v.slots
  rw [split, List.length_append, ringSlots_append] at slots
  exact List.append_inj slots (ringSlots_length _ _ _).symm

theorem fewer (v : RingInv s) (k : Nat) :
    (slotsOf (s.pkts.take k)).length < s.q.descCount := by
  have room := v.room
  rw [slotsOf_take s.pkts k, List.length_append] at room
  omega

theorem heldOnce (v : RingInv s) : ∀ p ∈ s.pkts, p.slots.Nodup := by
  intro p member
  exact (List.nodup_flatMap.mp v.once).1 p member

theorem effects (v : RingInv s) (k : Nat) :
    ((slotsOf (s.pkts.take k)).flatMap fun b => (s.q.bufs b).effects) =
      (s.pkts.take k).flatMap RingPacket.slotEffects := by
  unfold slotsOf
  rw [List.flatMap_assoc]
  apply List.flatMap_congr
  intro p member
  have inside := List.mem_of_mem_take member
  exact (v.held p inside).effects (v.heldOnce p inside)

theorem ids_subset {ps : List RingPacket} (held : ∀ p ∈ ps, p.Held s.q) :
    idsOf ps ⊆ slotsOf ps := by
  intro b member
  obtain ⟨p, inside, own⟩ := List.mem_flatMap.mp member
  exact List.mem_flatMap.mpr ⟨p, inside, (held p inside).order.subset own⟩

/-- A slot of a packet that is not one of its buffers is idle. -/
theorem unfilled {ps : List RingPacket} (held : ∀ p ∈ ps, p.Held s.q) {b : Nat}
    (slot : b ∈ slotsOf ps) (out : b ∉ idsOf ps) : (s.q.bufs b).type = .empty := by
  obtain ⟨p, inside, own⟩ := List.mem_flatMap.mp slot
  apply (held p inside).idle b own
  exact fun member => out (List.mem_flatMap.mpr ⟨p, inside, member⟩)

theorem heldFirst (v : RingInv s) (k : Nat) : ∀ p ∈ s.pkts.take k, p.Held s.q :=
  fun p member => v.held p (List.mem_of_mem_take member)

/-- The stretch up to the head, or the whole ring where no packet is behind the head, is completed
as the first packets are. -/
theorem stretch (v : RingInv s) {far : Nat} (landed : far = (slotsOf (s.pkts.take k)).length ∨
    s.q.descCount ≤ far ∧ s.pkts.take k = s.pkts) :
    ((ringSlots s.q.descCount s.q.nextToClean far).foldl libethTxComplete ⟨s.q, {}⟩).q =
      s.q.emptied (idsOf (s.pkts.take k))
        (s.q.mem.log ++ (s.pkts.take k).flatMap RingPacket.slotEffects) := by
  rw [foldl_stretch v.pos]
  have inside := ids_subset (v.heldFirst k)
  cases landed with
  | inl near =>
      rw [near, Nat.min_eq_left (v.fewer k).le, ← (v.first k).1, v.effects k]
      exact emptied_of_idle inside (fun b slot out => unfilled (v.heldFirst k) slot out) _
  | inr around =>
      obtain ⟨lap, all⟩ := around
      have idle : ∀ b ∈ ringSlots s.q.descCount s.q.nextToClean s.q.descCount,
          b ∉ slotsOf s.pkts → (s.q.bufs b).type = .empty := by
        intro b member out
        obtain ⟨j, -, rfl⟩ := mem_ringSlots.mp member
        exact v.idle _ (Nat.mod_lt _ v.pos) out
      have order : (slotsOf s.pkts).Sublist
          (ringSlots s.q.descCount s.q.nextToClean s.q.descCount) := by
        rw [v.slots]
        exact ringSlots_sublist _ _ v.room.le
      have effects := v.effects k
      rw [all] at effects inside ⊢
      have same : ((ringSlots s.q.descCount s.q.nextToClean s.q.descCount).flatMap
          fun b => (s.q.bufs b).effects) = s.pkts.flatMap RingPacket.slotEffects := by
        rw [← effects]
        apply flatMap_of_sublist order (ringSlots_nodup _ (Nat.le_refl _))
        intro b member out
        rw [TxBuf.effects, idle b member out]
      rw [Nat.min_eq_right lap, same]
      apply emptied_of_idle (List.Subset.trans inside order.subset)
      intro b member out
      by_cases slot : b ∈ slotsOf s.pkts
      · exact unfilled v.held slot out
      · exact idle b member slot

theorem looped (v : RingInv s) (k fuel : Nat) :
    ∃ j ≤ fuel, let p := (hop s.q.descCount s.words)^[j] s.q.nextToClean
      s.cleaned k fuel = ((ringSlots s.q.descCount s.q.nextToClean (p - s.q.nextToClean)).foldl
          libethTxComplete ⟨s.q, {}⟩, p % s.q.descCount) ∧
        (∀ i < j, (hop s.q.descCount s.words)^[i] s.q.nextToClean % s.q.descCount ≠ s.head k) ∧
        (j < fuel → p % s.q.descCount = s.head k) := by
  have turns := v.words.turns (s := ⟨s.q, {}⟩) v.pos (s.head k) fuel s.q.nextToClean
  rw [Nat.mod_eq_of_lt v.clean] at turns
  exact turns

/-- A place that is the head modulo the ring is the head of this lap or further on. -/
theorem landing (v : RingInv s) {p : Nat} (beyond : s.q.nextToClean ≤ p)
    (head : p % s.q.descCount = s.head k) :
    p - s.q.nextToClean = (slotsOf (s.pkts.take k)).length ∨
      s.q.descCount ≤ p - s.q.nextToClean := by
  by_cases lap : p - s.q.nextToClean < s.q.descCount
  · have few := v.fewer k
    have same : s.q.nextToClean + (slotsOf (s.pkts.take k)).length = p := by
      cases Nat.le_total (s.q.nextToClean + (slotsOf (s.pkts.take k)).length) p with
      | inl le => exact mod_inj_of_near le (by omega) head.symm
      | inr le => exact (mod_inj_of_near le (by omega) head).symm
    omega
  · exact .inr (Nat.le_of_not_lt lap)

/-- Where the words lead to the head, the loop gets there and undoes the first packets. -/
theorem landed (v : RingInv s) (leads : s.Leads k) {j : Nat}
    (head : (hop s.q.descCount s.words)^[j] s.q.nextToClean % s.q.descCount = s.head k)
    (before : ∀ i < j, (hop s.q.descCount s.words)^[i] s.q.nextToClean % s.q.descCount ≠
      s.head k) :
    (hop s.q.descCount s.words)^[j] s.q.nextToClean - s.q.nextToClean =
        (slotsOf (s.pkts.take k)).length ∨
      s.q.descCount ≤ (hop s.q.descCount s.words)^[j] s.q.nextToClean - s.q.nextToClean ∧
        s.pkts.take k = s.pkts := by
  obtain ⟨m, reached, exact_⟩ := leads
  have start := le_hops s.q.descCount s.words s.q.nextToClean j
  cases v.landing start head with
  | inl near => exact .inl near
  | inr far =>
      cases Nat.lt_or_ge k s.pkts.length with
      | inr all => exact .inr ⟨far, List.take_of_length_le all⟩
      | inl some =>
          have place := exact_ some
          have sooner : j ≤ m := by
            by_contra later
            exact before m (Nat.lt_of_not_le later) reached
          obtain ⟨more, rfl⟩ := Nat.exists_eq_add_of_le sooner
          have further := le_hops s.q.descCount s.words
            ((hop s.q.descCount s.words)^[j] s.q.nextToClean) more
          rw [← Function.iterate_add_apply, Nat.add_comm more j, place] at further
          have few := v.fewer k
          omega

theorem waiting (v : RingInv s) (some : k < s.pkts.length) :
    ∃ b < s.q.descCount, b ∉ idsOf (s.pkts.take k) ∧ (s.q.bufs b).type ≠ .empty := by
  obtain ⟨p, rest, more⟩ : ∃ p rest, s.pkts.drop k = p :: rest :=
    List.exists_cons_of_ne_nil fun none => by
      have length := congrArg List.length none
      rw [List.length_drop, List.length_nil] at length
      omega
  have inside : p ∈ s.pkts := List.mem_of_mem_drop (more ▸ List.mem_cons_self)
  have held := v.held p inside
  obtain ⟨x, xs, bufs⟩ := List.exists_cons_of_ne_nil held.some
  have own : x.1 ∈ p.slots := held.order.subset (bufs ▸ List.mem_cons_self)
  have later : x.1 ∈ slotsOf (s.pkts.drop k) :=
    List.mem_flatMap.mpr ⟨p, more ▸ List.mem_cons_self, own⟩
  have once := v.once
  rw [slotsOf_take s.pkts k] at once
  refine ⟨x.1, ?_, ?_, ?_⟩
  · rw [(v.first k).2] at later
    obtain ⟨j, -, same⟩ := mem_ringSlots.mp later
    rw [← same]
    exact Nat.mod_lt _ v.pos
  · intro sooner
    exact (List.nodup_append.mp once).2.2 _ (ids_subset (v.heldFirst k) sooner) _ later rfl
  · rw [(held.first x (bufs ▸ rfl)).1]
    cases p.tsyn with
    | true => exact fun same => SqeType.noConfusion same
    | false => exact fun same => SqeType.noConfusion same

theorem exact_iff (v : RingInv s) : s.Exact k ↔ s.Cleanable k := by
  constructor
  · intro ⟨fuel, stop, result⟩
    obtain ⟨j, -, loop, before, -⟩ := v.looped k fuel
    rw [loop] at stop result
    have start := le_hops s.q.descCount s.words s.q.nextToClean j
    generalize reached : (hop s.q.descCount s.words)^[j] s.q.nextToClean = p at start stop result
    have place : p - s.q.nextToClean = (slotsOf (s.pkts.take k)).length ∨
        s.q.descCount ≤ p - s.q.nextToClean ∧ s.pkts.take k = s.pkts := by
      cases v.landing start stop with
      | inl near => exact .inl near
      | inr far =>
          cases Nat.lt_or_ge k s.pkts.length with
          | inr all => exact .inr ⟨far, List.take_of_length_le all⟩
          | inl some =>
              obtain ⟨b, low, out, filled⟩ := v.waiting some
              have emptied := congrArg (fun q => (q.bufs b).type) result
              dsimp only at emptied
              rw [foldl_stretch v.pos, Nat.min_eq_right far, TxQueue.emptied_other _ _ out] at emptied
              unfold TxQueue.emptied at emptied
              dsimp only at emptied
              rw [if_pos (mem_ringSlots_lap _ low)] at emptied
              exact absurd emptied.symm filled
    constructor
    · have log := congrArg (fun q => q.mem.log) ((v.stretch place).symm.trans result)
      have same := List.append_cancel_left log
      apply RingPacket.untimed_of_effects
      · exact fun p member => (v.heldFirst k p member).some
      · exact congrArg List.length same
    · refine ⟨j, ?_, ?_⟩
      · rw [reached]
        exact stop
      · intro some
        rw [reached]
        cases place with
        | inl near => omega
        | inr around =>
            have length := congrArg List.length around.2
            rw [List.length_take] at length
            omega
  · intro fine
    obtain ⟨m, met, -⟩ := fine.leads
    have found : ∃ m, (hop s.q.descCount s.words)^[m] s.q.nextToClean % s.q.descCount =
      s.head k := ⟨m, met⟩
    obtain ⟨j, few, loop, before, after⟩ := v.looped k (Nat.find found)
    have last : j = Nat.find found := by
      cases Nat.lt_or_eq_of_le few with
      | inl sooner => exact absurd (after sooner) (Nat.find_min found sooner)
      | inr same => exact same
    have stop := Nat.find_spec found
    rw [← last] at stop
    refine ⟨Nat.find found, ?_, ?_⟩
    · rw [loop]
      exact stop
    · rw [loop]
      dsimp only
      rw [v.stretch (v.landed fine.leads stop before)]
      congr 2
      apply List.flatMap_congr
      intro p member
      unfold RingPacket.slotEffects
      rw [fine.untimed p member]
      rfl

/-- The words lead over a packet without context descriptors to the place behind it. -/
theorem hop_plain (v : RingInv s) {p : RingPacket} (member : p ∈ s.pkts) (plain : p.Plain)
    {at_ : Nat} (slots : p.slots = ringSlots s.q.descCount at_ p.slots.length) :
    hop s.q.descCount s.words at_ = at_ + p.slots.length := by
  have held := v.held p member
  obtain ⟨x, xs, bufs⟩ := List.exists_cons_of_ne_nil held.some
  have first : p.slots.head? = some x.1 := by
    rw [plain.2, bufs]
    rfl
  obtain ⟨len, length⟩ : ∃ len, p.slots.length = len + 1 := by
    cases row : p.slots with
    | nil =>
        rw [row] at first
        cases first
    | cons i is => exact ⟨is.length, rfl⟩
  have few : p.slots.length ≤ (slotsOf s.pkts).length :=
    (List.sublist_flatten_of_mem (List.mem_map_of_mem member)).length_le
  have room := v.room
  have last := held.word x (bufs ▸ rfl)
  rw [slots, length, ringSlots_cons] at first
  rw [slots, length, ringSlots_snoc, List.getLast?_append, List.getLast?_singleton] at last
  have place : at_ % s.q.descCount = x.1 := Option.some.inj first
  have word : s.words (at_ % s.q.descCount) = (at_ + len) % s.q.descCount := by
    rw [place]
    exact (Option.some.inj last).symm
  unfold hop
  rw [word, ringDist_mod (Nat.le_add_right at_ len) (by omega), length]
  omega

theorem cleanable_plain (v : RingInv s) (plain : ∀ p ∈ s.pkts.take k, p.Plain) :
    s.Cleanable k := by
  have reached : ∃ m, (hop s.q.descCount s.words)^[m] s.q.nextToClean =
      s.q.nextToClean + (slotsOf (s.pkts.take k)).length := by
    induction k with
    | zero => exact ⟨0, rfl⟩
    | succ k ih =>
        cases Nat.lt_or_ge k s.pkts.length with
        | inr all =>
            rw [List.take_of_length_le (all.trans (Nat.le_succ k)),
              ← List.take_of_length_le all]
            apply ih
            intro p member
            exact plain p (List.take_subset_take_left _ (Nat.le_succ k) member)
        | inl more =>
            have next := List.take_succ_eq_append_getElem more
            obtain ⟨m, sofar⟩ := ih fun p member =>
              plain p (List.take_subset_take_left _ (Nat.le_succ k) member)
            have slots : s.pkts[k].slots = ringSlots s.q.descCount
                (s.q.nextToClean + (slotsOf (s.pkts.take k)).length) s.pkts[k].slots.length := by
              have whole := (v.first (k + 1)).1
              have all : slotsOf (s.pkts.take (k + 1)) =
                  slotsOf (s.pkts.take k) ++ s.pkts[k].slots := by
                unfold slotsOf
                rw [next, List.flatMap_append, List.flatMap_singleton]
              rw [all, List.length_append, ringSlots_append] at whole
              exact (List.append_inj whole (ringSlots_length _ _ _).symm).2
            have one := v.hop_plain (List.getElem_mem more)
              (plain _ (by rw [next]; exact List.mem_append_right _ (List.mem_singleton_self _)))
              slots
            refine ⟨m + 1, ?_⟩
            rw [Function.iterate_succ_apply', sofar, one, next]
            unfold slotsOf
            rw [List.flatMap_append, List.flatMap_singleton, List.length_append, Nat.add_assoc]
  obtain ⟨m, reached⟩ := reached
  constructor
  · exact fun p member => (plain p member).1
  · refine ⟨m, ?_, fun _ => reached⟩
    rw [reached]
    rfl

theorem emptied_word (q : TxQueue) (l : List Nat) (log : List Effect) (b : Nat) :
    ((q.emptied l log).bufs b).rsIdx = (q.bufs b).rsIdx := by
  unfold TxQueue.emptied
  dsimp only
  split
  · rfl
  · rfl

theorem afterClean (v : RingInv s) (k : Nat) (log : List Effect) :
    RingInv ⟨{ s.q.emptied (idsOf (s.pkts.take k)) log with nextToClean := s.head k },
      s.pkts.drop k⟩ := by
  have split := slotsOf_take s.pkts k
  have once := v.once
  rw [split] at once
  have room := v.room
  rw [split, List.length_append] at room
  have apart : ∀ b ∈ slotsOf (s.pkts.drop k), b ∉ idsOf (s.pkts.take k) := by
    intro b later sooner
    exact (List.nodup_append.mp once).2.2 _ (ids_subset (v.heldFirst k) sooner) _ later rfl
  constructor
  · exact v.flow
  · exact Nat.mod_lt _ v.pos
  · exact v.pool
  · have kept := v.words.emptied (idsOf (s.pkts.take k)) log
    constructor
    · exact kept.count
    · exact kept.plain
    · exact fun b => rfl
    · intro b
      change ((s.q.emptied _ log).bufs b).rsIdx < _
      rw [emptied_word]
      exact v.words.inside b
  · change slotsOf (s.pkts.drop k) = ringSlots s.q.descCount (s.head k) _
    rw [RingSystem.head, ringSlots_mod]
    exact (v.first k).2
  · change (slotsOf (s.pkts.drop k)).length < s.q.descCount
    omega
  · change s.q.nextToUse = (s.head k + (slotsOf (s.pkts.drop k)).length) % s.q.descCount
    rw [RingSystem.head, Nat.mod_add_mod, v.use, split, List.length_append, Nat.add_assoc]
  · intro p member
    apply (v.held p (List.mem_of_mem_drop member)).congr
    intro i own
    exact TxQueue.emptied_other _ log (apart i (List.mem_flatMap.mpr ⟨p, member, own⟩))
  · intro i low out
    change ((s.q.emptied (idsOf (s.pkts.take k)) log).bufs i).type = _
    by_cases first : i ∈ idsOf (s.pkts.take k)
    · unfold TxQueue.emptied
      dsimp only
      rw [if_pos first]
    · rw [TxQueue.emptied_other _ _ first]
      by_cases slot : i ∈ slotsOf (s.pkts.take k)
      · exact unfilled (v.heldFirst k) slot first
      · apply v.idle i low
        rw [split]
        intro member
        cases List.mem_append.mp member with
        | inl sooner => exact slot sooner
        | inr later => exact out later

/-- The slots from `next_to_use` on, as many as there is room for, belong to no packet. -/
theorem ahead (v : RingInv s) {m b : Nat} (room : m + (slotsOf s.pkts).length ≤ s.q.descCount)
    (member : b ∈ ringSlots s.q.descCount s.q.nextToUse m) :
    b < s.q.descCount ∧ b ∉ slotsOf s.pkts := by
  obtain ⟨j, low, rfl⟩ := mem_ringSlots.mp member
  refine ⟨Nat.mod_lt _ v.pos, ?_⟩
  intro taken
  rw [v.slots] at taken
  obtain ⟨i, before, same⟩ := mem_ringSlots.mp taken
  rw [v.use, Nat.mod_add_mod] at same
  exact mod_ne_of_near (by omega) (by omega) same

/-- Before a packet that fits, the buffers that it takes are slots that no packet on the ring has. -/
theorem room_ids (v : RingInv s) {pending thresh : Nat} {skb skb' : Skb} {env : SendEnv} {tso : Tso}
    (accepted : txSplitqAdmit s.q pending thresh skb env = .accept skb' tso)
    (fits : SendFits s.q env skb skb' tso) :
    ctxCount env skb' tso + planDescs (framePlan s.q env skb').1 + (slotsOf s.pkts).length <
        s.q.descCount ∧
      (frameIds s.q env skb' tso).Nodup ∧
      ∀ b ∈ frameIds s.q env skb' tso, b < s.q.descCount ∧ b ∉ slotsOf s.pkts := by
  have inRing : s.q.nextToUse < s.q.descCount := by
    rw [v.use]
    exact Nat.mod_lt _ v.pos
  have few := ((sendFits_iff inRing accepted 0).mp fits).trans (admit_room accepted)
  rw [(frame_written inRing accepted 0).1] at few
  have unused := descUnused_dist s.q v.clean inRing
  have used : ringDist s.q.descCount s.q.nextToClean s.q.nextToUse = (slotsOf s.pkts).length := by
    have dist := ringDist_mod (n := s.q.descCount) (c := s.q.nextToClean)
      (p := s.q.nextToClean + (slotsOf s.pkts).length) (Nat.le_add_right _ _)
      (by have := v.room; omega)
    rw [Nat.mod_eq_of_lt v.clean, ← v.use] at dist
    omega
  obtain ⟨-, order, -⟩ := @frameIds_ring s.q env skb' tso v.flow
  refine ⟨by omega, ?_, ?_⟩
  · exact (ringSlots_nodup _ (by omega)).sublist order
  · intro b member
    exact v.ahead (by omega) (order.subset member)

/-- A queue with the same ring and the same buffers. -/
theorem congr {q : TxQueue} (v : RingInv s) (same : s.q.Same q) (use : q.nextToUse = s.q.nextToUse)
    (bufs : ∀ b ∈ slotsOf s.pkts, q.bufs b = s.q.bufs b)
    (idle : ∀ i < s.q.descCount, i ∉ slotsOf s.pkts → (q.bufs i).type = .empty)
    (plain : ∀ b, (q.bufs b).type ≠ .ctx) (words : ∀ b, (q.bufs b).rsIdx < s.q.descCount) :
    RingInv ⟨q, s.pkts⟩ := by
  constructor
  · exact same.flowSchEn.trans v.flow
  · change q.nextToClean < q.descCount
    rw [same.nextToClean, same.descCount]
    exact v.clean
  · change q.bufPoolSize = q.descCount
    rw [same.bufPoolSize, same.descCount]
    exact v.pool
  · exact ⟨rfl, plain, fun b => rfl, fun b => same.descCount ▸ words b⟩
  · change _ = ringSlots q.descCount q.nextToClean _
    rw [same.descCount, same.nextToClean]
    exact v.slots
  · change _ < q.descCount
    rw [same.descCount]
    exact v.room
  · change q.nextToUse = (q.nextToClean + _) % q.descCount
    rw [use, same.nextToClean, same.descCount]
    exact v.use
  · intro p member
    apply (v.held p member).congr
    exact fun i own => bufs i (List.mem_flatMap.mpr ⟨p, member, own⟩)
  · intro i low out
    have low : i < q.descCount := low
    rw [same.descCount] at low
    exact idle i low out

/-- A new packet behind those on the ring. -/
theorem push {q : TxQueue} {p : RingPacket} (v : RingInv s) (same : s.q.Same q)
    (room : (slotsOf s.pkts).length + p.slots.length < s.q.descCount)
    (slots : p.slots = ringSlots s.q.descCount s.q.nextToUse p.slots.length)
    (use : q.nextToUse = (s.q.nextToUse + p.slots.length) % s.q.descCount) (held : p.Held q)
    (bufs : ∀ b, b ∉ p.slots → q.bufs b = s.q.bufs b)
    (plain : ∀ b, (q.bufs b).type ≠ .ctx) (words : ∀ b, (q.bufs b).rsIdx < s.q.descCount) :
    RingInv ⟨q, s.pkts ++ [p]⟩ := by
  have all : slotsOf (s.pkts ++ [p]) = slotsOf s.pkts ++ p.slots := by
    unfold slotsOf
    rw [List.flatMap_append, List.flatMap_singleton]
  have row : p.slots = ringSlots s.q.descCount
      (s.q.nextToClean + (slotsOf s.pkts).length) p.slots.length := by
    rw [v.use, ringSlots_mod] at slots
    exact slots
  have apart : ∀ b ∈ slotsOf s.pkts, b ∉ p.slots := by
    intro b old new
    rw [v.slots] at old
    rw [row] at new
    obtain ⟨i, before, rfl⟩ := mem_ringSlots.mp old
    obtain ⟨j, low, same⟩ := mem_ringSlots.mp new
    exact mod_ne_of_near (by omega) (by omega) same.symm
  constructor
  · exact same.flowSchEn.trans v.flow
  · change q.nextToClean < q.descCount
    rw [same.nextToClean, same.descCount]
    exact v.clean
  · change q.bufPoolSize = q.descCount
    rw [same.bufPoolSize, same.descCount]
    exact v.pool
  · exact ⟨rfl, plain, fun b => rfl, fun b => same.descCount ▸ words b⟩
  · change slotsOf (s.pkts ++ [p]) = ringSlots q.descCount q.nextToClean _
    rw [same.descCount, same.nextToClean, all, List.length_append, ringSlots_append, ← v.slots,
      ← row]
  · change (slotsOf (s.pkts ++ [p])).length < q.descCount
    rw [all, List.length_append, same.descCount]
    exact room
  · change q.nextToUse = (q.nextToClean + (slotsOf (s.pkts ++ [p])).length) % q.descCount
    rw [use, same.nextToClean, same.descCount, all, List.length_append, v.use, Nat.mod_add_mod,
      Nat.add_assoc]
  · intro x member
    cases List.mem_append.mp member with
    | inl old =>
        apply (v.held x old).congr
        intro i own
        exact bufs i (apart i (List.mem_flatMap.mpr ⟨x, old, own⟩))
    | inr new =>
        rw [List.mem_singleton.mp new]
        exact held
  · intro i low out
    have low : i < q.descCount := low
    have out : i ∉ slotsOf (s.pkts ++ [p]) := out
    rw [all] at out
    rw [same.descCount] at low
    change (q.bufs i).type = _
    rw [bufs i fun new => out (List.mem_append_right _ new)]
    exact v.idle i low fun old => out (List.mem_append_left _ old)

theorem takenBack {q : TxQueue} {skbId : Nat} {l : List Nat} (v : RingInv s) (same : s.q.Same q)
    (use : q.nextToUse = s.q.nextToUse) (apart : ∀ b ∈ l, b ∉ slotsOf s.pkts)
    (back : Rewound s.q skbId l q) : RingInv ⟨q, s.pkts⟩ := by
  apply v.congr same use
  · intro b old
    exact back.other b fun new => apart b new old
  · intro i low out
    by_cases taken : i ∈ l
    · exact back.idle i taken
    · rw [back.other i taken]
      exact v.idle i low out
  · intro b
    by_cases taken : b ∈ l
    · rw [back.idle b taken]
      exact fun same => SqeType.noConfusion same
    · rw [back.other b taken]
      exact v.words.plain b
  · intro b
    rw [back.words]
    exact v.words.inside b

theorem handed_plain {q q' : TxQueue} {skbId i b : Nat} {tsyn : Bool} {l : List Nat}
    {mapped : List (Nat × DmaMap)} (given : HandedOver q skbId tsyn l i mapped q') (own : b ∈ l) :
    (q'.bufs b).type ≠ .ctx := by
  rw [← given.bufs] at own
  obtain ⟨x, member, rfl⟩ := List.mem_map.mp own
  cases mapped with
  | nil => cases member
  | cons y ys =>
      cases List.mem_cons.mp member with
      | inl first =>
          rw [first, (given.first y rfl).1]
          cases tsyn with
          | true => exact fun same => SqeType.noConfusion same
          | false => exact fun same => SqeType.noConfusion same
      | inr later =>
          rw [(given.rest x later).1]
          exact fun same => SqeType.noConfusion same

/-- A packet gets to the device. -/
theorem handedOver {q : TxQueue} {skbId i : Nat} {tsyn : Bool} {l slots : List Nat}
    {mapped : List (Nat × DmaMap)} (v : RingInv s) (same : s.q.Same q)
    (given : HandedOver s.q skbId tsyn l i mapped q) (some : l ≠ []) (order : l.Sublist slots)
    (row : slots = ringSlots s.q.descCount s.q.nextToUse slots.length)
    (room : slots.length + (slotsOf s.pkts).length < s.q.descCount)
    (use : q.nextToUse = (s.q.nextToUse + slots.length) % s.q.descCount)
    (last : slots.getLast? = Option.some i) :
    RingInv ⟨q, s.pkts ++ [⟨skbId, tsyn, slots, mapped⟩]⟩ := by
  have ahead : ∀ b ∈ slots, b < s.q.descCount ∧ b ∉ slotsOf s.pkts := by
    intro b member
    rw [row] at member
    exact v.ahead room.le member
  apply v.push same
  · rw [Nat.add_comm]
    exact room
  · exact row
  · exact use
  · constructor
    · intro none
      apply some
      rw [← given.bufs]
      exact congrArg (List.map Prod.fst) none
    · intro x member
      obtain ⟨type, skb, dma, -⟩ := given.first x member
      exact ⟨type, skb, dma⟩
    · exact given.rest
    · intro x member
      rw [(given.first x member).2.2.2]
      exact last
    · change (mapped.map Prod.fst).Sublist slots
      rw [given.bufs]
      exact order
    · intro b member out
      have free : b ∉ l := given.bufs ▸ out
      obtain ⟨low, spare⟩ := ahead b member
      rw [given.other b free]
      exact v.idle b low spare
  · intro b out
    exact given.other b fun own => out (order.subset own)
  · intro b
    by_cases own : b ∈ l
    · exact handed_plain given own
    · rw [given.other b own]
      exact v.words.plain b
  · intro b
    cases given.words b with
    | inl new => exact new ▸ (ahead i (List.mem_of_getLast? last)).1
    | inr old => exact old ▸ v.words.inside b

theorem send (v : RingInv s) {pending thresh : Nat} {skb : Skb} {env : SendEnv}
    (fits : ∀ skb' tso, txSplitqAdmit s.q pending thresh skb env = .accept skb' tso →
      SendFits s.q env skb skb' tso) (skbId : Nat) :
    RingInv (s.send pending thresh skbId skb env) := by
  have inRing : s.q.nextToUse < s.q.descCount := by
    rw [v.use]
    exact Nat.mod_lt _ v.pos
  have unsent (verdict : (txSplitqFrame s.q pending thresh skbId skb env).verdict ≠ .sent) :
      s.send pending thresh skbId skb env =
        ⟨(txSplitqFrame s.q pending thresh skbId skb env).q, s.pkts⟩ := by
    unfold RingSystem.send
    dsimp only
    rw [if_neg verdict]
  by_cases accepted : ∃ skb' tso, txSplitqAdmit s.q pending thresh skb env = .accept skb' tso
  · obtain ⟨skb', tso, accepted⟩ := accepted
    obtain ⟨room, once, apart⟩ := v.room_ids accepted (fits skb' tso accepted)
    obtain ⟨some, order, whole⟩ := @frameIds_ring s.q env skb' tso v.flow
    have idle : ∀ b ∈ frameIds s.q env skb' tso, (s.q.bufs b).type = .empty :=
      fun b member => v.idle b (apart b member).1 (apart b member).2
    have pool : (frameIds s.q env skb' tso).length ≤ s.q.bufPoolSize := by
      have length := order.length_le
      rw [ringSlots_length] at length
      rw [v.pool]
      omega
    have buffers := frame_buffers inRing accepted some once idle pool skbId
    obtain ⟨-, spent, -⟩ | ⟨carried, -, done⟩ := frame_accepted inRing accepted skbId
    · unfold nextRefill at spent
      rw [v.flow] at spent
      cases spent
    · cases done with
      | inl failed =>
          obtain ⟨verdict, -, -, -, use⟩ := failed
          obtain ⟨-, back⟩ | ⟨sent, -⟩ := buffers
          · rw [unsent (verdict ▸ fun same => Verdict.noConfusion same)]
            exact v.takenBack carried.same use (fun b new => (apart b new).2) back
          · cases verdict.symm.trans sent
      | inr sent =>
          obtain ⟨verdict, good, -, use, -, -⟩ := sent
          obtain ⟨failed, -⟩ | ⟨-, i, given, last⟩ := buffers
          · cases verdict.symm.trans failed
          · have inside : (frameIds s.q env skb' tso).Sublist
                (txSplitqFrame s.q pending thresh skbId skb env).slots := by
              rw [carried.slots, carried.length]
              exact whole good
            have few : (txSplitqFrame s.q pending thresh skbId skb env).slots.length +
                (slotsOf s.pkts).length < s.q.descCount := by
              rw [carried.length]
              exact room
            have result := v.handedOver carried.same given some inside carried.slots few use last
            unfold RingSystem.send
            rw [accepted]
            dsimp only
            rw [if_pos verdict]
            exact result
  · have refused : ∀ skb' tso, txSplitqAdmit s.q pending thresh skb env ≠ .accept skb' tso :=
      fun skb' tso same => accepted ⟨skb', tso, same⟩
    have plain := v.words.plain
    have words : ∀ b, (s.q.bufs b).rsIdx < s.q.descCount := v.words.inside
    obtain ⟨-, -, -, -, ⟨verdict, after⟩ | ⟨verdict, -, after⟩⟩ := frame_refused refused skbId
    · rw [unsent (verdict ▸ fun same => Verdict.noConfusion same), after]
      exact ⟨v.flow, v.clean, v.pool, ⟨rfl, plain, fun _ => rfl, words⟩, v.slots, v.room, v.use,
        fun p member => (v.held p member).congr fun _ _ => rfl, v.idle⟩
    · rw [unsent (verdict ▸ fun same => Verdict.noConfusion same), after]
      exact ⟨v.flow, v.clean, v.pool, ⟨rfl, plain, fun _ => rfl, words⟩, v.slots, v.room, v.use,
        fun p member => (v.held p member).congr fun _ _ => rfl, v.idle⟩

theorem start {c : TxConfig} : RingInv c.ringInit := by
  have some : 0 < c.descCount := (by decide : 0 < minTxqDesc).trans_le c.descMin
  constructor
  · rfl
  · exact some
  · rfl
  · exact ⟨rfl, fun b same => SqeType.noConfusion same, fun b => rfl, fun b => some⟩
  · rfl
  · exact some
  · exact (Nat.zero_mod _).symm
  · exact fun p member => absurd member List.not_mem_nil
  · exact fun i _ _ => rfl

theorem cleaning {t : RingSystem} (v : RingInv s) (fine : s.Cleanable k) {fuel : Nat}
    (taken : s.step (.clean k fuel) = some t) : RingInv t := by
  simp only [RingSystem.step, Option.ite_none_right_eq_some, Option.some.injEq] at taken
  obtain ⟨⟨inside, stop⟩, rfl⟩ := taken
  obtain ⟨j, -, loop, before, -⟩ := v.looped k fuel
  have place := stop
  rw [loop] at place
  have result := v.stretch (v.landed fine.leads place before)
  have after := v.afterClean k (s.q.mem.log ++ (s.pkts.take k).flatMap RingPacket.slotEffects)
  rw [← result] at after
  rw [stop, loop]
  exact after

theorem step {t : RingSystem} {o : RingOp} (v : RingInv s) (fine : s.ok o)
    (taken : s.step o = some t) : RingInv t := by
  cases o with
  | send pending thresh skbId skb env => exact Option.some.inj taken ▸ v.send fine skbId
  | clean k fuel => exact v.cleaning fine taken

theorem reached (run : Reachable RingSystem.step RingSystem.ok RingStart s) : RingInv s := by
  apply run.invariant
  · rintro s ⟨c, rfl⟩
    exact start
  · intro s o t v fine taken
    exact v.step fine taken

end RingInv

/-- Steps that go well because no packet on the ring has a context descriptor. -/
def RingSystem.plainly (s : RingSystem) : RingOp → Bool
  | .send pending thresh _ skb env =>
    match txSplitqAdmit s.q pending thresh skb env with
    | .accept skb' tso => decide (SendFits s.q env skb skb' tso)
    | _ => true
  | .clean k _ => decide (∀ p ∈ s.pkts.take k, p.Plain)

theorem plainly_reached {s : RingSystem}
    (run : Reachable RingSystem.step (fun s o => s.plainly o = true) RingStart s) :
    Reachable RingSystem.step RingSystem.ok RingStart s := by
  induction run with
  | start fresh => exact .start fresh
  | @next s o t _ passed taken ih =>
      apply ih.next _ taken
      cases o with
      | send pending thresh skbId skb env =>
          intro skb' tso accepted
          simp only [RingSystem.plainly, accepted, decide_eq_true_eq] at passed
          exact passed
      | clean k fuel => exact (RingInv.reached ih).cleanable_plain (of_decide_eq_true passed)

/-- Were there a refill queue, the loop would undo just the packets before the head, as long as
those it meets have neither context descriptors nor timestamps. -/
theorem ring_clean_plain {s : RingSystem}
    (run : Reachable RingSystem.step (fun s o => s.plainly o = true) RingStart s) {k : Nat}
    (plain : ∀ p ∈ s.pkts.take k, p.Plain) : s.Exact k :=
  have v := RingInv.reached (plainly_reached run)
  v.exact_iff.mpr (v.cleanable_plain plain)

/-- `idpf_txq_has_room` is called and gets to its last test, which reads `tx.refillq`. -/
def txReadsRefillq (q : TxQueue) (pending thresh : Nat) (skb : Skb) (env : SendEnv) : Bool :=
  let rc := txResCountRequired q.txMaxBufs env.linearize skb
  let tso := txTso env.cowHead rc.skb
  decide (rc.count ≠ 0 ∧ tso ≠ .error ∧
    rc.count + tso.count + skb.vlanTag.toNat ≤ q.descUnused ∧ pending ≤ thresh)

theorem reads_of_accepted {q : TxQueue} {pending thresh : Nat} {skb skb' : Skb} {env : SendEnv}
    {tso : Tso} (accepted : txSplitqAdmit q pending thresh skb env = .accept skb' tso) :
    txReadsRefillq q pending thresh skb env = true := by
  unfold txSplitqAdmit at accepted
  dsimp only at accepted
  split at accepted
  · cases accepted
  next some =>
    split at accepted
    · cases accepted
    next segmented =>
      split at accepted
      · cases accepted
      next room =>
        simp only [txqHasRoom, Bool.not_not, Bool.or_eq_true, decide_eq_true_eq, not_or,
          Nat.not_lt] at room
        exact decide_eq_true ⟨some, segmented, room.1.1, room.1.2⟩

/-- A queue with queue-based scheduling as the driver sets it up: `tx.refillq` is NULL, and whether
it has been read through. The refill queue in `ring` stands for nothing. -/
structure QschedQueue where
  ring : RingSystem
  fault : Bool

namespace QschedQueue

def step (s : QschedQueue) (o : RingOp) : Option QschedQueue :=
  if s.fault then none
  else
    match o with
    | .send pending thresh _ skb env =>
      if txReadsRefillq s.ring.q pending thresh skb env then some { s with fault := true }
      else (s.ring.step o).map fun ring => { s with ring }
    | .clean _ _ => (s.ring.step o).map fun ring => { s with ring }

def Start (s : QschedQueue) : Prop := ∃ c : TxConfig, s = ⟨c.ringInit, false⟩

/-- The transmit path came through, and the loop ends exactly at every boundary between packets. -/
def Sound (s : QschedQueue) : Prop := s.fault = false ∧ ∀ k, s.ring.Exact k

/-- A packet is dropped or the queue is busy before the refill queue is asked. -/
def ok (s : QschedQueue) : RingOp → Bool
  | .send pending thresh _ skb env => !txReadsRefillq s.ring.q pending thresh skb env
  | .clean _ _ => true

/-- What holds as long as no packet has found room: the ring stays empty. -/
structure Idle (s : QschedQueue) : Prop where
  inv : RingInv s.ring
  pkts : s.ring.pkts = []
  calm : s.fault = false

namespace Idle

variable {s t : QschedQueue}

theorem cleanable (v : Idle s) (k : Nat) : s.ring.Cleanable k := by
  apply v.inv.cleanable_plain
  rw [v.pkts, List.take_nil]
  exact nofun

theorem sound (v : Idle s) : s.Sound := ⟨v.calm, fun k => v.inv.exact_iff.mpr (v.cleanable k)⟩

theorem send (v : Idle s) {pending thresh skbId : Nat} {skb : Skb} {env : SendEnv}
    (refused : txReadsRefillq s.ring.q pending thresh skb env = false) :
    Idle ⟨s.ring.send pending thresh skbId skb env, s.fault⟩ := by
  have out : ∀ skb' tso, txSplitqAdmit s.ring.q pending thresh skb env ≠ .accept skb' tso :=
    fun skb' tso accepted => absurd (reads_of_accepted accepted) (by rw [refused]; decide)
  obtain ⟨-, -, -, -, verdicts⟩ := frame_refused out skbId
  have unsent : (txSplitqFrame s.ring.q pending thresh skbId skb env).verdict ≠ .sent := by
    rcases verdicts with ⟨dropped, -⟩ | ⟨busy, -⟩
    · rw [dropped]
      exact Verdict.noConfusion
    · rw [busy]
      exact Verdict.noConfusion
  refine ⟨v.inv.send (fun skb' tso accepted => absurd accepted (out skb' tso)) skbId, ?_, v.calm⟩
  exact (if_neg unsent).trans v.pkts

theorem clean (v : Idle s) {k fuel : Nat} {ring : RingSystem}
    (taken : s.ring.step (.clean k fuel) = some ring) : Idle ⟨ring, s.fault⟩ := by
  refine ⟨v.inv.cleaning (v.cleanable k) taken, ?_, v.calm⟩
  simp only [RingSystem.step, Option.ite_none_right_eq_some, Option.some.injEq] at taken
  obtain ⟨-, rfl⟩ := taken
  exact (congrArg (List.drop k) v.pkts).trans List.drop_nil

theorem step {o : RingOp} (v : Idle s) (taken : s.step o = some t) :
    s.ok o = true ∧ Idle t ∨ s.ok o = false ∧ t.fault = true := by
  unfold QschedQueue.step at taken
  rw [if_neg (by rw [v.calm]; exact Bool.false_ne_true)] at taken
  cases o with
  | send pending thresh skbId skb env =>
      change (!txReadsRefillq s.ring.q pending thresh skb env) = true ∧ _ ∨
        (!txReadsRefillq s.ring.q pending thresh skb env) = false ∧ _
      cases reads : txReadsRefillq s.ring.q pending thresh skb env with
      | true =>
          simp only [reads, if_true, Option.some.injEq] at taken
          exact .inr ⟨rfl, taken ▸ rfl⟩
      | false =>
          simp only [reads, Bool.false_eq_true, if_false] at taken
          obtain ⟨ring, sent, rfl⟩ := Option.map_eq_some_iff.mp taken
          obtain rfl := Option.some.inj sent
          exact .inl ⟨rfl, v.send reads⟩
  | clean k fuel =>
      obtain ⟨ring, cleaned, rfl⟩ := Option.map_eq_some_iff.mp taken
      exact .inl ⟨rfl, v.clean cleaned⟩

end Idle

theorem idle_of_reachable {s : QschedQueue}
    (run : Reachable step (fun s o => s.ok o = true) Start s) : Idle s := by
  apply run.invariant
  · rintro s ⟨c, rfl⟩
    exact ⟨RingInv.start, rfl, rfl⟩
  · intro s o t v fine taken
    obtain ⟨-, idle⟩ | ⟨reads, -⟩ := v.step taken
    · exact idle
    · exact Bool.noConfusion (reads.symm.trans fine)

end QschedQueue

/-- As long as each packet is refused before the refill queue is read, the transmit path comes
through and the loop is exact; the first packet that is not ends that. -/
theorem ring_clean_exact_iff {s : QschedQueue}
    (run : Reachable QschedQueue.step (fun s o => s.ok o = true) QschedQueue.Start s) :
    s.Sound ∧ ∀ o t, s.step o = some t → (t.Sound ↔ s.ok o = true) := by
  have v := QschedQueue.idle_of_reachable run
  refine ⟨v.sound, fun o t taken => ?_⟩
  obtain ⟨fine, idle⟩ | ⟨reads, faulted⟩ := v.step taken
  · exact iff_of_true idle.sound fine
  · apply iff_of_false
    · intro sound
      exact Bool.noConfusion (faulted.symm.trans sound.1)
    · rw [reads]
      exact Bool.false_ne_true

def ringDefault : TxConfig where
  numTxq := 1
  descCount := 512
  complqDescCount := 512
  txMaxBufs := 8
  missCap := false
  xdp := fun _ => false
  descMin := minTxqDesc_le_dflt
  descMax := dflt_le_maxDescs
  complqMin := minTxqComplqDesc_le_dflt
  complqMax := dflt_le_maxDescs

/-- A packet finds too many completions pending, one of too many fragments cannot be linearized,
and a pass over the empty ring is exact. -/
theorem ring_clean_exact_refused :
    ∃ s : QschedQueue, s.ring.q.stopped = true ∧ s.ring.q.mem.log = [.consumeSkb 2] ∧ s.Sound ∧
      ∀ o t, s.step o = some t → (t.Sound ↔ s.ok o = true) := by
  have run : (execIf QschedQueue.step QschedQueue.ok ⟨ringDefault.ringInit, false⟩
      [.send 300 256 1 { headlen := 100 } {},
        .send 0 256 2 { headlen := 100, frags := List.replicate 17 100 } { linearize := false },
        .clean 0 1]).map (fun s => (s.ring.q.stopped, s.ring.q.mem.log)) =
        some (true, [.consumeSkb 2]) := by
    decide +kernel
  obtain ⟨s, steps, seen⟩ := Option.map_eq_some_iff.mp run
  simp only [Prod.mk.injEq] at seen
  exact ⟨s, seen.1, seen.2,
    ring_clean_exact_iff (Reachable.execIf (.start ⟨ringDefault, rfl⟩) steps)⟩

/-- The first packet, with the ring empty and no completion pending, ends in the room check. -/
theorem ring_clean_first_packet :
    ∃ s t : QschedQueue, QschedQueue.Start s ∧
      s.step (.send 0 256 1 { headlen := 100 } {}) = some t ∧ t.fault = true ∧ ¬ t.Sound := by
  refine ⟨⟨ringDefault.ringInit, false⟩, ⟨ringDefault.ringInit, true⟩, ⟨ringDefault, rfl⟩, ?_,
    rfl, fun sound => Bool.noConfusion sound.1⟩
  have reads : txReadsRefillq ringDefault.ringInit.q 0 256 { headlen := 100 } {} = true := by
    decide
  unfold QschedQueue.step
  rw [if_neg Bool.false_ne_true]
  dsimp only
  rw [if_pos reads]

end Idpf
