import Idpf.General.Deal
import Idpf.Tx.Basic
import Idpf.Vport.QueueIds

/-! Which vector each queue of a vport is mapped to, and the arrays of a vector. -/
namespace Idpf
open General

/-- The arrays of `struct idpf_q_vector`. -/
inductive VecKind where
  | rx | bufq | tx
  deriving DecidableEq, Repr

/-- The queues that get a vector, by group and place in it. -/
inductive VecQueue where
  | rx (i j : Nat)
  | bufq (i j : Nat)
  | txq (i j : Nat)
  | complq (i : Nat)
  deriving DecidableEq, Repr

def VecQueue.kind : VecQueue → VecKind
  | .rx _ _ => .rx
  | .bufq _ _ => .bufq
  | .txq _ _ | .complq _ => .tx

/-- What has been mapped: the arrays of each vector, as far as they are filled, and `q_vector` of
each queue. -/
structure VectorMap where
  arrays : VecKind → Nat → List VecQueue
  qVector : VecQueue → Option Nat

def VectorMap.empty : VectorMap := ⟨fun _ _ => [], fun _ => none⟩

/-- A queue gets vector `v`, in whose array it takes the next entry. -/
def VectorMap.put (m : VectorMap) (q : VecQueue) (v : Nat) : VectorMap where
  arrays := fun k w => if k = q.kind ∧ w = v then m.arrays k w ++ [q] else m.arrays k w
  qVector := Function.update m.qVector q (some v)

/-- How many entries `idpf_vport_intr_alloc` gives the arrays of a vector; without the split model
there is none for buffer queues. -/
def intrAllocEntries (r : QVecRsrc) (numQVectors : Nat) (xdp : Bool) : VecKind → Nat
  | .rx => u16 ((r.numRxq + numQVectors - 1) / numQVectors)
  | .bufq =>
    if r.rxSplit then
      u16 (r.numBufqsPerQgrp * u16 ((r.numRxq + numQVectors - 1) / numQVectors))
    else 0
  | .tx =>
    let need := if r.txSplit then r.numComplq else r.numTxq
    let txqs := u16 ((need + numQVectors - 1) / numQVectors)
    if xdp then u16 (2 * txqs) else txqs

/-- The loop over the queues of a group, with `qv_idx`. -/
def mapQueues (n : Nat) : List VecQueue → VectorMap × Nat → VectorMap × Nat
  | [], s => s
  | q :: qs, (m, qvIdx) =>
    let v := if n ≤ qvIdx then 0 else qvIdx
    mapQueues n qs (m.put q v, v + 1)

def groupRxqs (i size : Nat) : List VecQueue := (List.range size).map (.rx i)

def groupBufqs (r : QVecRsrc) (i : Nat) : List VecQueue :=
  (List.range r.numBufqsPerQgrp).map (.bufq i)

def groupTxqs (r : QVecRsrc) (i size : Nat) : List VecQueue :=
  if r.txSplit then [.complq i] else (List.range size).map (.txq i)

/-- The first loop of `idpf_vport_intr_map_vector_to_qs`, with `qv_idx` and `bufq_vidx`. -/
def mapRxGroups (r : QVecRsrc) (n : Nat) :
    List Nat → Nat → VectorMap × Nat → Nat → VectorMap
  | [], _, s, _ => s.1
  | size :: groups, i, s, bufqVidx =>
    let s := mapQueues n (groupRxqs i size) s
    if r.rxSplit then
      let m := (groupBufqs r i).foldl (fun m q => m.put q bufqVidx) s.1
      mapRxGroups r n groups (i + 1) (m, s.2) (if n ≤ bufqVidx + 1 then 0 else bufqVidx + 1)
    else mapRxGroups r n groups (i + 1) s bufqVidx

def mapTxGroups (r : QVecRsrc) (n : Nat) : List Nat → Nat → VectorMap × Nat → VectorMap
  | [], _, s => s.1
  | size :: groups, i, s => mapTxGroups r n groups (i + 1) (mapQueues n (groupTxqs r i size) s)

/-- `idpf_vport_intr_map_vector_to_qs`. -/
def intrMapVectorToQs (r : QVecRsrc) (n : Nat) (m : VectorMap) : VectorMap :=
  mapTxGroups r n r.txqGroups 0 (mapRxGroups r n r.rxqGroups 0 (m, 0) 0, 0)

/-- How `idpf_vport_open` comes to the mapping: vectors have been allotted, memory is there, and
`idpf_vport_queue_ids_init` has found enough IDs. The arrays are allocated before. -/
def openMapped (r : QVecRsrc) (numAllocVecs : Int) (xdp allocs : Bool) (chunks : List QueueChunk) :
    Option (VectorMap × (VecKind → Nat)) :=
  if numAllocVecs ≤ 0 then none
  else
    let n := numAllocVecs.toNat
    if !allocs then none
    else
      match queueIdsInit r chunks with
      | none => none
      | some _ => some (intrMapVectorToQs r n .empty, intrAllocEntries r n xdp)

def rxGroupQueues (r : QVecRsrc) : List Nat → Nat → List VecQueue
  | [], _ => []
  | size :: groups, i =>
    groupRxqs i size ++ (if r.rxSplit then groupBufqs r i else []) ++
      rxGroupQueues r groups (i + 1)

def txGroupQueues (r : QVecRsrc) : List Nat → Nat → List VecQueue
  | [], _ => []
  | size :: groups, i => groupTxqs r i size ++ txGroupQueues r groups (i + 1)

def QVecRsrc.vecQueues (r : QVecRsrc) : List VecQueue :=
  rxGroupQueues r r.rxqGroups 0 ++ txGroupQueues r r.txqGroups 0

/-- Each queue has one vector, in the array of which it is once and in no other; the arrays hold
nothing else, and no more than they have room for. -/
structure VectorMap.Mapped (m : VectorMap) (r : QVecRsrc) (n : Nat) (room : VecKind → Nat) :
    Prop where
  once : ∀ q ∈ r.vecQueues, ∃ v < n, m.qVector q = some v ∧
    ∀ k w, (m.arrays k w).count q = if k = q.kind ∧ w = v then 1 else 0
  only : ∀ k w, ∀ q ∈ m.arrays k w, q ∈ r.vecQueues
  room : ∀ k w, (m.arrays k w).length ≤ room k

namespace VectorMap

/-- Queues that are put one after the other, each with its vector. -/
def puts (m : VectorMap) (l : List (VecQueue × Nat)) : VectorMap :=
  l.foldl (fun m e => m.put e.1 e.2) m

variable {m : VectorMap} {l : List (VecQueue × Nat)}

theorem puts_append (l l' : List (VecQueue × Nat)) : m.puts (l ++ l') = (m.puts l).puts l' :=
  List.foldl_append

theorem puts_arrays (k : VecKind) (w : Nat) : (m.puts l).arrays k w =
    m.arrays k w ++ (l.filter fun e => e.1.kind = k ∧ e.2 = w).map Prod.fst := by
  induction l generalizing m with
  | nil => exact (List.append_nil _).symm
  | cons e l ih =>
      refine ih.trans ?_
      by_cases here : e.1.kind = k ∧ e.2 = w
      · have grown : (m.put e.1 e.2).arrays k w = m.arrays k w ++ [e.1] :=
          if_pos ⟨here.1.symm, here.2.symm⟩
        rw [List.filter_cons_of_pos (by simpa using here), grown, List.append_assoc]
        rfl
      · have kept : (m.put e.1 e.2).arrays k w = m.arrays k w :=
          if_neg fun there => here ⟨there.1.symm, there.2.symm⟩
        rw [List.filter_cons_of_neg (by simpa using here), kept]

theorem puts_qVector_of_not_mem {q : VecQueue} (absent : q ∉ l.map Prod.fst) :
    (m.puts l).qVector q = m.qVector q := by
  induction l generalizing m with
  | nil => rfl
  | cons e l ih =>
      rw [List.map_cons, List.mem_cons, not_or] at absent
      exact (ih absent.2).trans (Function.update_of_ne absent.1 _ _)

theorem puts_qVector (one : (l.map Prod.fst).Nodup) {q : VecQueue} {v : Nat}
    (member : (q, v) ∈ l) : (m.puts l).qVector q = some v := by
  induction l generalizing m with
  | nil => exact absurd member List.not_mem_nil
  | cons e l ih =>
      rw [List.map_cons, List.nodup_cons] at one
      rcases List.mem_cons.mp member with rfl | later
      · exact (puts_qVector_of_not_mem one.1).trans (Function.update_self ..)
      · exact ih one.2 later

theorem count_filter (one : (l.map Prod.fst).Nodup) {q : VecQueue} {v : Nat}
    (member : (q, v) ∈ l) (p : VecQueue × Nat → Bool) :
    ((l.filter p).map Prod.fst).count q = if p (q, v) = true then 1 else 0 := by
  have less : ((l.filter p).map Prod.fst).Nodup := one.sublist (List.filter_sublist.map _)
  split
  · next chosen =>
    exact List.count_eq_one_of_mem less
      (List.mem_map.mpr ⟨(q, v), List.mem_filter.mpr ⟨member, chosen⟩, rfl⟩)
  · next left =>
    rw [List.count_eq_zero]
    intro there
    obtain ⟨e, chosen, same⟩ := List.mem_map.mp there
    obtain ⟨old, on⟩ := List.mem_filter.mp chosen
    obtain rfl : e = (q, v) := List.inj_on_of_nodup_map one old member same
    exact left on

end VectorMap

/-- A loop index stands for turn `c`. -/
structure Turn (n qvIdx c : Nat) : Prop where
  inside : qvIdx ≤ n
  same : qvIdx % n = c % n

theorem Turn.wrap {n qvIdx c : Nat} (t : Turn n qvIdx c) :
    (if n ≤ qvIdx then 0 else qvIdx) = c % n := by
  rw [← t.same]
  split
  · next full =>
    rw [Nat.le_antisymm t.inside full, Nat.mod_self]
  · next less => exact (Nat.mod_eq_of_lt (Nat.lt_of_not_le less)).symm

theorem Turn.next {n c : Nat} (some : 0 < n) : Turn n (c % n + 1) (c + 1) :=
  ⟨Nat.mod_lt c some, by rw [Nat.add_mod, Nat.mod_mod, ← Nat.add_mod]⟩

theorem mapQueues_eq (qs : List VecQueue) {n c : Nat} (some : 0 < n) {s : VectorMap × Nat}
    (t : Turn n s.2 c) : (mapQueues n qs s).1 = s.1.puts (deal n c qs) ∧
      Turn n (mapQueues n qs s).2 (c + qs.length) := by
  induction qs generalizing s c with
  | nil => exact ⟨rfl, t⟩
  | cons q qs ih =>
      have wrapped := t.wrap
      rw [mapQueues, wrapped]
      have rest := ih (s := (s.1.put q (c % n), c % n + 1)) (Turn.next some)
      rw [List.length_cons, Nat.add_comm qs.length, ← Nat.add_assoc]
      exact rest

def rxDealt (r : QVecRsrc) (n : Nat) : List Nat → Nat → Nat → Nat → List (VecQueue × Nat)
  | [], _, _, _ => []
  | size :: groups, i, c, b =>
    deal n c (groupRxqs i size) ++
      ((if r.rxSplit then (groupBufqs r i).map fun q => (q, b % n) else []) ++
        rxDealt r n groups (i + 1) (c + size) (b + 1))

theorem groupRxqs_length (i size : Nat) : (groupRxqs i size).length = size := by
  simp [groupRxqs]

theorem mapRxGroups_eq {r : QVecRsrc} {n : Nat} (some : 0 < n) {groups : List Nat}
    {i c b bufqVidx qvIdx : Nat} {m : VectorMap} (t : Turn n qvIdx c)
    (at_ : r.rxSplit = true → bufqVidx = b % n) :
    mapRxGroups r n groups i (m, qvIdx) bufqVidx = m.puts (rxDealt r n groups i c b) := by
  induction groups generalizing i c b m qvIdx bufqVidx with
  | nil => rfl
  | cons size groups ih =>
      obtain ⟨map, turn⟩ := mapQueues_eq (groupRxqs i size) (s := (m, qvIdx)) some t
      rw [groupRxqs_length] at turn
      rw [mapRxGroups, rxDealt, VectorMap.puts_append, VectorMap.puts_append, ← map]
      dsimp only
      split
      · next split =>
        have next : (if n ≤ bufqVidx + 1 then 0 else bufqVidx + 1) = (b + 1) % n := by
          rw [at_ split]
          exact (Turn.next some).wrap
        refine (ih turn fun _ => next).trans ?_
        rw [at_ split]
        congr 1
        rw [VectorMap.puts, List.foldl_map]
      · next single => exact ih turn fun split => absurd split single

def QVecRsrc.dealt (r : QVecRsrc) (n : Nat) : List (VecQueue × Nat) :=
  rxDealt r n r.rxqGroups 0 0 0 ++ deal n 0 (txGroupQueues r r.txqGroups 0)

theorem mapTxGroups_eq {r : QVecRsrc} {n : Nat} (some : 0 < n) {groups : List Nat} {i c : Nat}
    {s : VectorMap × Nat} (t : Turn n s.2 c) :
    mapTxGroups r n groups i s = s.1.puts (deal n c (txGroupQueues r groups i)) := by
  induction groups generalizing i c s with
  | nil => rfl
  | cons size groups ih =>
      obtain ⟨map, turn⟩ := mapQueues_eq (groupTxqs r i size) some t
      rw [mapTxGroups, txGroupQueues, deal_append, VectorMap.puts_append, ← map]
      exact ih turn

theorem intrMapVectorToQs_eq {r : QVecRsrc} {n : Nat} (some : 0 < n) (m : VectorMap) :
    intrMapVectorToQs r n m = m.puts (r.dealt n) := by
  have start : Turn n 0 0 := ⟨Nat.zero_le n, rfl⟩
  rw [intrMapVectorToQs, mapTxGroups_eq some start,
    mapRxGroups_eq some start fun _ => (Nat.zero_mod n).symm, QVecRsrc.dealt,
    VectorMap.puts_append]

theorem rxDealt_fst (r : QVecRsrc) (n : Nat) (groups : List Nat) (i c b : Nat) :
    (rxDealt r n groups i c b).map Prod.fst = rxGroupQueues r groups i := by
  induction groups generalizing i c b with
  | nil => rfl
  | cons size groups ih =>
      have bufqs : (if r.rxSplit then (groupBufqs r i).map fun q => (q, b % n) else []).map
          Prod.fst = if r.rxSplit then groupBufqs r i else [] := by
        split
        · rw [List.map_map]
          exact List.map_id _
        · rfl
      rw [rxDealt, rxGroupQueues, List.map_append, List.map_append, deal_fst, bufqs, ih,
        List.append_assoc]

theorem dealt_fst (r : QVecRsrc) (n : Nat) : (r.dealt n).map Prod.fst = r.vecQueues := by
  rw [QVecRsrc.dealt, List.map_append, rxDealt_fst, deal_fst]
  rfl

theorem rxDealt_lt {r : QVecRsrc} {n : Nat} (some : 0 < n) {groups : List Nat} {i c b : Nat}
    {e : VecQueue × Nat} (member : e ∈ rxDealt r n groups i c b) : e.2 < n := by
  induction groups generalizing i c b with
  | nil => exact absurd member List.not_mem_nil
  | cons size groups ih =>
      rcases List.mem_append.mp member with rx | rest
      · exact deal_lt some rx
      · rcases List.mem_append.mp rest with bufq | later
        · split at bufq
          · obtain ⟨q, -, rfl⟩ := List.mem_map.mp bufq
            exact Nat.mod_lt b some
          · exact absurd bufq List.not_mem_nil
        · exact ih later

theorem dealt_lt {r : QVecRsrc} {n : Nat} (some : 0 < n) {e : VecQueue × Nat}
    (member : e ∈ r.dealt n) : e.2 < n :=
  (List.mem_append.mp member).elim (rxDealt_lt some) (deal_lt some)

/-! No queue is listed twice. -/

def VecQueue.group : VecQueue → Nat
  | .rx i _ | .bufq i _ | .txq i _ | .complq i => i

theorem groupRxqs_group {i size : Nat} {q : VecQueue} (member : q ∈ groupRxqs i size) :
    q.group = i ∧ q.kind = .rx := by
  obtain ⟨j, -, rfl⟩ := List.mem_map.mp member
  exact ⟨rfl, rfl⟩

theorem groupBufqs_group {r : QVecRsrc} {i : Nat} {q : VecQueue} (member : q ∈ groupBufqs r i) :
    q.group = i ∧ q.kind = .bufq := by
  obtain ⟨j, -, rfl⟩ := List.mem_map.mp member
  exact ⟨rfl, rfl⟩

theorem groupTxqs_group {r : QVecRsrc} {i size : Nat} {q : VecQueue}
    (member : q ∈ groupTxqs r i size) : q.group = i ∧ q.kind = .tx := by
  unfold groupTxqs at member
  split at member
  · rw [List.mem_singleton.mp member]
    exact ⟨rfl, rfl⟩
  · obtain ⟨j, -, rfl⟩ := List.mem_map.mp member
    exact ⟨rfl, rfl⟩

theorem groupTxqs_nodup (r : QVecRsrc) (i size : Nat) : (groupTxqs r i size).Nodup := by
  unfold groupTxqs
  split
  · exact List.nodup_singleton _
  · exact List.nodup_range.map fun a b same => (VecQueue.txq.inj same).2

/-- The queues of the Rx groups from the `i`-th on. -/
theorem rxGroupQueues_group {r : QVecRsrc} {groups : List Nat} {i : Nat} {q : VecQueue}
    (member : q ∈ rxGroupQueues r groups i) : i ≤ q.group ∧ q.kind ≠ .tx := by
  induction groups generalizing i with
  | nil => exact absurd member List.not_mem_nil
  | cons size groups ih =>
      rcases List.mem_append.mp member with here | later
      · rcases List.mem_append.mp here with rx | bufq
        · obtain ⟨group, kind⟩ := groupRxqs_group rx
          exact ⟨group.ge, by simp [kind]⟩
        · split at bufq
          · obtain ⟨group, kind⟩ := groupBufqs_group bufq
            exact ⟨group.ge, by simp [kind]⟩
          · exact absurd bufq List.not_mem_nil
      · exact ⟨Nat.le_of_succ_le (ih later).1, (ih later).2⟩

theorem txGroupQueues_group {r : QVecRsrc} {groups : List Nat} {i : Nat} {q : VecQueue}
    (member : q ∈ txGroupQueues r groups i) : i ≤ q.group ∧ q.kind = .tx := by
  induction groups generalizing i with
  | nil => exact absurd member List.not_mem_nil
  | cons size groups ih =>
      rcases List.mem_append.mp member with here | later
      · obtain ⟨group, kind⟩ := groupTxqs_group here
        exact ⟨group.ge, kind⟩
      · exact ⟨Nat.le_of_succ_le (ih later).1, (ih later).2⟩

theorem rxGroupQueues_nodup (r : QVecRsrc) (groups : List Nat) (i : Nat) :
    (rxGroupQueues r groups i).Nodup := by
  induction groups generalizing i with
  | nil => exact List.nodup_nil
  | cons size groups ih =>
      have rxqs : (groupRxqs i size).Nodup :=
        List.nodup_range.map fun a b same => (VecQueue.rx.inj same).2
      have bufqs : (if r.rxSplit then groupBufqs r i else []).Nodup := by
        split
        · exact List.nodup_range.map fun a b same => (VecQueue.bufq.inj same).2
        · exact List.nodup_nil
      have bufq {q : VecQueue} (member : q ∈ if r.rxSplit then groupBufqs r i else []) :
          q.group = i ∧ q.kind = .bufq := by
        split at member
        · exact groupBufqs_group member
        · exact absurd member List.not_mem_nil
      rw [rxGroupQueues, List.nodup_append]
      refine ⟨List.nodup_append.mpr ⟨rxqs, bufqs, ?_⟩, ih (i + 1), ?_⟩
      · rintro a rx b buf rfl
        exact VecKind.noConfusion ((groupRxqs_group rx).2.symm.trans (bufq buf).2)
      · rintro a here b later rfl
        have group : a.group = i := (List.mem_append.mp here).elim
          (fun rx => (groupRxqs_group rx).1) fun buf => (bufq buf).1
        have := (rxGroupQueues_group later).1
        omega

theorem txGroupQueues_nodup (r : QVecRsrc) (groups : List Nat) (i : Nat) :
    (txGroupQueues r groups i).Nodup := by
  induction groups generalizing i with
  | nil => exact List.nodup_nil
  | cons size groups ih =>
      rw [txGroupQueues, List.nodup_append]
      refine ⟨groupTxqs_nodup r i size, ih (i + 1), ?_⟩
      rintro a here b later rfl
      have group := (groupTxqs_group here).1
      have := (txGroupQueues_group later).1
      omega

theorem vecQueues_nodup (r : QVecRsrc) : r.vecQueues.Nodup := by
  refine List.nodup_append.mpr ⟨rxGroupQueues_nodup .., txGroupQueues_nodup .., ?_⟩
  rintro a rx b tx rfl
  exact (rxGroupQueues_group rx).2 (txGroupQueues_group tx).2

/-! How many queues of a kind a vector gets. -/

def allRxqs : List Nat → Nat → List VecQueue
  | [], _ => []
  | size :: groups, i => groupRxqs i size ++ allRxqs groups (i + 1)

theorem allRxqs_length (groups : List Nat) (i : Nat) :
    (allRxqs groups i).length = groups.sum := by
  induction groups generalizing i with
  | nil => rfl
  | cons size groups ih => rw [allRxqs, List.length_append, groupRxqs_length, ih, List.sum_cons]

theorem countP_kind {l : List (VecQueue × Nat)} {k k' : VecKind} (w : Nat)
    (kind : ∀ e ∈ l, e.1.kind = k') : l.countP (fun e => e.1.kind = k ∧ e.2 = w) =
      if k = k' then l.countP (fun e => e.2 = w) else 0 := by
  split
  · next same =>
    refine List.countP_congr fun e member => ?_
    simp [kind e member, same]
  · next other =>
    rw [List.countP_eq_zero]
    intro e member both
    rw [decide_eq_true_eq] at both
    exact other (both.1.symm.trans (kind e member))

section counts

variable {r : QVecRsrc} {n : Nat} (w : Nat)

theorem groupRxqs_kind (n c i size : Nat) :
    ∀ e ∈ deal n c (groupRxqs i size), e.1.kind = .rx :=
  fun _ member => (groupRxqs_group (mem_of_deal member)).2

theorem txGroupQueues_kind (r : QVecRsrc) (n : Nat) :
    ∀ e ∈ deal n 0 (txGroupQueues r r.txqGroups 0), e.1.kind = .tx :=
  fun _ member => (txGroupQueues_group (mem_of_deal member)).2

theorem rxDealt_rx (groups : List Nat) (i c b : Nat) :
    (rxDealt r n groups i c b).countP (fun e => e.1.kind = .rx ∧ e.2 = w) =
      (deal n c (allRxqs groups i)).countP fun e => e.2 = w := by
  induction groups generalizing i c b with
  | nil => rfl
  | cons size groups ih =>
      have rxqs := countP_kind (k := .rx) w (groupRxqs_kind n c i size)
      have bufqs : (if r.rxSplit then (groupBufqs r i).map fun q => (q, b % n) else []).countP
          (fun e => e.1.kind = .rx ∧ e.2 = w) = 0 := by
        rw [List.countP_eq_zero]
        intro e member both
        split at member
        · obtain ⟨q, listed, rfl⟩ := List.mem_map.mp member
          have kind := (groupBufqs_group listed).2
          simp [kind] at both
        · exact absurd member List.not_mem_nil
      rw [rxDealt, allRxqs, deal_append, List.countP_append, List.countP_append,
        List.countP_append, rxqs, if_pos rfl, bufqs, Nat.zero_add, ih, groupRxqs_length]

theorem rxDealt_bufq (split : r.rxSplit = true) (groups : List Nat) (i c b : Nat) :
    (rxDealt r n groups i c b).countP (fun e => e.1.kind = .bufq ∧ e.2 = w) =
      r.numBufqsPerQgrp * (deal n b groups).countP fun e => e.2 = w := by
  induction groups generalizing i c b with
  | nil => rfl
  | cons size groups ih =>
      have rxqs := countP_kind (k := .bufq) w (groupRxqs_kind n c i size)
      have bufqs : ((groupBufqs r i).map fun q => (q, b % n)).countP
          (fun e => e.1.kind = .bufq ∧ e.2 = w) = if b % n = w then r.numBufqsPerQgrp else 0 := by
        have kind : ∀ e ∈ (groupBufqs r i).map fun q => (q, b % n), e.1.kind = .bufq := by
          intro e member
          obtain ⟨q, listed, rfl⟩ := List.mem_map.mp member
          exact (groupBufqs_group listed).2
        rw [countP_kind w kind, if_pos rfl]
        split
        · next here =>
          rw [List.countP_eq_length.mpr, List.length_map, groupBufqs, List.length_map,
            List.length_range]
          intro e member
          obtain ⟨q, -, rfl⟩ := List.mem_map.mp member
          exact decide_eq_true here
        · next away =>
          rw [List.countP_eq_zero]
          intro e member on
          obtain ⟨q, -, rfl⟩ := List.mem_map.mp member
          exact away (of_decide_eq_true on)
      rw [rxDealt, if_pos split, deal, List.countP_append, List.countP_append, rxqs,
        if_neg (by decide), bufqs, ih, List.countP_cons, Nat.zero_add, Nat.mul_add, Nat.add_comm]
      simp only [decide_eq_true_eq, mul_ite, Nat.mul_one, Nat.mul_zero]

theorem rxDealt_single (single : r.rxSplit = false) (groups : List Nat) (i c b : Nat) :
    (rxDealt r n groups i c b).countP (fun e => e.1.kind = .bufq ∧ e.2 = w) = 0 := by
  induction groups generalizing i c b with
  | nil => rfl
  | cons size groups ih =>
      have rxqs := countP_kind (k := .bufq) w (groupRxqs_kind n c i size)
      rw [rxDealt, single, List.countP_append, List.countP_append, rxqs, if_neg (by decide), ih]
      rfl

theorem dealt_rx : (r.dealt n).countP (fun e => e.1.kind = .rx ∧ e.2 = w) =
    (deal n 0 (allRxqs r.rxqGroups 0)).countP fun e => e.2 = w := by
  have tx := countP_kind (k := .rx) w (txGroupQueues_kind r n)
  rw [QVecRsrc.dealt, List.countP_append, rxDealt_rx, tx, if_neg (by decide), Nat.add_zero]

theorem dealt_bufq : (r.dealt n).countP (fun e => e.1.kind = .bufq ∧ e.2 = w) =
    if r.rxSplit then r.numBufqsPerQgrp * (deal n 0 r.rxqGroups).countP fun e => e.2 = w
    else 0 := by
  have tx := countP_kind (k := .bufq) w (txGroupQueues_kind r n)
  rw [QVecRsrc.dealt, List.countP_append, tx, if_neg (by decide), Nat.add_zero]
  split
  · next split => exact rxDealt_bufq w split ..
  · next single => exact rxDealt_single w (Bool.eq_false_iff.mpr single) ..

theorem dealt_tx : (r.dealt n).countP (fun e => e.1.kind = .tx ∧ e.2 = w) =
    (deal n 0 (txGroupQueues r r.txqGroups 0)).countP fun e => e.2 = w := by
  have tx := countP_kind (k := .tx) w (txGroupQueues_kind r n)
  have rx : (rxDealt r n r.rxqGroups 0 0 0).countP (fun e => e.1.kind = .tx ∧ e.2 = w) = 0 := by
    rw [List.countP_eq_zero]
    intro e member both
    rw [decide_eq_true_eq] at both
    have listed : e.1 ∈ rxGroupQueues r r.rxqGroups 0 :=
      rxDealt_fst r n r.rxqGroups 0 0 0 ▸ List.mem_map_of_mem member
    exact (rxGroupQueues_group listed).2 both.1
  rw [QVecRsrc.dealt, List.countP_append, rx, tx, if_pos rfl, Nat.zero_add]

end counts

theorem txGroupQueues_length (r : QVecRsrc) (groups : List Nat) (i : Nat) :
    (txGroupQueues r groups i).length = if r.txSplit then groups.length else groups.sum := by
  induction groups generalizing i with
  | nil => simp [txGroupQueues]
  | cons size groups ih =>
      rw [txGroupQueues, List.length_append, ih]
      unfold groupTxqs
      split
      · simp [Nat.add_comm]
      · simp

theorem share_le {k n : Nat} (some : 0 < n) : (k + n - 1) / n ≤ k := by
  rcases Nat.eq_zero_or_pos k with rfl | more
  · rw [Nat.zero_add, Nat.div_eq_of_lt (Nat.sub_lt some Nat.one_pos)]
  · have grows : k ≤ k * n := Nat.le_mul_of_pos_right k some
    refine Nat.div_le_of_le_mul ?_
    obtain ⟨k, rfl⟩ := Nat.exists_eq_succ_of_ne_zero more.ne'
    have : k ≤ n * k := Nat.le_mul_of_pos_left k some
    rw [Nat.mul_succ]
    omega

/-- The counts that `idpf_vport_queue_ids_init` lets pass. -/
theorem counts_of_ids {r : QVecRsrc} {chunks : List QueueChunk} {t : QueueTable}
    (found : queueIdsInit r chunks = some t) :
    r.numTxq ≤ 256 ∧ r.numRxq ≤ 256 ∧ (r.txSplit = true → r.numComplq ≤ 256) := by
  have enough := (queueIdsInit_eq_some.mp found).1
  have most (u : UsedKind) (member : u ∈ r.used) : u.num ≤ 256 := by
    have held := enough u member
    rw [ChunkWalk.entries_length] at held
    exact held.trans (Nat.min_le_left ..)
  refine ⟨most ⟨0, r.numTxq, r.txqGroups, true⟩ ?_, most ⟨1, r.numRxq, r.rxqGroups, !r.rxSplit⟩ ?_,
    fun split => most ⟨2, r.numComplq, r.complqGroups, false⟩ ?_⟩
  · simp [QVecRsrc.used]
  · simp [QVecRsrc.used]
  · simp [QVecRsrc.used, split]

/-- A share of at most 256 fits a `u16`. -/
theorem u16_share {k n : Nat} (some : 0 < n) (small : k ≤ 256) :
    u16 ((k + n - 1) / n) = (k + n - 1) / n ∧ (k + n - 1) / n ≤ 256 := by
  have less := share_le (k := k) some
  exact ⟨Nat.mod_eq_of_lt (by omega), less.trans small⟩

/-- The queues of the driver's own groups. -/
theorem calcNumQGroups_lengths (r : QVecRsrc) :
    (allRxqs r.calcNumQGroups.rxqGroups 0).length = r.numRxq ∧
      (r.rxSplit = true → r.calcNumQGroups.rxqGroups.length = r.numRxq) ∧
      (txGroupQueues r.calcNumQGroups r.calcNumQGroups.txqGroups 0).length =
        if r.txSplit then r.numComplq else r.numTxq := by
  refine ⟨?_, fun split => ?_, ?_⟩
  · rw [allRxqs_length]
    unfold QVecRsrc.rxqGroups QVecRsrc.calcNumQGroups
    cases r.rxSplit <;> simp
  · simp [QVecRsrc.rxqGroups, QVecRsrc.calcNumQGroups, split]
  · rw [txGroupQueues_length]
    unfold QVecRsrc.txqGroups QVecRsrc.calcNumQGroups
    cases r.txSplit <;> simp

/-- The shares of a vector fit its arrays. -/
theorem share_fits {r : QVecRsrc} {n : Nat} (some : 0 < n) (xdp : Bool)
    (octet : r.numBufqsPerQgrp < 256) (txqs : r.numTxq ≤ 256) (rxqs : r.numRxq ≤ 256)
    (complqs : r.txSplit = true → r.numComplq ≤ 256) (k : VecKind) (w : Nat) :
    (r.calcNumQGroups.dealt n).countP (fun e => e.1.kind = k ∧ e.2 = w) ≤
      intrAllocEntries r.calcNumQGroups n xdp k := by
  obtain ⟨rxLength, rxGroups, txLength⟩ := calcNumQGroups_lengths r
  obtain ⟨rxWord, rxMost⟩ := u16_share some rxqs
  cases k with
  | rx =>
      have share := deal_share some w (allRxqs r.calcNumQGroups.rxqGroups 0)
      rw [rxLength] at share
      rw [dealt_rx]
      exact share.trans rxWord.ge
  | bufq =>
      rw [dealt_bufq]
      change (if r.rxSplit then _ else _) ≤ if r.rxSplit then
        u16 (r.numBufqsPerQgrp * u16 ((r.numRxq + n - 1) / n)) else 0
      split
      · next split =>
        have share := deal_share some w r.calcNumQGroups.rxqGroups
        rw [rxGroups split] at share
        have product : r.numBufqsPerQgrp * ((r.numRxq + n - 1) / n) < 65536 := by
          have := Nat.mul_le_mul (Nat.le_of_lt_succ octet) rxMost
          omega
        rw [rxWord, u16, Nat.mod_eq_of_lt product]
        exact Nat.mul_le_mul_left _ share
      · exact Nat.le_refl 0
  | tx =>
      have share := deal_share some w (txGroupQueues r.calcNumQGroups r.calcNumQGroups.txqGroups 0)
      rw [txLength] at share
      have need : (if r.txSplit then r.numComplq else r.numTxq) ≤ 256 := by
        split
        · next split => exact complqs split
        · exact txqs
      obtain ⟨word, most⟩ := u16_share some need
      rw [dealt_tx]
      refine share.trans ?_
      change _ ≤ if xdp then u16 (2 * u16 (((if r.txSplit then r.numComplq else r.numTxq) + n - 1) /
        n)) else u16 (((if r.txSplit then r.numComplq else r.numTxq) + n - 1) / n)
      rw [word]
      cases xdp with
      | true =>
          have doubled : u16 (2 * (((if r.txSplit then r.numComplq else r.numTxq) + n - 1) / n)) =
              2 * (((if r.txSplit then r.numComplq else r.numTxq) + n - 1) / n) :=
            Nat.mod_eq_of_lt (by omega)
          rw [if_pos rfl, doubled]
          exact Nat.le_mul_of_pos_left _ (by decide)
      | false => exact Nat.le_refl _

/-- Whenever a vport comes as far as the mapping, each Rx queue, buffer queue and Tx or completion
queue has exactly one vector, and the arrays of all vectors have room. -/
theorem vectors_mapped {r : QVecRsrc} {numAllocVecs : Int} {xdp allocs : Bool}
    {chunks : List QueueChunk} {m : VectorMap} {room : VecKind → Nat}
    (octet : r.numBufqsPerQgrp < 256)
    (opened : openMapped r.calcNumQGroups numAllocVecs xdp allocs chunks = some (m, room)) :
    m.Mapped r.calcNumQGroups numAllocVecs.toNat room := by
  rw [openMapped] at opened
  split at opened
  · exact absurd opened.symm (Option.some_ne_none _)
  · next positive =>
    have some : 0 < numAllocVecs.toNat := by omega
    dsimp only at opened
    split at opened
    · exact absurd opened.symm (Option.some_ne_none _)
    · cases found : queueIdsInit r.calcNumQGroups chunks with
      | none =>
          rw [found] at opened
          exact absurd opened.symm (Option.some_ne_none _)
      | some table =>
          rw [found] at opened
          obtain ⟨rfl, rfl⟩ := Prod.mk.inj (Option.some.inj opened)
          obtain ⟨txqs, rxqs, complqs⟩ := counts_of_ids found
          have one : ((r.calcNumQGroups.dealt numAllocVecs.toNat).map Prod.fst).Nodup :=
            (dealt_fst r.calcNumQGroups numAllocVecs.toNat).symm ▸ vecQueues_nodup _
          have arrays (k : VecKind) (w : Nat) := VectorMap.puts_arrays (m := .empty)
            (l := r.calcNumQGroups.dealt numAllocVecs.toNat) k w
          rw [intrMapVectorToQs_eq some]
          constructor
          · intro q member
            rw [← dealt_fst r.calcNumQGroups numAllocVecs.toNat] at member
            obtain ⟨⟨q, v⟩, entry, rfl⟩ := List.mem_map.mp member
            refine ⟨v, dealt_lt some entry, VectorMap.puts_qVector one entry, fun k w => ?_⟩
            rw [arrays]
            refine (VectorMap.count_filter one entry _).trans (if_congr ?_ rfl rfl)
            exact decide_eq_true_iff.trans (and_congr eq_comm eq_comm)
          · intro k w q member
            rw [arrays] at member
            obtain ⟨e, chosen, rfl⟩ := List.mem_map.mp member
            rw [← dealt_fst r.calcNumQGroups numAllocVecs.toNat]
            exact List.mem_map_of_mem (List.mem_filter.mp chosen).1
          · intro k w
            rw [arrays]
            change ((List.filter _ _).map Prod.fst).length ≤ _
            rw [List.length_map, ← List.countP_eq_length_filter]
            exact share_fits some xdp octet txqs rxqs complqs k w

def threeQueues : QVecRsrc :=
  { QVecRsrc.zero true true with
    numTxq := 3, numRxq := 3, numComplq := 3, numBufq := 3, numBufqsPerQgrp := 1 }

/-- Two vectors share them. -/
theorem vectors_mapped_three :
    ∃ p, openMapped threeQueues.calcNumQGroups 2 true true
        ((List.range 4).map fun t => ⟨0, 4, t, 0, 3⟩) = some p ∧
      p.1.Mapped threeQueues.calcNumQGroups 2 p.2 := by
  obtain ⟨p, opened⟩ := Option.isSome_iff_exists.mp (show (openMapped threeQueues.calcNumQGroups 2
    true true ((List.range 4).map fun t => ⟨0, 4, t, 0, 3⟩)).isSome = true by decide +kernel)
  exact ⟨p, opened, vectors_mapped (by decide) opened⟩

end Idpf
