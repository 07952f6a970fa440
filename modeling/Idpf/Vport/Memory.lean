import Idpf.General.Owned
import Mathlib.Data.List.Range
import Mathlib.Data.List.TakeWhile

/-! The memory of a vport's vectors and queues: in what order it is allocated, and what each of the
release functions frees of what is held. The buffers of a queue count with the array that has
them. -/
namespace Idpf
open General

/-- The sizes of `idpf_q_vec_rsrc`, and the features that decide what is allocated. `zeroCopy` are
the XDP queues that have an AF_XDP pool. -/
structure VportSizes where
  numQVectors : Nat
  numTxqGrp : Nat
  numTxq : Nat
  numRxqGrp : Nat
  numRxq : Nat
  numBufqsPerQgrp : Nat
  txqSplit : Bool
  rxqSplit : Bool
  flowSchEn : Bool
  hsplitEn : Bool
  zeroCopy : List (Nat × Nat)

/-- The pointers: of the vectors, of the queue groups, and of the queues. In the single queue model
`rxq` is an entry of `rxqs`, else one of `rxq_sets`. -/
inductive VportPtr where
  | qVectors
  | vecTx (v : Nat)
  | vecRx (v : Nat)
  | vecBufq (v : Nat)
  | txqGrps
  | txqs (i : Nat)
  | txq (i j : Nat)
  | refillq (i j : Nat)
  | complq (i : Nat)
  | rxqGrps
  | rxq (i j : Nat)
  | bufqSets (i : Nat)
  | refillqs (i j : Nat)
  | swRing (i j k : Nat)
  | txBufs (i j : Nat)
  | txRing (i j : Nat)
  | refillRing (i j : Nat)
  | complRing (i : Nat)
  | rxRing (i j : Nat)
  | bufqRing (i j : Nat)
  | rxBufs (i j : Nat)
  | bufqBufs (i j : Nat)
  | hdrBuf (i j : Nat)
  | bufqBufsOf (i j : Nat)
  | hdrBufs (i j : Nat)
  | hdrBufsOf (i j k : Nat)
  | fastTxqs
  deriving DecidableEq, Repr

/-- Which release function a pointer is left to. -/
inductive PtrKind where
  | vec
  | txGrp
  | rxGrp
  | txDesc
  | rxDesc
  | fast
  deriving DecidableEq, Repr

namespace VportPtr

def kind : VportPtr → PtrKind
  | .qVectors => .vec
  | .vecTx _ => .vec
  | .vecRx _ => .vec
  | .vecBufq _ => .vec
  | .txqGrps => .txGrp
  | .txqs _ => .txGrp
  | .txq _ _ => .txGrp
  | .refillq _ _ => .txGrp
  | .complq _ => .txGrp
  | .rxqGrps => .rxGrp
  | .rxq _ _ => .rxGrp
  | .bufqSets _ => .rxGrp
  | .refillqs _ _ => .rxGrp
  | .swRing _ _ _ => .rxGrp
  | .txBufs _ _ => .txDesc
  | .txRing _ _ => .txDesc
  | .refillRing _ _ => .txDesc
  | .complRing _ => .txDesc
  | .rxRing _ _ => .rxDesc
  | .bufqRing _ _ => .rxDesc
  | .rxBufs _ _ => .rxDesc
  | .bufqBufs _ _ => .rxDesc
  | .hdrBuf _ _ => .rxDesc
  | .bufqBufsOf _ _ => .rxDesc
  | .hdrBufs _ _ => .rxDesc
  | .hdrBufsOf _ _ _ => .rxDesc
  | .fastTxqs => .fast

/-- The pointer that a release function looks at before it comes to this one. -/
def owner : VportPtr → Option VportPtr
  | .qVectors => none
  | .vecTx _ => none
  | .vecRx _ => none
  | .vecBufq _ => none
  | .txqGrps => none
  | .txqs _ => some .txqGrps
  | .txq _ _ => some .txqGrps
  | .refillq i j => some (.txq i j)
  | .complq _ => some .txqGrps
  | .rxqGrps => none
  | .rxq _ _ => some .rxqGrps
  | .bufqSets _ => some .rxqGrps
  | .refillqs _ _ => some .rxqGrps
  | .swRing _ _ _ => some .rxqGrps
  | .txBufs _ _ => some .txqGrps
  | .txRing _ _ => some .txqGrps
  | .refillRing i j => some (.txRing i j)
  | .complRing _ => some .txqGrps
  | .rxRing _ _ => some .rxqGrps
  | .bufqRing i _ => some (.bufqSets i)
  | .rxBufs _ _ => some .rxqGrps
  | .bufqBufs i _ => some (.bufqSets i)
  | .hdrBuf i j => some (.bufqBufs i j)
  | .bufqBufsOf _ _ => some .rxqGrps
  | .hdrBufs _ _ => some .rxqGrps
  | .hdrBufsOf i j _ => some (.hdrBufs i j)
  | .fastTxqs => none

end VportPtr

namespace VportSizes
open VportPtr

/-- `idpf_vport_intr_alloc` -/
def intrAllocs (c : VportSizes) : List VportPtr :=
  .qVectors :: (List.range c.numQVectors).flatMap fun v =>
    [.vecTx v, .vecRx v] ++ if c.rxqSplit then [.vecBufq v] else []

/-- `idpf_txq_group_alloc` -/
def txqGroupAllocs (c : VportSizes) : List VportPtr :=
  .txqGrps :: (List.range c.numTxqGrp).flatMap fun i =>
    .txqs i :: ((List.range c.numTxq).map (.txq i) ++
      (if c.flowSchEn then (List.range c.numTxq).map (.refillq i) else []) ++
      if c.txqSplit then [.complq i] else [])

/-- `idpf_rxq_group_alloc` -/
def rxqGroupAllocs (c : VportSizes) : List VportPtr :=
  .rxqGrps :: (List.range c.numRxqGrp).flatMap fun i =>
    (List.range c.numRxq).map (.rxq i) ++
      if c.rxqSplit then
        .bufqSets i :: (List.range c.numBufqsPerQgrp).flatMap fun j =>
          .refillqs i j :: (List.range c.numRxq).map (.swRing i j)
      else []

/-- `idpf_tx_desc_alloc` for a transmit queue. -/
def txDescAllocs (c : VportSizes) (i j : Nat) : List VportPtr :=
  [.txBufs i j, .txRing i j] ++ if c.flowSchEn then [.refillRing i j] else []

/-- `idpf_tx_desc_alloc_all` -/
def txDescAllocsAll (c : VportSizes) : List VportPtr :=
  (List.range c.numTxqGrp).flatMap fun i =>
    (List.range c.numTxq).flatMap (c.txDescAllocs i) ++
      if c.txqSplit then [.complRing i] else []

/-- `idpf_rx_desc_alloc_all` -/
def rxDescAllocsAll (c : VportSizes) : List VportPtr :=
  (List.range c.numRxqGrp).flatMap fun i =>
    (List.range c.numRxq).map (.rxRing i) ++
      if c.rxqSplit then (List.range c.numBufqsPerQgrp).map (.bufqRing i) else []

/-- `idpf_rx_bufs_init_all`, with `idpf_rx_map_buffer_rings`. -/
def rxBufsAllocs (c : VportSizes) : List VportPtr :=
  if c.rxqSplit then
    ((List.range c.numRxqGrp).flatMap fun i => (List.range c.numBufqsPerQgrp).flatMap fun j =>
      .bufqBufs i j :: if c.hsplitEn then [.hdrBuf i j] else []) ++
    (List.range c.numRxqGrp).flatMap fun i => (List.range c.numRxq).flatMap fun j =>
      .bufqBufsOf i j :: if c.hsplitEn then
        .hdrBufs i j :: (List.range c.numBufqsPerQgrp).map (.hdrBufsOf i j)
      else []
  else
    (List.range c.numRxqGrp).flatMap fun i => (List.range c.numRxq).map (.rxBufs i)

/-- What is left when some pointers have been freed; to free a null pointer does nothing. -/
def free (freed held : List VportPtr) : List VportPtr := held.filter fun p => p ∉ freed

/-- `idpf_vport_intr_rel` -/
def intrRel (c : VportSizes) (held : List VportPtr) : List VportPtr :=
  free (((List.range c.numQVectors).flatMap fun v => [.vecBufq v, .vecTx v, .vecRx v]) ++
    [.qVectors]) held

/-- What `idpf_tx_desc_rel` frees of a transmit queue. With a pool, which the queue has once `pools`
are set, it does not get to the array of buffers. -/
def txDescRel (c : VportSizes) (pools : Bool) (held : List VportPtr) (i j : Nat) : List VportPtr :=
  (if pools && c.zeroCopy.any (fun x => x = (i, j)) then [] else [.txBufs i j]) ++
    if .txRing i j ∈ held then [.refillRing i j, .txRing i j] else []

/-- `idpf_tx_desc_rel_all` -/
def txDescRelAll (c : VportSizes) (pools : Bool) (held : List VportPtr) : List VportPtr :=
  free (if .txqGrps ∈ held then
    (List.range c.numTxqGrp).flatMap fun i =>
      (List.range c.numTxq).flatMap (c.txDescRel pools held i) ++
        if c.txqSplit then [.complRing i] else []
  else []) held

/-- What `idpf_rxq_rel` frees. -/
def rxqRel (c : VportSizes) (held : List VportPtr) (i j : Nat) : List VportPtr :=
  .rxRing i j ::
    if c.rxqSplit then
      (if .hdrBufs i j ∈ held then (List.range c.numBufqsPerQgrp).map (.hdrBufsOf i j) else []) ++
        [.hdrBufs i j, .bufqBufsOf i j]
    else [.rxBufs i j]

/-- What `idpf_bufq_rel` frees. -/
def bufqRel (held : List VportPtr) (i j : Nat) : List VportPtr :=
  (if .bufqBufs i j ∈ held then [.hdrBuf i j, .bufqBufs i j] else []) ++ [.bufqRing i j]

/-- `idpf_rx_desc_rel_all` -/
def rxDescRelAll (c : VportSizes) (held : List VportPtr) : List VportPtr :=
  free (if .rxqGrps ∈ held then
    (List.range c.numRxqGrp).flatMap fun i =>
      (List.range c.numRxq).flatMap (c.rxqRel held i) ++
        if c.rxqSplit && .bufqSets i ∈ held then
          (List.range c.numBufqsPerQgrp).flatMap (bufqRel held i)
        else []
  else []) held

/-- `idpf_txq_group_rel` -/
def txqGroupRel (c : VportSizes) (held : List VportPtr) : List VportPtr :=
  free (if .txqGrps ∈ held then
    ((List.range c.numTxqGrp).flatMap fun i =>
      ((List.range c.numTxq).flatMap fun j =>
        if .txq i j ∈ held then [.refillq i j, .txq i j] else []) ++
      .txqs i :: if c.txqSplit then [.complq i] else []) ++ [.txqGrps]
  else []) held

/-- `idpf_rxq_group_rel`, with `idpf_rxq_sw_queue_rel`. -/
def rxqGroupRel (c : VportSizes) (held : List VportPtr) : List VportPtr :=
  free (if .rxqGrps ∈ held then
    ((List.range c.numRxqGrp).flatMap fun i =>
      (List.range c.numRxq).map (.rxq i) ++
        if c.rxqSplit then
          ((List.range c.numBufqsPerQgrp).flatMap fun j =>
            (List.range c.numRxq).map (.swRing i j) ++ [.refillqs i j]) ++ [.bufqSets i]
        else []) ++ [.rxqGrps]
  else []) held

/-- `idpf_vport_queue_grp_rel_all` -/
def queueGrpRelAll (c : VportSizes) (held : List VportPtr) : List VportPtr :=
  c.rxqGroupRel (c.txqGroupRel held)

/-- `idpf_vport_queues_rel` -/
def queuesRel (c : VportSizes) (pools : Bool) (held : List VportPtr) : List VportPtr :=
  free [.fastTxqs] (c.queueGrpRelAll (c.rxDescRelAll (c.txDescRelAll pools held)))

/-- What is held after allocations of which one may fail, and whether none did. -/
def alloc (ps : List VportPtr) (fail : Option VportPtr) (held : List VportPtr) :
    List VportPtr × Bool :=
  (held ++ ps.takeWhile fun p => some p ≠ fail, ps.all fun p => some p ≠ fail)

/-- `idpf_vport_intr_alloc`. Where there is no array of vectors it returns at once. -/
def intrAlloc (c : VportSizes) (fail : Option VportPtr) (held : List VportPtr) :
    List VportPtr × Bool :=
  if fail = some .qVectors then (held, false)
  else
    let r := alloc c.intrAllocs fail held
    if r.2 then r else (c.intrRel r.1, false)

/-- `idpf_txq_group_alloc` -/
def txqGroupAlloc (c : VportSizes) (fail : Option VportPtr) (held : List VportPtr) :
    List VportPtr × Bool :=
  let r := alloc c.txqGroupAllocs fail held
  if r.2 then r else (c.txqGroupRel r.1, false)

/-- `idpf_rxq_group_alloc` -/
def rxqGroupAlloc (c : VportSizes) (fail : Option VportPtr) (held : List VportPtr) :
    List VportPtr × Bool :=
  let r := alloc c.rxqGroupAllocs fail held
  if r.2 then r else (c.rxqGroupRel r.1, false)

/-- `idpf_vport_queue_grp_alloc_all` -/
def queueGrpAllocAll (c : VportSizes) (fail : Option VportPtr) (held : List VportPtr) :
    List VportPtr × Bool :=
  let tx := c.txqGroupAlloc fail held
  if !tx.2 then (c.queueGrpRelAll tx.1, false)
  else
    let rx := c.rxqGroupAlloc fail tx.1
    if rx.2 then rx else (c.queueGrpRelAll rx.1, false)

/-- `idpf_tx_desc_alloc_all`. The queue that fails is released by itself here, as
`idpf_vport_queues_rel` would. -/
def txDescAllocAll (c : VportSizes) (fail : Option VportPtr) (held : List VportPtr) :
    List VportPtr × Bool :=
  alloc c.txDescAllocsAll fail held

/-- `idpf_rx_desc_alloc_all` -/
def rxDescAllocAll (c : VportSizes) (fail : Option VportPtr) (held : List VportPtr) :
    List VportPtr × Bool :=
  let r := alloc c.rxDescAllocsAll fail held
  if r.2 then r else (c.rxDescRelAll r.1, false)

/-- `idpf_vport_queue_alloc_all`. No queue has a pool yet. -/
def queueAllocAll (c : VportSizes) (fail : Option VportPtr) (held : List VportPtr) :
    List VportPtr × Bool :=
  let grp := c.queueGrpAllocAll fail held
  if !grp.2 then (c.queuesRel false grp.1, false)
  else
    let tx := c.txDescAllocAll fail grp.1
    if !tx.2 then (c.queuesRel false tx.1, false)
    else
      let rx := c.rxDescAllocAll fail tx.1
      if !rx.2 then (c.queuesRel false rx.1, false)
      else
        let fast := alloc [.fastTxqs] fail rx.1
        if fast.2 then fast else (c.queuesRel false fast.1, false)

/-- The allocations whose failure is not survived: `num_txq` and `num_refillqs` are set before the
array is there, and the release functions go through it. -/
def traps (c : VportSizes) : VportPtr → Bool
  | .txqs i => i < c.numTxqGrp && 0 < c.numTxq
  | .refillqs i j => c.rxqSplit && i < c.numRxqGrp && j < c.numBufqsPerQgrp && 0 < c.numRxq
  | _ => false

def Inside (c : VportSizes) : VportPtr → Prop
  | .qVectors => True
  | .vecTx v => v < c.numQVectors
  | .vecRx v => v < c.numQVectors
  | .vecBufq v => v < c.numQVectors
  | .txqGrps => True
  | .txqs i => i < c.numTxqGrp
  | .txq i j => i < c.numTxqGrp ∧ j < c.numTxq
  | .refillq i j => i < c.numTxqGrp ∧ j < c.numTxq
  | .complq i => c.txqSplit = true ∧ i < c.numTxqGrp
  | .rxqGrps => True
  | .rxq i j => i < c.numRxqGrp ∧ j < c.numRxq
  | .bufqSets i => c.rxqSplit = true ∧ i < c.numRxqGrp
  | .refillqs i j => c.rxqSplit = true ∧ i < c.numRxqGrp ∧ j < c.numBufqsPerQgrp
  | .swRing i j k =>
    c.rxqSplit = true ∧ i < c.numRxqGrp ∧ j < c.numBufqsPerQgrp ∧ k < c.numRxq
  | .txBufs i j => i < c.numTxqGrp ∧ j < c.numTxq
  | .txRing i j => i < c.numTxqGrp ∧ j < c.numTxq
  | .refillRing i j => i < c.numTxqGrp ∧ j < c.numTxq
  | .complRing i => c.txqSplit = true ∧ i < c.numTxqGrp
  | .rxRing i j => i < c.numRxqGrp ∧ j < c.numRxq
  | .bufqRing i j => c.rxqSplit = true ∧ i < c.numRxqGrp ∧ j < c.numBufqsPerQgrp
  | .rxBufs i j => c.rxqSplit = false ∧ i < c.numRxqGrp ∧ j < c.numRxq
  | .bufqBufs i j => c.rxqSplit = true ∧ i < c.numRxqGrp ∧ j < c.numBufqsPerQgrp
  | .hdrBuf i j => c.rxqSplit = true ∧ i < c.numRxqGrp ∧ j < c.numBufqsPerQgrp
  | .bufqBufsOf i j => c.rxqSplit = true ∧ i < c.numRxqGrp ∧ j < c.numRxq
  | .hdrBufs i j => c.rxqSplit = true ∧ i < c.numRxqGrp ∧ j < c.numRxq
  | .hdrBufsOf i j k =>
    c.rxqSplit = true ∧ i < c.numRxqGrp ∧ j < c.numRxq ∧ k < c.numBufqsPerQgrp
  | .fastTxqs => True

variable {c : VportSizes} {held : List VportPtr} {p : VportPtr}

theorem mem_intrAllocs (member : p ∈ c.intrAllocs) : p.kind = .vec ∧ c.Inside p := by
  simp only [intrAllocs, List.mem_cons, List.mem_flatMap, List.mem_range, List.mem_append,
    List.mem_ite_nil_right, List.not_mem_nil, or_false] at member
  rcases member with rfl | ⟨v, low, (rfl | rfl) | ⟨-, rfl⟩⟩
  · exact ⟨rfl, trivial⟩
  all_goals exact ⟨rfl, low⟩

theorem mem_txqGroupAllocs (member : p ∈ c.txqGroupAllocs) : p.kind = .txGrp ∧ c.Inside p := by
  simp only [txqGroupAllocs, List.mem_cons, List.mem_flatMap, List.mem_range, List.mem_append,
    List.mem_ite_nil_right, List.not_mem_nil, or_false, List.mem_map] at member
  rcases member with rfl | ⟨i, low, rfl | (⟨j, below, rfl⟩ | ⟨-, j, below, rfl⟩) | ⟨split, rfl⟩⟩
  · exact ⟨rfl, trivial⟩
  · exact ⟨rfl, low⟩
  · exact ⟨rfl, low, below⟩
  · exact ⟨rfl, low, below⟩
  · exact ⟨rfl, split, low⟩

theorem mem_rxqGroupAllocs (member : p ∈ c.rxqGroupAllocs) : p.kind = .rxGrp ∧ c.Inside p := by
  simp only [rxqGroupAllocs, List.mem_cons, List.mem_flatMap, List.mem_range, List.mem_append,
    List.mem_ite_nil_right, List.mem_map] at member
  rcases member with
    rfl | ⟨i, low, ⟨j, below, rfl⟩ | ⟨split, rfl | ⟨j, below, rfl | ⟨k, under, rfl⟩⟩⟩⟩
  · exact ⟨rfl, trivial⟩
  · exact ⟨rfl, low, below⟩
  · exact ⟨rfl, split, low⟩
  · exact ⟨rfl, split, low, below⟩
  · exact ⟨rfl, split, low, below, under⟩

theorem mem_txDescAllocsAll (member : p ∈ c.txDescAllocsAll) :
    p.kind = .txDesc ∧ c.Inside p := by
  simp only [txDescAllocsAll, txDescAllocs, List.mem_cons, List.mem_flatMap, List.mem_range,
    List.mem_append, List.mem_ite_nil_right, List.not_mem_nil, or_false] at member
  rcases member with ⟨i, low, ⟨j, below, (rfl | rfl) | ⟨-, rfl⟩⟩ | ⟨split, rfl⟩⟩
  · exact ⟨rfl, low, below⟩
  · exact ⟨rfl, low, below⟩
  · exact ⟨rfl, low, below⟩
  · exact ⟨rfl, split, low⟩

theorem mem_rxDescAllocsAll (member : p ∈ c.rxDescAllocsAll) :
    p.kind = .rxDesc ∧ c.Inside p := by
  simp only [rxDescAllocsAll, List.mem_flatMap, List.mem_range, List.mem_append,
    List.mem_ite_nil_right, List.mem_map] at member
  rcases member with ⟨i, low, ⟨j, below, rfl⟩ | ⟨split, j, below, rfl⟩⟩
  · exact ⟨rfl, low, below⟩
  · exact ⟨rfl, split, low, below⟩

theorem mem_rxBufsAllocs (member : p ∈ c.rxBufsAllocs) : p.kind = .rxDesc ∧ c.Inside p := by
  unfold rxBufsAllocs at member
  cases split : c.rxqSplit with
  | true =>
      rw [if_pos split] at member
      simp only [List.mem_flatMap, List.mem_range, List.mem_append, List.mem_cons,
        List.mem_ite_nil_right, List.mem_map, List.not_mem_nil, or_false] at member
      rcases member with ⟨i, low, j, below, rfl | ⟨-, rfl⟩⟩ |
        ⟨i, low, j, below, rfl | ⟨-, rfl | ⟨k, under, rfl⟩⟩⟩
      · exact ⟨rfl, split, low, below⟩
      · exact ⟨rfl, split, low, below⟩
      · exact ⟨rfl, split, low, below⟩
      · exact ⟨rfl, split, low, below⟩
      · exact ⟨rfl, split, low, below, under⟩
  | false =>
      rw [if_neg (Bool.eq_false_iff.mp split)] at member
      simp only [List.mem_flatMap, List.mem_range, List.mem_map] at member
      obtain ⟨i, low, j, below, rfl⟩ := member
      exact ⟨rfl, split, low, below⟩

/-- What is held is there for the sizes, and each pointer can be reached. -/
structure Wf (c : VportSizes) (held : List VportPtr) : Prop where
  closed : Closed owner held
  inside : ∀ p ∈ held, c.Inside p

/-- A queue of the vport has an AF_XDP pool. -/
def pooled (c : VportSizes) : Bool := c.zeroCopy.any fun x => x.1 < c.numTxqGrp && x.2 < c.numTxq

def without (k : PtrKind) (held : List VportPtr) : List VportPtr :=
  held.filter fun p => p.kind ≠ k

theorem mem_without {k : PtrKind} : p ∈ without k held ↔ p ∈ held ∧ p.kind ≠ k := by
  simp only [without, List.mem_filter, decide_eq_true_eq]

theorem free_eq_without {k : PtrKind} {freed : List VportPtr}
    (gone : ∀ p ∈ held, p.kind = k → p ∈ freed) (stays : ∀ p ∈ freed, p.kind = k) :
    free freed held = without k held := by
  unfold free without
  apply filter_freed
  · intro p member same
    exact gone p member (not_not.mp (of_decide_eq_false same))
  · exact fun p member => decide_eq_false (not_not.mpr (stays p member))

theorem txDescRelAll_eq (wf : c.Wf held) {pools : Bool} (plain : pools = true → c.pooled = false) :
    c.txDescRelAll pools held = without .txDesc held := by
  apply free_eq_without
  · intro p member kind
    have here := wf.inside p member
    have group : .txqGrps ∈ held := by
      cases p <;> try exact PtrKind.noConfusion kind
      case refillRing i j => exact wf.closed _ (wf.closed _ member _ rfl) _ rfl
      all_goals exact wf.closed _ member _ rfl
    rw [if_pos group]
    simp only [txDescRel, List.mem_flatMap, List.mem_range, List.mem_append,
      List.mem_ite_nil_left, List.mem_ite_nil_right, List.mem_cons, List.not_mem_nil, or_false]
    cases p <;> try exact PtrKind.noConfusion kind
    case txBufs i j =>
        refine ⟨i, here.1, .inl ⟨j, here.2, .inl ⟨?_, rfl⟩⟩⟩
        intro both
        obtain ⟨set, pool⟩ := Bool.and_eq_true_iff.mp both
        have bounds : (i < c.numTxqGrp && j < c.numTxq) = true :=
          Bool.and_eq_true_iff.mpr ⟨decide_eq_true here.1, decide_eq_true here.2⟩
        obtain ⟨x, here, same⟩ := List.any_eq_true.mp pool
        obtain rfl := of_decide_eq_true same
        have some : c.pooled = true := List.any_eq_true.mpr ⟨_, here, bounds⟩
        exact Bool.noConfusion ((plain set).symm.trans some)
    case txRing i j => exact ⟨i, here.1, .inl ⟨j, here.2, .inr ⟨member, .inr rfl⟩⟩⟩
    case refillRing i j =>
        exact ⟨i, here.1, .inl ⟨j, here.2, .inr ⟨wf.closed _ member _ rfl, .inl rfl⟩⟩⟩
    case complRing i => exact ⟨i, here.2, .inr ⟨here.1, rfl⟩⟩
  · intro p member
    simp only [txDescRel, List.mem_flatMap, List.mem_range, List.mem_append,
      List.mem_ite_nil_left, List.mem_ite_nil_right, List.mem_cons, List.not_mem_nil,
      or_false] at member
    rcases member with ⟨-, i, -, ⟨j, -, ⟨-, rfl⟩ | ⟨-, rfl | rfl⟩⟩ | ⟨-, rfl⟩⟩
    all_goals rfl

theorem mem_rxqRel {i j : Nat} : p ∈ c.rxqRel held i j ↔ p = .rxRing i j ∨
    (c.rxqSplit = true ∧ ((.hdrBufs i j ∈ held ∧ ∃ k < c.numBufqsPerQgrp, p = .hdrBufsOf i j k) ∨
      p = .hdrBufs i j ∨ p = .bufqBufsOf i j)) ∨ (c.rxqSplit = false ∧ p = .rxBufs i j) := by
  unfold rxqRel
  cases c.rxqSplit with
  | true =>
      simp only [if_true, List.mem_cons, List.mem_append, List.mem_ite_nil_right, List.mem_map,
        List.mem_range, List.not_mem_nil, or_false, true_and, Bool.true_eq_false, false_and,
        eq_comm (a := p)]
  | false =>
      simp only [Bool.false_eq_true, if_false, List.mem_cons, List.not_mem_nil, or_false, false_and,
        true_and, false_or]

theorem rxDescRelAll_eq (wf : c.Wf held) : c.rxDescRelAll held = without .rxDesc held := by
  apply free_eq_without
  · intro p member kind
    have here := wf.inside p member
    have up {q : VportPtr} (same : p.owner = some q) : q ∈ held := wf.closed p member q same
    have group : .rxqGrps ∈ held := by
      cases p <;> try exact PtrKind.noConfusion kind
      case bufqRing i j => exact wf.closed _ (up rfl) _ rfl
      case bufqBufs i j => exact wf.closed _ (up rfl) _ rfl
      case hdrBuf i j => exact wf.closed _ (wf.closed _ (up rfl) _ rfl) _ rfl
      case hdrBufsOf i j k => exact wf.closed _ (up rfl) _ rfl
      all_goals exact up rfl
    rw [if_pos group]
    simp only [mem_rxqRel, bufqRel, List.mem_flatMap, List.mem_range, List.mem_append,
      List.mem_cons, List.mem_ite_nil_right, List.not_mem_nil, or_false, Bool.and_eq_true,
      decide_eq_true_eq]
    cases p <;> try exact PtrKind.noConfusion kind
    case rxRing i j => exact ⟨i, here.1, .inl ⟨j, here.2, .inl rfl⟩⟩
    case bufqRing i j => exact ⟨i, here.2.1, .inr ⟨⟨here.1, up rfl⟩, j, here.2.2, .inr rfl⟩⟩
    case rxBufs i j =>
        exact ⟨i, here.2.1, .inl ⟨j, here.2.2, .inr (.inr ⟨here.1, rfl⟩)⟩⟩
    case bufqBufs i j =>
        exact ⟨i, here.2.1, .inr ⟨⟨here.1, up rfl⟩, j, here.2.2, .inl ⟨member, .inr rfl⟩⟩⟩
    case hdrBuf i j =>
        have sets := wf.closed _ (up rfl) _ rfl
        exact ⟨i, here.2.1, .inr ⟨⟨here.1, sets⟩, j, here.2.2, .inl ⟨up rfl, .inl rfl⟩⟩⟩
    case bufqBufsOf i j =>
        exact ⟨i, here.2.1, .inl ⟨j, here.2.2, .inr (.inl ⟨here.1, .inr (.inr rfl)⟩)⟩⟩
    case hdrBufs i j =>
        exact ⟨i, here.2.1, .inl ⟨j, here.2.2, .inr (.inl ⟨here.1, .inr (.inl rfl)⟩)⟩⟩
    case hdrBufsOf i j k =>
        exact ⟨i, here.2.1, .inl ⟨j, here.2.2.1,
          .inr (.inl ⟨here.1, .inl ⟨up rfl, k, here.2.2.2, rfl⟩⟩)⟩⟩
  · intro p member
    simp only [mem_rxqRel, bufqRel, List.mem_flatMap, List.mem_range, List.mem_append,
      List.mem_cons, List.mem_ite_nil_right, List.not_mem_nil, or_false] at member
    obtain ⟨-, i, -, queue | bufq⟩ := member
    · rcases queue with ⟨j, -, rfl | ⟨-, ⟨-, k, -, rfl⟩ | rfl | rfl⟩ | ⟨-, rfl⟩⟩
      all_goals rfl
    · rcases bufq with ⟨-, j, -, ⟨-, rfl | rfl⟩ | rfl⟩
      all_goals rfl

theorem txqGroupRel_eq (wf : c.Wf held) : c.txqGroupRel held = without .txGrp held := by
  apply free_eq_without
  · intro p member kind
    have here := wf.inside p member
    have up {q : VportPtr} (same : p.owner = some q) : q ∈ held := wf.closed p member q same
    have group : .txqGrps ∈ held := by
      cases p <;> try exact PtrKind.noConfusion kind
      case txqGrps => exact member
      case refillq i j => exact wf.closed _ (up rfl) _ rfl
      all_goals exact up rfl
    rw [if_pos group]
    simp only [List.mem_flatMap, List.mem_range, List.mem_append, List.mem_cons,
      List.mem_ite_nil_right, List.not_mem_nil, or_false]
    cases p <;> try exact PtrKind.noConfusion kind
    case txqGrps => exact .inr rfl
    case txqs i => exact .inl ⟨i, here, .inr (.inl rfl)⟩
    case txq i j => exact .inl ⟨i, here.1, .inl ⟨j, here.2, member, .inr rfl⟩⟩
    case refillq i j => exact .inl ⟨i, here.1, .inl ⟨j, here.2, up rfl, .inl rfl⟩⟩
    case complq i => exact .inl ⟨i, here.2, .inr (.inr ⟨here.1, rfl⟩)⟩
  · intro p member
    simp only [List.mem_flatMap, List.mem_range, List.mem_append, List.mem_cons,
      List.mem_ite_nil_right, List.not_mem_nil, or_false] at member
    rcases member with ⟨-, ⟨i, -, ⟨j, -, -, rfl | rfl⟩ | rfl | ⟨-, rfl⟩⟩ | rfl⟩
    all_goals rfl

theorem rxqGroupRel_eq (wf : c.Wf held) : c.rxqGroupRel held = without .rxGrp held := by
  apply free_eq_without
  · intro p member kind
    have here := wf.inside p member
    have group : .rxqGrps ∈ held := by
      cases p <;> try exact PtrKind.noConfusion kind
      case rxqGrps => exact member
      all_goals exact wf.closed _ member _ rfl
    rw [if_pos group]
    simp only [List.mem_flatMap, List.mem_range, List.mem_append, List.mem_cons, List.mem_map,
      List.mem_ite_nil_right, List.not_mem_nil, or_false]
    cases p <;> try exact PtrKind.noConfusion kind
    case rxqGrps => exact .inr rfl
    case rxq i j => exact .inl ⟨i, here.1, .inl ⟨j, here.2, rfl⟩⟩
    case bufqSets i => exact .inl ⟨i, here.2, .inr ⟨here.1, .inr rfl⟩⟩
    case refillqs i j =>
        exact .inl ⟨i, here.2.1, .inr ⟨here.1, .inl ⟨j, here.2.2, .inr rfl⟩⟩⟩
    case swRing i j k =>
        exact .inl ⟨i, here.2.1, .inr ⟨here.1, .inl ⟨j, here.2.2.1, .inl ⟨k, here.2.2.2, rfl⟩⟩⟩⟩
  · intro p member
    simp only [List.mem_flatMap, List.mem_range, List.mem_append, List.mem_cons, List.mem_map,
      List.mem_ite_nil_right, List.not_mem_nil, or_false] at member
    rcases member with
      ⟨-, ⟨i, -, ⟨j, -, rfl⟩ | ⟨-, ⟨j, -, ⟨k, -, rfl⟩ | rfl⟩ | rfl⟩⟩ | rfl⟩
    all_goals rfl

theorem owner_kind {q : VportPtr} (same : p.owner = some q) : q.kind = p.kind ∨
    (p.kind = .txDesc ∧ q.kind = .txGrp) ∨ (p.kind = .rxDesc ∧ q.kind = .rxGrp) := by
  cases p <;> simp only [owner, Option.some.injEq, reduceCtorEq] at same <;> subst same <;>
    simp [kind]

theorem Wf.without (wf : c.Wf held) (k : PtrKind)
    (last : ∀ p ∈ held, p.kind ≠ k → ∀ q, p.owner = some q → q.kind ≠ k) :
    c.Wf (without k held) where
  closed := by
    intro p member q same
    obtain ⟨inside, other⟩ := mem_without.mp member
    exact mem_without.mpr ⟨wf.closed p inside q same, last p inside other q same⟩
  inside := fun p member => wf.inside p (mem_without.mp member).1

theorem Wf.withoutDesc (wf : c.Wf held) {k : PtrKind} (desc : k ≠ .txGrp ∧ k ≠ .rxGrp) :
    c.Wf (VportSizes.without k held) := by
  apply wf.without
  intro p _ other q same kind
  rcases owner_kind same with own | ⟨-, group⟩ | ⟨-, group⟩
  · exact other (own.symm.trans kind)
  · exact desc.1 (kind.symm.trans group)
  · exact desc.2 (kind.symm.trans group)

theorem Wf.withoutTxGrp (wf : c.Wf held) (empty : ∀ p ∈ held, p.kind ≠ .txDesc) :
    c.Wf (VportSizes.without .txGrp held) := by
  apply wf.without
  intro p member other q same kind
  rcases owner_kind same with own | ⟨desc, -⟩ | ⟨-, group⟩
  · exact other (own.symm.trans kind)
  · exact empty p member desc
  · exact PtrKind.noConfusion (group.symm.trans kind)

theorem Wf.withoutRxGrp (wf : c.Wf held) (empty : ∀ p ∈ held, p.kind ≠ .rxDesc) :
    c.Wf (VportSizes.without .rxGrp held) := by
  apply wf.without
  intro p member other q same kind
  rcases owner_kind same with own | ⟨-, group⟩ | ⟨desc, -⟩
  · exact other (own.symm.trans kind)
  · exact PtrKind.noConfusion (group.symm.trans kind)
  · exact empty p member desc

def ofVecs (held : List VportPtr) : List VportPtr := held.filter fun p => p.kind = .vec

theorem ofVecs_without {k : PtrKind} (queue : k ≠ .vec) :
    ofVecs (without k held) = ofVecs held := by
  unfold ofVecs without
  rw [List.filter_filter]
  apply List.filter_congr
  intro p _
  by_cases vec : p.kind = .vec
  · simp only [vec, decide_true, Bool.true_and, decide_eq_true_eq]
    exact queue.symm
  · simp only [vec, decide_false, Bool.false_and]

/-- `idpf_vport_queues_rel` leaves nothing of the queues. -/
theorem queuesRel_eq (wf : c.Wf held) {pools : Bool} (plain : pools = true → c.pooled = false) :
    c.queuesRel pools held = ofVecs held := by
  have txDesc : c.Wf (without .txDesc held) := wf.withoutDesc (by decide)
  have desc : c.Wf (without .rxDesc (without .txDesc held)) := txDesc.withoutDesc (by decide)
  have noTx : ∀ p ∈ without .rxDesc (without .txDesc held), p.kind ≠ .txDesc := fun p member =>
    (mem_without.mp (mem_without.mp member).1).2
  have noRx : ∀ p ∈ without .txGrp (without .rxDesc (without .txDesc held)), p.kind ≠ .rxDesc :=
    fun p member => (mem_without.mp (mem_without.mp member).1).2
  have groups := desc.withoutTxGrp noTx
  unfold queuesRel queueGrpRelAll
  rw [txDescRelAll_eq wf plain, rxDescRelAll_eq txDesc, txqGroupRel_eq desc,
    rxqGroupRel_eq groups]
  have fast : free [.fastTxqs] (without .rxGrp (without .txGrp (without .rxDesc
      (without .txDesc held)))) = without .fast (without .rxGrp (without .txGrp (without .rxDesc
      (without .txDesc held)))) := by
    apply free_eq_without
    · intro p _ kind
      cases p <;> try exact PtrKind.noConfusion kind
      exact List.mem_singleton_self _
    · intro p member
      rw [List.mem_singleton.mp member]
      rfl
  rw [fast]
  have rest : ∀ p ∈ without .fast (without .rxGrp (without .txGrp (without .rxDesc
      (without .txDesc held)))), p.kind = .vec := by
    intro p member
    simp only [mem_without] at member
    obtain ⟨⟨⟨⟨⟨-, txDesc⟩, rxDesc⟩, txGrp⟩, rxGrp⟩, fast⟩ := member
    cases kind : p.kind <;> first | rfl | contradiction
  calc without .fast (without .rxGrp (without .txGrp (without .rxDesc (without .txDesc held))))
      = ofVecs (without .fast (without .rxGrp (without .txGrp (without .rxDesc
          (without .txDesc held))))) :=
        (List.filter_eq_self.mpr fun p member => decide_eq_true (rest p member)).symm
    _ = ofVecs held := by
        rw [ofVecs_without, ofVecs_without, ofVecs_without, ofVecs_without, ofVecs_without] <;>
          exact fun same => PtrKind.noConfusion same

/-- `idpf_vport_intr_rel` leaves nothing where only vectors are left. -/
theorem intrRel_eq (wf : c.Wf held) (vecs : ∀ p ∈ held, p.kind = .vec) : c.intrRel held = [] := by
  unfold intrRel free
  apply List.filter_eq_nil_iff.mpr
  intro p member kept
  have here := wf.inside p member
  have kind := vecs p member
  apply of_decide_eq_true kept
  simp only [List.mem_append, List.mem_flatMap, List.mem_range, List.mem_cons, List.not_mem_nil,
    or_false]
  cases p <;> try exact PtrKind.noConfusion kind
  case qVectors => exact .inr rfl
  case vecTx v => exact .inl ⟨v, here, .inr (.inl rfl)⟩
  case vecRx v => exact .inl ⟨v, here, .inr (.inr rfl)⟩
  case vecBufq v => exact .inl ⟨v, here, .inl rfl⟩

theorem txqGroupAllocs_first {seen : VportPtr → Prop} :
    OwnersFirst owner seen c.txqGroupAllocs := by
  constructor
  · exact fun q same => absurd same.symm (Option.some_ne_none q)
  · apply OwnersFirst.flatMap
    intro i _
    constructor
    · intro q same
      exact .inr (Option.some.inj same).symm
    · apply OwnersFirst.append
      · apply OwnersFirst.append
        · apply OwnersFirst.of_seen
          intro p member q same
          obtain ⟨j, -, rfl⟩ := List.mem_map.mp member
          exact .inl (.inr (Option.some.inj same).symm)
        · apply OwnersFirst.of_seen
          intro p member q same
          obtain ⟨-, inside⟩ := List.mem_ite_nil_right.mp member
          obtain ⟨j, low, rfl⟩ := List.mem_map.mp inside
          obtain rfl := Option.some.inj same
          exact .inr (List.mem_map.mpr ⟨j, low, rfl⟩)
      · apply OwnersFirst.of_seen
        intro p member q same
        obtain ⟨-, inside⟩ := List.mem_ite_nil_right.mp member
        obtain rfl := List.mem_singleton.mp inside
        exact .inl (.inl (.inr (Option.some.inj same).symm))

theorem rxqGroupAllocs_first {seen : VportPtr → Prop} :
    OwnersFirst owner seen c.rxqGroupAllocs := by
  constructor
  · exact fun q same => absurd same.symm (Option.some_ne_none q)
  · apply OwnersFirst.of_seen
    intro p member q same
    simp only [List.mem_flatMap, List.mem_append, List.mem_map, List.mem_ite_nil_right,
      List.mem_cons] at member
    obtain ⟨i, -, ⟨j, -, rfl⟩ | ⟨-, rfl | ⟨j, -, rfl | ⟨k, -, rfl⟩⟩⟩⟩ := member
    all_goals exact .inr (Option.some.inj same).symm

theorem txDescAllocsAll_first {seen : VportPtr → Prop} (group : seen .txqGrps) :
    OwnersFirst owner seen c.txDescAllocsAll := by
  apply OwnersFirst.flatMap
  intro i _
  apply OwnersFirst.append
  · apply OwnersFirst.flatMap
    intro j _
    apply OwnersFirst.append
    · apply OwnersFirst.of_seen
      intro p member q same
      have held : q = .txqGrps := by
        simp only [List.mem_cons, List.not_mem_nil, or_false] at member
        rcases member with rfl | rfl
        all_goals exact (Option.some.inj same).symm
      exact held ▸ group
    · apply OwnersFirst.of_seen
      intro p member q same
      obtain ⟨-, inside⟩ := List.mem_ite_nil_right.mp member
      obtain rfl := List.mem_singleton.mp inside
      obtain rfl := Option.some.inj same
      exact .inr (List.mem_cons_of_mem _ List.mem_cons_self)
  · apply OwnersFirst.of_seen
    intro p member q same
    obtain ⟨-, inside⟩ := List.mem_ite_nil_right.mp member
    obtain rfl := List.mem_singleton.mp inside
    obtain rfl := Option.some.inj same
    exact .inl group

theorem rxDescAllocsAll_first {seen : VportPtr → Prop} (group : seen .rxqGrps)
    (sets : c.rxqSplit = true → ∀ i < c.numRxqGrp, seen (.bufqSets i)) :
    OwnersFirst owner seen c.rxDescAllocsAll := by
  apply OwnersFirst.of_seen
  intro p member q same
  simp only [rxDescAllocsAll, List.mem_flatMap, List.mem_range, List.mem_append, List.mem_map,
    List.mem_ite_nil_right] at member
  obtain ⟨i, low, ⟨j, -, rfl⟩ | ⟨split, j, -, rfl⟩⟩ := member
  · exact Option.some.inj same ▸ group
  · exact Option.some.inj same ▸ sets split i low

theorem rxBufsAllocs_first {seen : VportPtr → Prop} (group : seen .rxqGrps)
    (sets : c.rxqSplit = true → ∀ i < c.numRxqGrp, seen (.bufqSets i)) :
    OwnersFirst owner seen c.rxBufsAllocs := by
  unfold rxBufsAllocs
  cases split : c.rxqSplit with
  | true =>
      rw [if_pos rfl]
      apply OwnersFirst.append
      · apply OwnersFirst.flatMap
        intro i low
        apply OwnersFirst.flatMap
        intro j _
        constructor
        · intro q same
          exact Option.some.inj same ▸ sets split i (List.mem_range.mp low)
        · apply OwnersFirst.of_seen
          intro p member q same
          obtain ⟨-, inside⟩ := List.mem_ite_nil_right.mp member
          obtain rfl := List.mem_singleton.mp inside
          exact .inr (Option.some.inj same).symm
      · apply OwnersFirst.flatMap
        intro i _
        apply OwnersFirst.flatMap
        intro j _
        constructor
        · exact fun q same => Option.some.inj same ▸ .inl group
        · cases c.hsplitEn with
          | false => trivial
          | true =>
              rw [if_pos rfl]
              constructor
              · exact fun q same => Option.some.inj same ▸ .inl (.inl group)
              · apply OwnersFirst.of_seen
                intro p member q same
                obtain ⟨k, -, rfl⟩ := List.mem_map.mp member
                exact .inr (Option.some.inj same).symm
  | false =>
      rw [if_neg Bool.false_ne_true]
      apply OwnersFirst.of_seen
      intro p member q same
      simp only [List.mem_flatMap, List.mem_map] at member
      obtain ⟨i, -, j, -, rfl⟩ := member
      exact Option.some.inj same ▸ group

theorem bufqSets_mem (split : c.rxqSplit = true) {i : Nat} (low : i < c.numRxqGrp) :
    .bufqSets i ∈ c.rxqGroupAllocs := by
  apply List.mem_cons_of_mem
  apply List.mem_flatMap.mpr
  refine ⟨i, List.mem_range.mpr low, List.mem_append_right _ ?_⟩
  rw [if_pos split]
  exact List.mem_cons_self

theorem fastTxqs_first {seen : VportPtr → Prop} : OwnersFirst owner seen [.fastTxqs] :=
  ⟨fun q same => absurd same.symm (Option.some_ne_none q), trivial⟩

theorem intrAllocs_first {seen : VportPtr → Prop} : OwnersFirst owner seen c.intrAllocs := by
  apply OwnersFirst.of_seen
  intro p member q same
  have kind := (mem_intrAllocs member).1
  cases p <;> try exact PtrKind.noConfusion kind
  all_goals exact absurd same.symm (Option.some_ne_none q)

theorem Wf.append (wf : c.Wf held) {ps : List VportPtr} (first : OwnersFirst owner (· ∈ held) ps)
    (inside : ∀ p ∈ ps, c.Inside p) : c.Wf (held ++ ps) where
  closed := wf.closed.append first
  inside := by
    intro p member
    cases List.mem_append.mp member with
    | inl before => exact wf.inside p before
    | inr new => exact inside p new

theorem Wf.alloc (wf : c.Wf held) {ps : List VportPtr} (fail : Option VportPtr)
    (first : OwnersFirst owner (· ∈ held) ps) (inside : ∀ p ∈ ps, c.Inside p) :
    c.Wf (VportSizes.alloc ps fail held).1 :=
  wf.append (first.takeWhile _) fun p new => inside p (List.takeWhile_subset _ new)

structure VecsOnly (c : VportSizes) (held : List VportPtr) : Prop where
  wf : c.Wf held
  vecs : ∀ p ∈ held, p.kind = .vec

theorem alloc_all {ps : List VportPtr} {fail : Option VportPtr}
    (done : (alloc ps fail held).2 = true) : (alloc ps fail held).1 = held ++ ps := by
  have all := List.all_eq_true.mp done
  exact congrArg (held ++ ·) (List.takeWhile_eq_self_iff.mpr all)

theorem ofVecs_append {ps : List VportPtr} (queues : ∀ p ∈ ps, p.kind ≠ .vec) :
    ofVecs (held ++ ps) = ofVecs held := by
  unfold ofVecs
  rw [List.filter_append]
  apply List.append_right_eq_self.mpr
  apply List.filter_eq_nil_iff.mpr
  exact fun p member kind => queues p member (of_decide_eq_true kind)

/-- The pointers of the queues without their receive buffers, in the order of the allocations. -/
def queueAllocs (c : VportSizes) : List VportPtr :=
  c.txqGroupAllocs ++ c.rxqGroupAllocs ++ c.txDescAllocsAll ++ c.rxDescAllocsAll ++ [.fastTxqs]

/-- What an allocation does to what is held: it takes what it is for or fails, and leaves the
vectors alone. -/
structure Stage (c : VportSizes) (held ps : List VportPtr) (r : List VportPtr × Bool) : Prop where
  done : r.2 = true → r.1 = held ++ ps
  wf : c.Wf r.1
  vecs : ofVecs r.1 = ofVecs held

theorem kind_alloc {k : PtrKind} {ps : List VportPtr} {fail : Option VportPtr}
    (others : ∀ p ∈ held, p.kind ≠ k) (new : ∀ p ∈ ps, p.kind ≠ k) :
    ∀ p ∈ (alloc ps fail held).1, p.kind ≠ k := by
  intro p member
  cases List.mem_append.mp member with
  | inl before => exact others p before
  | inr here => exact new p (List.takeWhile_subset _ here)

theorem Wf.stage (wf : c.Wf held) {ps : List VportPtr} (fail : Option VportPtr)
    (first : OwnersFirst owner (· ∈ held) ps) (inside : ∀ p ∈ ps, c.Inside p)
    (queues : ∀ p ∈ ps, p.kind ≠ .vec) : c.Stage held ps (VportSizes.alloc ps fail held) where
  done := alloc_all
  wf := wf.alloc fail first inside
  vecs := ofVecs_append fun p member => queues p (List.takeWhile_subset _ member)

/-- A failed stage whose error path leaves `now`. -/
theorem Stage.undone {ps now : List VportPtr} (wf : c.Wf now) (vecs : ofVecs now = ofVecs held) :
    c.Stage held ps (now, false) :=
  ⟨fun this => Bool.noConfusion this, wf, vecs⟩

/-- Well-formed, and no rings or buffers among it. -/
structure GroupsOnly (c : VportSizes) (held : List VportPtr) : Prop where
  wf : c.Wf held
  noTx : ∀ p ∈ held, p.kind ≠ .txDesc
  noRx : ∀ p ∈ held, p.kind ≠ .rxDesc

/-- The pointers of the queues of a kind go, and the rest stays as it was. -/
theorem GroupsOnly.without (groups : c.GroupsOnly held) {k : PtrKind}
    (wf : c.Wf (VportSizes.without k held)) (queues : k ≠ .vec) :
    c.GroupsOnly (VportSizes.without k held) ∧
      ofVecs (VportSizes.without k held) = ofVecs held := by
  constructor
  · constructor
    · exact wf
    · exact fun p member => groups.noTx p (mem_without.mp member).1
    · exact fun p member => groups.noRx p (mem_without.mp member).1
  · exact ofVecs_without queues

theorem GroupsOnly.txqGroupRel (groups : c.GroupsOnly held) :
    c.GroupsOnly (c.txqGroupRel held) ∧ ofVecs (c.txqGroupRel held) = ofVecs held := by
  rw [txqGroupRel_eq groups.wf]
  exact groups.without (groups.wf.withoutTxGrp groups.noTx) (by decide)

theorem GroupsOnly.rxqGroupRel (groups : c.GroupsOnly held) :
    c.GroupsOnly (c.rxqGroupRel held) ∧ ofVecs (c.rxqGroupRel held) = ofVecs held := by
  rw [rxqGroupRel_eq groups.wf]
  exact groups.without (groups.wf.withoutRxGrp groups.noRx) (by decide)

theorem GroupsOnly.queueGrpRelAll (groups : c.GroupsOnly held) :
    c.GroupsOnly (c.queueGrpRelAll held) ∧ ofVecs (c.queueGrpRelAll held) = ofVecs held := by
  obtain ⟨tx, sameTx⟩ := groups.txqGroupRel
  obtain ⟨rx, sameRx⟩ := tx.rxqGroupRel
  exact ⟨rx, sameRx.trans sameTx⟩

theorem ne_of_kind {ps : List VportPtr} {k l : PtrKind} (kind : ∀ p ∈ ps, p.kind = k)
    (other : k ≠ l) : ∀ p ∈ ps, p.kind ≠ l :=
  fun p member same => other ((kind p member).symm.trans same)

/-- The allocations for the groups of one side, released where one of them fails. -/
theorem GroupsOnly.groupAlloc (groups : c.GroupsOnly held) {ps : List VportPtr} {k : PtrKind}
    {rel : List VportPtr → List VportPtr} (fail : Option VportPtr)
    (first : OwnersFirst owner (· ∈ held) ps) (inside : ∀ p ∈ ps, p.kind = k ∧ c.Inside p)
    (group : k ≠ .vec ∧ k ≠ .txDesc ∧ k ≠ .rxDesc)
    (released : ∀ now, c.GroupsOnly now → c.GroupsOnly (rel now) ∧ ofVecs (rel now) = ofVecs now) :
    c.Stage held ps (if (alloc ps fail held).2 then alloc ps fail held
      else (rel (alloc ps fail held).1, false)) ∧
    c.GroupsOnly (if (alloc ps fail held).2 then alloc ps fail held
      else (rel (alloc ps fail held).1, false)).1 := by
  have kind : ∀ p ∈ ps, p.kind = k := fun p member => (inside p member).1
  have stage := groups.wf.stage fail first (fun p member => (inside p member).2)
    (ne_of_kind kind group.1)
  have now : c.GroupsOnly (alloc ps fail held).1 :=
    ⟨stage.wf, kind_alloc groups.noTx (ne_of_kind kind group.2.1),
      kind_alloc groups.noRx (ne_of_kind kind group.2.2)⟩
  cases (alloc ps fail held).2 with
  | true => exact ⟨stage, now⟩
  | false =>
      obtain ⟨left, vecs⟩ := released _ now
      exact ⟨.undone left.wf (vecs.trans stage.vecs), left⟩

theorem GroupsOnly.txqGroupAlloc (groups : c.GroupsOnly held) (fail : Option VportPtr) :
    c.Stage held c.txqGroupAllocs (c.txqGroupAlloc fail held) ∧
      c.GroupsOnly (c.txqGroupAlloc fail held).1 :=
  groups.groupAlloc fail txqGroupAllocs_first (fun _ member => mem_txqGroupAllocs member)
    (by decide) fun _ now => now.txqGroupRel

theorem GroupsOnly.rxqGroupAlloc (groups : c.GroupsOnly held) (fail : Option VportPtr) :
    c.Stage held c.rxqGroupAllocs (c.rxqGroupAlloc fail held) ∧
      c.GroupsOnly (c.rxqGroupAlloc fail held).1 :=
  groups.groupAlloc fail rxqGroupAllocs_first (fun _ member => mem_rxqGroupAllocs member)
    (by decide) fun _ now => now.rxqGroupRel

theorem GroupsOnly.queueGrpAllocAll (groups : c.GroupsOnly held) (fail : Option VportPtr) :
    c.Stage held (c.txqGroupAllocs ++ c.rxqGroupAllocs) (c.queueGrpAllocAll fail held) := by
  obtain ⟨tx, txLeft⟩ := groups.txqGroupAlloc fail
  obtain ⟨rx, rxLeft⟩ := txLeft.rxqGroupAlloc fail
  unfold VportSizes.queueGrpAllocAll
  dsimp only
  cases first : (c.txqGroupAlloc fail held).2 with
  | false =>
      obtain ⟨left, vecs⟩ := txLeft.queueGrpRelAll
      exact .undone left.wf (vecs.trans tx.vecs)
  | true =>
      rw [if_neg (Bool.not_true ▸ Bool.false_ne_true)]
      cases second : (c.rxqGroupAlloc fail (c.txqGroupAlloc fail held).1).2 with
      | false =>
          obtain ⟨left, vecs⟩ := rxLeft.queueGrpRelAll
          exact .undone left.wf ((vecs.trans rx.vecs).trans tx.vecs)
      | true =>
          rw [if_pos rfl]
          constructor
          · intro _
            rw [rx.done second, tx.done first, List.append_assoc]
          · exact rx.wf
          · exact rx.vecs.trans tx.vecs

theorem Wf.txDescAllocAll (wf : c.Wf held) (fail : Option VportPtr) (group : .txqGrps ∈ held) :
    c.Stage held c.txDescAllocsAll (c.txDescAllocAll fail held) :=
  wf.stage fail (txDescAllocsAll_first group) (fun p member => (mem_txDescAllocsAll member).2)
    (ne_of_kind (fun p member => (mem_txDescAllocsAll member).1) (by decide))

theorem Wf.rxDescAllocAll (wf : c.Wf held) (fail : Option VportPtr) (group : .rxqGrps ∈ held)
    (sets : c.rxqSplit = true → ∀ i < c.numRxqGrp, .bufqSets i ∈ held) :
    c.Stage held c.rxDescAllocsAll (c.rxDescAllocAll fail held) := by
  have stage := wf.stage fail (rxDescAllocsAll_first group sets)
    (fun p member => (mem_rxDescAllocsAll member).2)
    (ne_of_kind (fun p member => (mem_rxDescAllocsAll member).1) (by decide))
  unfold VportSizes.rxDescAllocAll
  dsimp only
  cases (VportSizes.alloc c.rxDescAllocsAll fail held).2 with
  | true => exact stage
  | false =>
      rw [if_neg Bool.false_ne_true, rxDescRelAll_eq stage.wf]
      apply Stage.undone (stage.wf.withoutDesc (by decide))
      exact (ofVecs_without fun same => PtrKind.noConfusion same).trans stage.vecs

/-- `idpf_vport_queue_alloc_all` takes all of the queues or nothing. -/
theorem queueAllocAll_spec (only : VecsOnly c held) (fail : Option VportPtr) :
    ((c.queueAllocAll fail held).2 = true →
      (c.queueAllocAll fail held).1 = held ++ c.queueAllocs) ∧
    ((c.queueAllocAll fail held).2 = false → (c.queueAllocAll fail held).1 = held) := by
  have vecs : ofVecs held = held :=
    List.filter_eq_self.mpr fun p member => decide_eq_true (only.vecs p member)
  have groups : c.GroupsOnly held :=
    ⟨only.wf, ne_of_kind only.vecs (by decide), ne_of_kind only.vecs (by decide)⟩
  have grp := groups.queueGrpAllocAll fail
  -- each error path but the first comes here with a stage that has failed
  have unwound {now : List VportPtr} (wf : c.Wf now) (left : ofVecs now = held) :
      c.queuesRel false now = held :=
    (queuesRel_eq wf fun this => Bool.noConfusion this).trans left
  unfold queueAllocAll
  dsimp only
  cases first : (c.queueGrpAllocAll fail held).2 with
  | false =>
      rw [if_pos Bool.not_false]
      exact ⟨fun this => Bool.noConfusion this, fun _ => unwound grp.wf (grp.vecs.trans vecs)⟩
  | true =>
  rw [if_neg (Bool.not_true ▸ Bool.false_ne_true)]
  have txGroup : .txqGrps ∈ (c.queueGrpAllocAll fail held).1 := by
    rw [grp.done first]
    exact List.mem_append_right _ (List.mem_append_left _ List.mem_cons_self)
  have tx := grp.wf.txDescAllocAll fail txGroup
  have txVecs := tx.vecs.trans (grp.vecs.trans vecs)
  cases second : (c.txDescAllocAll fail (c.queueGrpAllocAll fail held).1).2 with
  | false =>
      rw [if_pos Bool.not_false]
      exact ⟨fun this => Bool.noConfusion this, fun _ => unwound tx.wf txVecs⟩
  | true =>
  rw [if_neg (Bool.not_true ▸ Bool.false_ne_true)]
  have rxPart : ∀ p ∈ c.rxqGroupAllocs,
      p ∈ (c.txDescAllocAll fail (c.queueGrpAllocAll fail held).1).1 := by
    intro p member
    rw [tx.done second, grp.done first]
    exact List.mem_append_left _ (List.mem_append_right _ (List.mem_append_right _ member))
  have rx := tx.wf.rxDescAllocAll fail (rxPart _ List.mem_cons_self) fun split i low =>
    rxPart _ (bufqSets_mem split low)
  have rxVecs := rx.vecs.trans txVecs
  cases third : (c.rxDescAllocAll fail
      (c.txDescAllocAll fail (c.queueGrpAllocAll fail held).1).1).2 with
  | false =>
      rw [if_pos Bool.not_false]
      exact ⟨fun this => Bool.noConfusion this, fun _ => unwound rx.wf rxVecs⟩
  | true =>
  rw [if_neg (Bool.not_true ▸ Bool.false_ne_true)]
  have fast := rx.wf.stage fail fastTxqs_first
    (fun p member => List.mem_singleton.mp member ▸ trivial)
    (fun p member => List.mem_singleton.mp member ▸ fun same => PtrKind.noConfusion same)
  cases fourth : (alloc [.fastTxqs] fail (c.rxDescAllocAll fail
      (c.txDescAllocAll fail (c.queueGrpAllocAll fail held).1).1).1).2 with
  | false =>
      rw [if_neg Bool.false_ne_true]
      exact ⟨fun this => Bool.noConfusion this, fun _ => unwound fast.wf (fast.vecs.trans rxVecs)⟩
  | true =>
      rw [if_pos rfl]
      constructor
      · intro _
        rw [fast.done fourth, rx.done third, tx.done second, grp.done first]
        simp only [queueAllocs, List.append_assoc]
      · exact fun this => Bool.noConfusion (fourth.symm.trans this)

theorem wf_nil : c.Wf [] :=
  ⟨fun _ none => absurd none List.not_mem_nil, fun _ none => absurd none List.not_mem_nil⟩

/-- `idpf_vport_intr_alloc` takes all that the vectors need or nothing. -/
theorem intrAlloc_spec (fail : Option VportPtr) :
    ((c.intrAlloc fail []).2 = true → (c.intrAlloc fail []).1 = c.intrAllocs) ∧
    ((c.intrAlloc fail []).2 = false → (c.intrAlloc fail []).1 = []) := by
  have wf : c.Wf (alloc c.intrAllocs fail []).1 :=
    wf_nil.alloc fail intrAllocs_first fun p member => (mem_intrAllocs member).2
  have vecs : ∀ p ∈ (alloc c.intrAllocs fail []).1, p.kind = .vec := by
    intro p member
    have new := (List.mem_append.mp member).resolve_left List.not_mem_nil
    exact (mem_intrAllocs (List.takeWhile_subset _ new)).1
  unfold intrAlloc
  split
  · exact ⟨fun this => Bool.noConfusion this, fun _ => rfl⟩
  · dsimp only
    cases done : (alloc c.intrAllocs fail []).2 with
    | true => exact ⟨fun _ => alloc_all done, fun this => Bool.noConfusion (done.symm.trans this)⟩
    | false => exact ⟨fun this => Bool.noConfusion this, fun _ => intrRel_eq wf vecs⟩

theorem vecsOnly_intrAllocs : c.VecsOnly c.intrAllocs where
  wf := wf_nil.append intrAllocs_first fun _ member => (mem_intrAllocs member).2
  vecs := fun _ member => (mem_intrAllocs member).1

theorem wf_queues : c.Wf (c.intrAllocs ++ c.queueAllocs) := by
  have vecs := (vecsOnly_intrAllocs (c := c)).wf
  have tx := vecs.append txqGroupAllocs_first fun p member => (mem_txqGroupAllocs member).2
  have rx := tx.append rxqGroupAllocs_first fun p member => (mem_rxqGroupAllocs member).2
  have txDesc := rx.append (txDescAllocsAll_first (List.mem_append_left _
    (List.mem_append_right _ List.mem_cons_self))) fun p member => (mem_txDescAllocsAll member).2
  have rxPart : ∀ p ∈ c.rxqGroupAllocs, p ∈ c.intrAllocs ++ c.txqGroupAllocs ++
      c.rxqGroupAllocs ++ c.txDescAllocsAll :=
    fun p member => List.mem_append_left _ (List.mem_append_right _ member)
  have rxDesc := txDesc.append (rxDescAllocsAll_first (rxPart _ List.mem_cons_self)
    fun split i low => rxPart _ (bufqSets_mem split low))
    fun p member => (mem_rxDescAllocsAll member).2
  have fast := rxDesc.append fastTxqs_first fun p member =>
    List.mem_singleton.mp member ▸ (trivial : c.Inside .fastTxqs)
  simpa only [queueAllocs, List.append_assoc] using fast

theorem wf_buffers : c.Wf (c.intrAllocs ++ c.queueAllocs ++ c.rxBufsAllocs) := by
  have rxPart : ∀ p ∈ c.rxqGroupAllocs, p ∈ c.intrAllocs ++ c.queueAllocs := by
    intro p member
    simp only [queueAllocs, List.mem_append]
    exact .inr (.inl (.inl (.inl (.inr member))))
  exact wf_queues.append (rxBufsAllocs_first (rxPart _ List.mem_cons_self)
    fun split i low => rxPart _ (bufqSets_mem split low))
    fun p member => (mem_rxBufsAllocs member).2

theorem kind_queueAllocs (member : p ∈ c.queueAllocs) : p.kind ≠ .vec := by
  simp only [queueAllocs, List.mem_append, List.mem_singleton] at member
  rcases member with (((member | member) | member) | member) | rfl
  · exact fun same => PtrKind.noConfusion ((mem_txqGroupAllocs member).1.symm.trans same)
  · exact fun same => PtrKind.noConfusion ((mem_rxqGroupAllocs member).1.symm.trans same)
  · exact fun same => PtrKind.noConfusion ((mem_txDescAllocsAll member).1.symm.trans same)
  · exact fun same => PtrKind.noConfusion ((mem_rxDescAllocsAll member).1.symm.trans same)
  · exact fun same => PtrKind.noConfusion same

theorem ofVecs_intrAllocs : ofVecs c.intrAllocs = c.intrAllocs :=
  List.filter_eq_self.mpr fun _ member => decide_eq_true (mem_intrAllocs member).1

theorem queuesRel_queues {pools : Bool} (plain : pools = true → c.pooled = false) :
    c.queuesRel pools (c.intrAllocs ++ c.queueAllocs) = c.intrAllocs :=
  (queuesRel_eq wf_queues plain).trans
    ((ofVecs_append fun _ member => kind_queueAllocs member).trans ofVecs_intrAllocs)

theorem queuesRel_buffers {pools : Bool} (plain : pools = true → c.pooled = false) :
    c.queuesRel pools (c.intrAllocs ++ c.queueAllocs ++ c.rxBufsAllocs) = c.intrAllocs := by
  have bufs : ∀ p ∈ c.rxBufsAllocs, p.kind ≠ .vec :=
    ne_of_kind (fun p member => (mem_rxBufsAllocs member).1) (by decide)
  exact (queuesRel_eq wf_buffers plain).trans ((ofVecs_append bufs).trans
    ((ofVecs_append fun _ member => kind_queueAllocs member).trans ofVecs_intrAllocs))

theorem intrRel_intrAllocs : c.intrRel c.intrAllocs = [] :=
  intrRel_eq vecsOnly_intrAllocs.wf vecsOnly_intrAllocs.vecs

theorem alloc_unfailed {ps : List VportPtr} {fail : Option VportPtr}
    (done : (alloc ps fail held).2 = true) (member : p ∈ ps) : fail ≠ some p :=
  fun same => of_decide_eq_true (List.all_eq_true.mp done p member) same.symm

/-- None of its allocations has failed where `idpf_vport_intr_alloc` succeeds. -/
theorem intrAlloc_unfailed {fail : Option VportPtr} (done : (c.intrAlloc fail held).2 = true)
    (member : p ∈ c.intrAllocs) : fail ≠ some p := by
  unfold intrAlloc at done
  split at done
  · exact Bool.noConfusion done
  · dsimp only at done
    cases all : (alloc c.intrAllocs fail held).2 with
    | true => exact alloc_unfailed all member
    | false =>
        rw [all, if_neg Bool.false_ne_true] at done
        exact Bool.noConfusion done

theorem unfailed_of_ite {ps undone : List VportPtr} {fail : Option VportPtr}
    (done : (if (alloc ps fail held).2 then alloc ps fail held else (undone, false)).2 = true)
    (member : p ∈ ps) : fail ≠ some p := by
  cases all : (alloc ps fail held).2 with
  | true => exact alloc_unfailed all member
  | false =>
      rw [all, if_neg Bool.false_ne_true] at done
      exact Bool.noConfusion done

theorem queueGrpAllocAll_unfailed {fail : Option VportPtr}
    (done : (c.queueGrpAllocAll fail held).2 = true)
    (member : p ∈ c.txqGroupAllocs ++ c.rxqGroupAllocs) : fail ≠ some p := by
  unfold queueGrpAllocAll at done
  dsimp only at done
  cases first : (c.txqGroupAlloc fail held).2 with
  | false =>
      rw [first] at done
      exact Bool.noConfusion done
  | true =>
      rw [first, if_neg (Bool.not_true ▸ Bool.false_ne_true)] at done
      cases second : (c.rxqGroupAlloc fail (c.txqGroupAlloc fail held).1).2 with
      | false =>
          rw [second] at done
          exact Bool.noConfusion done
      | true =>
          cases List.mem_append.mp member with
          | inl tx => exact unfailed_of_ite first tx
          | inr rx => exact unfailed_of_ite second rx

theorem queueAllocAll_unfailed {fail : Option VportPtr}
    (done : (c.queueAllocAll fail held).2 = true) (member : p ∈ c.queueAllocs) :
    fail ≠ some p := by
  unfold queueAllocAll at done
  dsimp only at done
  cases grp : (c.queueGrpAllocAll fail held).2 with
  | false =>
      rw [grp] at done
      exact Bool.noConfusion done
  | true =>
  rw [grp, if_neg (Bool.not_true ▸ Bool.false_ne_true)] at done
  cases tx : (c.txDescAllocAll fail (c.queueGrpAllocAll fail held).1).2 with
  | false =>
      rw [tx] at done
      exact Bool.noConfusion done
  | true =>
  rw [tx, if_neg (Bool.not_true ▸ Bool.false_ne_true)] at done
  cases rx : (c.rxDescAllocAll fail
      (c.txDescAllocAll fail (c.queueGrpAllocAll fail held).1).1).2 with
  | false =>
      rw [rx] at done
      exact Bool.noConfusion done
  | true =>
  rw [rx, if_neg (Bool.not_true ▸ Bool.false_ne_true)] at done
  simp only [queueAllocs, List.mem_append] at member
  rcases member with ((groups | txDesc) | rxDesc) | fast
  · exact queueGrpAllocAll_unfailed grp (List.mem_append.mpr groups)
  · exact alloc_unfailed tx txDesc
  · exact unfailed_of_ite rx rxDesc
  · exact unfailed_of_ite done fast

end VportSizes

end Idpf
