import Idpf.Vport.Queues
import Mathlib.Data.BitVec
import Mathlib.Data.List.Nodup

/-! Queue IDs and tail registers: two walks over the chunks that the device gave, and their
assignment to the queues of a vport. -/
namespace Idpf

/-- `struct idpf_queue_id_reg_chunk`. -/
structure QueueChunk where
  qtailRegStart : BitVec 64
  qtailRegSpacing : BitVec 32
  type : BitVec 32
  startQueueId : BitVec 32
  numQueues : BitVec 32
  deriving DecidableEq, Repr

/-- A queue ID or a register offset, with the chunk and the position in it that it was made for. -/
structure ChunkEntry where
  chunk : Nat
  pos : Nat
  val : BitVec 32
  deriving DecidableEq, Repr

/-- The inner loop of both walks: `todo` queues of a chunk are left, and `room` entries of the
array. -/
def fillChunk (chunk : Nat) (step : BitVec 32) : Nat → Nat → BitVec 32 → Nat → List ChunkEntry
  | todo + 1, pos, val, room + 1 =>
    ⟨chunk, pos, val⟩ :: fillChunk chunk step todo (pos + 1) (val + step) room
  | _, _, _, _ => []

/-- A walk over the chunks, in the order in which they are met. -/
def fillArray (count : QueueChunk → Nat) (first step : QueueChunk → BitVec 32) (type : BitVec 32) :
    Nat → List (QueueChunk × Nat) → List ChunkEntry
  | _, [] => []
  | room, (c, i) :: chunks =>
    if c.type ≠ type then fillArray count first step type room chunks
    else
      let filled := fillChunk i (step c) (count c) 0 (first c) room
      filled ++ fillArray count first step type (room - filled.length) chunks

/-- `idpf_vport_get_q_reg`: the count of a chunk is kept in 16 bits, the offset in 32. -/
def getQReg (numRegs : Nat) (type : BitVec 32) (chunks : List QueueChunk) : List ChunkEntry :=
  fillArray (fun c => c.numQueues.toNat % 65536) (fun c => c.qtailRegStart.setWidth 32)
    QueueChunk.qtailRegSpacing type numRegs chunks.zipIdx.reverse

/-- `idpf_vport_get_queue_ids` -/
def getQueueIds (numQids : Nat) (type : BitVec 32) (chunks : List QueueChunk) : List ChunkEntry :=
  fillArray (fun c => c.numQueues.toNat) QueueChunk.startQueueId (fun _ => 1) type numQids
    chunks.zipIdx.reverse

/-- What `__idpf_vport_queue_ids_init` and `__idpf_queue_reg_init` do for queues in groups of these
sizes: the queues get the entries in turn, and none when there are no more. -/
def assignGroups : List Nat → List ChunkEntry → List (Option ChunkEntry)
  | [], _ => []
  | size :: groups, entries =>
    (List.range size).map (entries[·]?) ++ assignGroups groups (entries.drop size)

theorem assignGroups_eq (groups : List Nat) (entries : List ChunkEntry) :
    assignGroups groups entries = (List.range groups.sum).map (entries[·]?) := by
  induction groups generalizing entries with
  | nil => rfl
  | cons size groups ih =>
    simp only [assignGroups, ih, List.sum_cons, List.range_add, List.map_append, List.map_map]
    congr 1
    apply List.map_congr_left
    intro k _
    simp only [List.getElem?_drop, Function.comp_apply]

namespace QVecRsrc

/-- The sizes of the transmit groups: one queue each in the split model, see
`idpf_vport_calc_numq_per_grp`. -/
def txqGroups (r : QVecRsrc) : List Nat :=
  List.replicate r.numTxqGrp (if r.txSplit then 1 else r.numTxq)

def rxqGroups (r : QVecRsrc) : List Nat :=
  List.replicate r.numRxqGrp (if r.rxSplit then 1 else r.numRxq)

def bufqGroups (r : QVecRsrc) : List Nat := List.replicate r.numRxqGrp r.numBufqsPerQgrp

def complqGroups (r : QVecRsrc) : List Nat := List.replicate r.numTxqGrp 1

end QVecRsrc

/-- What the queues of each kind are given, in the order of the groups. -/
structure QueueTable where
  tx : List (Option ChunkEntry)
  rx : List (Option ChunkEntry)
  compl : List (Option ChunkEntry)
  buf : List (Option ChunkEntry)
  deriving DecidableEq, Repr

/-- IDPF_LARGE_MAX_Q and IDPF_MAX_QIDS. -/
def maxQids : Nat := 256

/-- One kind in the init functions: enough entries for the count that is checked, or -EINVAL. -/
def initKind (entries : List ChunkEntry) (num : Nat) (groups : List Nat) :
    Option (List (Option ChunkEntry)) :=
  if entries.length < num then none else some (assignGroups groups entries)

/-- `idpf_vport_queue_ids_init` -/
def queueIdsInit (r : QVecRsrc) (chunks : List QueueChunk) : Option QueueTable := do
  let tx ← initKind (getQueueIds maxQids 0 chunks) r.numTxq r.txqGroups
  let rx ← initKind (getQueueIds maxQids 1 chunks) r.numRxq r.rxqGroups
  let compl ← if r.txSplit then initKind (getQueueIds maxQids 2 chunks) r.numComplq r.complqGroups
    else some []
  let buf ← if r.rxSplit then initKind (getQueueIds maxQids 3 chunks) r.numBufq r.bufqGroups
    else some []
  some ⟨tx, rx, compl, buf⟩

/-- `idpf_queue_reg_init`: a completion queue has no tail register, nor has a receive queue in the
split model. -/
def queueRegInit (r : QVecRsrc) (chunks : List QueueChunk) : Option QueueTable := do
  let tx ← initKind (getQReg maxQids 0 chunks) r.numTxq r.txqGroups
  if r.rxSplit then
    let buf ← initKind (getQReg maxQids 3 chunks) r.numBufq r.bufqGroups
    some ⟨tx, [], [], buf⟩
  else
    let rx ← initKind (getQReg maxQids 1 chunks) r.numRxq r.rxqGroups
    some ⟨tx, rx, [], []⟩

/-! What the walks find -/

/-- Entry `pos` of chunk `chunk`, for values that start at `base` and go by `stride`. -/
def entryAt (chunk base stride pos : Nat) : ChunkEntry :=
  ⟨chunk, pos, BitVec.ofNat 32 (base + pos * stride)⟩

theorem fillChunk_eq (chunk base stride todo pos room : Nat) :
    fillChunk chunk (BitVec.ofNat 32 stride) todo pos (BitVec.ofNat 32 (base + pos * stride)) room =
      (List.range' pos (min todo room)).map (entryAt chunk base stride) := by
  induction todo generalizing pos room with
  | zero => simp [fillChunk]
  | succ todo ih =>
    cases room with
    | zero => simp [fillChunk]
    | succ room =>
      have next : BitVec.ofNat 32 (base + pos * stride) + BitVec.ofNat 32 stride =
          BitVec.ofNat 32 (base + (pos + 1) * stride) := by
        rw [← BitVec.ofNat_add, Nat.succ_mul, Nat.add_assoc]
      rw [fillChunk, next, ih, Nat.add_min_add_right, List.range'_succ, List.map_cons]
      rfl

/-- One of the two walks: how many queues it sees in a chunk, and which values it gives them. -/
structure ChunkWalk where
  count : QueueChunk → Nat
  base : QueueChunk → Nat
  stride : QueueChunk → Nat

def ChunkWalk.fill (w : ChunkWalk) (type : BitVec 32) (room : Nat)
    (chunks : List (QueueChunk × Nat)) : List ChunkEntry :=
  fillArray w.count (fun c => BitVec.ofNat 32 (w.base c)) (fun c => BitVec.ofNat 32 (w.stride c))
    type room chunks

/-- The walk of `idpf_vport_get_queue_ids`. -/
def idWalk : ChunkWalk where
  count c := c.numQueues.toNat
  base c := c.startQueueId.toNat
  stride _ := 1

/-- The walk of `idpf_vport_get_q_reg`. -/
def regWalk : ChunkWalk where
  count c := c.numQueues.toNat % 65536
  base c := c.qtailRegStart.toNat
  stride c := c.qtailRegSpacing.toNat

theorem getQueueIds_eq (num : Nat) (type : BitVec 32) (chunks : List QueueChunk) :
    getQueueIds num type chunks = idWalk.fill type num chunks.zipIdx.reverse := by
  simp only [getQueueIds, ChunkWalk.fill, idWalk, BitVec.ofNat_toNat, BitVec.setWidth_eq]
  rfl

theorem getQReg_eq (num : Nat) (type : BitVec 32) (chunks : List QueueChunk) :
    getQReg num type chunks = regWalk.fill type num chunks.zipIdx.reverse := by
  simp only [getQReg, ChunkWalk.fill, regWalk, BitVec.ofNat_toNat, BitVec.setWidth_eq]

variable {w : ChunkWalk} {type : BitVec 32}

theorem ChunkWalk.fill_other {c : QueueChunk} (other : c.type ≠ type) (room i : Nat)
    (chunks : List (QueueChunk × Nat)) :
    w.fill type room ((c, i) :: chunks) = w.fill type room chunks := by
  simp only [fill, fillArray, if_pos other]

theorem ChunkWalk.fill_typed {c : QueueChunk} (typed : c.type = type) (room i : Nat)
    (chunks : List (QueueChunk × Nat)) :
    w.fill type room ((c, i) :: chunks) =
      (List.range (min (w.count c) room)).map (entryAt i (w.base c) (w.stride c)) ++
        w.fill type (room - min (w.count c) room) chunks := by
  have filled := fillChunk_eq i (w.base c) (w.stride c) (w.count c) 0 room
  rw [Nat.zero_mul, Nat.add_zero, ← List.range_eq_range'] at filled
  simp only [fill, fillArray, typed, ne_eq, not_true_eq_false, if_false, filled, List.length_map,
    List.length_range]

theorem ChunkWalk.fill_head {c : QueueChunk} (typed : c.type = type) {room k : Nat} (i : Nat)
    (chunks : List (QueueChunk × Nat)) (inside : k < w.count c) (space : k < room) :
    (w.fill type room ((c, i) :: chunks))[k]? = some (entryAt i (w.base c) (w.stride c) k) := by
  have short : k < min (w.count c) room := Nat.lt_min.mpr ⟨inside, space⟩
  rw [fill_typed typed, List.getElem?_append_left (by simpa using short), List.getElem?_map,
    List.getElem?_range short]
  rfl

/-- Behind them stand those of the chunks that follow. -/
theorem ChunkWalk.fill_tail {c : QueueChunk} (typed : c.type = type) {room : Nat} (i k : Nat)
    (chunks : List (QueueChunk × Nat)) :
    (w.fill type room ((c, i) :: chunks))[min (w.count c) room + k]? =
      (w.fill type (room - min (w.count c) room) chunks)[k]? := by
  have behind : ((List.range (min (w.count c) room)).map
      (entryAt i (w.base c) (w.stride c))).length = min (w.count c) room := by
    rw [List.length_map, List.length_range]
  rw [fill_typed typed, List.getElem?_append_right (by rw [behind]; exact Nat.le_add_right _ _), behind,
    Nat.add_sub_cancel_left]

theorem ChunkWalk.fill_length_le (room : Nat) (chunks : List (QueueChunk × Nat)) :
    (w.fill type room chunks).length ≤ room := by
  induction chunks generalizing room with
  | nil => exact Nat.zero_le room
  | cons head chunks ih =>
    obtain ⟨c, i⟩ := head
    by_cases typed : c.type = type
    · rw [fill_typed typed, List.length_append, List.length_map, List.length_range]
      have := ih (room - min (w.count c) room)
      omega
    · rw [fill_other typed]
      exact ih room

/-- An entry is of a chunk on the list. -/
theorem ChunkWalk.fill_mem {room : Nat} {chunks : List (QueueChunk × Nat)} {e : ChunkEntry}
    (member : e ∈ w.fill type room chunks) :
    ∃ c, (c, e.chunk) ∈ chunks ∧ c.type = type ∧ e.pos < w.count c ∧
      e = entryAt e.chunk (w.base c) (w.stride c) e.pos := by
  induction chunks generalizing room with
  | nil => exact absurd member List.not_mem_nil
  | cons head chunks ih =>
    obtain ⟨c, i⟩ := head
    by_cases typed : c.type = type
    · rw [fill_typed typed, List.mem_append, List.mem_map] at member
      rcases member with ⟨p, inside, rfl⟩ | member
      · have := Nat.lt_min.mp (List.mem_range.mp inside)
        exact ⟨c, List.mem_cons_self, typed, this.1, rfl⟩
      · obtain ⟨d, listed, rest⟩ := ih member
        exact ⟨d, List.mem_cons_of_mem _ listed, rest⟩
    · rw [fill_other typed] at member
      obtain ⟨d, listed, rest⟩ := ih member
      exact ⟨d, List.mem_cons_of_mem _ listed, rest⟩

/-! Where the walks agree -/

/-- The walk sees the first `n` queues of the chunk, and its values for them are 32-bit numbers. -/
def ChunkWalk.fits (w : ChunkWalk) (c : QueueChunk) (n : Nat) : Bool :=
  n ≤ w.count c && (n = 0 || w.base c + (n - 1) * w.stride c < 2 ^ 32)

/-- The first `n` queues of a type are those of the chunks as they come, each lending as many as
it has or as are missing, and `v` sees and fits them as the walk for the IDs does. -/
def chunksFit (v : ChunkWalk) (type : BitVec 32) : Nat → List QueueChunk → Bool
  | n, [] => n = 0
  | n, c :: chunks =>
    if c.type ≠ type then chunksFit v type n chunks
    else idWalk.fits c (min n c.numQueues.toNat) && v.fits c (min n c.numQueues.toNat) &&
      chunksFit v type (n - c.numQueues.toNat) chunks

@[simp] theorem ChunkWalk.fits_zero (w : ChunkWalk) (c : QueueChunk) : w.fits c 0 = true := by
  simp [fits]

theorem chunksFit_zero (v : ChunkWalk) (type : BitVec 32) (chunks : List QueueChunk) :
    chunksFit v type 0 chunks = true := by
  induction chunks with
  | nil => rfl
  | cons c chunks ih =>
    simp only [chunksFit, Nat.zero_min, ChunkWalk.fits_zero, Nat.zero_sub, ih, Bool.and_self,
      ite_self]

/-- The entry is the ID or the register at its position of its chunk. -/
def ChunkWalk.Exact (w : ChunkWalk) (type : BitVec 32) (chunks : List (QueueChunk × Nat))
    (e : ChunkEntry) : Prop :=
  ∃ c, (c, e.chunk) ∈ chunks ∧ c.type = type ∧ e.pos < c.numQueues.toNat ∧
    e.val.toNat = w.base c + e.pos * w.stride c

theorem entryAt_val {chunk base stride pos : Nat} :
    (entryAt chunk base stride pos).val.toNat = base + pos * stride ↔
      base + pos * stride < 2 ^ 32 := by
  rw [entryAt, BitVec.toNat_ofNat]
  constructor
  · intro same
    rw [← same]
    exact Nat.mod_lt _ (by decide)
  · exact Nat.mod_eq_of_lt

/-- The `k`-th queue gets an ID and a value of `v` of the same position of the same chunk. -/
def Paired (v : ChunkWalk) (type : BitVec 32) (room : Nat) (chunks : List (QueueChunk × Nat))
    (k : Nat) : Prop :=
  ∃ e f, (idWalk.fill type room chunks)[k]? = some e ∧
    (v.fill type room chunks)[k]? = some f ∧ e.chunk = f.chunk ∧ e.pos = f.pos ∧
    idWalk.Exact type chunks e ∧ v.Exact type chunks f

variable {c : QueueChunk} {i room k n : Nat} {chunks : List (QueueChunk × Nat)}

theorem ChunkWalk.Exact.mono {e : ChunkEntry} (exact : w.Exact type chunks e) :
    w.Exact type ((c, i) :: chunks) e := by
  obtain ⟨d, listed, rest⟩ := exact
  exact ⟨d, List.mem_cons_of_mem _ listed, rest⟩

theorem ChunkWalk.Exact.of_cons {e : ChunkEntry} (exact : w.Exact type ((c, i) :: chunks) e)
    (other : e.chunk = i → c.type ≠ type) : w.Exact type chunks e := by
  obtain ⟨d, listed, typed, rest⟩ := exact
  rcases List.mem_cons.mp listed with head | listed
  · obtain ⟨rfl, here⟩ := Prod.mk.inj head
    exact absurd typed (other here)
  · exact ⟨d, listed, typed, rest⟩

/-- Nothing else on the list has the index of its first chunk. -/
def Fresh (i : Nat) (chunks : List (QueueChunk × Nat)) : Prop := ∀ d, (d, i) ∉ chunks

theorem fresh_of_nodup {c : QueueChunk} {i : Nat}
    (distinct : (((c, i) :: chunks).map Prod.snd).Nodup) :
    Fresh i chunks ∧ (chunks.map Prod.snd).Nodup := by
  obtain ⟨fresh, rest⟩ := List.nodup_cons.mp distinct
  exact ⟨fun d listed => fresh (List.mem_map.mpr ⟨(d, i), listed, rfl⟩), rest⟩

theorem ChunkWalk.fill_fresh (fresh : Fresh i chunks) {e : ChunkEntry}
    (member : e ∈ w.fill type room chunks) : e.chunk ≠ i := by
  intro same
  obtain ⟨d, listed, -⟩ := fill_mem member
  exact fresh d (same ▸ listed)

/-- In the first chunk an entry is exact if its value fits. -/
theorem ChunkWalk.exact_head (typed : c.type = type) (fresh : Fresh i chunks)
    (inside : k < c.numQueues.toNat) :
    w.Exact type ((c, i) :: chunks) (entryAt i (w.base c) (w.stride c) k) ↔
      w.base c + k * w.stride c < 2 ^ 32 := by
  rw [← @entryAt_val i]
  constructor
  · intro exact
    obtain ⟨d, listed, -, -, same⟩ := exact
    rcases List.mem_cons.mp listed with here | listed
    · obtain ⟨rfl, -⟩ := Prod.mk.inj here
      exact same
    · exact absurd listed (fresh d)
  · intro same
    exact ⟨c, List.mem_cons_self, typed, inside, same⟩

variable {v : ChunkWalk}

theorem paired_other (other : c.type ≠ type) :
    Paired v type room ((c, i) :: chunks) k ↔ Paired v type room chunks k := by
  simp only [Paired, ChunkWalk.fill_other other]
  constructor
  · rintro ⟨e, f, ide, reg, chunk, pos, exactId, exactReg⟩
    exact ⟨e, f, ide, reg, chunk, pos, exactId.of_cons fun _ => other, exactReg.of_cons fun _ => other⟩
  · rintro ⟨e, f, ide, reg, chunk, pos, exactId, exactReg⟩
    exact ⟨e, f, ide, reg, chunk, pos, exactId.mono, exactReg.mono⟩

/-- In the first chunk the two walks agree as far as the other one sees it. -/
theorem paired_head (typed : c.type = type) (fresh : Fresh i chunks)
    (inside : k < c.numQueues.toNat) (space : k < room) :
    Paired v type room ((c, i) :: chunks) k ↔ k < v.count c ∧
      idWalk.base c + k * idWalk.stride c < 2 ^ 32 ∧ v.base c + k * v.stride c < 2 ^ 32 := by
  have ids := @ChunkWalk.fill_head idWalk type c typed room k i chunks inside space
  have exactId := @ChunkWalk.exact_head idWalk type c i k chunks typed fresh inside
  have exactReg := @ChunkWalk.exact_head v type c i k chunks typed fresh inside
  constructor
  · rintro ⟨e, f, ide, reg, chunk, pos, eExact, fExact⟩
    obtain rfl := Option.some.inj (ids.symm.trans ide)
    have within : k < v.count c := by
      apply Nat.lt_of_not_le
      intro beyond
      have shift := @ChunkWalk.fill_tail v type c typed room i (k - v.count c) chunks
      rw [Nat.min_eq_left (beyond.trans space.le), Nat.add_sub_cancel' beyond] at shift
      rw [shift] at reg
      exact ChunkWalk.fill_fresh fresh (List.mem_of_getElem? reg) chunk.symm
    have regs := @ChunkWalk.fill_head v type c typed room k i chunks within space
    obtain rfl := Option.some.inj (regs.symm.trans reg)
    exact ⟨within, exactId.mp eExact, exactReg.mp fExact⟩
  · rintro ⟨within, idFits, regFits⟩
    have regs := @ChunkWalk.fill_head v type c typed room k i chunks within space
    exact ⟨_, _, ids, regs, rfl, rfl, exactId.mpr idFits, exactReg.mpr regFits⟩

/-- Behind a chunk that both see whole the walks go on alike. -/
theorem paired_tail (typed : c.type = type) (fresh : Fresh i chunks)
    (whole : v.count c = c.numQueues.toNat) (space : c.numQueues.toNat ≤ room) :
    Paired v type room ((c, i) :: chunks) (c.numQueues.toNat + k) ↔
      Paired v type (room - c.numQueues.toNat) chunks k := by
  have ids := @ChunkWalk.fill_tail idWalk type c typed room i k chunks
  have regs := @ChunkWalk.fill_tail v type c typed room i k chunks
  have seen : idWalk.count c = c.numQueues.toNat := rfl
  rw [seen, Nat.min_eq_left space] at ids
  rw [whole, Nat.min_eq_left space] at regs
  have far : ∀ {w : ChunkWalk} {e : ChunkEntry},
      (w.fill type (room - c.numQueues.toNat) chunks)[k]? = some e → e.chunk ≠ i := fun found =>
    ChunkWalk.fill_fresh fresh (List.mem_of_getElem? found)
  constructor
  · rintro ⟨e, f, ide, reg, chunk, pos, eExact, fExact⟩
    have ide := ids.symm.trans ide
    have reg := regs.symm.trans reg
    exact ⟨e, f, ide, reg, chunk, pos, eExact.of_cons fun here => absurd here (far ide),
      fExact.of_cons fun here => absurd here (far reg)⟩
  · rintro ⟨e, f, ide, reg, chunk, pos, eExact, fExact⟩
    exact ⟨e, f, ids.trans ide, regs.trans reg, chunk, pos, eExact.mono, fExact.mono⟩

theorem ChunkWalk.fits_iff :
    w.fits c n = true ↔ ∀ k < n, k < w.count c ∧ w.base c + k * w.stride c < 2 ^ 32 := by
  simp only [fits, Bool.and_eq_true, Bool.or_eq_true, decide_eq_true_eq]
  constructor
  · rintro ⟨seen, value⟩ k below
    have last : k * w.stride c ≤ (n - 1) * w.stride c := Nat.mul_le_mul_right _ (by omega)
    omega
  · intro each
    cases n with
    | zero => exact ⟨Nat.zero_le _, Or.inl rfl⟩
    | succ n =>
      have last := each n (Nat.lt_succ_self n)
      exact ⟨last.1, Or.inr last.2⟩

theorem forall_lt_split {P : Nat → Prop} (n m : Nat) :
    (∀ k < n, P k) ↔ (∀ k < min n m, P k) ∧ ∀ k < n - m, P (m + k) := by
  constructor
  · intro each
    exact ⟨fun k below => each k (by omega), fun k below => each _ (by omega)⟩
  · rintro ⟨near, far⟩ k below
    by_cases inside : k < m
    · exact near k (by omega)
    · have := far (k - m) (by omega)
      rwa [Nat.add_sub_cancel' (by omega)] at this

theorem paired_heads (typed : c.type = type) (fresh : Fresh i chunks) (enough : n ≤ room) :
    (∀ k < min n c.numQueues.toNat, Paired v type room ((c, i) :: chunks) k) ↔
      idWalk.fits c (min n c.numQueues.toNat) = true ∧ v.fits c (min n c.numQueues.toNat) = true := by
  rw [ChunkWalk.fits_iff, ChunkWalk.fits_iff, ← forall₂_and]
  apply forall₂_congr
  intro k below
  have inside : k < idWalk.count c := (Nat.lt_min.mp below).2
  rw [paired_head typed fresh inside (by omega)]
  constructor
  · rintro ⟨count, id, reg⟩
    exact ⟨⟨inside, id⟩, count, reg⟩
  · rintro ⟨⟨-, id⟩, count, reg⟩
    exact ⟨count, id, reg⟩

/-- The first `n` queues are paired if and only if the chunks fit them. -/
theorem paired_iff (seen : ∀ c, v.count c ≤ c.numQueues.toNat)
    (distinct : (chunks.map Prod.snd).Nodup) (enough : n ≤ room) :
    (∀ k < n, Paired v type room chunks k) ↔ chunksFit v type n (chunks.map Prod.fst) = true := by
  induction chunks generalizing n room with
  | nil =>
    simp only [List.map_nil, chunksFit, decide_eq_true_eq]
    constructor
    · intro each
      apply Nat.eq_zero_of_not_pos
      intro some
      obtain ⟨e, f, ide, -⟩ := each 0 some
      exact absurd ide (by simp [ChunkWalk.fill, fillArray])
    · intro none k below
      omega
  | cons head chunks ih =>
    obtain ⟨c, i⟩ := head
    obtain ⟨fresh, distinct⟩ := fresh_of_nodup distinct
    have tails : (chunks.map Prod.snd).Nodup → Fresh i chunks → c.type = type →
        v.fits c (min n c.numQueues.toNat) = true →
        ((∀ k < n - c.numQueues.toNat,
            Paired v type room ((c, i) :: chunks) (c.numQueues.toNat + k)) ↔
          chunksFit v type (n - c.numQueues.toNat) (chunks.map Prod.fst) = true) := by
      intro rest fresh typed fits
      by_cases last : n ≤ c.numQueues.toNat
      · rw [Nat.sub_eq_zero_of_le last, chunksFit_zero]
        simp
      · have count : c.numQueues.toNat ≤ v.count c := by
          have := (Bool.and_eq_true_iff.mp fits).1
          rw [Nat.min_eq_right (by omega)] at this
          exact of_decide_eq_true this
        have whole := Nat.le_antisymm (seen c) count
        simp only [paired_tail typed fresh whole (by omega : c.numQueues.toNat ≤ room)]
        exact ih rest (by omega)
    rw [List.map_cons, chunksFit]
    by_cases typed : c.type = type
    · rw [if_neg (not_not_intro typed), Bool.and_eq_true, Bool.and_eq_true,
        forall_lt_split _ c.numQueues.toNat]
      have heads := paired_heads (v := v) (n := n) typed fresh enough
      constructor
      · rintro ⟨near, far⟩
        have fits := heads.mp near
        exact ⟨fits, (tails distinct fresh typed fits.2).mp far⟩
      · rintro ⟨fits, far⟩
        exact ⟨heads.mpr fits, (tails distinct fresh typed fits.2).mpr far⟩
    · rw [if_pos typed]
      simp only [paired_other typed]
      exact ih distinct enough

/-- No two entries are for the same position of the same chunk. -/
theorem ChunkWalk.fill_slot_inj (distinct : (chunks.map Prod.snd).Nodup) {k l : Nat}
    {e f : ChunkEntry} (atK : (w.fill type room chunks)[k]? = some e)
    (atL : (w.fill type room chunks)[l]? = some f) (chunk : e.chunk = f.chunk)
    (pos : e.pos = f.pos) : k = l := by
  induction chunks generalizing room k l with
  | nil => exact absurd atK (by simp [fill, fillArray])
  | cons head chunks ih =>
    obtain ⟨c, i⟩ := head
    obtain ⟨fresh, distinct⟩ := fresh_of_nodup distinct
    by_cases typed : c.type = type
    · have near : ∀ {j g}, j < min (w.count c) room →
          (w.fill type room ((c, i) :: chunks))[j]? = some g →
          g = entryAt i (w.base c) (w.stride c) j := by
        intro j g below found
        have head := @fill_head w type c typed room j i chunks (by omega) (by omega)
        exact (Option.some.inj (head.symm.trans found)).symm
      have far : ∀ {j g}, ¬ j < min (w.count c) room →
          (w.fill type room ((c, i) :: chunks))[j]? = some g →
          (w.fill type (room - min (w.count c) room) chunks)[j - min (w.count c) room]? =
            some g := by
        intro j g beyond found
        have tail := @fill_tail w type c typed room i (j - min (w.count c) room) chunks
        rw [Nat.add_sub_cancel' (by omega)] at tail
        rw [← tail, found]
      by_cases kNear : k < min (w.count c) room
      · obtain rfl := near kNear atK
        by_cases lNear : l < min (w.count c) room
        · obtain rfl := near lNear atL
          exact pos
        · exact absurd chunk.symm (fill_fresh fresh (List.mem_of_getElem? (far lNear atL)))
      · by_cases lNear : l < min (w.count c) room
        · obtain rfl := near lNear atL
          exact absurd chunk (fill_fresh fresh (List.mem_of_getElem? (far kNear atK)))
        · have := ih distinct (far kNear atK) (far lNear atL)
          omega
    · rw [fill_other typed] at atK atL
      exact ih distinct atK atL

/-- Of the chunks that lend the first `n` queues of a type, each that lends two or more has its
registers apart. -/
def chunksSpaced (type : BitVec 32) : Nat → List QueueChunk → Bool
  | _, [] => true
  | n, c :: chunks =>
    if c.type ≠ type then chunksSpaced type n chunks
    else (min n c.numQueues.toNat < 2 || c.qtailRegSpacing ≠ 0) &&
      chunksSpaced type (n - c.numQueues.toNat) chunks

/-- Two of the first `n` entries that are of one chunk have their registers apart. -/
def Apart (type : BitVec 32) (room n : Nat) (chunks : List (QueueChunk × Nat)) : Prop :=
  ∀ k < n, ∀ l < n, k ≠ l → ∀ e f, (idWalk.fill type room chunks)[k]? = some e →
    (idWalk.fill type room chunks)[l]? = some f → e.chunk = f.chunk →
    ∀ c, (c, e.chunk) ∈ chunks → c.qtailRegSpacing ≠ 0

theorem apart_iff (distinct : (chunks.map Prod.snd).Nodup) (enough : n ≤ room) :
    Apart type room n chunks ↔ chunksSpaced type n (chunks.map Prod.fst) = true := by
  induction chunks generalizing n room with
  | nil =>
    simp only [List.map_nil, chunksSpaced, iff_true]
    intro k _ l _ _ e f atK
    exact absurd atK (by simp [ChunkWalk.fill, fillArray])
  | cons head chunks ih =>
    obtain ⟨c, i⟩ := head
    obtain ⟨fresh, distinct⟩ := fresh_of_nodup distinct
    have only : ∀ {d}, (d, i) ∈ (c, i) :: chunks → d = c := by
      intro d listed
      rcases List.mem_cons.mp listed with same | listed
      · exact (Prod.mk.inj same).1
      · exact absurd listed (fresh d)
    rw [List.map_cons, chunksSpaced]
    by_cases typed : c.type = type
    · have near : ∀ {j}, j < c.numQueues.toNat → j < n →
          (idWalk.fill type room ((c, i) :: chunks))[j]? =
            some (entryAt i (idWalk.base c) (idWalk.stride c) j) := fun inside below =>
        ChunkWalk.fill_head typed i chunks inside (below.trans_le enough)
      have far : ∀ {j}, c.numQueues.toNat ≤ n →
          (idWalk.fill type room ((c, i) :: chunks))[c.numQueues.toNat + j]? =
            (idWalk.fill type (room - c.numQueues.toNat) chunks)[j]? := by
        intro j last
        have tail := @ChunkWalk.fill_tail idWalk type c typed room i j chunks
        rwa [show min (idWalk.count c) room = c.numQueues.toNat from
          Nat.min_eq_left (last.trans enough)] at tail
      simp only [ne_eq, typed, not_true_eq_false, if_false, Bool.and_eq_true, Bool.or_eq_true,
        decide_eq_true_eq]
      have rest := @ih (room - c.numQueues.toNat) (n - c.numQueues.toNat) distinct (by omega)
      constructor
      · intro apart
        refine ⟨?_, rest.mp ?_⟩
        · by_cases two : min n c.numQueues.toNat < 2
          · exact Or.inl two
          · right
            exact apart 0 (by omega) 1 (by omega) (by omega) _ _ (near (by omega) (by omega))
              (near (by omega) (by omega)) rfl c List.mem_cons_self
        · intro k kBelow l lBelow other e f atK atL chunk d listed
          apply apart (c.numQueues.toNat + k) (by omega) (c.numQueues.toNat + l) (by omega)
            (by omega) e f _ _ chunk d (List.mem_cons_of_mem _ listed)
          · rw [far (by omega), atK]
          · rw [far (by omega), atL]
      · rintro ⟨first, others⟩ k kBelow l lBelow other e f atK atL chunk d listed
        have inTail : ∀ {j g}, ¬ j < c.numQueues.toNat → j < n →
            (idWalk.fill type room ((c, i) :: chunks))[j]? = some g →
            (idWalk.fill type (room - c.numQueues.toNat) chunks)[j - c.numQueues.toNat]? =
              some g := by
          intro j g beyond below found
          have tail := @far (j - c.numQueues.toNat) (by omega)
          rwa [Nat.add_sub_cancel' (by omega), found, eq_comm] at tail
        by_cases kNear : k < c.numQueues.toNat
        · obtain rfl := Option.some.inj ((near kNear kBelow).symm.trans atK)
          by_cases lNear : l < c.numQueues.toNat
          · rw [only listed]
            exact first.resolve_left (by omega)
          · have away := ChunkWalk.fill_fresh fresh
              (List.mem_of_getElem? (inTail lNear lBelow atL))
            exact absurd chunk.symm away
        · have kTail := inTail kNear kBelow atK
          have away := ChunkWalk.fill_fresh fresh (List.mem_of_getElem? kTail)
          have listed : (d, e.chunk) ∈ chunks := by
            rcases List.mem_cons.mp listed with same | listed
            · exact absurd (Prod.mk.inj same).2 away
            · exact listed
          by_cases lNear : l < c.numQueues.toNat
          · obtain rfl := Option.some.inj ((near lNear lBelow).symm.trans atL)
            exact absurd chunk away
          · exact rest.mpr others _ (by omega) _ (by omega) (by omega) e f kTail
              (inTail lNear lBelow atL) chunk d listed
    · rw [if_pos typed, ← ih distinct enough]
      simp only [Apart, ChunkWalk.fill_other typed]
      constructor
      · intro apart k kBelow l lBelow other e f atK atL chunk d listed
        exact apart k kBelow l lBelow other e f atK atL chunk d (List.mem_cons_of_mem _ listed)
      · intro apart k kBelow l lBelow other e f atK atL chunk d listed
        rcases List.mem_cons.mp listed with same | listed
        · have away := ChunkWalk.fill_fresh fresh (List.mem_of_getElem? atK)
          exact absurd (Prod.mk.inj same).2 away
        · exact apart k kBelow l lBelow other e f atK atL chunk d listed

end Idpf
