import Idpf.Mmio.Lookups

/-! Vector IDs and interrupt registers: two walks over the chunks that ALLOC_VECTORS gave, and what
the vectors of a vport take from the arrays they fill. -/
namespace Idpf

/-- `struct virtchnl2_vector_chunk` -/
structure IdChunk where
  startVectorId : BitVec 16
  regs : VectorChunk

/-- The inner loop of `idpf_get_vec_ids`: `todo` vectors of a chunk are left, and `room` entries of
the array. -/
def chunkVecIds : Nat → Nat → BitVec 16 → List (BitVec 16)
  | todo + 1, room + 1, vecid => vecid :: chunkVecIds todo room (vecid + 1)
  | _, _, _ => []

def vecIdsLoop (numVecids : Nat) : Nat → List IdChunk → List (BitVec 16)
  | _, [] => []
  | filled, c :: chunks =>
    let vecids := chunkVecIds c.regs.numVectors.toNat (numVecids - filled) c.startVectorId
    vecids ++ vecIdsLoop numVecids (filled + vecids.length) chunks

/-- `idpf_get_vec_ids`: what it writes from entry 0 on. The first entry is written whatever the
length of the array is. -/
def getVecIds (mbVecId : BitVec 16) (numVecids : Nat) (chunks : List IdChunk) : List (BitVec 16) :=
  mbVecId :: vecIdsLoop numVecids 1 chunks

/-- `vecids` once it is filled, as `regVals`. -/
def vecIdVals (total : Nat) (behind : Nat → BitVec 16) (filled : List (BitVec 16)) (i : Nat) :
    BitVec 16 :=
  match filled[i]? with
  | some id => id
  | none => if i < total then 0 else behind i

/-- What bringing up the interrupts of a vport works with: the registers of the device, the reserved
vectors and the chunks of the adapter, the indexes of the vport, and what memory and interrupts can
be had. -/
structure VectorBringUp where
  dev : RegDevice
  lanRegs : List MmioReg
  mbVecId : BitVec 16
  totalVecs : BitVec 16
  chunks : List IdChunk
  vecIdxs : List (BitVec 16)
  allocIds : Bool
  allocRegs : Bool
  reqIrq : Bool
  behindIds : Nat → BitVec 16
  behindRegs : Nat → VecRegs

/-- The parts of `struct idpf_q_vector` that name a vector of the device. -/
structure QVectorIntr where
  vIdx : BitVec 16
  intrReg : IntrReg

/-- `idpf_vport_intr_init_vec_idx`, or an error. `reqVecChunks` is `none` where the adapter has no
reply. -/
def intrInitVecIdx (use : VectorBringUp) (reqVecChunks : Option (List IdChunk)) :
    Option (List (BitVec 16)) :=
  match reqVecChunks with
  | none => some use.vecIdxs
  | some chunks =>
    if !use.allocIds then none
    else
      let filled := getVecIds use.mbVecId use.totalVecs.toNat chunks
      some (use.vecIdxs.map fun idx =>
        vecIdVals use.totalVecs.toNat use.behindIds filled idx.toNat)

namespace VectorBringUp

/-- What `idpf_intr_reg_init` gets of it. -/
def regUse (use : VectorBringUp) : VectorUse where
  alloc := use.allocRegs
  totalVecs := use.totalVecs
  behind := use.behindRegs
  chunks := use.chunks.map IdChunk.regs
  vecIdxs := use.vecIdxs

/-- `idpf_vport_intr_init`, or an error. -/
def intrInit (use : VectorBringUp) : Option (List QVectorIntr) :=
  (intrInitVecIdx use (some use.chunks)).bind fun ids =>
    (intrRegInit use.dev use.lanRegs use.regUse).bind fun intrs =>
      if use.reqIrq then some (List.zipWith QVectorIntr.mk ids intrs) else none

def idsFilled (use : VectorBringUp) : Nat :=
  (getVecIds use.mbVecId use.totalVecs.toNat use.chunks).length
def regsFilled (use : VectorBringUp) : Nat :=
  (getRegIntrVecs (use.chunks.map IdChunk.regs)).length

end VectorBringUp

def IdChunk.vectorAt (c : IdChunk) (pos : Nat) (dev : RegDevice) (lanRegs : List MmioReg) :
    QVectorIntr :=
  ⟨BitVec.ofNat 16 (c.startVectorId.toNat + pos), (c.regs.regsAt pos).intr dev lanRegs⟩

/-- Neither walk writes behind its array, and a vport that is brought up has used entries that were
filled, and has each vector from one position of one chunk. -/
structure BringUpSound (use : VectorBringUp) : Prop where
  idsInside : use.allocIds = true → use.idsFilled ≤ use.totalVecs.toNat
  regsInside : use.allocIds = true → use.allocRegs = true →
    use.regsFilled ≤ use.totalVecs.toNat
  filled : ∀ vectors, use.intrInit = some vectors → ∀ idx ∈ use.vecIdxs,
    idx.toNat < use.idsFilled ∧ (idx - 1).toNat < use.regsFilled
  agree : ∀ vectors, use.intrInit = some vectors → vectors.length = use.vecIdxs.length ∧
    ∀ v ∈ vectors, ∃ c ∈ use.chunks, ∃ pos < c.regs.numVectors.toNat,
      v = c.vectorAt pos use.dev use.lanRegs

def vectorCount (chunks : List IdChunk) : Nat :=
  (chunks.map fun c => c.regs.numVectors.toNat).sum

/-- The chunks have no more vectors than the adapter has reserved, and a vport with no more than
they have has only indexes of theirs. -/
def VectorBringUp.Fits (use : VectorBringUp) : Prop :=
  use.allocIds = true → 1 ≤ use.totalVecs.toNat ∧
    (use.allocRegs = true → vectorCount use.chunks ≤ use.totalVecs.toNat ∧
      (use.reqIrq = true → use.vecIdxs.length ≤ vectorCount use.chunks →
        ∀ idx ∈ use.vecIdxs, 1 ≤ idx.toNat ∧ idx.toNat ≤ vectorCount use.chunks ∧
          idx.toNat < use.totalVecs.toNat))

section Walks

def vectorPositions (chunks : List IdChunk) : List (IdChunk × Nat) :=
  chunks.flatMap fun c => (List.range c.regs.numVectors.toNat).map (Prod.mk c)

def IdChunk.idAt (c : IdChunk) (pos : Nat) : BitVec 16 :=
  BitVec.ofNat 16 (c.startVectorId.toNat + pos)

variable {chunks : List IdChunk} {mb : BitVec 16} {n : Nat}

@[simp] theorem vectorPositions_length (chunks : List IdChunk) :
    (vectorPositions chunks).length = vectorCount chunks := by
  unfold vectorPositions vectorCount
  rw [List.length_flatMap]
  simp only [List.length_map, List.length_range]

theorem mem_vectorPositions {c : IdChunk} {pos : Nat}
    (member : (c, pos) ∈ vectorPositions chunks) :
    c ∈ chunks ∧ pos < c.regs.numVectors.toNat := by
  obtain ⟨c', given, mine⟩ := List.mem_flatMap.mp member
  obtain ⟨pos', inside, eq⟩ := List.mem_map.mp mine
  obtain ⟨rfl, rfl⟩ := Prod.mk.inj eq
  exact ⟨given, List.mem_range.mp inside⟩

theorem chunkVecIds_eq (todo room start pos : Nat) :
    chunkVecIds todo room (BitVec.ofNat 16 (start + pos)) =
      ((List.range' pos todo).map fun p => BitVec.ofNat 16 (start + p)).take room := by
  induction todo generalizing room pos with
  | zero =>
      rw [List.range'_zero, List.map_nil, List.take_nil]
      rfl
  | succ todo ih =>
      cases room with
      | zero => rfl
      | succ room =>
          have next : BitVec.ofNat 16 (start + pos) + 1 = BitVec.ofNat 16 (start + (pos + 1)) := by
            rw [← Nat.add_assoc]
            exact (BitVec.ofNat_add (start + pos) 1).symm
          rw [List.range'_succ, List.map_cons, List.take_succ_cons, ← ih, ← next]
          rfl

theorem vecIdsLoop_eq (numVecids filled : Nat) (chunks : List IdChunk) :
    vecIdsLoop numVecids filled chunks =
      ((vectorPositions chunks).map fun e => e.1.idAt e.2).take (numVecids - filled) := by
  induction chunks generalizing filled with
  | nil => exact List.take_nil.symm
  | cons c chunks ih =>
      have first : chunkVecIds c.regs.numVectors.toNat (numVecids - filled) c.startVectorId =
          ((List.range c.regs.numVectors.toNat).map c.idAt).take (numVecids - filled) := by
        have walk := chunkVecIds_eq c.regs.numVectors.toNat (numVecids - filled)
          c.startVectorId.toNat 0
        rw [Nat.add_zero, BitVec.ofNat_toNat, BitVec.setWidth_eq, ← List.range_eq_range'] at walk
        exact walk
      have parts : (vectorPositions (c :: chunks)).map (fun e => e.1.idAt e.2) =
          (List.range c.regs.numVectors.toNat).map c.idAt ++
            (vectorPositions chunks).map fun e => e.1.idAt e.2 := by
        unfold vectorPositions
        rw [List.flatMap_cons, List.map_append, List.map_map]
        rfl
      unfold vecIdsLoop
      dsimp only
      rw [first, ih, parts, List.take_append, List.length_take, List.length_map, List.length_range]
      congr 2
      omega

theorem getVecIds_eq (mb : BitVec 16) (n : Nat) (chunks : List IdChunk) :
    getVecIds mb n chunks =
      mb :: ((vectorPositions chunks).map fun e => e.1.idAt e.2).take (n - 1) := by
  unfold getVecIds
  rw [vecIdsLoop_eq]

theorem getVecIds_length (mb : BitVec 16) (n : Nat) (chunks : List IdChunk) :
    (getVecIds mb n chunks).length = 1 + min (n - 1) (vectorCount chunks) := by
  rw [getVecIds_eq, List.length_cons, List.length_take, List.length_map, vectorPositions_length]
  omega

theorem getRegIntrVecs_positions (chunks : List IdChunk) :
    getRegIntrVecs (chunks.map IdChunk.regs) =
      (vectorPositions chunks).map fun e => e.1.regs.regsAt e.2 := by
  rw [getRegIntrVecs_eq]
  unfold vectorsGiven vectorPositions
  rw [List.flatMap_map, List.map_flatMap]
  simp only [List.map_map]
  rfl

theorem getRegIntrVecs_length (chunks : List IdChunk) :
    (getRegIntrVecs (chunks.map IdChunk.regs)).length = vectorCount chunks := by
  rw [getRegIntrVecs_positions, List.length_map, vectorPositions_length]

end Walks

section BringUp

variable {use : VectorBringUp}

theorem VectorBringUp.idsFilled_eq (use : VectorBringUp) :
    use.idsFilled = 1 + min (use.totalVecs.toNat - 1) (vectorCount use.chunks) :=
  getVecIds_length _ _ _

theorem VectorBringUp.regsFilled_eq (use : VectorBringUp) :
    use.regsFilled = vectorCount use.chunks :=
  getRegIntrVecs_length _

/-- What a vector of a vport that is brought up gets for an index. -/
def VectorBringUp.vector (use : VectorBringUp) (idx : BitVec 16) : QVectorIntr where
  vIdx := vecIdVals use.totalVecs.toNat use.behindIds
    (getVecIds use.mbVecId use.totalVecs.toNat use.chunks) idx.toNat
  intrReg := (regVals use.totalVecs.toNat use.behindRegs
    (getRegIntrVecs (use.chunks.map IdChunk.regs)) (idx - 1).toNat).intr use.dev use.lanRegs

theorem intrInitVecIdx_eq_some {ids : List (BitVec 16)} :
    intrInitVecIdx use (some use.chunks) = some ids ↔ use.allocIds = true ∧
      ids = use.vecIdxs.map fun idx => vecIdVals use.totalVecs.toNat use.behindIds
        (getVecIds use.mbVecId use.totalVecs.toNat use.chunks) idx.toNat := by
  unfold intrInitVecIdx
  dsimp only
  cases use.allocIds with
  | false => exact ⟨fun done => (nomatch done), fun done => (nomatch done.1)⟩
  | true =>
      exact ⟨fun done => ⟨rfl, (Option.some.inj done).symm⟩, fun done => congrArg some done.2.symm⟩

/-- Bringing up ends in an error without memory, without interrupts and with fewer registers than
vectors; nothing else is checked. -/
theorem VectorBringUp.intrInit_eq_some {vectors : List QVectorIntr} :
    use.intrInit = some vectors ↔ use.allocIds = true ∧ use.allocRegs = true ∧
      use.vecIdxs.length ≤ vectorCount use.chunks ∧ use.reqIrq = true ∧
      vectors = use.vecIdxs.map use.vector := by
  have count : (getRegIntrVecs use.regUse.chunks).length = vectorCount use.chunks :=
    getRegIntrVecs_length use.chunks
  have same : ∀ f g, List.zipWith QVectorIntr.mk (use.vecIdxs.map f) (use.vecIdxs.map g) =
      use.vecIdxs.map fun idx => ⟨f idx, g idx⟩ := by
    intro f g
    rw [List.zipWith_map, List.zipWith_self]
  constructor
  · intro done
    obtain ⟨ids, idsDone, rest⟩ := Option.bind_eq_some_iff.mp done
    obtain ⟨intrs, regsDone, irq⟩ := Option.bind_eq_some_iff.mp rest
    obtain ⟨idsMem, rfl⟩ := intrInitVecIdx_eq_some.mp idsDone
    obtain ⟨regsMem, enough, rfl⟩ := intrRegInit_eq_some.mp regsDone
    rw [count] at enough
    split at irq
    · next req => exact ⟨idsMem, regsMem, enough, req, (Option.some.inj irq).symm.trans (same _ _)⟩
    · exact nomatch irq
  · rintro ⟨idsMem, regsMem, enough, req, rfl⟩
    have ids := intrInitVecIdx_eq_some.mpr ⟨idsMem, rfl⟩
    have intrs := (@intrRegInit_eq_some use.dev use.lanRegs use.regUse _).mpr
      ⟨regsMem, count.symm ▸ enough, rfl⟩
    unfold intrInit
    rw [ids, Option.bind_some, intrs, Option.bind_some, if_pos req]
    exact congrArg some (same _ _)

/-- The vector of an index that the chunks cover. -/
theorem VectorBringUp.vector_eq {idx : BitVec 16} (low : 1 ≤ idx.toNat)
    (high : idx.toNat ≤ vectorCount use.chunks) (inside : idx.toNat < use.totalVecs.toNat) :
    ∃ c ∈ use.chunks, ∃ pos < c.regs.numVectors.toNat,
      use.vector idx = c.vectorAt pos use.dev use.lanRegs := by
  have place : (idx - 1).toNat = idx.toNat - 1 := BitVec.toNat_sub_of_le (BitVec.le_def.mpr low)
  have covered : idx.toNat - 1 < (vectorPositions use.chunks).length := by
    rw [vectorPositions_length]
    omega
  obtain ⟨⟨c, pos⟩, at_⟩ : ∃ e, (vectorPositions use.chunks)[idx.toNat - 1]? = some e :=
    ⟨_, List.getElem?_eq_getElem covered⟩
  have given := mem_vectorPositions (List.mem_of_getElem? at_)
  have id : (getVecIds use.mbVecId use.totalVecs.toNat use.chunks)[idx.toNat]? =
      some (c.idAt pos) := by
    have next : idx.toNat = idx.toNat - 1 + 1 := by omega
    rw [getVecIds_eq, next, List.getElem?_cons_succ, List.getElem?_take_of_lt (by omega),
      List.getElem?_map, at_]
    rfl
  have regs : (getRegIntrVecs (use.chunks.map IdChunk.regs))[idx.toNat - 1]? =
      some (c.regs.regsAt pos) := by
    rw [getRegIntrVecs_positions, List.getElem?_map, at_]
    rfl
  refine ⟨c, given.1, pos, given.2, ?_⟩
  unfold vector vecIdVals regVals
  rw [place, id, regs]
  rfl

/-- The IDs and the registers of a vport agree, and its interrupts come up from filled entries only,
if and only if the chunks fit. -/
theorem vector_ids_agree_iff (use : VectorBringUp) : BringUpSound use ↔ use.Fits := by
  have total := use.totalVecs.isLt
  constructor
  · intro sound idsMem
    have ids := sound.idsInside idsMem
    rw [use.idsFilled_eq] at ids
    refine ⟨by omega, fun regsMem => ?_⟩
    have regs := sound.regsInside idsMem regsMem
    rw [use.regsFilled_eq] at regs
    refine ⟨regs, fun req enough idx member => ?_⟩
    have used := sound.filled _
      (VectorBringUp.intrInit_eq_some.mpr ⟨idsMem, regsMem, enough, req, rfl⟩) idx member
    rw [use.idsFilled_eq, use.regsFilled_eq] at used
    have low : 1 ≤ idx.toNat := by
      by_contra below
      have zero : (0 : BitVec 16).toNat = 0 := rfl
      have wrapped : ((0 : BitVec 16) - 1).toNat = 65535 := rfl
      have none : idx = 0 := BitVec.eq_of_toNat_eq (by rw [zero]; omega)
      rw [none, zero, wrapped] at used
      omega
    omega
  · intro fits
    constructor
    · intro idsMem
      have some := (fits idsMem).1
      rw [use.idsFilled_eq]
      omega
    · intro idsMem regsMem
      rw [use.regsFilled_eq]
      exact ((fits idsMem).2 regsMem).1
    · intro vectors done idx member
      obtain ⟨idsMem, regsMem, enough, req, _⟩ := VectorBringUp.intrInit_eq_some.mp done
      obtain ⟨low, high, inside⟩ := ((fits idsMem).2 regsMem).2 req enough idx member
      have place : (idx - 1).toNat = idx.toNat - 1 := BitVec.toNat_sub_of_le (BitVec.le_def.mpr low)
      rw [use.idsFilled_eq, use.regsFilled_eq, place]
      omega
    · intro vectors done
      obtain ⟨idsMem, regsMem, enough, req, rfl⟩ := VectorBringUp.intrInit_eq_some.mp done
      refine ⟨List.length_map _, ?_⟩
      intro v member
      obtain ⟨idx, mine, rfl⟩ := List.mem_map.mp member
      obtain ⟨low, high, inside⟩ := ((fits idsMem).2 regsMem).2 req enough idx mine
      exact VectorBringUp.vector_eq low high inside

/-- Four vectors are reserved, and the reply has five in its one chunk. -/
def fiveForFour : VectorBringUp where
  dev := .pf
  lanRegs := []
  mbVecId := 0
  totalVecs := 4
  chunks := [⟨1, ⟨5, 0x1000, 4, 0x2000, 4, 0⟩⟩]
  vecIdxs := [1]
  allocIds := true
  allocRegs := true
  reqIrq := true
  behindIds := fun _ => 0
  behindRegs := fun _ => ⟨0, 0, 0⟩

theorem vector_walks_untrue : ¬ ∀ use, BringUpSound use := by
  intro sound
  have inside : fiveForFour.regsFilled ≤ 4 := (sound fiveForFour).regsInside rfl rfl
  have five : fiveForFour.regsFilled = 5 := by decide
  omega

end BringUp

end Idpf
