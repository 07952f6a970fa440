import Idpf.Vport.VectorIds
import Idpf.Vport.Vectors

/-! How `idpf_intr_req` splits the vectors that it is granted between LAN, RDMA and RCA. -/
namespace Idpf

/-- What the capabilities say about vectors, and whether RDMA and RCA are enabled. -/
structure IntrCaps where
  numAllocatedVectors : BitVec 16
  numRdmaAllocatedVectors : BitVec 16
  defaultNumVports : BitVec 16
  mailboxVectorId : BitVec 16
  rdmaCapEna : Bool
  rcaEnabled : Bool

/-- What the calls that `idpf_intr_req` makes come to: the chunks of the reply to ALLOC_VECTORS, how
many vectors are granted for a minimum and a maximum, the interrupt of each, what memory can be had,
what is behind it, and how the mailbox interrupt starts. -/
structure IntrCalls where
  sendAllocVectors : BitVec 16 → Option (List IdChunk)
  pciAllocIrqVectors : Nat → Nat → Except Int Nat
  granted : ∀ least most n, pciAllocIrqVectors least most = .ok n → least ≤ n ∧ n ≤ most
  pciIrqVector : Nat → BitVec 32
  allocRdma : Bool
  allocRca : Bool
  allocLan : Bool
  allocIds : Bool
  behindIds : Nat → BitVec 16
  allocStack : Bool
  mbIntrInit : Except Int Unit

/-- `struct msix_entry` with the position that both of its fields are taken from. -/
structure MsixEntry where
  pos : Nat
  entry : BitVec 16
  vector : BitVec 32
  deriving DecidableEq, Repr

/-- What `idpf_intr_req` leaves in the adapter. -/
structure IntrSplit where
  reqVecChunks : List IdChunk
  msixEntries : List MsixEntry
  rdmaMsixEntries : List MsixEntry
  rcaMsixEntries : List MsixEntry
  numMsixEntries : BitVec 16
  numRdmaMsixEntries : BitVec 16
  numAvailMsix : BitVec 16
  vectorStack : VecStack

namespace IntrCaps

/-- `min_rdma_vecs` -/
def minRdmaVecs (caps : IntrCaps) : BitVec 16 := if caps.rdmaCapEna then 2 else 0

/-- `num_rdma_vecs` before any vector is asked for; without reserved ones they come from LAN. -/
def reqRdmaVecs (caps : IntrCaps) : Except Int (BitVec 16) :=
  if caps.rdmaCapEna then
    if caps.numRdmaAllocatedVectors = 0 then .ok caps.minRdmaVecs
    else if caps.numRdmaAllocatedVectors < caps.minRdmaVecs then .error (-22)
    else .ok caps.numRdmaAllocatedVectors
  else .ok 0

/-- `min_lan_vecs` -/
def minLanVecs (caps : IntrCaps) : BitVec 16 := 1 + 1 * caps.defaultNumVports

/-- `min_vectors` -/
def minVectors (caps : IntrCaps) : Nat :=
  caps.minLanVecs.toNat + caps.minRdmaVecs.toNat + if caps.rcaEnabled then 1 else 0

/-- `num_rdma_vecs` once `actual` vectors are granted. -/
def numRdmaVecs (caps : IntrCaps) (rdma : BitVec 16) (actual : Nat) : BitVec 16 :=
  if caps.rdmaCapEna && decide (actual < caps.numAllocatedVectors.toNat) then caps.minRdmaVecs
  else rdma

/-- How many vectors the loop for RCA takes. -/
def numRcaVecs (caps : IntrCaps) : Nat := if caps.rdmaCapEna && caps.rcaEnabled then 1 else 0

end IntrCaps

/-- `idpf_init_vector_stack` -/
def initVectorStack (numMsixEntries numAvailMsix : BitVec 16) : VecStack :=
  let minVec := numMsixEntries - numAvailMsix
  { size := numMsixEntries.toNat
    base := minVec.toNat
    top := minVec.toNat
    vecIdx := id
    numAvail := numAvailMsix.toNat
    full := false }

/-- One of the loops that fill an array of entries: `num` of them, from `vector` on. -/
def fillMsixEntries (calls : IntrCalls) (vecids : Nat → BitVec 16) (vector num : Nat) :
    List MsixEntry :=
  (List.range' vector num).map fun pos => ⟨pos, vecids pos, calls.pciIrqVector pos⟩

/-- What is left in the adapter for `actual` vectors and the IDs found for them. -/
def intrSplit (caps : IntrCaps) (calls : IntrCalls) (chunks : List IdChunk)
    (rdma : BitVec 16) (actual : Nat) : IntrSplit :=
  let numRdmaVecs := caps.numRdmaVecs rdma actual
  -- what the RCA branch takes off `num_lan_vecs` before is overwritten here
  let numLanVecs := BitVec.ofNat 16 actual - numRdmaVecs
  let vecids := vecIdVals actual calls.behindIds (getVecIds caps.mailboxVectorId actual chunks)
  let numAvailMsix := numLanVecs - caps.minLanVecs
  { reqVecChunks := chunks
    msixEntries := fillMsixEntries calls vecids 0 numLanVecs.toNat
    rdmaMsixEntries := fillMsixEntries calls vecids numLanVecs.toNat numRdmaVecs.toNat
    rcaMsixEntries := fillMsixEntries calls vecids (numLanVecs.toNat + numRdmaVecs.toNat)
      caps.numRcaVecs
    numMsixEntries := numLanVecs
    numRdmaMsixEntries := numRdmaVecs
    numAvailMsix := numAvailMsix
    vectorStack := initVectorStack numLanVecs numAvailMsix }

/-- The arrays for the entries and for the IDs can be had. -/
def IntrCalls.allocEntries (calls : IntrCalls) (caps : IntrCaps) : Bool :=
  (!caps.rdmaCapEna || (calls.allocRdma && (!caps.rcaEnabled || calls.allocRca))) &&
    calls.allocLan && calls.allocIds

/-- `idpf_intr_req`: what it leaves in the adapter, or an error. -/
def intrReq (caps : IntrCaps) (calls : IntrCalls) : Except Int IntrSplit :=
  match caps.reqRdmaVecs with
  | .error err => .error err
  | .ok rdma =>
    match calls.sendAllocVectors (caps.numAllocatedVectors - 1) with
    | none => .error (-11)
    | some chunks =>
      match calls.pciAllocIrqVectors caps.minVectors caps.numAllocatedVectors.toNat with
      | .error err => .error err
      | .ok actual =>
        if !calls.allocEntries caps then .error (-12)
        else if (getVecIds caps.mailboxVectorId actual chunks).length < actual then .error (-22)
        else if !calls.allocStack then .error (-12)
        else
          match calls.mbIntrInit with
          | .error err => .error err
          | .ok _ => .ok (intrSplit caps calls chunks rdma actual)

def IntrSplit.positions (s : IntrSplit) : List Nat :=
  (s.msixEntries ++ s.rdmaMsixEntries ++ s.rcaMsixEntries).map MsixEntry.pos

/-- No two entries have one position, each is within what was granted, LAN has a vector for the
mailbox and one for each default vport, and `num_avail_msix` is what it has beyond them. -/
structure SplitSound (caps : IntrCaps) (granted : Nat) (s : IntrSplit) : Prop where
  disjoint : s.positions.Nodup
  inside : ∀ pos ∈ s.positions, pos < granted
  minimum : 1 + caps.defaultNumVports.toNat ≤ s.msixEntries.length
  avail : s.numAvailMsix.toNat + (1 + caps.defaultNumVports.toNat) = s.msixEntries.length

/-- RCA is not enabled beside RDMA, the vector of the mailbox can be counted with those of the
default vports, and where all vectors are granted those reserved for RDMA leave LAN its minimum. -/
structure IntrCaps.Splits (caps : IntrCaps) (granted : Nat) : Prop where
  noRca : caps.rdmaCapEna = true → caps.rcaEnabled = false
  vports : caps.defaultNumVports.toNat < 65535
  rdma : caps.rdmaCapEna = true → granted = caps.numAllocatedVectors.toNat →
    caps.numRdmaAllocatedVectors.toNat + (1 + caps.defaultNumVports.toNat) ≤ granted

section Split

variable {caps : IntrCaps} {calls : IntrCalls} {granted : Nat} {s : IntrSplit}

@[simp] theorem fillMsixEntries_length (vecids : Nat → BitVec 16) (vector num : Nat) :
    (fillMsixEntries calls vecids vector num).length = num := by
  unfold fillMsixEntries
  rw [List.length_map, List.length_range']

theorem fillMsixEntries_pos (vecids : Nat → BitVec 16) (vector num : Nat) :
    (fillMsixEntries calls vecids vector num).map MsixEntry.pos = List.range' vector num := by
  unfold fillMsixEntries
  rw [List.map_map]
  exact List.map_id _

/-- The three loops go through the positions from 0 on, one after the other. -/
theorem intrSplit_positions (chunks : List IdChunk) (rdma : BitVec 16) (actual : Nat) :
    (intrSplit caps calls chunks rdma actual).positions =
      List.range ((BitVec.ofNat 16 actual - caps.numRdmaVecs rdma actual).toNat +
        (caps.numRdmaVecs rdma actual).toNat + caps.numRcaVecs) := by
  unfold IntrSplit.positions intrSplit
  dsimp only
  rw [List.map_append, List.map_append, fillMsixEntries_pos, fillMsixEntries_pos,
    fillMsixEntries_pos, List.range_eq_range']
  rw [← List.range'_append_1, ← List.range'_append_1, Nat.zero_add, Nat.zero_add]

/-- The count that is asked for RDMA: none without it, and at least two with it. -/
theorem IntrCaps.reqRdmaVecs_ok {rdma : BitVec 16} (ok : caps.reqRdmaVecs = .ok rdma) :
    (caps.rdmaCapEna = false → rdma.toNat = 0) ∧
      (caps.rdmaCapEna = true → rdma = caps.numRdmaAllocatedVectors ∨
        caps.numRdmaAllocatedVectors.toNat = 0 ∧ rdma.toNat = 2) := by
  unfold reqRdmaVecs at ok
  split at ok
  · next ena =>
    refine ⟨fun off => absurd (ena.symm.trans off) (by decide), fun _ => ?_⟩
    split at ok
    · next zero =>
      obtain rfl := Except.ok.inj ok
      refine Or.inr ⟨by rw [zero]; rfl, ?_⟩
      unfold minRdmaVecs
      rw [if_pos ena]
      rfl
    · split at ok
      · exact nomatch ok
      · exact Or.inl (Except.ok.inj ok).symm
  · next off =>
    obtain rfl := Except.ok.inj ok
    exact ⟨fun _ => rfl, fun ena => absurd ena off⟩

/-- A request that succeeds has found an ID for every vector it is granted. -/
theorem intrReq_eq_ok
    (grants : calls.pciAllocIrqVectors caps.minVectors caps.numAllocatedVectors.toNat = .ok granted)
    (done : intrReq caps calls = .ok s) :
    ∃ rdma chunks, caps.reqRdmaVecs = .ok rdma ∧
      granted ≤ (getVecIds caps.mailboxVectorId granted chunks).length ∧
      s = intrSplit caps calls chunks rdma granted := by
  unfold intrReq at done
  split at done
  · exact nomatch done
  · next rdma asked =>
    split at done
    · exact nomatch done
    · next chunks _ =>
      rw [grants] at done
      dsimp only at done
      split at done
      · exact nomatch done
      · split at done
        · exact nomatch done
        · next enough =>
          split at done
          · exact nomatch done
          · split at done
            · exact nomatch done
            · exact ⟨rdma, chunks, asked, Nat.not_lt.mp enough, (Except.ok.inj done).symm⟩

/-- What is left for LAN, in numbers: it wraps where RDMA takes more than is granted. -/
theorem lanVecs_toNat {actual : Nat} (small : actual < 65536) (n : BitVec 16) :
    (BitVec.ofNat 16 actual - n).toNat =
      if n.toNat ≤ actual then actual - n.toNat else actual + 65536 - n.toNat := by
  have bound := n.isLt
  rw [BitVec.toNat_sub, BitVec.toNat_ofNat, Nat.mod_eq_of_lt small]
  split <;> omega

theorem IntrCaps.minLanVecs_toNat (caps : IntrCaps) :
    caps.minLanVecs.toNat =
      if caps.defaultNumVports.toNat < 65535 then 1 + caps.defaultNumVports.toNat else 0 := by
  have bound := caps.defaultNumVports.isLt
  have one : (1 : BitVec 16).toNat = 1 := rfl
  unfold minLanVecs
  rw [BitVec.toNat_add, BitVec.toNat_mul, one, Nat.one_mul]
  split <;> omega

/-- The counts decide whether a split is sound. -/
theorem splitSound_iff (chunks : List IdChunk) (rdma : BitVec 16) (actual : Nat) :
    SplitSound caps granted (intrSplit caps calls chunks rdma actual) ↔
      (BitVec.ofNat 16 actual - caps.numRdmaVecs rdma actual).toNat +
          (caps.numRdmaVecs rdma actual).toNat + caps.numRcaVecs ≤ granted ∧
        1 + caps.defaultNumVports.toNat ≤
          (BitVec.ofNat 16 actual - caps.numRdmaVecs rdma actual).toNat ∧
        (BitVec.ofNat 16 actual - caps.numRdmaVecs rdma actual - caps.minLanVecs).toNat +
            (1 + caps.defaultNumVports.toNat) =
          (BitVec.ofNat 16 actual - caps.numRdmaVecs rdma actual).toNat := by
  have lan : (intrSplit caps calls chunks rdma actual).msixEntries.length =
      (BitVec.ofNat 16 actual - caps.numRdmaVecs rdma actual).toNat :=
    fillMsixEntries_length _ _ _
  constructor
  · intro sound
    refine ⟨?_, by rw [← lan]; exact sound.minimum, by rw [← lan]; exact sound.avail⟩
    have inside := sound.inside
    rw [intrSplit_positions] at inside
    by_contra above
    have reached := inside granted (List.mem_range.mpr (by omega))
    omega
  · rintro ⟨fits, least, avail⟩
    constructor
    · rw [intrSplit_positions]
      exact List.nodup_range
    · intro pos member
      rw [intrSplit_positions] at member
      exact lt_of_lt_of_le (List.mem_range.mp member) fits
    · rw [lan]
      exact least
    · rw [lan]
      exact avail

theorem IntrCaps.numRdmaVecs_short (ena : caps.rdmaCapEna = true) {rdma : BitVec 16}
    (short : granted < caps.numAllocatedVectors.toNat) :
    (caps.numRdmaVecs rdma granted).toNat = 2 := by
  unfold numRdmaVecs minRdmaVecs
  rw [ena, decide_eq_true short]
  rfl

theorem IntrCaps.numRdmaVecs_all {rdma : BitVec 16}
    (all : caps.rdmaCapEna = true → ¬ granted < caps.numAllocatedVectors.toNat) :
    caps.numRdmaVecs rdma granted = rdma := by
  unfold numRdmaVecs
  cases ena : caps.rdmaCapEna with
  | false => rfl
  | true =>
      rw [decide_eq_false (all ena)]
      rfl

/-- A split is sound if and only if there is no RCA beside RDMA, and LAN has its minimum beside what
RDMA takes. -/
theorem splitSound_iff_room (small : granted < 65536) (chunks : List IdChunk) (rdma : BitVec 16) :
    SplitSound caps granted (intrSplit caps calls chunks rdma granted) ↔
      caps.numRcaVecs = 0 ∧ caps.defaultNumVports.toNat < 65535 ∧
        (caps.numRdmaVecs rdma granted).toNat + (1 + caps.defaultNumVports.toNat) ≤ granted := by
  have lan := lanVecs_toNat small (caps.numRdmaVecs rdma granted)
  have bound := (BitVec.ofNat 16 granted - caps.numRdmaVecs rdma granted).isLt
  rw [splitSound_iff]
  constructor
  · rintro ⟨fits, minimum, _⟩
    split at lan <;> omega
  · rintro ⟨noRca, vports, room⟩
    have minLan := caps.minLanVecs_toNat
    rw [if_pos vports] at minLan
    rw [if_pos (by omega)] at lan
    have enough : caps.minLanVecs ≤ BitVec.ofNat 16 granted - caps.numRdmaVecs rdma granted := by
      rw [BitVec.le_def]
      omega
    rw [BitVec.toNat_sub_of_le enough]
    omega

theorem IntrCaps.numRcaVecs_eq_zero :
    caps.numRcaVecs = 0 ↔ (caps.rdmaCapEna = true → caps.rcaEnabled = false) := by
  unfold numRcaVecs
  cases caps.rdmaCapEna <;> cases caps.rcaEnabled <;> decide

/-- LAN has its minimum beside RDMA wherever fewer vectors are granted than asked for, and where
none are reserved. -/
theorem IntrCaps.room_iff {rdma : BitVec 16} (asked : caps.reqRdmaVecs = .ok rdma)
    (least : caps.minVectors ≤ granted) (most : granted ≤ caps.numAllocatedVectors.toNat)
    (vports : caps.defaultNumVports.toNat < 65535) :
    (caps.numRdmaVecs rdma granted).toNat + (1 + caps.defaultNumVports.toNat) ≤ granted ↔
      (caps.rdmaCapEna = true → granted = caps.numAllocatedVectors.toNat →
        caps.numRdmaAllocatedVectors.toNat + (1 + caps.defaultNumVports.toNat) ≤ granted) := by
  have minLan := caps.minLanVecs_toNat
  rw [if_pos vports] at minLan
  obtain ⟨off, on⟩ := reqRdmaVecs_ok asked
  unfold minVectors minRdmaVecs at least
  cases ena : caps.rdmaCapEna with
  | false =>
      have none := off ena
      rw [numRdmaVecs_all fun on => absurd (ena.symm.trans on) (by decide)]
      rw [ena] at least
      constructor
      · intro _ yes
        exact nomatch yes
      · intro _
        omega
  | true =>
      have two : (2 : BitVec 16).toNat = 2 := rfl
      rw [if_pos ena, two] at least
      by_cases short : granted < caps.numAllocatedVectors.toNat
      · rw [numRdmaVecs_short ena short]
        constructor
        · intro _ _ all
          omega
        · intro _
          omega
      · rw [numRdmaVecs_all fun _ => short]
        have all : granted = caps.numAllocatedVectors.toNat := by omega
        constructor
        · intro room _ _
          rcases on ena with rfl | ⟨none, _⟩
          · exact room
          · omega
        · intro room
          have reserved := room rfl all
          rcases on ena with rfl | ⟨none, taken⟩
          · exact reserved
          · omega

/-- A request that succeeds splits its vectors as it should if and only if RCA is not enabled beside
RDMA, the vports can be counted, and RDMA has not reserved too many. -/
theorem vectors_split_iff
    (grants : calls.pciAllocIrqVectors caps.minVectors caps.numAllocatedVectors.toNat = .ok granted)
    (done : intrReq caps calls = .ok s) : SplitSound caps granted s ↔ caps.Splits granted := by
  obtain ⟨rdma, chunks, asked, _, rfl⟩ := intrReq_eq_ok grants done
  obtain ⟨least, most⟩ := calls.granted _ _ _ grants
  have total := caps.numAllocatedVectors.isLt
  rw [splitSound_iff_room (by omega), IntrCaps.numRcaVecs_eq_zero]
  constructor
  · rintro ⟨noRca, vports, room⟩
    exact ⟨noRca, vports, (IntrCaps.room_iff asked least most vports).mp room⟩
  · rintro ⟨noRca, vports, reserved⟩
    exact ⟨noRca, vports, (IntrCaps.room_iff asked least most vports).mpr reserved⟩

/-- An operating system that grants all it is asked for, and a reply with one chunk. -/
def grantAll (numVectors : BitVec 16) : IntrCalls where
  sendAllocVectors := fun _ => some [⟨1, ⟨numVectors, 0x1000, 4, 0x2000, 4, 0⟩⟩]
  pciAllocIrqVectors := fun least most => if least ≤ most then .ok most else .error (-34)
  granted := by
    intro least most n ok
    split at ok
    · next le =>
      obtain rfl := Except.ok.inj ok
      exact ⟨le, Nat.le_refl _⟩
    · exact nomatch ok
  pciIrqVector := BitVec.ofNat 32
  allocRdma := true
  allocRca := true
  allocLan := true
  allocIds := true
  behindIds := fun _ => 0
  allocStack := true
  mbIntrInit := .ok ()

theorem vectors_split_sixteen :
    ∃ s, intrReq ⟨16, 4, 1, 0, true, false⟩ (grantAll 15) = .ok s ∧
      SplitSound ⟨16, 4, 1, 0, true, false⟩ 16 s :=
  ⟨_, rfl, (@vectors_split_iff _ (grantAll 15) 16 _ rfl rfl).mpr
    ⟨fun _ => rfl, by decide, fun _ _ => by decide⟩⟩

/-- Nine of ten vectors reserved for RDMA leave one for LAN, and `num_avail_msix` wraps; with RCA
beside RDMA its entry is taken from behind the vectors that are granted. -/
theorem vector_split_untrue :
    (∃ s, intrReq ⟨10, 9, 1, 0, true, false⟩ (grantAll 9) = .ok s ∧ s.numAvailMsix = 65535 ∧
      ¬ SplitSound ⟨10, 9, 1, 0, true, false⟩ 10 s) ∧
    ∃ s, intrReq ⟨16, 4, 1, 0, true, true⟩ (grantAll 15) = .ok s ∧
      s.rcaMsixEntries.map MsixEntry.pos = [16] ∧
      ¬ SplitSound ⟨16, 4, 1, 0, true, true⟩ 16 s := by
  refine ⟨⟨_, rfl, rfl, ?_⟩, _, rfl, rfl, ?_⟩
  · intro sound
    exact absurd sound.minimum (by decide)
  · intro sound
    exact absurd (sound.inside 16 (by decide)) (by decide)

/-- The stack that a sound split leaves is the one that vports and ADIs start from. -/
theorem SplitSound.vectorStack_eq (sound : SplitSound caps granted s)
    (grants : calls.pciAllocIrqVectors caps.minVectors caps.numAllocatedVectors.toNat = .ok granted)
    (done : intrReq caps calls = .ok s) (maxVports maxAdis : Nat) :
    s.vectorStack = (VecAdapter.start s.numMsixEntries.toNat caps.defaultNumVports.toNat maxVports
      maxAdis).stack := by
  obtain ⟨rdma, chunks, _, _, rfl⟩ := intrReq_eq_ok grants done
  obtain ⟨_, _, avail⟩ := (splitSound_iff chunks rdma granted).mp sound
  change initVectorStack (BitVec.ofNat 16 granted - caps.numRdmaVecs rdma granted)
    (BitVec.ofNat 16 granted - caps.numRdmaVecs rdma granted - caps.minLanVecs) = _
  have below : BitVec.ofNat 16 granted - caps.numRdmaVecs rdma granted - caps.minLanVecs ≤
      BitVec.ofNat 16 granted - caps.numRdmaVecs rdma granted := by
    rw [BitVec.le_def]
    omega
  have minVec : (BitVec.ofNat 16 granted - caps.numRdmaVecs rdma granted -
      (BitVec.ofNat 16 granted - caps.numRdmaVecs rdma granted - caps.minLanVecs)).toNat =
        caps.defaultNumVports.toNat + 1 := by
    rw [BitVec.toNat_sub_of_le below]
    omega
  have rest : (BitVec.ofNat 16 granted - caps.numRdmaVecs rdma granted - caps.minLanVecs).toNat =
      (BitVec.ofNat 16 granted - caps.numRdmaVecs rdma granted).toNat -
        (caps.defaultNumVports.toNat + 1) := by
    omega
  unfold initVectorStack
  dsimp only
  rw [minVec, rest]
  rfl

/-- After a sound split the vectors of a vport are covered by the chunks, so that only chunks with
more vectors than reserved keep its interrupts from coming up as they should. -/
theorem SplitSound.fits_iff (sound : SplitSound caps granted s)
    (grants : calls.pciAllocIrqVectors caps.minVectors caps.numAllocatedVectors.toNat = .ok granted)
    (done : intrReq caps calls = .ok s) {use : VectorBringUp}
    (total : use.totalVecs = caps.numAllocatedVectors) (chunks : use.chunks = s.reqVecChunks)
    (idxs : ∀ idx ∈ use.vecIdxs, 1 ≤ idx.toNat ∧ idx.toNat < s.numMsixEntries.toNat) :
    use.Fits ↔ (use.allocIds = true → use.allocRegs = true →
      vectorCount use.chunks ≤ use.totalVecs.toNat) := by
  obtain ⟨_, most⟩ := calls.granted _ _ _ grants
  obtain ⟨rdma, given, _, enough, rfl⟩ := intrReq_eq_ok grants done
  obtain ⟨inside, least, _⟩ := (splitSound_iff given rdma granted).mp sound
  replace chunks : use.chunks = given := chunks
  rw [getVecIds_length, ← chunks] at enough
  rw [← total] at most
  constructor
  · intro fits idsMem regsMem
    exact ((fits idsMem).2 regsMem).1
  · intro count idsMem
    refine ⟨by omega, fun regsMem => ⟨count idsMem regsMem, ?_⟩⟩
    intro _ _ idx member
    obtain ⟨low, high⟩ := idxs idx member
    replace high : idx.toNat < (BitVec.ofNat 16 granted - caps.numRdmaVecs rdma granted).toNat :=
      high
    omega

end Split

end Idpf
