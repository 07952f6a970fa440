import Idpf.Vport.ChunkReplies

/-! The registers of the device that a guest reaches through an ADI: reads and writes of BAR0, and
pages of it that are mapped. The ADI has the queues, vectors and the mailbox that it was created
with. -/
namespace Idpf

inductive MbxReg where
  | arqbal
  | arqbah
  | arqlen
  | arqh
  | arqt
  | atqbal
  | atqbah
  | atqlen
  | atqh
  | atqt
  deriving DecidableEq, Repr

namespace MbxReg

def all : List MbxReg :=
  [.atqbal, .atqbah, .atqlen, .atqh, .atqt, .arqbal, .arqbah, .arqlen, .arqh, .arqt]

/-- `PF_MBX_*`, from the start of the page of a mailbox. -/
def pf : MbxReg → BitVec 32
  | .arqbal => 0x00
  | .arqbah => 0x04
  | .arqlen => 0x08
  | .arqh => 0x0C
  | .arqt => 0x10
  | .atqbal => 0x14
  | .atqbah => 0x18
  | .atqlen => 0x1C
  | .atqh => 0x20
  | .atqt => 0x24

/-- `VF_*`, where the guest finds it. -/
def vf : MbxReg → Nat
  | .atqbal => 0x7C00
  | .atqbah => 0x7800
  | .atqlen => 0x6800
  | .atqh => 0x6400
  | .atqt => 0x8400
  | .arqbal => 0x6C00
  | .arqbah => 0x6000
  | .arqlen => 0x8000
  | .arqh => 0x7400
  | .arqt => 0x7000

theorem vf_ge (reg : MbxReg) : 0x6000 ≤ reg.vf := by
  cases reg <;> decide

end MbxReg

/-- What of the device an ADI can have. -/
inductive AdiResource where
  | mbx (id : BitVec 32)
  | rxq (qid : BitVec 32)
  | bufq (qid : BitVec 32)
  | txq (qid : BitVec 32)
  | vec (id : BitVec 32)
  deriving DecidableEq, Repr

namespace AdiResource

/-- The first register: `PF_MBX_ARQBAL`, `PF_QRX_TAIL`, `PF_QRX_BUFFQ_TAIL`, `PF_QTX_COMM_DBELL` and
`PF_GLINT_DYN_CTL`, in the arithmetic of `int`. -/
def base : AdiResource → BitVec 32
  | .mbx id => 0x08000000 + id * 4096
  | .rxq qid => qid * 0x1000
  | .bufq qid =>
    if qid.slt 8192 then 0x03000000 + qid * 0x1000 else 0x10000000 + (qid - 8192) * 0x1000
  | .txq qid => 0x05000000 + qid * 0x1000
  | .vec id => 0x08900000 + id * 0x1000

/-- All its registers; a vector has its `PF_GLINT_ITR` too. -/
def regs (r : AdiResource) : List (BitVec 32) :=
  match r with
  | .mbx _ => MbxReg.all.map fun reg => r.base + reg.pf
  | .vec _ => [r.base, r.base + 4, r.base + 8, r.base + 12]
  | _ => [r.base]

/-- The page of its registers in BAR0 of the device. -/
def page (r : AdiResource) : BitVec 32 := r.base >>> 12

def inMap : AdiResource → Bool
  | .mbx id => id.toNat < 0x400
  | .rxq qid => qid.toNat < 0x3000
  | .bufq qid => qid.toNat < 0x72000
  | .txq qid => qid.toNat < 0x3000
  | .vec id => id.toNat < 0x7700

end AdiResource

/-- What a reply to CREATE_ADI says. -/
structure AdiReply where
  mbxId : BitVec 16
  adiId : BitVec 16
  chunks : List QueueChunk

/-- `enum idpf_adi_reset_state` -/
inductive AdiResetState where
  | inprogress
  | completed
  deriving DecidableEq, Repr

/-- `struct idpf_adi_priv`; `vecIndexes` is `none` where the pointer is NULL. -/
structure AdiPriv where
  numVectors : Nat
  vecIndexes : Option (List Nat)
  mbxVecId : BitVec 32
  dataQVecIds : Nat → BitVec 32
  qinfo : AdiQueueInfo
  mbxId : BitVec 32
  adiId : BitVec 32
  resetState : AdiResetState

namespace AdiPriv

/-- `idpf_adi_alloc_vectors` once it has been given `vecs`: it wants the exact number. `entry` are
those of the MSI-X table. -/
def takeVectors (p : AdiPriv) (entry : Nat → BitVec 16) (vecs : List Nat) : Option AdiPriv :=
  if vecs.length = p.numVectors then
    some { p with
      vecIndexes := some vecs
      mbxVecId := (entry (vecs.getD 0 0)).setWidth 32 }
  else none

/-- `idpf_adi_prep_vec_chunks`, less the message. The first vector is for the mailbox. -/
def prepVecChunks (p : AdiPriv) (entry : Nat → BitVec 16) (vecs : List Nat) : Option AdiPriv :=
  if p.numVectors ≤ 1 ∨ 64 ≤ p.numVectors - 1 then none
  else
    some { p with dataQVecIds := fun i =>
      if i + 1 < p.numVectors then (entry (vecs.getD (i + 1) 0)).setWidth 32
      else p.dataQVecIds i }

/-- What `idpf_adi_create` takes from the reply, and `idpf_adi_qid_reg_init`: whether that fails. -/
def accept (p : AdiPriv) (r : AdiReply) : Bool × AdiPriv :=
  let (failed, qinfo) := adiQidRegInit r.chunks adiKinds p.qinfo
  (failed, { p with
    qinfo
    mbxId := r.mbxId.setWidth 32
    adiId := r.adiId.setWidth 32 })

/-- An ADI gets its vectors, its mailbox and its queues. -/
def assign (p : AdiPriv) (entry : Nat → BitVec 16) (vecs : List Nat) (r : AdiReply) :
    Option AdiPriv :=
  ((p.takeVectors entry vecs).bind fun p => p.prepVecChunks entry vecs).bind fun p =>
    match p.accept r with
    | (true, _) => none
    | (false, p) => some p

/-- `idpf_adi_init_resources`; `heap` is what lies behind the vector numbers in memory. -/
def fresh (heap : Nat → BitVec 32) : AdiPriv where
  numVectors := 9
  vecIndexes := none
  mbxVecId := 0
  dataQVecIds := fun i => if i < 64 then 0 else heap i
  qinfo := ⟨fun k => List.replicate (AdiQueueInfo.room k) ⟨0, 0⟩, fun _ => 0⟩
  mbxId := 0
  adiId := 0
  resetState := .inprogress

end AdiPriv

def QueueChunk.has (c : QueueChunk) (qid : BitVec 32) : Prop :=
  ∃ i < c.numQueues.toNat, qid = c.startQueueId + BitVec.ofNat 32 i

/-- The reply gives the ADI the queue. -/
def AdiReply.gives (r : AdiReply) (k : QueueKind) (qid : BitVec 32) : Prop :=
  ∃ c ∈ r.chunks, c.type = AdiQueueInfo.typeCode k ∧ c.has qid

/-- What an ADI is assigned. -/
def assigned (entry : Nat → BitVec 16) (vecs : List Nat) (r : AdiReply) : AdiResource → Prop
  | .mbx id => id = r.mbxId.setWidth 32
  | .rxq qid => r.gives .rx qid
  | .bufq qid => r.gives .buf qid
  | .txq qid => r.gives .tx qid
  | .vec id => ∃ v ∈ vecs, id = (entry v).setWidth 32

/-- A register or a whole page of BAR0 of the device. -/
inductive AdiPlace where
  | reg (off : BitVec 32)
  | page (pfn : BitVec 32)
  deriving DecidableEq, Repr

/-- What an access touches, and the index that it was found with, beside the count of the array. -/
structure AdiTouch where
  place : AdiPlace
  index : Option (Nat × Nat)
  deriving DecidableEq, Repr

/-- What a guest does: `pos` and `count` are those of a read or a write of BAR0, `index`, `pgoff` and
`size` those of a fault on a mapped page. -/
inductive AdiAccess where
  | read (pos count : BitVec 64)
  | write (pos count : BitVec 64) (data : BitVec 32)
  | mmap (index : BitVec 32) (pgoff size : BitVec 64)

namespace AdiPriv

def qid (p : AdiPriv) (k : QueueKind) (i : Nat) : BitVec 32 := ((p.qinfo.q k).getD i ⟨0, 0⟩).qid

def mbxTouch (p : AdiPriv) (offs : Nat) : Option AdiTouch :=
  (MbxReg.all.find? fun reg => reg.vf = offs).map fun reg =>
    ⟨.reg ((AdiResource.mbx p.mbxId).base + reg.pf), none⟩

/-- `idpf_adi_read_reg32`; the state of a reset is read from memory. -/
def readReg32 (p : AdiPriv) (offs : Nat) : Option AdiTouch :=
  if offs = 0x8800 then none else p.mbxTouch offs

/-- The index of a register in one of the ranges of 256. -/
def rangeIndex (start offs : Nat) : Option Nat :=
  if start ≤ offs ∧ offs ≤ start + 255 * 4 then some ((offs - start) / 4) else none

/-- The tail of a queue, if the index is below the count. -/
def tailTouch (p : AdiPriv) (k : QueueKind) (r : BitVec 32 → AdiResource) (i : Nat) :
    Option AdiTouch :=
  if p.qinfo.num k ≤ i then none else some ⟨.reg (r (p.qid k i)).base, some (i, p.qinfo.num k)⟩

/-- `idpf_adi_write_reg32`; nothing is asked of the index of a vector. -/
def writeReg32 (p : AdiPriv) (offs : Nat) : Option AdiTouch :=
  match p.mbxTouch offs with
  | some touch => some touch
  | none =>
    if offs = 0x5C00 then some ⟨.reg (AdiResource.vec p.mbxVecId).base, none⟩
    else
      match rangeIndex 0x50000 offs, rangeIndex 0x60000 offs, rangeIndex 0x40000 offs,
        rangeIndex 0x3800 offs with
      | some i, _, _, _ => p.tailTouch .rx .rxq i
      | none, some i, _, _ => p.tailTouch .buf .bufq i
      | none, none, some i, _ => p.tailTouch .tx .txq i
      | none, none, none, some i =>
        some ⟨.reg (AdiResource.vec (p.dataQVecIds i)).base, some (i, p.numVectors - 1)⟩
      | none, none, none, none => none

/-- `idpf_adi_get_sparse_mmap_hpa`, from the start of BAR0 of the device. -/
def sparseMmapHpa (p : AdiPriv) (index : BitVec 32) (pgoff size : BitVec 64) : Option AdiTouch :=
  let pfn := pgoff.toNat
  let tail (k : QueueKind) (r : BitVec 32 → AdiResource) (i : Nat) : Option AdiTouch :=
    if p.qinfo.num k ≤ i then none else some ⟨.page (r (p.qid k i)).page, some (i, p.qinfo.num k)⟩
  if index ≠ 0 then none
  else if size ≠ 4096 then none
  else if pfn = 0x20 then some ⟨.page (AdiResource.mbx p.mbxId).page, none⟩
  else if 0x100 ≤ pfn ∧ pfn < 0x900 then tail .rx .rxq (pfn - 0x100)
  else if 0x900 ≤ pfn ∧ pfn < 0x1100 then tail .buf .bufq (pfn - 0x900)
  else if 0x1100 ≤ pfn ∧ pfn < 0x1900 then tail .tx .txq (pfn - 0x1100)
  else if pfn = 0x2100 then
    if p.numVectors = 0 then none else some ⟨.page (AdiResource.vec p.mbxVecId).page, none⟩
  else if 0x2101 ≤ pfn ∧ pfn < 0x4000 then
    let i := pfn - 0x2101
    if p.numVectors ≤ i + 1 then none
    else some ⟨.page (AdiResource.vec (p.dataQVecIds i)).page, some (i, p.numVectors - 1)⟩
  else none

/-- What an access comes to: `idpf_vdcm_dev_bar0_read`, `idpf_vdcm_dev_bar0_write`, or a page. -/
def touch (p : AdiPriv) : AdiAccess → Option AdiTouch
  | .read pos count => if 0x4000000 < (pos + count).toNat then none else p.readReg32 pos.toNat
  | .write pos count _ =>
    if 0x4000000 < (pos + count).toNat ∨ pos.toNat % 4 ≠ 0 then none else p.writeReg32 pos.toNat
  | .mmap index pgoff size => p.sparseMmapHpa index pgoff size

end AdiPriv

/-- The register, or every register of the page, is one of the resource. -/
def AdiResource.covers (r : AdiResource) : AdiPlace → Prop
  | .reg off => off ∈ r.regs
  | .page pfn => pfn = r.page

/-- A register or page of something assigned, found with an index inside the count, and, as long as
what is assigned is in the register map, of nothing else in the map. -/
structure AdiTouch.Within (t : AdiTouch) (own : AdiResource → Prop) : Prop where
  mine : ∃ r, own r ∧ r.covers t.place
  inside : ∀ i n, t.index = some (i, n) → i < n
  only : (∀ r, own r → r.inMap) → ∀ r, r.inMap → r.covers t.place → own r

def AdiPriv.Contained (p : AdiPriv) (own : AdiResource → Prop) (a : AdiAccess) : Prop :=
  ∀ t, p.touch a = some t → t.Within own

/-- A write to the control register of a vector is to one that the ADI has. -/
def AdiPriv.vectorInside (p : AdiPriv) : AdiAccess → Bool
  | .write pos count _ =>
    0x4000000 < (pos + count).toNat || pos.toNat % 4 ≠ 0 ||
      (AdiPriv.rangeIndex 0x3800 pos.toNat).all fun i => i + 1 < p.numVectors
  | _ => true

namespace AdiResource

/-- The number of its page, in the order of the register map. -/
def number : AdiResource → Nat
  | .mbx id => 0x8000 + id.toNat
  | .rxq qid => qid.toNat
  | .bufq qid => if qid.toNat < 8192 then 0x3000 + qid.toNat else 0x10000 + (qid.toNat - 8192)
  | .txq qid => 0x5000 + qid.toNat
  | .vec id => 0x8900 + id.toNat

/-- Page `id` behind `start`. -/
theorem pageAt_toNat {start id : BitVec 32} (fits : start.toNat + id.toNat * 4096 < 2 ^ 32) :
    (start + id * 4096).toNat = start.toNat + id.toNat * 4096 := by
  have scaled : (id * 4096).toNat = id.toNat * 4096 :=
    BitVec.toNat_mul_of_lt (Nat.lt_of_le_of_lt (Nat.le_add_left _ _) fits)
  rw [BitVec.toNat_add_of_lt (by rw [scaled]; exact fits), scaled]

theorem base_toNat {r : AdiResource} (mapped : r.inMap) : r.base.toNat = r.number * 4096 := by
  cases r with
  | mbx id =>
      have bound : id.toNat < 0x400 := of_decide_eq_true mapped
      have start : (0x08000000 : BitVec 32).toNat = 0x08000000 := rfl
      simp only [base, number]
      rw [pageAt_toNat (by omega)]
      omega
  | rxq qid =>
      have bound : qid.toNat < 0x3000 := of_decide_eq_true mapped
      simp only [base, number]
      exact BitVec.toNat_mul_of_lt (by omega : qid.toNat * 4096 < 2 ^ 32)
  | bufq qid =>
      have bound : qid.toNat < 0x72000 := of_decide_eq_true mapped
      have signed : qid.slt 8192 = decide (qid.toNat < 8192) := by
        rw [BitVec.slt_eq_ult_of_msb_eq]
        · rfl
        · rw [BitVec.msb_eq_false_iff_two_mul_lt.mpr (by omega)]
          rfl
      simp only [base, number, signed, decide_eq_true_eq]
      split
      next low =>
        have start : (0x03000000 : BitVec 32).toNat = 0x03000000 := rfl
        rw [pageAt_toNat (by omega)]
        omega
      next high =>
        have start : (0x10000000 : BitVec 32).toNat = 0x10000000 := rfl
        have rest : (qid - 8192).toNat = qid.toNat - 8192 :=
          BitVec.toNat_sub_of_le (Nat.le_of_not_lt high)
        rw [pageAt_toNat (by omega)]
        omega
  | txq qid =>
      have bound : qid.toNat < 0x3000 := of_decide_eq_true mapped
      have start : (0x05000000 : BitVec 32).toNat = 0x05000000 := rfl
      simp only [base, number]
      rw [pageAt_toNat (by omega)]
      omega
  | vec id =>
      have bound : id.toNat < 0x7700 := of_decide_eq_true mapped
      have start : (0x08900000 : BitVec 32).toNat = 0x08900000 := rfl
      simp only [base, number]
      rw [pageAt_toNat (by omega)]
      omega

theorem number_lt {r : AdiResource} (mapped : r.inMap) : r.number < 0x80000 := by
  cases r with
  | mbx id =>
      simp only [inMap, decide_eq_true_eq] at mapped
      simp only [number]
      omega
  | rxq qid =>
      simp only [inMap, decide_eq_true_eq] at mapped
      simp only [number]
      omega
  | bufq qid =>
      simp only [inMap, decide_eq_true_eq] at mapped
      simp only [number]
      split <;> omega
  | txq qid =>
      simp only [inMap, decide_eq_true_eq] at mapped
      simp only [number]
      omega
  | vec id =>
      simp only [inMap, decide_eq_true_eq] at mapped
      simp only [number]
      omega

theorem number_injective {r r' : AdiResource} (mapped : r.inMap) (mapped' : r'.inMap)
    (same : r.number = r'.number) : r = r' := by
  have ids : ∀ {a b : BitVec 32}, a.toNat = b.toNat → a = b := BitVec.eq_of_toNat_eq
  cases r <;> cases r' <;> simp only [inMap, decide_eq_true_eq] at mapped mapped' <;>
    simp only [number] at same
  case mbx.mbx id id' => rw [ids (by omega : id.toNat = id'.toNat)]
  case rxq.rxq qid qid' => rw [ids same]
  case txq.txq qid qid' => rw [ids (by omega : qid.toNat = qid'.toNat)]
  case vec.vec id id' => rw [ids (by omega : id.toNat = id'.toNat)]
  case bufq.bufq qid qid' =>
    have equal : qid.toNat = qid'.toNat := by split at same <;> split at same <;> omega
    rw [ids equal]
  all_goals
    first
    | omega
    | (split at same <;> omega)

theorem regs_within {r : AdiResource} (mapped : r.inMap) {off : BitVec 32} (member : off ∈ r.regs) :
    off.toNat / 4096 = r.number := by
  have start := base_toNat mapped
  have low := number_lt mapped
  have near : ∃ d : Nat, d < 4096 ∧ off = r.base + BitVec.ofNat 32 d := by
    cases r with
    | mbx id =>
        obtain ⟨reg, _, rfl⟩ := List.mem_map.mp member
        exact ⟨reg.pf.toNat, by cases reg <;> decide, by simp⟩
    | rxq qid =>
        obtain rfl := List.mem_singleton.mp member
        exact ⟨0, by decide, by simp⟩
    | bufq qid =>
        obtain rfl := List.mem_singleton.mp member
        exact ⟨0, by decide, by simp⟩
    | txq qid =>
        obtain rfl := List.mem_singleton.mp member
        exact ⟨0, by decide, by simp⟩
    | vec id =>
        simp only [regs, List.mem_cons, List.not_mem_nil, or_false] at member
        rcases member with rfl | rfl | rfl | rfl
        · exact ⟨0, by decide, by simp⟩
        · exact ⟨4, by decide, rfl⟩
        · exact ⟨8, by decide, rfl⟩
        · exact ⟨12, by decide, rfl⟩
  obtain ⟨d, small, rfl⟩ := near
  rw [BitVec.toNat_add, BitVec.toNat_ofNat, start]
  omega

theorem covers_unique {r r' : AdiResource} (mapped : r.inMap) (mapped' : r'.inMap)
    {place : AdiPlace} (here : r.covers place) (here' : r'.covers place) : r = r' := by
  apply number_injective mapped mapped'
  cases place with
  | reg off => rw [← regs_within mapped here, ← regs_within mapped' here']
  | page pfn =>
      have same : r.page.toNat = r'.page.toNat :=
        congrArg BitVec.toNat (Eq.trans (Eq.symm here) here')
      simp only [page, BitVec.toNat_ushiftRight, base_toNat mapped, base_toNat mapped',
        Nat.shiftRight_eq_div_pow] at same
      omega

end AdiResource

theorem adiFillChunk_entries {numQids : Nat} (spacing : BitVec 32) (todo : Nat) (qid : BitVec 32)
    (reg : BitVec 64) (q : List AdiQ) (filled : Nat) (long : numQids ≤ q.length) (i : Nat) :
    let r := adiFillChunk numQids spacing todo qid reg (q, filled)
    (i < filled → r.1.getD i ⟨0, 0⟩ = q.getD i ⟨0, 0⟩) ∧
      (filled ≤ i → i < r.2 → ∃ k < todo, (r.1.getD i ⟨0, 0⟩).qid = qid + BitVec.ofNat 32 k) := by
  induction todo generalizing qid reg q filled with
  | zero => exact ⟨fun _ => rfl, fun low high => absurd low (Nat.not_le.mpr high)⟩
  | succ todo ih =>
      unfold adiFillChunk
      split
      next room =>
        obtain ⟨front, behind⟩ := ih (qid + 1) (reg + spacing.setWidth 64)
          (q.set filled ⟨qid, reg⟩) (filled + 1) (by rw [List.length_set]; exact long)
        constructor
        · intro low
          rw [front (low.trans (Nat.lt_succ_self _))]
          simp only [List.getD_eq_getElem?_getD, List.getElem?_set_ne low.ne']
        · intro low high
          by_cases here : i = filled
          · subst here
            refine ⟨0, Nat.succ_pos _, ?_⟩
            rw [front (Nat.lt_succ_self _)]
            simp [List.getElem?_set_self (room.trans_le long)]
          · obtain ⟨k, inside, same⟩ := behind (by omega) high
            refine ⟨k + 1, Nat.succ_lt_succ inside, ?_⟩
            rw [same, add_assoc]
            congr 1
            rw [add_comm, BitVec.ofNat_add]
            rfl
      next full => exact ⟨fun _ => rfl, fun low high => absurd low (Nat.not_le.mpr high)⟩

theorem adiFill_entries {numQids : Nat} (type : BitVec 32) (chunks : List QueueChunk)
    (q : List AdiQ) {filled : Nat} (long : numQids ≤ q.length) (fits : filled ≤ numQids) (i : Nat) :
    let r := adiFill numQids type chunks (q, filled)
    (i < filled → r.1.getD i ⟨0, 0⟩ = q.getD i ⟨0, 0⟩) ∧
      (filled ≤ i → i < r.2 →
        ∃ c ∈ chunks, c.type = type ∧ c.has (r.1.getD i ⟨0, 0⟩).qid) := by
  induction chunks generalizing q filled with
  | nil => exact ⟨fun _ => rfl, fun low high => absurd low (Nat.not_le.mpr high)⟩
  | cons c chunks ih =>
      unfold adiFill
      split
      next same =>
        obtain ⟨length, count⟩ := adiFillChunk_spec c.qtailRegSpacing c.numQueues.toNat
          c.startQueueId c.qtailRegStart q fits
        obtain ⟨front, behind⟩ := adiFillChunk_entries c.qtailRegSpacing c.numQueues.toNat
          c.startQueueId c.qtailRegStart q filled long i
        obtain ⟨front', behind'⟩ := ih (adiFillChunk numQids c.qtailRegSpacing c.numQueues.toNat
          c.startQueueId c.qtailRegStart (q, filled)).1 (length.symm ▸ long)
          (count ▸ Nat.min_le_left _ _)
        have grown : filled ≤ (adiFillChunk numQids c.qtailRegSpacing c.numQueues.toNat
            c.startQueueId c.qtailRegStart (q, filled)).2 := by
          rw [count]
          exact le_min fits (Nat.le_add_right _ _)
        constructor
        · intro low
          exact (front' (low.trans_le grown)).trans (front low)
        · intro low high
          by_cases first : i < (adiFillChunk numQids c.qtailRegSpacing c.numQueues.toNat
              c.startQueueId c.qtailRegStart (q, filled)).2
          · obtain ⟨k, inside, here⟩ := behind low first
            exact ⟨c, List.mem_cons_self, same, k, inside,
              (congrArg AdiQ.qid (front' first)).trans here⟩
          · obtain ⟨d, member, rest⟩ := behind' (Nat.not_lt.mp first) high
            exact ⟨d, List.mem_cons_of_mem _ member, rest⟩
      next other =>
        obtain ⟨front, behind⟩ := ih q long fits
        constructor
        · exact front
        · intro low high
          obtain ⟨d, member, rest⟩ := behind low high
          exact ⟨d, List.mem_cons_of_mem _ member, rest⟩

/-- Where the queues of the kinds are all found, each entry within the count is a queue that the
reply gives, and the other kinds stay as they are. -/
theorem adiQidRegInit_entries {chunks : List QueueChunk} {ks : List QueueKind}
    {a a' : AdiQueueInfo} (distinct : ks.Nodup) (sized : a.consistent)
    (found : adiQidRegInit chunks ks a = (false, a')) (k : QueueKind) :
    (k ∉ ks → a'.q k = a.q k ∧ a'.num k = a.num k) ∧
      (k ∈ ks → ∀ i < a'.num k, ∃ c ∈ chunks, c.type = AdiQueueInfo.typeCode k ∧
        c.has ((a'.q k).getD i ⟨0, 0⟩).qid) := by
  induction ks generalizing a with
  | nil =>
      obtain rfl := (Prod.mk.inj found).2
      exact ⟨fun _ => ⟨rfl, rfl⟩, fun member => absurd member List.not_mem_nil⟩
  | cons j ks ih =>
      obtain ⟨fresh, distinct⟩ := List.nodup_cons.mp distinct
      have one : (adiQidRegInit chunks [j] a).2.consistent := sized.adiQidRegInit
      unfold adiQidRegInit at found one
      dsimp only at found one
      split at found
      · cases (Prod.mk.inj found).1
      · rename_i some_queue
        rw [if_neg some_queue] at one
        obtain ⟨others, these⟩ := ih distinct one found
        have entries := adiFill_entries (AdiQueueInfo.typeCode j) chunks (a.q j)
          (sized j).1.ge (Nat.zero_le (AdiQueueInfo.room j))
        constructor
        · intro outside
          obtain ⟨other, outside⟩ := not_or.mp (mt List.mem_cons.mpr outside)
          obtain ⟨q, num⟩ := others outside
          rw [q, num]
          exact ⟨Function.update_of_ne other _ _, Function.update_of_ne other _ _⟩
        · intro member
          by_cases here : k = j
          · subst here
            obtain ⟨q, num⟩ := others fresh
            intro i inside
            rw [num] at inside
            rw [q]
            change ∃ c ∈ chunks, _ ∧ c.has ((Function.update a.q k _ k).getD i ⟨0, 0⟩).qid
            change i < Function.update a.num k _ k at inside
            rw [Function.update_self] at inside ⊢
            exact (entries i).2 (Nat.zero_le _) inside
          · exact these (List.mem_of_ne_of_mem here member)

namespace AdiPriv

variable {p before : AdiPriv} {own : AdiResource → Prop} {entry : Nat → BitVec 16} {vecs : List Nat}
  {r : AdiReply}

/-- What the numbers in an ADI's records stand for is its own. -/
structure Holds (p : AdiPriv) (own : AdiResource → Prop) : Prop where
  mbx : own (.mbx p.mbxId)
  mbxVec : own (.vec p.mbxVecId)
  vecs : ∀ i, i + 1 < p.numVectors → own (.vec (p.dataQVecIds i))
  rx : ∀ i < p.qinfo.num .rx, own (.rxq (p.qid .rx i))
  buf : ∀ i < p.qinfo.num .buf, own (.bufq (p.qid .buf i))
  tx : ∀ i < p.qinfo.num .tx, own (.txq (p.qid .tx i))

theorem fresh_consistent (heap : Nat → BitVec 32) : (fresh heap).qinfo.consistent := by
  intro k
  exact ⟨List.length_replicate, Nat.zero_le _⟩

theorem getD_mem {i : Nat} (inside : i < vecs.length) : vecs.getD i 0 ∈ vecs := by
  rw [List.getD_eq_getElem?_getD, List.getElem?_eq_getElem inside, Option.getD_some]
  exact List.getElem_mem inside

theorem assign_holds (sized : before.qinfo.consistent) (made : before.assign entry vecs r = some p) :
    p.Holds (assigned entry vecs r) := by
  obtain ⟨q, prepared, accepted⟩ := Option.bind_eq_some_iff.mp made
  obtain ⟨taken, took, prepared⟩ := Option.bind_eq_some_iff.mp prepared
  simp only [takeVectors, Option.ite_none_right_eq_some, Option.some.injEq] at took
  obtain ⟨exact_count, rfl⟩ := took
  simp only [prepVecChunks, Option.ite_none_left_eq_some, Option.some.injEq, not_or,
    Nat.not_le] at prepared
  obtain ⟨⟨several, _⟩, rfl⟩ := prepared
  unfold accept at accepted
  dsimp only at accepted
  cases found : adiQidRegInit r.chunks adiKinds before.qinfo with
  | mk failed qinfo =>
      rw [found] at accepted
      cases failed with
      | true => cases accepted
      | false =>
          obtain rfl := Option.some.inj accepted
          have entries := fun k =>
            (adiQidRegInit_entries (by decide : adiKinds.Nodup) sized found k).2
          constructor
          · rfl
          · exact ⟨_, getD_mem (by omega), rfl⟩
          · intro i inside
            change i + 1 < before.numVectors at inside
            change assigned entry vecs r (.vec (if i + 1 < before.numVectors then _ else _))
            rw [if_pos inside]
            exact ⟨_, getD_mem (by omega), rfl⟩
          · exact entries .rx (by decide)
          · exact entries .buf (by decide)
          · exact entries .tx (by decide)

theorem covered {t : AdiTouch} {res : AdiResource} (mine : own res) (here : res.covers t.place)
    (inside : ∀ i n, t.index = some (i, n) → i < n) : t.Within own := by
  refine ⟨⟨res, mine, here⟩, inside, ?_⟩
  intro mapped other in_map there
  have same := AdiResource.covers_unique (mapped res mine) in_map here there
  exact same ▸ mine

theorem base_mem (res : AdiResource) (single : ∀ id, res ≠ .mbx id) : res.base ∈ res.regs := by
  cases res with
  | mbx id => exact absurd rfl (single id)
  | rxq qid => exact List.mem_cons_self
  | bufq qid => exact List.mem_cons_self
  | txq qid => exact List.mem_cons_self
  | vec id => exact List.mem_cons_self

theorem mbxTouch_covered (holds : p.Holds own) {offs : Nat} {t : AdiTouch}
    (touched : p.mbxTouch offs = some t) : t.Within own := by
  obtain ⟨reg, found, rfl⟩ := Option.map_eq_some_iff.mp touched
  refine covered holds.mbx ?_ ?_
  · exact List.mem_map.mpr ⟨reg, List.mem_of_find?_eq_some found, rfl⟩
  · intro i n same
    cases same

theorem tailTouch_covered {k : QueueKind} {res : BitVec 32 → AdiResource}
    (holds : ∀ i < p.qinfo.num k, own (res (p.qid k i))) (single : ∀ q id, res q ≠ .mbx id)
    {i : Nat} {t : AdiTouch} (touched : p.tailTouch k res i = some t) : t.Within own := by
  simp only [tailTouch, Option.ite_none_left_eq_some, Option.some.injEq, Nat.not_le] at touched
  obtain ⟨inside, rfl⟩ := touched
  refine covered (holds i inside) (base_mem _ (single _)) ?_
  intro j n same
  obtain ⟨rfl, rfl⟩ := Prod.mk.inj (Option.some.inj same)
  exact inside

theorem writeReg32_covered (holds : p.Holds own) {offs : Nat} {t : AdiTouch}
    (vector : (rangeIndex 0x3800 offs).all fun i => i + 1 < p.numVectors)
    (touched : p.writeReg32 offs = some t) : t.Within own := by
  unfold writeReg32 at touched
  split at touched
  · rename_i touch mailbox
    obtain rfl := Option.some.inj touched
    exact mbxTouch_covered holds mailbox
  · split at touched
    · obtain rfl := Option.some.inj touched
      refine covered holds.mbxVec (base_mem _ (by intro id same; cases same)) ?_
      intro i n same
      cases same
    · split at touched
      · exact tailTouch_covered holds.rx (by intro q id same; cases same) touched
      · exact tailTouch_covered holds.buf (by intro q id same; cases same) touched
      · exact tailTouch_covered holds.tx (by intro q id same; cases same) touched
      · rename_i i _ _ _ range
        obtain rfl := Option.some.inj touched
        have inside : i + 1 < p.numVectors := by simpa [range] using vector
        refine covered (holds.vecs i inside) (base_mem _ (by intro id same; cases same)) ?_
        intro j n same
        obtain ⟨rfl, rfl⟩ := Prod.mk.inj (Option.some.inj same)
        omega
      · cases touched

/-- The pages that are accepted, and what each comes to. -/
theorem sparseMmapHpa_cases {index : BitVec 32} {pgoff size : BitVec 64} {t : AdiTouch}
    (touched : p.sparseMmapHpa index pgoff size = some t) : index = 0 ∧ size = 4096 ∧
      (pgoff.toNat = 0x20 ∧ t = ⟨.page (AdiResource.mbx p.mbxId).page, none⟩ ∨
      (∃ i < p.qinfo.num .rx, pgoff.toNat = 0x100 + i ∧
        t = ⟨.page (AdiResource.rxq (p.qid .rx i)).page, some (i, p.qinfo.num .rx)⟩) ∨
      (∃ i < p.qinfo.num .buf, pgoff.toNat = 0x900 + i ∧
        t = ⟨.page (AdiResource.bufq (p.qid .buf i)).page, some (i, p.qinfo.num .buf)⟩) ∨
      (∃ i < p.qinfo.num .tx, pgoff.toNat = 0x1100 + i ∧
        t = ⟨.page (AdiResource.txq (p.qid .tx i)).page, some (i, p.qinfo.num .tx)⟩) ∨
      (p.numVectors ≠ 0 ∧ pgoff.toNat = 0x2100 ∧
        t = ⟨.page (AdiResource.vec p.mbxVecId).page, none⟩) ∨
      ∃ i, i + 1 < p.numVectors ∧ pgoff.toNat = 0x2101 + i ∧
        t = ⟨.page (AdiResource.vec (p.dataQVecIds i)).page, some (i, p.numVectors - 1)⟩) := by
  unfold sparseMmapHpa at touched
  dsimp only at touched
  simp only [Option.ite_none_left_eq_some, not_not] at touched
  obtain ⟨bar0, page, touched⟩ := touched
  refine ⟨bar0, page, ?_⟩
  by_cases mbx : pgoff.toNat = 0x20
  · rw [if_pos mbx] at touched
    exact .inl ⟨mbx, (Option.some.inj touched).symm⟩
  rw [if_neg mbx] at touched
  by_cases rx : 0x100 ≤ pgoff.toNat ∧ pgoff.toNat < 0x900
  · rw [if_pos rx, Option.ite_none_left_eq_some] at touched
    exact .inr (.inl ⟨pgoff.toNat - 0x100, Nat.lt_of_not_le touched.1, by omega,
      (Option.some.inj touched.2).symm⟩)
  rw [if_neg rx] at touched
  by_cases buf : 0x900 ≤ pgoff.toNat ∧ pgoff.toNat < 0x1100
  · rw [if_pos buf, Option.ite_none_left_eq_some] at touched
    exact .inr (.inr (.inl ⟨pgoff.toNat - 0x900, Nat.lt_of_not_le touched.1, by omega,
      (Option.some.inj touched.2).symm⟩))
  rw [if_neg buf] at touched
  by_cases tx : 0x1100 ≤ pgoff.toNat ∧ pgoff.toNat < 0x1900
  · rw [if_pos tx, Option.ite_none_left_eq_some] at touched
    exact .inr (.inr (.inr (.inl ⟨pgoff.toNat - 0x1100, Nat.lt_of_not_le touched.1, by omega,
      (Option.some.inj touched.2).symm⟩)))
  rw [if_neg tx] at touched
  by_cases vec : pgoff.toNat = 0x2100
  · rw [if_pos vec, Option.ite_none_left_eq_some] at touched
    exact .inr (.inr (.inr (.inr (.inl ⟨touched.1, vec, (Option.some.inj touched.2).symm⟩))))
  rw [if_neg vec, Option.ite_none_right_eq_some, Option.ite_none_left_eq_some] at touched
  exact .inr (.inr (.inr (.inr (.inr ⟨pgoff.toNat - 0x2101, Nat.lt_of_not_le touched.2.1,
    by omega, (Option.some.inj touched.2.2).symm⟩))))

theorem sparseMmapHpa_covered (holds : p.Holds own) {index : BitVec 32} {pgoff size : BitVec 64}
    {t : AdiTouch} (touched : p.sparseMmapHpa index pgoff size = some t) : t.Within own := by
  have unindexed : ∀ {res : AdiResource}, own res → AdiTouch.Within ⟨.page res.page, none⟩ own := by
    intro res mine
    refine covered mine rfl ?_
    intro i n same
    cases same
  have indexed : ∀ {res : AdiResource} {i n : Nat}, own res → i < n →
      AdiTouch.Within ⟨.page res.page, some (i, n)⟩ own := by
    intro res i n mine inside
    refine covered mine rfl ?_
    intro j m same
    obtain ⟨rfl, rfl⟩ := Prod.mk.inj (Option.some.inj same)
    exact inside
  obtain ⟨-, -, ⟨-, rfl⟩ | ⟨i, inside, -, rfl⟩ | ⟨i, inside, -, rfl⟩ | ⟨i, inside, -, rfl⟩ |
    ⟨-, -, rfl⟩ | ⟨i, inside, -, rfl⟩⟩ := sparseMmapHpa_cases touched
  · exact unindexed holds.mbx
  · exact indexed (holds.rx i inside) inside
  · exact indexed (holds.buf i inside) inside
  · exact indexed (holds.tx i inside) inside
  · exact unindexed holds.mbxVec
  · exact indexed (holds.vecs i inside) (by omega)

theorem contained (holds : p.Holds own) {a : AdiAccess} (inside : p.vectorInside a) :
    p.Contained own a := by
  intro t touched
  cases a with
  | read pos count =>
      simp only [touch, Option.ite_none_left_eq_some, readReg32] at touched
      exact mbxTouch_covered holds touched.2.2
  | write pos count data =>
      simp only [touch, Option.ite_none_left_eq_some, not_or] at touched
      obtain ⟨⟨short, aligned⟩, touched⟩ := touched
      simp only [vectorInside, short, aligned, decide_false, Bool.false_or] at inside
      exact writeReg32_covered holds (by simpa using inside) touched
  | mmap index pgoff size => exact sparseMmapHpa_covered holds touched

/-- The ranges that the guest writes to do not overlap. -/
theorem vector_range {offs i : Nat} (range : rangeIndex 0x3800 offs = some i) :
    p.writeReg32 offs =
      some ⟨.reg (AdiResource.vec (p.dataQVecIds i)).base, some (i, p.numVectors - 1)⟩ := by
  have bounds := range
  simp only [rangeIndex, Option.ite_none_right_eq_some] at bounds
  obtain ⟨⟨low, high⟩, _⟩ := bounds
  have no_mailbox : p.mbxTouch offs = none := by
    rw [mbxTouch, Option.map_eq_none_iff, List.find?_eq_none]
    intro reg _ same
    have far := reg.vf_ge
    have here := of_decide_eq_true same
    omega
  have above : ∀ start, 0x40000 ≤ start → rangeIndex start offs = none := by
    intro start far
    rw [rangeIndex, if_neg (by omega)]
  rw [writeReg32, no_mailbox]
  dsimp only
  rw [if_neg (by omega), above 0x50000 (by omega), above 0x60000 (by omega), above 0x40000 (by omega),
    range]

theorem not_contained {a : AdiAccess} (outside : p.vectorInside a = false) :
    ¬ p.Contained own a := by
  intro claim
  cases a with
  | read pos count => cases outside
  | write pos count data =>
      simp only [vectorInside, Bool.or_eq_false_iff, decide_eq_false_iff_not, not_not] at outside
      obtain ⟨⟨short, aligned⟩, range⟩ := outside
      cases found : rangeIndex 0x3800 pos.toNat with
      | none => simp [found] at range
      | some i =>
          simp only [found, Option.all_some, decide_eq_false_iff_not, Nat.not_lt] at range
          have touched : p.touch (.write pos count data) =
              some ⟨.reg (AdiResource.vec (p.dataQVecIds i)).base, some (i, p.numVectors - 1)⟩ := by
            rw [touch, if_neg (not_or.mpr ⟨short, not_not.mpr aligned⟩), vector_range found]
          have inside := (claim _ touched).inside i _ rfl
          omega
  | mmap index pgoff size => cases outside

/-- Whatever an ADI is assigned: the accesses of a guest, in any order, touch nothing but that if and
only if none of them is a write to the control register of a vector beyond those of the ADI. -/
theorem guest_contained_iff (sized : before.qinfo.consistent)
    (made : before.assign entry vecs r = some p) (accesses : List AdiAccess) :
    (∀ a ∈ accesses, p.Contained (assigned entry vecs r) a) ↔
      ∀ a ∈ accesses, p.vectorInside a = true := by
  have holds := assign_holds sized made
  constructor
  · intro all a member
    by_contra outside
    exact not_contained (Bool.not_eq_true _ ▸ outside) (all a member)
  · exact fun all a member => contained holds (all a member)

def twoOfEach : AdiReply :=
  ⟨7, 3, [⟨0, 0, 0, 20, 2⟩, ⟨0, 0, 1, 40, 1⟩, ⟨0, 0, 1, 50, 1⟩, ⟨0, 0, 2, 60, 2⟩, ⟨0, 0, 3, 80, 2⟩]⟩

/-- An ADI with nine vectors is created; each kind of register is reached by its last index. -/
theorem guest_contained_run : ∃ p, (fresh fun _ => 0).assign (BitVec.ofNat 16)
      [11, 12, 13, 14, 15, 16, 17, 18, 19] twoOfEach = some p ∧
    ∀ a ∈ [AdiAccess.read 0x7C00 4, .write 0x50004 4 1, .write 0x60004 4 1, .write 0x40004 4 1,
      .write 0x5C00 4 1, .write 0x381C 4 1, .mmap 0 0x101 4096, .mmap 0 0x2108 4096],
      p.Contained (assigned (BitVec.ofNat 16) [11, 12, 13, 14, 15, 16, 17, 18, 19] twoOfEach) a := by
  have run : ((fresh fun _ => 0).assign (BitVec.ofNat 16)
      [11, 12, 13, 14, 15, 16, 17, 18, 19] twoOfEach).map numVectors = some 9 := by
    decide +kernel
  obtain ⟨p, made, nine⟩ := Option.map_eq_some_iff.mp run
  refine ⟨p, made, (guest_contained_iff (fresh_consistent _) made _).mpr ?_⟩
  simp [vectorInside, rangeIndex, nine]

/-- A write to the control register of data vector 8, where the ADI has eight, is one to the first
vector of the device. -/
theorem guest_writes_other_vector : ∃ p, (fresh fun _ => 0).assign (BitVec.ofNat 16)
      [11, 12, 13, 14, 15, 16, 17, 18, 19] twoOfEach = some p ∧
    p.touch (.write 0x3820 4 1) = some ⟨.reg (AdiResource.vec 0).base, some (8, 8)⟩ ∧
    ¬ p.Contained (assigned (BitVec.ofNat 16) [11, 12, 13, 14, 15, 16, 17, 18, 19] twoOfEach)
      (.write 0x3820 4 1) := by
  have run : ((fresh fun _ => 0).assign (BitVec.ofNat 16)
      [11, 12, 13, 14, 15, 16, 17, 18, 19] twoOfEach).map
        (fun p => p.touch (.write 0x3820 4 1)) =
      some (some ⟨.reg (AdiResource.vec 0).base, some (8, 8)⟩) := by
    decide +kernel
  obtain ⟨p, made, touched⟩ := Option.map_eq_some_iff.mp run
  refine ⟨p, made, touched, ?_⟩
  intro claim
  exact absurd ((claim _ touched).inside 8 8 rfl) (by decide)

end AdiPriv

end Idpf
