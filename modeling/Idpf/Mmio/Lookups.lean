import Idpf.Mmio.Regions
import Idpf.Vport.QueueIds

/-! The registers that the device names: for the mailbox vector, the vectors of a vport and the
tails of its queues, and when all of them are found. -/
namespace Idpf

/-- A call of `idpf_get_reg_addr` and what comes of it. -/
structure RegLookup where
  off : BitVec 64
  addr : Option (BitVec 64)
  deriving DecidableEq, Repr

/-- `idpf_get_reg_addr` for an offset of 32 bits. -/
def regLookup (regs : List MmioReg) (off : BitVec 32) : RegLookup :=
  ⟨off.setWidth 64, getRegAddr regs (off.setWidth 64)⟩

/-- The call finds an address in a mapped region that holds the whole register. -/
def RegLookup.Found (l : RegLookup) (regs : List MmioReg) : Prop :=
  ∃ region ∈ regs, region.vaddr ≠ 0 ∧ region.Holds l.off.toNat ∧
    l.addr = some (region.vaddr + (l.off - region.addrStart))

/-- What `idpf_mb_intr_reg_init` finds; the second register is not the device's to name. -/
structure MbIntrReg where
  dynCtl : RegLookup
  icrEna : RegLookup

/-- PF_INT_DIR_OICR_ENA and VF_INT_ICR0_ENA1 -/
def RegDevice.icrEna : RegDevice → BitVec 32
  | .pf => 0x08406000
  | .vf => 0x5000
  | .siov => 0x5000

/-- `idpf_mb_intr_reg_init` and `idpf_vf_mb_intr_reg_init` -/
def mbIntrRegInit (dev : RegDevice) (regs : List MmioReg) (mailboxDynCtl : BitVec 32) : MbIntrReg :=
  ⟨regLookup regs mailboxDynCtl, regLookup regs dev.icrEna⟩

/-- The registers in a `struct virtchnl2_vector_chunk`. -/
structure VectorChunk where
  numVectors : BitVec 16
  dynctlRegStart : BitVec 32
  dynctlRegSpacing : BitVec 32
  itrnRegStart : BitVec 32
  itrnRegSpacing : BitVec 32
  itrnIndexSpacing : BitVec 32

/-- `struct idpf_vec_regs` -/
structure VecRegs where
  dynCtlReg : BitVec 32
  itrnReg : BitVec 32
  itrnIndexSpacing : BitVec 32
  deriving DecidableEq, Repr

/-- The inner loop of `idpf_get_reg_intr_vecs`. -/
def chunkVecRegs (c : VectorChunk) : Nat → BitVec 32 → BitVec 32 → List VecRegs
  | 0, _, _ => []
  | n + 1, dynCtl, itrn =>
    ⟨dynCtl, itrn, c.itrnIndexSpacing⟩ ::
      chunkVecRegs c n (dynCtl + c.dynctlRegSpacing) (itrn + c.itrnRegSpacing)

/-- `idpf_get_reg_intr_vecs` -/
def getRegIntrVecs (chunks : List VectorChunk) : List VecRegs :=
  chunks.flatMap fun c => chunkVecRegs c c.numVectors.toNat c.dynctlRegStart c.itrnRegStart

/-- `reg_vals` once it is filled: zeroes where nothing was written, and behind its `total` entries
whatever is there. -/
def regVals (total : Nat) (behind : Nat → VecRegs) (filled : List VecRegs) (i : Nat) : VecRegs :=
  match filled[i]? with
  | some r => r
  | none => if i < total then ⟨0, 0, 0⟩ else behind i

/-- The registers of a `struct idpf_intr_reg`. -/
structure IntrReg where
  dynCtl : RegLookup
  rxItr : RegLookup
  txItr : RegLookup

/-- IDPF_PF_ITR_IDX_SPACING and IDPF_VF_ITR_IDX_SPACING -/
def RegDevice.itrIdxSpacing : RegDevice → BitVec 32
  | .pf => 4
  | .vf => 0x40
  | .siov => 0x40

/-- IDPF_ITR_IDX_SPACING -/
def itrIdxSpacing (spacing dflt : BitVec 32) : BitVec 32 := if spacing = 0 then dflt else spacing

/-- PF_GLINT_ITR_ADDR and VF_INT_ITRN_ADDR -/
def itrAddr (itr regStart spacing : BitVec 32) : BitVec 32 := regStart + itr * spacing

def VecRegs.intr (dev : RegDevice) (regs : List MmioReg) (r : VecRegs) : IntrReg :=
  let spacing := itrIdxSpacing r.itrnIndexSpacing dev.itrIdxSpacing
  { dynCtl := regLookup regs r.dynCtlReg
    rxItr := regLookup regs (itrAddr 0 r.itrnReg spacing)
    txItr := regLookup regs (itrAddr 1 r.itrnReg spacing) }

/-- What `idpf_intr_reg_init` works with: the vectors of the vport, the reserved vectors and the
chunks of the adapter, whether memory can be had, and what is behind it. -/
structure VectorUse where
  alloc : Bool
  totalVecs : BitVec 16
  behind : Nat → VecRegs
  chunks : List VectorChunk
  vecIdxs : List (BitVec 16)

/-- `idpf_intr_reg_init` and `idpf_vf_intr_reg_init`, or an error. -/
def intrRegInit (dev : RegDevice) (regs : List MmioReg) (use : VectorUse) : Option (List IntrReg) :=
  let filled := getRegIntrVecs use.chunks
  if !use.alloc then none
  else if filled.length < use.vecIdxs.length then none
  else some (use.vecIdxs.map fun idx =>
    (regVals use.totalVecs.toNat use.behind filled (idx - 1).toNat).intr dev regs)

/-- What `idpf_queue_reg_init` works with. -/
structure TailUse where
  alloc : Bool
  rsrc : QVecRsrc
  chunks : List QueueChunk

/-- The calls for the queues of one kind that get a register. -/
def tailLookups (regs : List MmioReg) (queues : List (Option ChunkEntry)) : List RegLookup :=
  queues.filterMap fun q => q.map fun e => regLookup regs e.val

/-- The calls of `idpf_queue_reg_init`. Those for the transmit queues come before the check of the
other kind. -/
def queueRegLookups (regs : List MmioReg) (use : TailUse) : List RegLookup :=
  let r := use.rsrc
  if !use.alloc then []
  else
    match initKind (getQReg maxQids 0 use.chunks) r.numTxq r.txqGroups with
    | none => []
    | some tx =>
      tailLookups regs tx ++
        match (if r.rxSplit then initKind (getQReg maxQids 3 use.chunks) r.numBufq r.bufqGroups
          else initKind (getQReg maxQids 1 use.chunks) r.numRxq r.rxqGroups) with
        | none => []
        | some rx => tailLookups regs rx

/-- The registers that the device names. -/
structure RegUse where
  mailboxDynCtl : BitVec 32
  vectors : VectorUse
  tails : TailUse

/-- What has to hold of the regions and of every call for a register that the device names: a
fallback is sound, and unless the regions cannot be had every call finds its register. -/
structure RegsSound (env : RegionEnv) (use : RegUse) : Prop where
  layout : env.fallback = true → ∀ regs, env.layout = some regs →
    FallbackSound env.dev env.barLen regs
  mailbox : ∀ regs, env.lanRegs = some regs →
    (mbIntrRegInit env.dev regs use.mailboxDynCtl).dynCtl.Found regs
  vectors : ∀ regs, env.lanRegs = some regs → ∀ intrs,
    intrRegInit env.dev regs use.vectors = some intrs → ∀ intr ∈ intrs,
      intr.dynCtl.Found regs ∧ intr.rxItr.Found regs ∧ intr.txItr.Found regs
  tails : ∀ regs, env.lanRegs = some regs → ∀ l ∈ queueRegLookups regs use.tails, l.Found regs

/-! The offsets as the device gives them -/

/-- The registers of the vector at a position of a chunk. -/
def VectorChunk.regsAt (c : VectorChunk) (pos : Nat) : VecRegs where
  dynCtlReg := BitVec.ofNat 32 (c.dynctlRegStart.toNat + pos * c.dynctlRegSpacing.toNat)
  itrnReg := BitVec.ofNat 32 (c.itrnRegStart.toNat + pos * c.itrnRegSpacing.toNat)
  itrnIndexSpacing := c.itrnIndexSpacing

def vectorsGiven (chunks : List VectorChunk) : List VecRegs :=
  chunks.flatMap fun c => (List.range c.numVectors.toNat).map c.regsAt

/-- The dynamic control register of a vector and its two interval registers. -/
def VecRegs.offsets (dev : RegDevice) (r : VecRegs) : List (BitVec 32) :=
  [r.dynCtlReg, r.itrnReg, r.itrnReg + itrIdxSpacing r.itrnIndexSpacing dev.itrIdxSpacing]

/-- The registers of the vectors of a vport, unless the chunks have fewer vectors. -/
def VectorUse.offsets (use : VectorUse) (dev : RegDevice) : List (BitVec 32) :=
  if use.alloc = true ∧ use.vecIdxs.length ≤ (vectorsGiven use.chunks).length then
    use.vecIdxs.flatMap fun idx => (regVals use.totalVecs.toNat use.behind
      (vectorsGiven use.chunks) (idx - 1).toNat).offsets dev
  else []

/-- The tail registers of a type, the last chunk first; the count of a chunk is taken modulo 65536,
and there is room for 256. -/
def tailsGiven (type : BitVec 32) (chunks : List QueueChunk) : List (BitVec 32) :=
  ((chunks.reverse.filter fun c => c.type = type).flatMap fun c =>
    (List.range (c.numQueues.toNat % 65536)).map fun pos =>
      BitVec.ofNat 32 (c.qtailRegStart.toNat + pos * c.qtailRegSpacing.toNat)).take maxQids

def QVecRsrc.otherTail (r : QVecRsrc) : UsedKind :=
  if r.rxSplit then ⟨3, r.numBufq, r.bufqGroups, true⟩ else ⟨1, r.numRxq, r.rxqGroups, true⟩

/-- The tail registers of the queues of a vport, unless the chunks have fewer than are checked. -/
def TailUse.offsets (use : TailUse) : List (BitVec 32) :=
  let r := use.rsrc
  if use.alloc = true ∧ r.numTxq ≤ (tailsGiven 0 use.chunks).length then
    (tailsGiven 0 use.chunks).take r.txqGroups.sum ++
      if r.otherTail.num ≤ (tailsGiven r.otherTail.type use.chunks).length then
        (tailsGiven r.otherTail.type use.chunks).take r.otherTail.groups.sum
      else []
  else []

def RegUse.offsets (use : RegUse) (dev : RegDevice) : List (BitVec 32) :=
  use.mailboxDynCtl :: (use.vectors.offsets dev ++ use.tails.offsets)

namespace RegionEnv

/-- The regions of the reply, or those before, between and behind the windows: where each begins,
and its length. -/
def spans (env : RegionEnv) : List (Nat × Nat) :=
  if env.fallback then
    let (first, second) := env.dev.windows
    [(0, first.start.toNat),
      (first.stop.toNat + 1, second.start.toNat - (first.stop.toNat + 1)),
      (env.dev.windowsEnd, env.barLen.toNat - env.dev.windowsEnd)]
  else
    match env.reply with
    | none => []
    | some reply => (List.range reply.numMemoryRegions.toNat).map fun i =>
        ((reply.memReg i).1.toNat, (reply.memReg i).2.toNat)

/-- There is no memory, or no reply as long as its regions and no longer than the buffer. -/
def refused (env : RegionEnv) : Bool :=
  !env.alloc || !env.fallback &&
    match env.reply with
    | none => true
    | some reply => decide (reply.sz < 8 + 16 * reply.numMemoryRegions.toNat) ||
        decide (4096 < 8 + 16 * reply.numMemoryRegions.toNat)

def unmapped (env : RegionEnv) : Bool :=
  env.spans.any fun span => decide (span.2 ≠ 0) &&
    decide (env.ioremap (BitVec.ofNat 64 span.1 + env.barStart) (BitVec.ofNat 64 span.2) = 0)

end RegionEnv

/-- Unless the regions are refused, a fallback has a BAR that reaches to the end of the windows; and
unless a region cannot be mapped, each offset lies in a region, at least four bytes before its
end. -/
def RegUse.Within (use : RegUse) (env : RegionEnv) : Prop :=
  env.refused = true ∨
    (env.fallback = true → env.dev.windowsEnd ≤ env.barLen.toNat) ∧
      (env.unmapped = true ∨ ∀ off ∈ use.offsets env.dev, ∃ span ∈ env.spans,
        span.1 ≤ off.toNat ∧ off.toNat + 4 ≤ span.1 + span.2)

theorem chunkVecRegs_eq (c : VectorChunk) (n pos : Nat) :
    chunkVecRegs c n (c.regsAt pos).dynCtlReg (c.regsAt pos).itrnReg =
      (List.range' pos n).map c.regsAt := by
  induction n generalizing pos with
  | zero => rfl
  | succ n ih =>
      have next : ∀ start spacing : BitVec 32,
          BitVec.ofNat 32 (start.toNat + pos * spacing.toNat) + spacing =
            BitVec.ofNat 32 (start.toNat + (pos + 1) * spacing.toNat) := by
        intro start spacing
        calc BitVec.ofNat 32 (start.toNat + pos * spacing.toNat) + spacing
            = BitVec.ofNat 32 (start.toNat + pos * spacing.toNat) +
                BitVec.ofNat 32 spacing.toNat := by rw [BitVec.ofNat_toNat, BitVec.setWidth_eq]
          _ = BitVec.ofNat 32 (start.toNat + (pos + 1) * spacing.toNat) := by
              rw [← BitVec.ofNat_add, Nat.succ_mul, Nat.add_assoc]
      rw [List.range'_succ, List.map_cons, ← ih]
      change c.regsAt pos :: chunkVecRegs c n (BitVec.ofNat 32 _ + c.dynctlRegSpacing)
        (BitVec.ofNat 32 _ + c.itrnRegSpacing) = _
      rw [next, next]
      rfl

theorem getRegIntrVecs_eq (chunks : List VectorChunk) :
    getRegIntrVecs chunks = vectorsGiven chunks := by
  unfold getRegIntrVecs vectorsGiven
  congr 1
  funext c
  have walked := chunkVecRegs_eq c c.numVectors.toNat 0
  rw [← List.range_eq_range'] at walked
  rw [← walked]
  simp only [VectorChunk.regsAt, Nat.zero_mul, Nat.add_zero, BitVec.ofNat_toNat, BitVec.setWidth_eq]

theorem VecRegs.intr_found_iff {dev : RegDevice} {regs : List MmioReg} {r : VecRegs} :
    ((r.intr dev regs).dynCtl.Found regs ∧ (r.intr dev regs).rxItr.Found regs ∧
      (r.intr dev regs).txItr.Found regs) ↔
        ∀ off ∈ r.offsets dev, (regLookup regs off).Found regs := by
  unfold VecRegs.intr VecRegs.offsets itrAddr
  simp only [zero_mul, add_zero, one_mul, List.forall_mem_cons,
    List.not_mem_nil, false_implies, implies_true, and_true]

/-- Only memory and the number of registers are checked. -/
theorem intrRegInit_eq_some {dev : RegDevice} {regs : List MmioReg} {use : VectorUse}
    {intrs : List IntrReg} :
    intrRegInit dev regs use = some intrs ↔ use.alloc = true ∧
      use.vecIdxs.length ≤ (getRegIntrVecs use.chunks).length ∧
      intrs = use.vecIdxs.map fun idx => (regVals use.totalVecs.toNat use.behind
        (getRegIntrVecs use.chunks) (idx - 1).toNat).intr dev regs := by
  unfold intrRegInit
  dsimp only
  cases use.alloc with
  | false => exact ⟨fun done => (nomatch done), fun done => (nomatch done.1)⟩
  | true =>
      rw [if_neg (by decide)]
      by_cases few : (getRegIntrVecs use.chunks).length < use.vecIdxs.length
      · rw [if_pos few]
        exact ⟨fun done => (nomatch done), fun done => absurd few (Nat.not_lt.mpr done.2.1)⟩
      · rw [if_neg few]
        exact ⟨fun done => ⟨rfl, Nat.not_lt.mp few, (Option.some.inj done).symm⟩,
          fun done => congrArg some done.2.2.symm⟩

/-- Every vector that is set up has its registers found if and only if all offsets are. -/
theorem intrRegInit_found_iff (dev : RegDevice) (regs : List MmioReg) (use : VectorUse) :
    (∀ intrs, intrRegInit dev regs use = some intrs → ∀ intr ∈ intrs,
      intr.dynCtl.Found regs ∧ intr.rxItr.Found regs ∧ intr.txItr.Found regs) ↔
        ∀ off ∈ use.offsets dev, (regLookup regs off).Found regs := by
  unfold VectorUse.offsets
  rw [← getRegIntrVecs_eq]
  by_cases fine : use.alloc = true ∧ use.vecIdxs.length ≤ (getRegIntrVecs use.chunks).length
  · have done := (@intrRegInit_eq_some dev regs use _).mpr ⟨fine.1, fine.2, rfl⟩
    rw [if_pos fine, done]
    simp only [Option.some.injEq, forall_eq', List.forall_mem_map, VecRegs.intr_found_iff,
      List.mem_flatMap]
    exact ⟨fun all off ⟨idx, member, mine⟩ => all idx member off mine,
      fun all idx member off mine => all off ⟨idx, member, mine⟩⟩
  · rw [if_neg fine]
    refine iff_of_true ?_ fun off member => absurd member List.not_mem_nil
    intro intrs done
    obtain ⟨alloc, enough, _⟩ := intrRegInit_eq_some.mp done
    exact absurd ⟨alloc, enough⟩ fine

theorem fill_vals (type : BitVec 32) (room : Nat) (chunks : List (QueueChunk × Nat)) :
    (regWalk.fill type room chunks).map ChunkEntry.val =
      (((chunks.map Prod.fst).filter fun c => c.type = type).flatMap fun c =>
        (List.range (c.numQueues.toNat % 65536)).map fun pos =>
          BitVec.ofNat 32 (c.qtailRegStart.toNat + pos * c.qtailRegSpacing.toNat)).take room := by
  induction chunks generalizing room with
  | nil => simp [ChunkWalk.fill, fillArray]
  | cons head chunks ih =>
      obtain ⟨c, i⟩ := head
      by_cases typed : c.type = type
      · rw [ChunkWalk.fill_typed typed, List.map_append, ih, List.map_cons,
          List.filter_cons_of_pos (by simpa using typed), List.flatMap_cons, List.take_append,
          ← List.map_take, List.take_range, List.map_map, List.length_map, List.length_range,
          Nat.min_comm]
        congr 2
        change room - min room (c.numQueues.toNat % 65536) = room - c.numQueues.toNat % 65536
        omega
      · rw [ChunkWalk.fill_other typed, ih, List.map_cons,
          List.filter_cons_of_neg (by simpa using typed)]

theorem getQReg_vals (type : BitVec 32) (chunks : List QueueChunk) :
    (getQReg maxQids type chunks).map ChunkEntry.val = tailsGiven type chunks := by
  rw [getQReg_eq, fill_vals, zipIdx_reverse_fst]
  rfl

theorem getQReg_length (type : BitVec 32) (chunks : List QueueChunk) :
    (getQReg maxQids type chunks).length = (tailsGiven type chunks).length := by
  rw [← getQReg_vals, List.length_map]

theorem filterMap_range_getElem {α : Type*} (l : List α) (n : Nat) :
    (List.range n).filterMap (l[·]?) = l.take n := by
  induction n with
  | zero => rfl
  | succ n ih =>
      rw [List.range_succ, List.filterMap_append, ih, List.take_add_one]
      cases item : l[n]? <;> simp [item]

/-- The queues of the groups get the first entries there are. -/
theorem tailLookups_eq (regs : List MmioReg) (groups : List Nat) (type : BitVec 32)
    (chunks : List QueueChunk) :
    tailLookups regs (assignGroups groups (getQReg maxQids type chunks)) =
      ((tailsGiven type chunks).take groups.sum).map (regLookup regs) := by
  rw [assignGroups_eq, tailLookups, List.filterMap_map, ← getQReg_vals, ← List.map_take,
    ← filterMap_range_getElem, List.map_map, List.map_filterMap]
  rfl

theorem initKind_enough {type : BitVec 32} {num : Nat} {groups : List Nat}
    {chunks : List QueueChunk} (enough : num ≤ (tailsGiven type chunks).length) :
    initKind (getQReg maxQids type chunks) num groups =
      some (assignGroups groups (getQReg maxQids type chunks)) := by
  unfold initKind
  rw [getQReg_length, if_neg (not_lt.mpr enough)]

theorem initKind_short {type : BitVec 32} {num : Nat} {groups : List Nat}
    {chunks : List QueueChunk} (short : ¬ num ≤ (tailsGiven type chunks).length) :
    initKind (getQReg maxQids type chunks) num groups = none := by
  unfold initKind
  rw [getQReg_length, if_pos (not_le.mp short)]

theorem queueRegLookups_eq (regs : List MmioReg) (use : TailUse) :
    queueRegLookups regs use = use.offsets.map (regLookup regs) := by
  have other : (if use.rsrc.rxSplit then
        initKind (getQReg maxQids 3 use.chunks) use.rsrc.numBufq use.rsrc.bufqGroups
      else initKind (getQReg maxQids 1 use.chunks) use.rsrc.numRxq use.rsrc.rxqGroups) =
        initKind (getQReg maxQids use.rsrc.otherTail.type use.chunks) use.rsrc.otherTail.num
          use.rsrc.otherTail.groups := by
    unfold QVecRsrc.otherTail
    cases use.rsrc.rxSplit <;> rfl
  unfold queueRegLookups TailUse.offsets
  dsimp only
  rw [other]
  cases use.alloc with
  | false => rfl
  | true =>
      rw [if_neg (show ¬ (!true) = true from Bool.false_ne_true)]
      by_cases tx : use.rsrc.numTxq ≤ (tailsGiven 0 use.chunks).length
      · rw [initKind_enough tx, if_pos ⟨rfl, tx⟩, List.map_append, ← tailLookups_eq]
        by_cases rx : use.rsrc.otherTail.num ≤
            (tailsGiven use.rsrc.otherTail.type use.chunks).length
        · rw [initKind_enough rx, if_pos rx, ← tailLookups_eq]
        · rw [initKind_short rx, if_neg rx]
          rfl
      · rw [initKind_short tx, if_neg (fun both => tx both.2)]
        rfl

/-- Where `idpf_queue_reg_init` succeeds these are the registers that it gave the queues. -/
theorem queueRegLookups_of_init {r : QVecRsrc} {chunks : List QueueChunk} {t : QueueTable}
    (done : queueRegInit r chunks = some t) (regs : List MmioReg) :
    queueRegLookups regs ⟨true, r, chunks⟩ =
      tailLookups regs t.tx ++ (tailLookups regs t.rx ++ tailLookups regs t.buf) := by
  unfold queueRegInit at done
  obtain ⟨tx, txDone, done⟩ := Option.bind_eq_some_iff.mp done
  unfold queueRegLookups
  dsimp only
  rw [txDone]
  cases split : r.rxSplit with
  | true =>
      rw [if_pos split] at done
      obtain ⟨buf, bufDone, rest⟩ := Option.bind_eq_some_iff.mp done
      obtain rfl := Option.some.inj rest
      rw [if_pos rfl, bufDone]
      rfl
  | false =>
      rw [if_neg (by rw [split]; exact Bool.false_ne_true)] at done
      obtain ⟨rx, rxDone, rest⟩ := Option.bind_eq_some_iff.mp done
      obtain rfl := Option.some.inj rest
      rw [if_neg Bool.false_ne_true, rxDone]
      exact congrArg (tailLookups regs tx ++ ·) (List.append_nil _).symm

/-! When the registers are found -/

/-- A register is found if and only if a region holds it. -/
theorem regLookup_found_iff {ioremap : BitVec 64 → BitVec 64 → BitVec 64} {barStart : BitVec 64}
    {layout regs : List MmioReg} (mapped : mapLanMmioRegs ioremap barStart layout = some regs)
    (off : BitVec 32) :
    (regLookup regs off).Found regs ↔ ∃ region ∈ layout, region.Holds off.toNat := by
  obtain ⟨places, addresses⟩ := mapLanMmioRegs_spec mapped
  have same : (off.setWidth 64).toNat = off.toNat := by
    rw [BitVec.toNat_setWidth]
    exact Nat.mod_eq_of_lt (off.isLt.trans (by decide))
  rw [← places]
  constructor
  · rintro ⟨region, member, -, holds, -⟩
    exact ⟨region, member, same ▸ holds⟩
  · intro held
    obtain ⟨addr, found⟩ := Option.isSome_iff_exists.mp
      ((getRegAddr_isSome_iff regs (off.setWidth 64)).mpr (same.symm ▸ held))
    obtain ⟨region, member, holds, rfl⟩ := getRegAddr_eq_some found
    refine ⟨region, member, addresses region member ?_, holds, found⟩
    intro empty
    have zero : (0 : BitVec 64).toNat = 0 := rfl
    have less := holds.1
    have more := holds.2
    rw [empty, zero] at more
    omega

theorem RegionEnv.layout_eq_none_iff (env : RegionEnv) :
    env.layout = none ↔ env.refused = true := by
  unfold layout refused sendGetLanMemoryRegions
  cases env.fallback <;> cases env.alloc <;> cases env.reply <;> simp
  omega

/-- The spans are the regions of the layout. -/
theorem RegionEnv.spans_eq {env : RegionEnv} {layout : List MmioReg}
    (done : env.layout = some layout)
    (reaches : env.fallback = true → env.dev.windowsEnd ≤ env.barLen.toNat) :
    env.spans = layout.map fun r => (r.addrStart.toNat, r.addrLen.toNat) := by
  obtain ⟨first, between, second, small⟩ := env.dev.windows_ordered
  unfold RegionEnv.layout at done
  unfold spans
  split at done
  next fallback =>
    have enough := reaches fallback
    split at done
    · obtain rfl := Option.some.inj done
      have start₁ := toNat_succ (a := env.dev.windows.1.stop) (by omega)
      have start₂ := toNat_succ small
      unfold RegDevice.windowsEnd at enough
      rw [if_pos fallback]
      simp only [calcRemainingMmioRegs, List.map_cons, List.map_nil, start₁, start₂,
        RegDevice.windowsEnd]
      rw [BitVec.toNat_sub_of_le (BitVec.le_def.mpr (start₁ ▸ between)), start₁,
        BitVec.toNat_sub_of_le (BitVec.le_def.mpr (start₂ ▸ enough)), start₂]
      rfl
    · cases done
  next own =>
    rw [if_neg own]
    unfold sendGetLanMemoryRegions at done
    cases there : env.reply with
    | none =>
        rw [there] at done
        cases done
    | some reply =>
        rw [there] at done
        dsimp only at done ⊢
        split at done
        · cases done
        · split at done
          · cases done
          · split at done
            · cases done
            · obtain rfl := Option.some.inj done
              rw [List.map_map]
              rfl

theorem RegionEnv.lanRegs_eq_none_iff {env : RegionEnv} {layout : List MmioReg}
    (done : env.layout = some layout)
    (reaches : env.fallback = true → env.dev.windowsEnd ≤ env.barLen.toNat) :
    env.lanRegs = none ↔ env.unmapped = true := by
  have zero : ∀ a : BitVec 64, a.toNat = 0 ↔ a = 0 := fun a => BitVec.toNat_inj (y := 0)
  unfold lanRegs unmapped
  rw [done, Option.bind_some, ← Option.not_isSome_iff_eq_none, mapLanMmioRegs_isSome_iff,
    spans_eq done reaches, List.any_map, List.any_eq_true]
  simp only [not_forall, not_not, Function.comp_apply, Bool.and_eq_true, decide_eq_true_eq,
    BitVec.ofNat_toNat, BitVec.setWidth_eq, ne_eq, zero, exists_prop]

theorem RegionEnv.found_iff {env : RegionEnv} {regs : List MmioReg} (done : env.lanRegs = some regs)
    (reaches : env.fallback = true → env.dev.windowsEnd ≤ env.barLen.toNat) (off : BitVec 32) :
    (regLookup regs off).Found regs ↔
      ∃ span ∈ env.spans, span.1 ≤ off.toNat ∧ off.toNat + 4 ≤ span.1 + span.2 := by
  obtain ⟨layout, laid, mapped⟩ := Option.bind_eq_some_iff.mp done
  rw [regLookup_found_iff mapped, spans_eq laid reaches]
  simp only [List.mem_map, exists_exists_and_eq_and]
  rfl

/-- All calls find their registers if and only if every offset is found. -/
theorem lookups_found_iff {env : RegionEnv} {use : RegUse} {regs : List MmioReg} :
    ((mbIntrRegInit env.dev regs use.mailboxDynCtl).dynCtl.Found regs ∧
      (∀ intrs, intrRegInit env.dev regs use.vectors = some intrs → ∀ intr ∈ intrs,
        intr.dynCtl.Found regs ∧ intr.rxItr.Found regs ∧ intr.txItr.Found regs) ∧
      ∀ l ∈ queueRegLookups regs use.tails, l.Found regs) ↔
        ∀ off ∈ use.offsets env.dev, (regLookup regs off).Found regs := by
  rw [intrRegInit_found_iff, queueRegLookups_eq, List.forall_mem_map, RegUse.offsets,
    List.forall_mem_cons, List.forall_mem_append]
  rfl

theorem RegionEnv.layout_fallback {env : RegionEnv} {layout : List MmioReg}
    (laid : env.layout = some layout) (fallback : env.fallback = true) :
    layout = calcRemainingMmioRegs env.dev env.barLen := by
  unfold RegionEnv.layout at laid
  rw [if_pos fallback] at laid
  split at laid
  · exact (Option.some.inj laid).symm
  · cases laid

/-- For every reply or fallback and all that the device names, the regions and the calls are as they
have to be if and only if the BAR reaches to the end of the windows where the fallback is taken and
the offsets lie in the regions, or the regions cannot be had. -/
theorem regs_sound_iff (env : RegionEnv) (use : RegUse) : RegsSound env use ↔ use.Within env := by
  unfold RegUse.Within
  rw [← env.layout_eq_none_iff]
  constructor
  · intro sound
    rw [or_iff_not_imp_left]
    intro refused
    obtain ⟨layout, laid⟩ := Option.ne_none_iff_exists'.mp refused
    have reaches : env.fallback = true → env.dev.windowsEnd ≤ env.barLen.toNat := by
      intro fallback
      have kept := sound.layout fallback layout laid
      rw [RegionEnv.layout_fallback laid fallback] at kept
      exact (fallbackSound_iff env.dev env.barLen).mp kept
    refine ⟨reaches, ?_⟩
    rw [← RegionEnv.lanRegs_eq_none_iff laid reaches, or_iff_not_imp_left]
    intro there
    obtain ⟨regs, done⟩ := Option.ne_none_iff_exists'.mp there
    simp only [← RegionEnv.found_iff done reaches]
    exact lookups_found_iff.mp
      ⟨sound.mailbox regs done, sound.vectors regs done, sound.tails regs done⟩
  · intro within
    have found : ∀ regs, env.lanRegs = some regs →
        ∀ off ∈ use.offsets env.dev, (regLookup regs off).Found regs := by
      intro regs done
      obtain ⟨layout, laid, -⟩ := Option.bind_eq_some_iff.mp done
      obtain ⟨reaches, offsets⟩ := within.resolve_left (laid ▸ Option.some_ne_none layout)
      rw [← RegionEnv.lanRegs_eq_none_iff laid reaches] at offsets
      simp only [RegionEnv.found_iff done reaches]
      exact offsets.resolve_left (done ▸ Option.some_ne_none regs)
    constructor
    · intro fallback layout laid
      obtain ⟨reaches, -⟩ := within.resolve_left (laid ▸ Option.some_ne_none layout)
      rw [RegionEnv.layout_fallback laid fallback]
      exact (fallbackSound_iff env.dev env.barLen).mpr (reaches fallback)
    · exact fun regs done => (lookups_found_iff.mpr (found regs done)).1
    · exact fun regs done => (lookups_found_iff.mpr (found regs done)).2.1
    · exact fun regs done => (lookups_found_iff.mpr (found regs done)).2.2

/-- The whole BAR of 256 MB is mapped but for the windows, and the capabilities name a register at
its end for the mailbox vector: nothing is compared before `idpf_get_reg_addr` runs into BUG. -/
theorem mailbox_dyn_ctl_runs_into_bug : ¬ ∀ env use, RegsSound env use := by
  intro claim
  obtain ⟨regs, done, bug⟩ : ∃ regs,
      (⟨.pf, false, 0xE0000000, 0x10000000, none, true, fun start _ => start⟩ :
        RegionEnv).lanRegs = some regs ∧ getRegAddr regs 0x10000000 = none :=
    ⟨_, rfl, by decide⟩
  obtain ⟨region, -, -, -, found⟩ := (claim _ ⟨0x10000000, ⟨true, 1, fun _ => ⟨0, 0, 0⟩, [], []⟩,
    ⟨true, QVecRsrc.zero true true, []⟩⟩).mailbox regs done
  exact absurd (found.symm.trans bug) (Option.some_ne_none _)

end Idpf
