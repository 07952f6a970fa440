import Idpf.Tx.Reservation

/-! How `idpf_tx_splitq_map` cuts a buffer into descriptors, in the 64-bit arithmetic of addresses
and the 32-bit arithmetic of sizes. -/
namespace Idpf

/-- An address and a size for a descriptor. -/
structure DmaChunk where
  dma : BitVec 64
  size : BitVec 32
  deriving DecidableEq

/-- `max_data` for the first descriptor of a buffer. -/
def maxDataAt (dma : BitVec 64) : BitVec 32 := 12288#32 + (-dma &&& 4095#64).setWidth 32

/-- The loop over one buffer, down to its last descriptor. Each turn takes 12K or more, so that the
size is fuel enough. -/
def cutLoop : Nat → BitVec 32 → BitVec 64 → BitVec 32 → List DmaChunk
  | 0, _, dma, size => [⟨dma, size⟩]
  | fuel + 1, maxData, dma, size =>
    if 16383#32 < size then
      ⟨dma, maxData⟩ :: cutLoop fuel 12288#32 (dma + maxData.setWidth 64) (size - maxData)
    else [⟨dma, size⟩]

def cutBuffer (dma : BitVec 64) (size : BitVec 32) : List DmaChunk :=
  cutLoop size.toNat (maxDataAt dma) dma size

/-- `idpf_size_to_txd_count` -/
def sizeToTxdCount32 (size : BitVec 32) : BitVec 32 := (size + 12287#32) / 12288#32

def Follows : BitVec 64 → List DmaChunk → Prop
  | _, [] => True
  | dma, c :: rest => c.dma = dma ∧ Follows (dma + c.size.setWidth 64) rest

/-- The pieces cover the buffer with no gap, none is empty or longer than a descriptor allows, all
but the first are aligned, and there are as many as the caller counts. -/
structure CutExact (dma : BitVec 64) (size : BitVec 32) (cs : List DmaChunk) : Prop where
  follows : Follows dma cs
  filled : ∀ c ∈ cs, c.size ≠ 0
  total : (cs.map fun c => c.size.toNat).sum = size.toNat
  small : ∀ c ∈ cs, c.size.toNat ≤ 16383
  aligned : ∀ c ∈ cs.tail, c.dma.toNat % 4096 = 0
  reserved : 16384 ≤ size.toNat → cs.length ≤ (sizeToTxdCount32 size).toNat
  single : size.toNat < 16384 → cs.length = 1

variable {fuel : Nat} {maxData size : BitVec 32} {dma : BitVec 64}

theorem maxDataAt_toNat (dma : BitVec 64) : (maxDataAt dma).toNat = firstMaxData dma.toNat := by
  have below := dma.isLt
  have low : (-dma &&& 4095#64).toNat = (4096 - dma.toNat % 4096) % 4096 := by
    rw [BitVec.toNat_and, BitVec.toNat_neg]
    have mask : (4095#64).toNat = 2 ^ 12 - 1 := rfl
    rw [mask, Nat.and_two_pow_sub_one_eq_mod]
    omega
  unfold maxDataAt firstMaxData
  rw [BitVec.toNat_add, BitVec.toNat_setWidth, low]
  simp only [BitVec.toNat_ofNat, txMaxDescDataAligned, txMaxReadReqSize]
  omega

theorem cutLoop_done (small : size.toNat ≤ 16383) :
    cutLoop fuel maxData dma size = [⟨dma, size⟩] := by
  cases fuel with
  | zero => rfl
  | succ fuel =>
      unfold cutLoop
      rw [if_neg]
      intro large
      exact absurd (BitVec.lt_def.mp large) (Nat.not_lt.mpr small)

theorem cutLoop_cut (large : 16383 < size.toNat) :
    cutLoop (fuel + 1) maxData dma size =
      ⟨dma, maxData⟩ :: cutLoop fuel 12288#32 (dma + maxData.setWidth 64) (size - maxData) := by
  have test : 16383#32 < size := BitVec.lt_def.mpr large
  exact if_pos test

theorem sub_toNat (large : 16383 < size.toNat) (high : maxData.toNat ≤ 16383) :
    (size - maxData).toNat = size.toNat - maxData.toNat := by
  apply BitVec.toNat_sub_of_le
  apply BitVec.le_def.mpr
  omega

/-- The pieces of a buffer that is not empty: no gap, none empty or too long. -/
structure Cut (dma : BitVec 64) (size : BitVec 32) (cs : List DmaChunk) : Prop where
  follows : Follows dma cs
  filled : ∀ c ∈ cs, c.size ≠ 0
  total : (cs.map fun c => c.size.toNat).sum = size.toNat
  small : ∀ c ∈ cs, c.size.toNat ≤ 16383

theorem Cut.last (some : size ≠ 0) (small : size.toNat ≤ 16383) : Cut dma size [⟨dma, size⟩] := by
  constructor
  · exact ⟨rfl, trivial⟩
  · intro c member
    exact List.mem_singleton.mp member ▸ some
  · simp only [List.map_cons, List.map_nil, List.sum_cons, List.sum_nil, Nat.add_zero]
  · intro c member
    exact List.mem_singleton.mp member ▸ small

theorem Cut.cons {cs : List DmaChunk} (large : 16383 < size.toNat) (low : 0 < maxData.toNat)
    (high : maxData.toNat ≤ 16383)
    (rest : Cut (dma + maxData.setWidth 64) (size - maxData) cs) :
    Cut dma size (⟨dma, maxData⟩ :: cs) := by
  constructor
  · exact ⟨rfl, rest.follows⟩
  · intro c member
    cases List.mem_cons.mp member with
    | inl same =>
        intro zero
        rw [same] at zero
        have none : maxData.toNat = 0 := congrArg BitVec.toNat zero
        exact absurd none low.ne'
    | inr later => exact rest.filled c later
  · rw [List.map_cons, List.sum_cons, rest.total, sub_toNat large high]
    change maxData.toNat + (size.toNat - maxData.toNat) = size.toNat
    omega
  · intro c member
    cases List.mem_cons.mp member with
    | inl same => exact same ▸ high
    | inr later => exact rest.small c later

theorem cutLoop_cutsUp (enough : size.toNat ≤ fuel) (low : 12288 ≤ maxData.toNat)
    (high : maxData.toNat ≤ 16383) (some : size ≠ 0) :
    Cut dma size (cutLoop fuel maxData dma size) := by
  induction fuel generalizing maxData dma size with
  | zero =>
      have zero : size.toNat = 0 := Nat.le_zero.mp enough
      exact absurd (BitVec.eq_of_toNat_eq zero) some
  | succ fuel ih =>
      by_cases large : 16383 < size.toNat
      · have left := sub_toNat large high
        rw [cutLoop_cut large]
        apply Cut.cons large (by omega) high
        apply ih
        · rw [left]
          omega
        · exact Nat.le_refl 12288
        · decide
        · intro zero
          have nothing : (size - maxData).toNat = 0 := congrArg BitVec.toNat zero
          omega
      · rw [cutLoop_done (Nat.not_lt.mp large)]
        exact Cut.last some (Nat.not_lt.mp large)

/-- Pieces of 12K keep to the pages. -/
theorem cutLoop_aligned (aligned : dma.toNat % 4096 = 0) :
    ∀ c ∈ cutLoop fuel 12288#32 dma size, c.dma.toNat % 4096 = 0 := by
  induction fuel generalizing dma size with
  | zero =>
      intro c member
      exact List.mem_singleton.mp member ▸ aligned
  | succ fuel ih =>
      intro c member
      by_cases large : 16383 < size.toNat
      · rw [cutLoop_cut large] at member
        cases List.mem_cons.mp member with
        | inl same => exact same ▸ aligned
        | inr later =>
            apply ih _ c later
            rw [BitVec.toNat_add, BitVec.toNat_setWidth]
            simp only [BitVec.toNat_ofNat]
            omega
      · rw [cutLoop_done (Nat.not_lt.mp large)] at member
        exact List.mem_singleton.mp member ▸ aligned

theorem maxDataAt_aligned (dma : BitVec 64) :
    (dma + (maxDataAt dma).setWidth 64).toNat % 4096 = 0 := by
  have wide := maxDataAt_toNat dma
  rw [BitVec.toNat_add, BitVec.toNat_setWidth, wide]
  simp only [firstMaxData, txMaxDescDataAligned, txMaxReadReqSize]
  omega

/-- There are as many pieces as the model of the transmit path counts. -/
theorem cutLoop_length (high : maxData.toNat ≤ 16383) (addr : Nat) :
    (cutLoop fuel maxData dma size).length =
      (bufChunks fuel maxData.toNat addr size.toNat).1.length + 1 := by
  induction fuel generalizing maxData dma size addr with
  | zero => rfl
  | succ fuel ih =>
      unfold bufChunks
      by_cases large : 16383 < size.toNat
      · have next : (cutLoop fuel 12288#32 (dma + maxData.setWidth 64) (size - maxData)).length =
            (bufChunks fuel 12288 (addr + maxData.toNat) (size - maxData).toNat).1.length + 1 :=
          ih (by decide) (addr + maxData.toNat)
        rw [sub_toNat large high] at next
        have test : size.toNat > txMaxDescData := large
        rw [cutLoop_cut large, if_pos test, List.length_cons, next]
        rfl
      · have test : ¬ size.toNat > txMaxDescData := large
        rw [cutLoop_done (Nat.not_lt.mp large), if_neg test]
        rfl

theorem cutBuffer_length (dma : BitVec 64) (size : BitVec 32) :
    (cutBuffer dma size).length = bufDescs dma.toNat size.toNat := by
  have wide := maxDataAt_toNat dma
  have high : (maxDataAt dma).toNat ≤ 16383 := by
    rw [wide]
    simp only [firstMaxData, txMaxDescDataAligned, txMaxReadReqSize]
    omega
  unfold cutBuffer
  rw [cutLoop_length high dma.toNat, wide]
  exact bufChunks_length dma.toNat size.toNat

theorem sizeToTxdCount32_toNat (size : BitVec 32) :
    (sizeToTxdCount32 size).toNat = (size.toNat + 12287) % 2 ^ 32 / 12288 := by
  unfold sizeToTxdCount32
  rw [BitVec.toNat_udiv, BitVec.toNat_add]
  rfl

theorem cutBuffer_tail (dma : BitVec 64) (size : BitVec 32) :
    ∀ c ∈ (cutBuffer dma size).tail, c.dma.toNat % 4096 = 0 := by
  intro c member
  unfold cutBuffer at member
  by_cases large : 16383 < size.toNat
  · obtain ⟨fuel, more⟩ := Nat.exists_eq_succ_of_ne_zero (Nat.ne_of_gt (Nat.zero_lt_of_lt large))
    rw [more, cutLoop_cut large] at member
    exact cutLoop_aligned (maxDataAt_aligned dma) c member
  · rw [cutLoop_done (Nat.not_lt.mp large)] at member
    exact absurd member List.not_mem_nil

/-- The pieces are exact for the sizes that have any octets and do not overflow the count. -/
theorem cut_exact_iff (dma : BitVec 64) (size : BitVec 32) :
    CutExact dma size (cutBuffer dma size) ↔ size ≠ 0 ∧ size.toNat < 2 ^ 32 - 12287 := by
  have length := cutBuffer_length dma size
  have count := sizeToTxdCount32_toNat size
  constructor
  · intro exact
    constructor
    · intro zero
      have one : cutBuffer dma size = [⟨dma, size⟩] := by
        apply cutLoop_done
        rw [zero]
        exact Nat.zero_le _
      exact exact.filled ⟨dma, size⟩ (one ▸ List.mem_singleton_self _) zero
    · by_contra beyond
      have wide := size.isLt
      have enough := exact.reserved (by omega)
      have some := bufDescs_pos dma.toNat size.toNat
      rw [count] at enough
      omega
  · intro ⟨filled, fits⟩
    have wide := maxDataAt_toNat dma
    have low : 12288 ≤ (maxDataAt dma).toNat := by
      rw [wide]
      exact Nat.le_add_right _ _
    have high : (maxDataAt dma).toNat ≤ 16383 := by
      rw [wide]
      simp only [firstMaxData, txMaxDescDataAligned, txMaxReadReqSize]
      omega
    have cut : Cut dma size (cutBuffer dma size) :=
      cutLoop_cutsUp (Nat.le_refl size.toNat) low high filled
    constructor
    · exact cut.follows
    · exact cut.filled
    · exact cut.total
    · exact cut.small
    · exact cutBuffer_tail dma size
    · intro large
      have enough := bufDescs_le dma.toNat size.toNat
      rw [fragTxdCount, if_pos large] at enough
      rw [length, count, Nat.mod_eq_of_lt (by omega)]
      exact enough
    · intro small
      rw [length]
      unfold bufDescs
      exact if_pos (Nat.le_of_lt_succ small)

/-- The linear part of an skb may be empty: it gets a descriptor without octets. -/
theorem empty_buffer_cut : ¬ ∀ (dma : BitVec 64) (size : BitVec 32),
    CutExact dma size (cutBuffer dma size) :=
  fun claim => (claim 0 0).filled ⟨0, 0⟩ List.mem_cons_self rfl

end Idpf
