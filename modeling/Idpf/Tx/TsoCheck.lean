import Idpf.Tx.Frame
import Idpf.General.Pieces

/-! `idpf_chk_tso_segment` and `idpf_features_check`, which leave a packet to the segmentation of
the device or give it back to the stack, and the buffers that a segment of the packet takes once
`idpf_tx_splitq_map` has cut it. -/
namespace Idpf
open General

/-- A fragment in its page. The page is mapped at the address `page`, counted in 4K. -/
structure SkbFrag where
  page : Nat
  off : Nat
  size : Nat
  deriving DecidableEq, Repr

/-- The address `skb_frag_dma_map` gives: a mapping keeps the offset in the page. -/
def SkbFrag.dma (f : SkbFrag) : Nat := txMaxReadReqSize * f.page + f.off

/-- A packet for TSO. The headers lie at the front of the linear part, which is mapped at `dma`. -/
structure TsoSkb where
  dma : Nat
  headlen : Nat
  hdrLen : Nat
  frags : List SkbFrag
  gsoSize : BitVec 16
  hdr_pos : 0 < hdrLen
  hdr_le : hdrLen ≤ headlen
  hdr_first : hdrLen ≤ txMaxDescDataAligned
  /-- `nr_frags` is an `u8`. -/
  few : frags.length < 256
  /-- No sum of sizes overflows an `int`. -/
  short : headlen + (frags.map SkbFrag.size).sum < 2 ^ 31
  /-- There is more than one segment. -/
  long : hdrLen + gsoSize.toNat < headlen + (frags.map SkbFrag.size).sum

section Check

/-- The `do`..`while` over a stale fragment of more than one descriptor: what it leaves of the sum
and of the size. A turn takes off 12K, so that the size is fuel enough. -/
def staleLoop : Nat → Int → Nat → Int × Nat
  | 0, sum, size => (sum, size)
  | fuel + 1, sum, size =>
    if size - txMaxDescDataAligned > txMaxDescData then
      staleLoop fuel (sum - txMaxDescDataAligned) (size - txMaxDescDataAligned)
    else (sum - txMaxDescDataAligned, size - txMaxDescDataAligned)

/-- The bytes of a stale fragment that lie before its last descriptor leave the sum. -/
def staleCut (sum : Int) (stale : SkbFrag) : Int × Nat :=
  if stale.size > txMaxDescData then
    let alignPad := (txMaxReadReqSize - stale.off % txMaxReadReqSize) % txMaxReadReqSize
    staleLoop stale.size (sum - alignPad) (stale.size - alignPad)
  else (sum, stale.size)

/-- The walk of `idpf_chk_tso_segment`, with `frag` and `stale` as indexes. There is no result where
it reads an entry that holds no fragment. -/
def chkWalk (frags : List SkbFrag) : Nat → Nat → Nat → Int → Option Bool
  | nrFrags, frag, stale, sum =>
    (frags[stale]?).bind fun old => (frags[frag]?).bind fun new =>
      let cut := staleCut (sum + new.size) old
      if cut.1 < 0 then some true
      else match nrFrags with
        | 0 => some false
        | nrFrags + 1 => chkWalk frags nrFrags (frag + 1) (stale + 1) (cut.1 - cut.2)

def firstFive : List SkbFrag → Option Int
  | f₀ :: f₁ :: f₂ :: f₃ :: f₄ :: _ => some (f₀.size + f₁.size + f₂.size + f₃.size + f₄.size)
  | _ => none

/-- `idpf_chk_tso_segment`. The comparison and the subtraction are those of `unsigned int`. -/
def chkTsoSegment (skb : TsoSkb) (maxBufs : BitVec 32) : Option Bool :=
  let nrFrags := BitVec.ofNat 32 skb.frags.length
  if nrFrags < maxBufs - 1 then some false
  else (firstFive skb.frags).bind fun five =>
    chkWalk skb.frags (nrFrags - (maxBufs - 2)).toNat 5 0 (1 - skb.gsoSize.toNat + five)

end Check

section Cut

def descSizes (addr size : Nat) : List Nat :=
  (bufChunks size (firstMaxData addr) addr size).1.map Prod.snd ++
    [(bufChunks size (firstMaxData addr) addr size).2.2]

def lastSize (addr size : Nat) : Nat := (bufChunks size (firstMaxData addr) addr size).2.2

def SkbFrag.descs (f : SkbFrag) : List Nat := descSizes f.dma f.size
def SkbFrag.last (f : SkbFrag) : Nat := lastSize f.dma f.size

def fragDescs (fs : List SkbFrag) : List Nat := (fs.map SkbFrag.descs).flatten

/-- The buffers of a packet in the order of the ring. -/
def TsoSkb.bufs (skb : TsoSkb) : List Nat :=
  descSizes skb.dma skb.headlen ++ fragDescs skb.frags

/-- The buffers the device reads for segment `k`: the header and the bytes of the segment are
counted separately. -/
def TsoSkb.segmentBufs (skb : TsoSkb) (k : Nat) : Nat :=
  touched skb.bufs 0 skb.hdrLen +
    touched skb.bufs (skb.hdrLen + k * skb.gsoSize.toNat) skb.gsoSize.toNat

structure CheckSound (skb : TsoSkb) (maxBufs : BitVec 32) : Prop where
  inside : chkTsoSegment skb maxBufs ≠ none
  fits : chkTsoSegment skb maxBufs = some false → ∀ k, skb.segmentBufs k ≤ maxBufs.toNat

theorem bufChunks_done {fuel maxData addr size : Nat} (small : size ≤ 16383) :
    bufChunks fuel maxData addr size = ([], addr, size) := by
  cases fuel with
  | zero => rfl
  | succ fuel =>
      have fits : ¬ size > txMaxDescData := Nat.not_lt.mpr small
      exact if_neg fits

theorem bufChunks_cut {maxData addr size : Nat} (fuel : Nat) (large : 16383 < size) :
    bufChunks (fuel + 1) maxData addr size =
      ((addr, maxData) :: (bufChunks fuel 12288 (addr + maxData) (size - maxData)).1,
        (bufChunks fuel 12288 (addr + maxData) (size - maxData)).2) := by
  have above : size > txMaxDescData := large
  exact if_pos above

theorem bufChunks_coarse {fuel maxData addr size : Nat} (wide : 12288 ≤ maxData) :
    Coarse 12288 ((bufChunks fuel maxData addr size).1.map Prod.snd ++
      [(bufChunks fuel maxData addr size).2.2]) (bufChunks fuel maxData addr size).2.2 := by
  induction fuel generalizing maxData addr size with
  | zero => exact Coarse.last size
  | succ fuel ih =>
      by_cases large : 16383 < size
      · rw [bufChunks_cut fuel large]
        exact Coarse.cons wide (ih (Nat.le_refl 12288))
      · rw [bufChunks_done (Nat.not_lt.mp large)]
        exact Coarse.last size

theorem bufChunks_sum {fuel maxData addr size : Nat} (high : maxData ≤ 16383) :
    ((bufChunks fuel maxData addr size).1.map Prod.snd ++
      [(bufChunks fuel maxData addr size).2.2]).sum = size := by
  induction fuel generalizing maxData addr size with
  | zero => exact List.sum_singleton
  | succ fuel ih =>
      by_cases large : 16383 < size
      · have rest := @ih 12288 (addr + maxData) (size - maxData) (by decide)
        rw [bufChunks_cut fuel large, List.map_cons, List.cons_append, List.sum_cons, rest]
        exact Nat.add_sub_of_le (high.trans large.le)
      · rw [bufChunks_done (Nat.not_lt.mp large)]
        exact List.sum_singleton

theorem firstMaxData_bounds (addr : Nat) :
    12288 ≤ firstMaxData addr ∧ firstMaxData addr ≤ 16383 := by
  simp only [firstMaxData, txMaxDescDataAligned, txMaxReadReqSize]
  omega

theorem descSizes_coarse (addr size : Nat) :
    Coarse 12288 (descSizes addr size) (lastSize addr size) :=
  bufChunks_coarse (firstMaxData_bounds addr).1

@[simp] theorem descSizes_sum (addr size : Nat) : (descSizes addr size).sum = size :=
  bufChunks_sum (firstMaxData_bounds addr).2

theorem descSizes_small {addr size : Nat} (small : size ≤ 16383) :
    descSizes addr size = [size] := by
  unfold descSizes
  rw [bufChunks_done small]
  rfl

theorem descSizes_large {addr size : Nat} (large : 16383 < size) :
    ∃ rest, descSizes addr size = firstMaxData addr :: rest ∧
      rest.sum = size - firstMaxData addr := by
  have total := descSizes_sum addr size
  obtain ⟨fuel, eq⟩ := Nat.exists_eq_succ_of_ne_zero (Nat.ne_of_gt (Nat.zero_lt_of_lt large))
  have cut : descSizes addr size = firstMaxData addr ::
      ((bufChunks fuel 12288 (addr + firstMaxData addr)
          (size - firstMaxData addr)).1.map Prod.snd ++
        [(bufChunks fuel 12288 (addr + firstMaxData addr) (size - firstMaxData addr)).2.2]) := by
    unfold descSizes
    rw [eq, bufChunks_cut fuel (eq ▸ large)]
    rfl
  rw [cut, List.sum_cons] at total
  exact ⟨_, cut, by omega⟩

theorem staleLoop_snd (fuel addr size : Nat) (sum : Int) :
    (staleLoop (fuel + 1) sum size).2 =
      (bufChunks fuel txMaxDescDataAligned addr (size - txMaxDescDataAligned)).2.2 := by
  induction fuel generalizing addr sum size with
  | zero =>
      have stop : staleLoop 1 sum size =
          (sum - txMaxDescDataAligned, size - txMaxDescDataAligned) := ite_self _
      rw [stop]
      rfl
  | succ fuel ih =>
      by_cases more : txMaxDescData < size - txMaxDescDataAligned
      · have turn : staleLoop (fuel + 1 + 1) sum size = staleLoop (fuel + 1)
            (sum - txMaxDescDataAligned) (size - txMaxDescDataAligned) := if_pos more
        rw [turn, ih (addr + txMaxDescDataAligned)]
        exact congrArg (fun r => r.2.2) (bufChunks_cut fuel more).symm
      · have stop : staleLoop (fuel + 1 + 1) sum size =
            (sum - txMaxDescDataAligned, size - txMaxDescDataAligned) := if_neg more
        rw [stop, bufChunks_done (Nat.not_lt.mp more)]

theorem staleLoop_fst (fuel : Nat) (sum : Int) {size : Nat} (enough : txMaxDescDataAligned ≤ size) :
    (staleLoop fuel sum size).1 = sum - (size - (staleLoop fuel sum size).2) := by
  induction fuel generalizing sum size with
  | zero => exact (Int.sub_zero sum).symm.trans (congrArg (sum - ·) (Int.sub_self _).symm)
  | succ fuel ih =>
      by_cases more : txMaxDescData < size - txMaxDescDataAligned
      · have turn : staleLoop (fuel + 1) sum size = staleLoop fuel
            (sum - txMaxDescDataAligned) (size - txMaxDescDataAligned) := if_pos more
        have rest : txMaxDescDataAligned ≤ size - txMaxDescDataAligned :=
          le_trans (by decide) more.le
        rw [turn, ih _ rest]
        omega
      · have stop : staleLoop (fuel + 1) sum size =
            (sum - txMaxDescDataAligned, size - txMaxDescDataAligned) := if_neg more
        rw [stop]
        dsimp only
        omega

/-- Where the address has the offset of the page the check and the map loop agree on the last piece
of a fragment. -/
theorem staleCut_snd (sum : Int) (f : SkbFrag) : (staleCut sum f).2 = f.last := by
  by_cases large : 16383 < f.size
  · have loop : staleCut sum f = staleLoop f.size (sum - ((4096 - f.off % 4096) % 4096 : Nat))
        (f.size - (4096 - f.off % 4096) % 4096) := if_pos large
    have same : f.dma % 4096 = f.off % 4096 := Nat.mul_add_mod 4096 f.page f.off
    have left : f.size - firstMaxData f.dma =
        f.size - (4096 - f.off % 4096) % 4096 - txMaxDescDataAligned := by
      simp only [firstMaxData, txMaxDescDataAligned, txMaxReadReqSize, same]
      omega
    obtain ⟨fuel, eq⟩ := Nat.exists_eq_succ_of_ne_zero (Nat.ne_of_gt (Nat.zero_lt_of_lt large))
    have last : f.last = (bufChunks fuel txMaxDescDataAligned (f.dma + firstMaxData f.dma)
        (f.size - firstMaxData f.dma)).2.2 := by
      unfold SkbFrag.last lastSize
      rw [eq, bufChunks_cut fuel (eq ▸ large)]
      rfl
    rw [last, left, ← staleLoop_snd, loop]
    exact congrArg (fun n => (staleLoop n _ _).2) eq
  · have whole : staleCut sum f = (sum, f.size) := if_neg large
    unfold SkbFrag.last lastSize
    rw [whole, bufChunks_done (Nat.not_lt.mp large)]

theorem staleCut_fst (sum : Int) (f : SkbFrag) :
    (staleCut sum f).1 = sum - (f.size - f.last) := by
  rw [← staleCut_snd sum f]
  by_cases large : 16383 < f.size
  · have loop : staleCut sum f = staleLoop f.size (sum - ((4096 - f.off % 4096) % 4096 : Nat))
        (f.size - (4096 - f.off % 4096) % 4096) := if_pos large
    have pad : (4096 - f.off % 4096) % 4096 < 4096 := Nat.mod_lt _ (by decide)
    have enough : txMaxDescDataAligned ≤ f.size - (4096 - f.off % 4096) % 4096 := by
      unfold txMaxDescDataAligned
      omega
    rw [loop, staleLoop_fst _ _ enough]
    omega
  · have whole : staleCut sum f = (sum, f.size) := if_neg large
    rw [whole]
    dsimp only
    omega

end Cut

section Window

/-- The test of the walk, where the stale fragment is the first of `fs`: one byte before what counts
of it and five fragments more make up a segment. -/
def WindowOk (g : Nat) : List SkbFrag → Prop
  | [] => False
  | f :: rest => g ≤ 1 + f.last + ((rest.take 5).map SkbFrag.size).sum

/-- The sizes of five fragments from `j` on. -/
def fiveFrom (frags : List SkbFrag) (j : Nat) : Nat :=
  (((frags.drop j).take 5).map SkbFrag.size).sum

variable {frags : List SkbFrag} {old new : SkbFrag} {g nr j : Nat} {sum : Int}

theorem drop_frag (here : frags[j]? = some old) : frags.drop j = old :: frags.drop (j + 1) := by
  obtain ⟨inside, same⟩ := List.getElem?_eq_some_iff.mp here
  rw [List.drop_eq_getElem_cons inside, same]

theorem fiveFrom_shift (here : frags[j]? = some old) (ahead : frags[j + 5]? = some new) :
    fiveFrom frags j + new.size = old.size + fiveFrom frags (j + 1) := by
  have fifth : (frags.drop (j + 1))[4]? = some new := by
    rw [List.getElem?_drop, ← ahead]
  unfold fiveFrom
  rw [drop_frag here, List.take_succ_cons, List.map_cons, List.sum_cons]
  have last : (frags.drop (j + 1)).take 5 = (frags.drop (j + 1)).take 4 ++ [new] := by
    rw [List.take_add_one, fifth]
    rfl
  rw [last, List.map_append, List.sum_append, List.map_singleton, List.sum_singleton, Nat.add_assoc]

/-- A turn of the walk. -/
theorem chkWalk_turn (here : frags[j]? = some old) (ahead : frags[j + 5]? = some new) :
    chkWalk frags nr (j + 5) j sum =
      if sum + new.size - (old.size - old.last) < 0 then some true
      else match nr with
        | 0 => some false
        | nr + 1 => chkWalk frags nr (j + 1 + 5) (j + 1) (sum + new.size - old.size) := by
  rw [chkWalk, here, Option.bind_some, ahead, Option.bind_some]
  simp only [staleCut_fst, staleCut_snd]
  congr 1
  cases nr with
  | zero => rfl
  | succ nr =>
      have left : sum + new.size - (old.size - old.last) - old.last =
          sum + new.size - old.size := by
        omega
      have next : j + 5 + 1 = j + 1 + 5 := by omega
      simp only [left, next]

theorem chkWalk_reads (done : chkWalk frags nr (j + 5) j sum ≠ none) :
    ∃ old new, frags[j]? = some old ∧ frags[j + 5]? = some new := by
  unfold chkWalk at done
  cases here : frags[j]? with
  | none => exact absurd (here ▸ rfl) done
  | some old =>
      cases ahead : frags[j + 5]? with
      | none =>
          rw [here, Option.bind_some, ahead] at done
          exact absurd rfl done
      | some new => exact ⟨old, new, rfl, rfl⟩

/-- A turn that finds nothing. -/
theorem chkWalk_test (start : sum = 1 - g + fiveFrom frags j)
    (passed : chkWalk frags nr (j + 5) j sum = some false) :
    WindowOk g (frags.drop j) ∧ ∀ more, nr = more + 1 →
      chkWalk frags more (j + 1 + 5) (j + 1) (1 - g + fiveFrom frags (j + 1)) = some false := by
  obtain ⟨old, new, here, ahead⟩ := chkWalk_reads (passed ▸ Option.some_ne_none false)
  have shift := fiveFrom_shift here ahead
  rw [chkWalk_turn here ahead] at passed
  split at passed
  · exact absurd (Option.some.inj passed) (by decide)
  · next enough =>
    constructor
    · rw [drop_frag here]
      unfold fiveFrom at shift start
      unfold WindowOk
      omega
    · intro more eq
      subst eq
      have next : sum + new.size - old.size = 1 - g + fiveFrom frags (j + 1) := by omega
      rw [← next]
      exact passed

theorem chkWalk_windows (start : sum = 1 - g + fiveFrom frags j)
    (passed : chkWalk frags nr (j + 5) j sum = some false) :
    ∀ i ≤ nr, WindowOk g (frags.drop (j + i)) := by
  induction nr generalizing j sum with
  | zero =>
      intro i le
      rw [Nat.le_zero.mp le]
      exact (chkWalk_test start passed).1
  | succ nr ih =>
      obtain ⟨first, rest⟩ := chkWalk_test start passed
      intro i le
      cases i with
      | zero => exact first
      | succ i =>
          have later := ih rfl (rest nr rfl) i (Nat.le_of_succ_le_succ le)
          rwa [Nat.add_right_comm] at later

theorem chkWalk_inside (room : j + nr + 5 < frags.length) :
    chkWalk frags nr (j + 5) j sum ≠ none := by
  have here : frags[j]? = some frags[j] := List.getElem?_eq_getElem (by omega)
  have ahead : frags[j + 5]? = some frags[j + 5] := List.getElem?_eq_getElem (by omega)
  induction nr generalizing j sum with
  | zero =>
      rw [chkWalk_turn here ahead]
      split <;> exact Option.some_ne_none _
  | succ nr ih =>
      rw [chkWalk_turn here ahead]
      split
      · exact Option.some_ne_none _
      · exact ih (by omega) (List.getElem?_eq_getElem (by omega))
          (List.getElem?_eq_getElem (by omega))

end Window

section Features

/-- The features that `idpf_features_check` takes away: checksums and GSO. -/
structure TxFeatures where
  csum : Bool
  gso : Bool
  deriving DecidableEq, Repr

/-- What it reads of a packet. -/
structure SkbOffsets where
  partialCsum : Bool
  tso : Option TsoSkb
  networkOffset : BitVec 64
  networkHeaderLen : BitVec 64
  encapsulation : Bool
  l4tunLen : BitVec 64
  innerHeaderLen : BitVec 64

/-- `IDPF_TX_TSO_MIN_MSS` -/
def txTsoMinMss : Nat := 88

/-- The part about GSO. -/
def gsoFeatures (tso : Option TsoSkb) (txMaxBufs : BitVec 16) (features : TxFeatures) :
    Option TxFeatures :=
  match tso with
  | none => some features
  | some skb =>
    if skb.gsoSize.toNat < txTsoMinMss then some { features with gso := false }
    else (chkTsoSegment skb (txMaxBufs.setWidth 32)).map fun many =>
      if many then { features with gso := false } else features

/-- `idpf_features_check` -/
def featuresCheck (skb : SkbOffsets) (txMaxBufs maxTxHdrSize : BitVec 16) (features : TxFeatures) :
    Option TxFeatures :=
  if !skb.partialCsum then some features
  else (gsoFeatures skb.tso txMaxBufs features).map fun features =>
    if skb.networkOffset &&& ~~~126#64 ≠ 0 then ⟨false, false⟩
    else if maxTxHdrSize.setWidth 64 < skb.networkHeaderLen then ⟨false, false⟩
    else if !skb.encapsulation then features
    else if skb.l4tunLen &&& ~~~254#64 ≠ 0 then ⟨false, false⟩
    else if maxTxHdrSize.setWidth 64 < skb.innerHeaderLen then ⟨false, false⟩
    else features

/-- The offsets only ever take features away. -/
theorem featuresCheck_gso {skb : SkbOffsets} {txMaxBufs maxTxHdrSize : BitVec 16}
    {features kept : TxFeatures} (csum : skb.partialCsum = true)
    (done : featuresCheck skb txMaxBufs maxTxHdrSize features = some kept) (gso : kept.gso = true) :
    gsoFeatures skb.tso txMaxBufs features = some kept := by
  unfold featuresCheck at done
  rw [csum] at done
  obtain ⟨left, same, rest⟩ := Option.map_eq_some_iff.mp done
  rw [same]
  split at rest
  · exact absurd gso (rest ▸ Bool.false_ne_true)
  · split at rest
    · exact absurd gso (rest ▸ Bool.false_ne_true)
    · split at rest
      · exact congrArg some rest
      · split at rest
        · exact absurd gso (rest ▸ Bool.false_ne_true)
        · split at rest
          · exact absurd gso (rest ▸ Bool.false_ne_true)
          · exact congrArg some rest

/-- A packet that goes to the device with TSO has passed the check. -/
theorem featuresCheck_passed {skb : SkbOffsets} {tso : TsoSkb} {txMaxBufs maxTxHdrSize : BitVec 16}
    {features kept : TxFeatures} (csum : skb.partialCsum = true) (packet : skb.tso = some tso)
    (done : featuresCheck skb txMaxBufs maxTxHdrSize features = some kept) (gso : kept.gso = true) :
    88 ≤ tso.gsoSize.toNat ∧ chkTsoSegment tso (txMaxBufs.setWidth 32) = some false := by
  have passed := featuresCheck_gso csum done gso
  rw [packet] at passed
  unfold gsoFeatures at passed
  simp only at passed
  split at passed
  · obtain rfl := Option.some.inj passed
    exact absurd gso Bool.false_ne_true
  · next large =>
    refine ⟨Nat.not_lt.mp large, ?_⟩
    obtain ⟨many, check, same⟩ := Option.map_eq_some_iff.mp passed
    cases many with
    | true => exact absurd gso (same ▸ Bool.false_ne_true)
    | false => exact check

end Features

end Idpf
