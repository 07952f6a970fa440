import Idpf.Tx.TsoCheck

/-! For which devices and segment sizes `idpf_chk_tso_segment` keeps every segment within the
buffers that the device takes for a packet. -/
namespace Idpf
open General

section Bounds

variable {f : SkbFrag} {fs : List SkbFrag} {g m n s : Nat}

/-- What a check that found nothing says of the fragments from one of them on. -/
def Clear (g m : Nat) (fs : List SkbFrag) : Prop := fs.length + 2 ≤ m ∨ WindowOk g fs

theorem SkbFrag.descs_coarse (f : SkbFrag) : Coarse 12288 f.descs f.last := descSizes_coarse _ _

@[simp] theorem SkbFrag.descs_sum (f : SkbFrag) : f.descs.sum = f.size := descSizes_sum _ _

theorem SkbFrag.last_le (f : SkbFrag) : f.last ≤ f.size := by
  have le := f.descs_coarse.last_le
  rwa [f.descs_sum] at le

theorem fragDescs_touched (fs : List SkbFrag) (n : Nat) :
    ∃ e, touched (fragDescs fs) 0 n = touched (fs.map SkbFrag.size) 0 n + e ∧
      touched (fs.map SkbFrag.size) 0 n + 12288 * e ≤ n := by
  have coarse : ∀ g ∈ fs.map SkbFrag.descs, ∃ l, Coarse 12288 g l := by
    intro g member
    obtain ⟨f, _, eq⟩ := List.mem_map.mp member
    exact ⟨f.last, eq ▸ f.descs_coarse⟩
  have sizes : (fs.map SkbFrag.descs).map List.sum = fs.map SkbFrag.size := by
    rw [List.map_map]
    exact List.map_congr_left fun f _ => f.descs_sum
  rw [← sizes]
  exact touched_flatten coarse n

theorem WindowOk.six (window : WindowOk g fs) : g ≤ 1 + ((fs.map SkbFrag.size).take 6).sum := by
  cases fs with
  | nil => exact absurd window id
  | cons f rest =>
      have le := f.last_le
      unfold WindowOk at window
      rw [List.map_cons, List.take_succ_cons, List.sum_cons, ← List.map_take]
      omega

theorem Clear.after_piece (clear : Clear g m fs) (bufs : 8 ≤ m) (short : g < m + 12287)
    (less : n + 1 ≤ g) : 1 + touched (fragDescs fs) 0 n < m := by
  obtain ⟨e, pieces, long⟩ := fragDescs_touched fs n
  have met := touched_le_length (fs.map SkbFrag.size) 0 n
  rw [List.length_map] at met
  cases clear with
  | inl few => omega
  | inr window =>
      have within : n ≤ ((fs.map SkbFrag.size).take 6).sum := by
        have six := window.six
        omega
      have six := touched_window within
      omega

theorem Clear.after_frag {e r : Nat} (clear : Clear g m (f :: fs)) (bufs : 8 ≤ m)
    (short : g < m + 12287) (le : n ≤ g) (enough : 12288 * e + 2 ≤ n) (room : 12288 * e + 2 ≤ r)
    (last : f.last + 1 ≤ r) : e + 2 + touched (fragDescs fs) 0 (n - r) < m := by
  obtain ⟨e', pieces, long⟩ := fragDescs_touched fs (n - r)
  have met := touched_le_length (fs.map SkbFrag.size) 0 (n - r)
  rw [List.length_map] at met
  cases clear with
  | inl few =>
      rw [List.length_cons] at few
      omega
  | inr window =>
      have within : n - r ≤ ((fs.map SkbFrag.size).take 5).sum := by
        unfold WindowOk at window
        rw [← List.map_take]
        omega
      have five := touched_window within
      omega

theorem fragDescs_few (clear : ∀ j, Clear g m (fs.drop j)) (bufs : 8 ≤ m) (short : g < m + 12287)
    (le : n ≤ g) (s : Nat) : touched (fragDescs fs) s n < m := by
  induction fs generalizing s with
  | nil =>
      change 0 < m
      omega
  | cons f fs ih =>
      have rest : ∀ j, Clear g m (fs.drop j) := fun j => clear (j + 1)
      have split : touched (fragDescs (f :: fs)) s n = _ :=
        touched_append f.descs (fragDescs fs) s n
      rw [f.descs_sum] at split
      rw [split]
      by_cases beyond : f.size ≤ s
      · rw [if_pos beyond]
        exact ih rest _
      · rw [if_neg beyond]
        rcases Nat.eq_zero_or_pos n with zero | some
        · rw [zero, Nat.zero_sub, touched_none, touched_none]
          omega
        · have inside : s < f.descs.sum := by
            rw [f.descs_sum]
            omega
          rcases f.descs_coarse.middle inside some with one | ⟨e, pieces, enough, room, last⟩
          · rw [one]
            exact (rest 0).after_piece bufs short (by omega)
          · rw [f.descs_sum] at room last
            rw [pieces]
            exact (clear 0).after_frag bufs short le enough room last

/-- Where the linear part is one piece no segment takes as many buffers as the device allows a
packet, so that there is one for the header. -/
theorem bufs_few {h : Nat} (clear : ∀ j, Clear g m (fs.drop j)) (bufs : 8 ≤ m)
    (short : g < m + 12287) (le : n ≤ g) (s : Nat) : touched (h :: fragDescs fs) s n < m := by
  by_cases beyond : h ≤ s
  · rw [touched_skip _ beyond]
    exact fragDescs_few clear bufs short le _
  · rcases Nat.eq_zero_or_pos n with zero | some
    · rw [zero, touched_none]
      omega
    · rw [touched_into _ (Nat.lt_of_not_le beyond) some]
      exact (clear 0).after_piece bufs short (by omega)

end Bounds

section Sound

variable {skb : TsoSkb} {maxBufs : BitVec 32}

theorem chkTsoSegment_few
    (few : maxBufs.toNat = 0 ∨ skb.frags.length + 1 < maxBufs.toNat) :
    chkTsoSegment skb maxBufs = some false := by
  have frags := skb.few
  have wide := maxBufs.isLt
  have test : BitVec.ofNat 32 skb.frags.length < maxBufs - 1 := by
    rw [BitVec.lt_def, BitVec.toNat_sub, BitVec.toNat_ofNat]
    have one : (1 : BitVec 32).toNat = 1 := rfl
    omega
  exact if_pos test

theorem chkTsoSegment_walk (some : 0 < maxBufs.toNat)
    (many : maxBufs.toNat ≤ skb.frags.length + 1) :
    chkTsoSegment skb maxBufs = (firstFive skb.frags).bind fun five =>
      chkWalk skb.frags (skb.frags.length + 2 - maxBufs.toNat) 5 0
        (1 - skb.gsoSize.toNat + five) := by
  have frags := skb.few
  have test : ¬ BitVec.ofNat 32 skb.frags.length < maxBufs - 1 := by
    rw [BitVec.lt_def, BitVec.toNat_sub, BitVec.toNat_ofNat]
    have one : (1 : BitVec 32).toNat = 1 := rfl
    omega
  have left : (BitVec.ofNat 32 skb.frags.length - (maxBufs - 2)).toNat =
      skb.frags.length + 2 - maxBufs.toNat := by
    rw [BitVec.toNat_sub, BitVec.toNat_sub, BitVec.toNat_ofNat]
    have two : (2 : BitVec 32).toNat = 2 := rfl
    omega
  unfold chkTsoSegment
  rw [if_neg test, left]

theorem firstFive_eq {frags : List SkbFrag} (enough : 5 ≤ frags.length) :
    firstFive frags = some (fiveFrom frags 0 : Int) := by
  match frags, enough with
  | f₀ :: f₁ :: f₂ :: f₃ :: f₄ :: _, _ =>
      simp only [firstFive, fiveFrom, List.drop_zero, List.take_succ_cons, List.take_zero,
        List.map_cons, List.map_nil, List.sum_cons, List.sum_nil, Option.some.injEq]
      omega

/-- With eight buffers or more the walk of six fragments stays in the list. -/
theorem chkTsoSegment_inside (bufs : 8 ≤ maxBufs.toNat) : chkTsoSegment skb maxBufs ≠ none := by
  by_cases few : skb.frags.length + 1 < maxBufs.toNat
  · rw [chkTsoSegment_few (Or.inr few)]
    exact Option.some_ne_none false
  · rw [chkTsoSegment_walk (by omega) (by omega), firstFive_eq (by omega), Option.bind_some]
    exact chkWalk_inside (by omega)

theorem chkTsoSegment_clear (bufs : 8 ≤ maxBufs.toNat)
    (passed : chkTsoSegment skb maxBufs = some false) (j : Nat) :
    Clear skb.gsoSize.toNat maxBufs.toNat (skb.frags.drop j) := by
  by_cases few : (skb.frags.drop j).length + 2 ≤ maxBufs.toNat
  · exact Or.inl few
  · right
    rw [List.length_drop] at few
    rw [chkTsoSegment_walk (by omega) (by omega), firstFive_eq (by omega),
      Option.bind_some] at passed
    have window := chkWalk_windows rfl passed j (by omega)
    rwa [Nat.zero_add] at window

theorem TsoSkb.header_one (skb : TsoSkb) : touched skb.bufs 0 skb.hdrLen = 1 := by
  have some := skb.hdr_pos
  have le := skb.hdr_le
  have first := skb.hdr_first
  have alone : ∀ b rest, skb.hdrLen ≤ b → touched (b :: rest) 0 skb.hdrLen = 1 := by
    intro b rest within
    rw [touched_into rest (by omega) some, Nat.sub_zero, Nat.sub_eq_zero_of_le within, touched_none]
  unfold bufs
  by_cases small : skb.headlen ≤ 16383
  · rw [descSizes_small small]
    exact alone _ _ le
  · obtain ⟨rest, cut, _⟩ := @descSizes_large skb.dma _ (Nat.lt_of_not_le small)
    have wide := (firstMaxData_bounds skb.dma).1
    rw [cut]
    exact alone _ _ (first.trans wide)

theorem checkSound_short (bufs : 8 ≤ maxBufs.toNat) (short : skb.gsoSize.toNat < maxBufs.toNat) :
    CheckSound skb maxBufs := by
  constructor
  · exact chkTsoSegment_inside bufs
  · intro _ k
    have le := touched_le skb.bufs (skb.hdrLen + k * skb.gsoSize.toNat) skb.gsoSize.toNat
    unfold TsoSkb.segmentBufs
    rw [skb.header_one]
    omega

theorem checkSound_head (bufs : 8 ≤ maxBufs.toNat)
    (short : skb.gsoSize.toNat < maxBufs.toNat + 12287) (head : skb.headlen ≤ txMaxDescData) :
    CheckSound skb maxBufs := by
  constructor
  · exact chkTsoSegment_inside bufs
  · intro passed k
    have one : skb.bufs = skb.headlen :: fragDescs skb.frags := by
      unfold TsoSkb.bufs
      rw [descSizes_small head]
      rfl
    have few := @bufs_few _ _ _ _ skb.headlen (chkTsoSegment_clear bufs passed) bufs short
      (Nat.le_refl _) (skb.hdrLen + k * skb.gsoSize.toNat)
    unfold TsoSkb.segmentBufs
    rw [skb.header_one, one]
    omega

/-- What the device gets with TSO it can send. -/
theorem featuresCheck_fits {skb : SkbOffsets} {tso : TsoSkb} {txMaxBufs maxTxHdrSize : BitVec 16}
    {features kept : TxFeatures} (csum : skb.partialCsum = true) (packet : skb.tso = some tso)
    (done : featuresCheck skb txMaxBufs maxTxHdrSize features = some kept) (gso : kept.gso = true)
    (sound : CheckSound tso (txMaxBufs.setWidth 32)) (k : Nat) :
    tso.segmentBufs k ≤ txMaxBufs.toNat := by
  have fits := sound.fits (featuresCheck_passed csum packet done gso).2 k
  have same : (txMaxBufs.setWidth 32).toNat = txMaxBufs.toNat := by
    have small := txMaxBufs.isLt
    rw [BitVec.toNat_setWidth]
    omega
  rwa [same] at fits

end Sound

section Misses

variable {gso : BitVec 16} {maxBufs : BitVec 32}

/-- Fragments of one byte each and a long one behind them. -/
def longTail (ones size : Nat) : List SkbFrag := List.replicate ones ⟨0, 0, 1⟩ ++ [⟨0, 0, size⟩]

@[simp] theorem longTail_length (ones size : Nat) : (longTail ones size).length = ones + 1 := by
  rw [longTail, List.length_append, List.length_replicate, List.length_singleton]

@[simp] theorem longTail_sum (ones size : Nat) :
    ((longTail ones size).map SkbFrag.size).sum = ones + size := by
  have single : ((⟨0, 0, 1⟩ : SkbFrag)).size = 1 := rfl
  rw [longTail, List.map_append, List.map_replicate, List.sum_append, List.sum_replicate_nat,
    List.map_singleton, List.sum_singleton, single, Nat.mul_one]

theorem longTail_descs (ones size : Nat) :
    fragDescs (longTail ones size) = List.replicate ones 1 ++ descSizes 0 size := by
  induction ones with
  | zero => exact List.append_nil _
  | succ ones ih => exact congrArg (List.cons 1) ih

theorem longTail_met {ones size n : Nat} (enough : ones < n) (some : 0 < size) :
    ones + 1 ≤ touched (fragDescs (longTail ones size)) 0 n := by
  have last : 0 < touched (descSizes 0 size) 0 (n - ones) :=
    touched_pos (by rwa [descSizes_sum]) (by omega)
  rw [longTail_descs, touched_ones _ enough.le]
  omega

theorem longTail_met_two {ones size n : Nat} (enough : ones + 12288 < n) (large : 16383 < size) :
    ones + 2 ≤ touched (fragDescs (longTail ones size)) 0 n := by
  obtain ⟨rest, cut, left⟩ := @descSizes_large 0 size large
  have page : firstMaxData 0 = 12288 := rfl
  rw [page] at cut left
  have last : 0 < touched rest 0 (n - ones - (12288 - 0)) := touched_pos (by omega) (by omega)
  rw [longTail_descs, touched_ones _ (by omega), cut, touched_into rest (by decide) (by omega)]
  omega

def stretched (dma headlen hdrLen ones : Nat) (gso : BitVec 16) (pos : 0 < hdrLen)
    (le : hdrLen ≤ headlen) (first : hdrLen ≤ 12288) (head : headlen ≤ 16384) (few : ones < 255) :
    TsoSkb where
  dma := dma
  headlen := headlen
  hdrLen := hdrLen
  frags := longTail ones (gso.toNat + 16384)
  gsoSize := gso
  hdr_pos := pos
  hdr_le := le
  hdr_first := first
  few := by
    rw [longTail_length]
    omega
  short := by
    have small := gso.isLt
    rw [longTail_sum]
    omega
  long := by
    rw [longTail_sum]
    omega

/-- Six fragments of which the last is long pass the first test. The walk has at least one more to
make when the device allows fewer than eight buffers. -/
theorem walk_outside (low : 0 < maxBufs.toNat) (high : maxBufs.toNat < 8) :
    chkTsoSegment (stretched 0 55 54 5 gso (by decide) (by decide) (by decide) (by decide)
      (by decide)) maxBufs = none := by
  obtain ⟨more, eq⟩ : ∃ more, 6 + 2 - maxBufs.toNat = more + 1 := ⟨7 - maxBufs.toNat, by omega⟩
  have five : firstFive (longTail 5 (gso.toNat + 16384)) = some 5 := rfl
  have walk := @chkTsoSegment_walk (stretched 0 55 54 5 gso (by decide) (by decide)
    (by decide) (by decide) (by decide)) maxBufs low (show maxBufs.toNat ≤ 6 + 1 by omega)
  have turn := @chkWalk_turn (longTail 5 (gso.toNat + 16384)) ⟨0, 0, 1⟩
    ⟨0, 0, gso.toNat + 16384⟩ (more + 1) 0 (1 - gso.toNat + 5) rfl rfl
  have one : (⟨0, 0, 1⟩ : SkbFrag).last = 1 := rfl
  change _ = (firstFive (longTail 5 (gso.toNat + 16384))).bind (fun five =>
    chkWalk (longTail 5 (gso.toNat + 16384)) (6 + 2 - maxBufs.toNat) 5 0
      (1 - gso.toNat + five)) at walk
  rw [walk, five, Option.bind_some, eq]
  refine turn.trans ((if_neg ?_).trans ?_)
  · rw [one]
    dsimp only
    omega
  · by_contra done
    obtain ⟨_, new, _, ahead⟩ := chkWalk_reads done
    have gone : (longTail 5 (gso.toNat + 16384))[1 + 5]? = none := rfl
    exact Option.some_ne_none new (ahead.symm.trans gone)

/-- A start of a segment that takes two pieces of a linear part of 16384 bytes. -/
theorem segment_start {g m : Nat} (some : 0 < g) (le : m ≤ g) (small : m < 256) :
    ∃ hdr k, 0 < hdr ∧ hdr ≤ 12288 ∧ hdr + k * g < 16383 ∧ 16382 + m ≤ hdr + k * g + g := by
  by_cases short : g ≤ 12288
  · have rest := Nat.mod_lt 16381 some
    have whole := Nat.mod_add_div 16381 g
    have comm := Nat.mul_comm g (16381 / g)
    exact ⟨16381 % g + 1, 16381 / g, by omega, by omega, by omega, by omega⟩
  · exact ⟨12288, 0, by omega, by omega, by omega, by omega⟩

theorem few_bufs_missed (gso : BitVec 16) (few : maxBufs.toNat < 8) :
    ∃ skb : TsoSkb, skb.gsoSize = gso ∧ skb.headlen ≤ txMaxDescData ∧ ¬ CheckSound skb maxBufs := by
  refine ⟨stretched 0 55 54 5 gso (by decide) (by decide) (by decide) (by decide) (by decide), rfl,
    (by decide : 55 ≤ 16383), ?_⟩
  intro sound
  rcases Nat.eq_zero_or_pos maxBufs.toNat with zero | some
  · have fits := sound.fits (chkTsoSegment_few (Or.inl zero)) 0
    unfold TsoSkb.segmentBufs at fits
    rw [TsoSkb.header_one] at fits
    omega
  · exact sound.inside (walk_outside some few)

/-- As many fragments as the check lets through unseen. -/
theorem segment_missed {skb : TsoSkb} {k : Nat} (unseen : skb.frags.length + 1 < maxBufs.toNat)
    (met : maxBufs.toNat ≤
      touched skb.bufs (skb.hdrLen + k * skb.gsoSize.toNat) skb.gsoSize.toNat) :
    ¬ CheckSound skb maxBufs := by
  intro sound
  have fits := sound.fits (chkTsoSegment_few (Or.inr unseen)) k
  unfold TsoSkb.segmentBufs at fits
  rw [skb.header_one] at fits
  omega

theorem large_segment_missed (gso : BitVec 16) (bufs : 8 ≤ maxBufs.toNat)
    (byte : maxBufs.toNat < 256) (large : maxBufs.toNat + 12287 ≤ gso.toNat) :
    ∃ skb : TsoSkb, skb.gsoSize = gso ∧ skb.headlen ≤ txMaxDescData ∧ ¬ CheckSound skb maxBufs := by
  refine ⟨stretched 0 55 54 (maxBufs.toNat - 3) gso (by decide) (by decide) (by decide) (by decide)
    (by omega), rfl, (by decide : 55 ≤ 16383), ?_⟩
  apply @segment_missed _ _ 0
  · change (longTail _ _).length + 1 < _
    rw [longTail_length]
    omega
  · have head : descSizes 0 55 = [55] := descSizes_small (by decide)
    have start : 54 + 0 * gso.toNat = 54 := by omega
    have met := @longTail_met_two (maxBufs.toNat - 3) (gso.toNat + 16384) (gso.toNat - (55 - 54))
      (by omega) (by omega)
    change _ ≤ touched (descSizes 0 55 ++ fragDescs (longTail _ _)) (54 + 0 * gso.toNat) gso.toNat
    rw [head, start, List.singleton_append, touched_into _ (by decide) (by omega)]
    omega

theorem long_head_missed (gso : BitVec 16) (bufs : 8 ≤ maxBufs.toNat)
    (byte : maxBufs.toNat < 256) (le : maxBufs.toNat ≤ gso.toNat) :
    ∃ skb : TsoSkb, skb.gsoSize = gso ∧ ¬ CheckSound skb maxBufs := by
  obtain ⟨hdr, k, pos, first, start, reach⟩ := segment_start (by omega) le byte
  refine ⟨stretched 1 16384 hdr (maxBufs.toNat - 3) gso pos (by omega) first (by decide)
    (by omega), rfl, ?_⟩
  apply @segment_missed _ _ k
  · change (longTail _ _).length + 1 < _
    rw [longTail_length]
    omega
  · obtain ⟨rest, cut, left⟩ := @descSizes_large 1 16384 (by decide)
    have page : firstMaxData 1 = 16383 := rfl
    rw [page] at cut left
    have second : 0 < touched rest 0 (gso.toNat - (16383 - (hdr + k * gso.toNat))) :=
      touched_pos (by omega) (by omega)
    have met := @longTail_met (maxBufs.toNat - 3) (gso.toNat + 16384)
      (gso.toNat - (16383 - (hdr + k * gso.toNat)) - (rest.sum - 0)) (by omega) (by omega)
    change _ ≤ touched (descSizes 1 16384 ++ fragDescs (longTail _ _)) (hdr + k * gso.toNat)
      gso.toNat
    rw [cut, List.cons_append, touched_into _ start (by omega), touched_append, if_neg (by omega)]
    omega

/-- For a device and a segment size the check does its work for every packet where there are eight
buffers or more and a segment has fewer bytes than that. It does it for the packets whose linear
part is one buffer also where a segment that meets each buffer with one byte cannot fill 12K. -/
theorem tso_segments_fit_iff (caps : BitVec 8) (gso : BitVec 16) (min : 88 ≤ gso.toNat) :
    ((∀ skb : TsoSkb, skb.gsoSize = gso → CheckSound skb (caps.setWidth 32)) ↔
      8 ≤ caps.toNat ∧ gso.toNat < caps.toNat) ∧
    ((∀ skb : TsoSkb, skb.gsoSize = gso → skb.headlen ≤ txMaxDescData →
        CheckSound skb (caps.setWidth 32)) ↔
      8 ≤ caps.toNat ∧ gso.toNat < caps.toNat + 12287) := by
  have byte := caps.isLt
  have wide : (caps.setWidth 32).toNat = caps.toNat := by
    rw [BitVec.toNat_setWidth]
    omega
  rw [← wide] at byte ⊢
  constructor
  · constructor
    · intro sound
      by_cases bufs : 8 ≤ (caps.setWidth 32).toNat
      · refine ⟨bufs, ?_⟩
        by_contra long
        obtain ⟨skb, size, missed⟩ := long_head_missed gso bufs byte (Nat.not_lt.mp long)
        exact missed (sound skb size)
      · obtain ⟨skb, size, _, missed⟩ := few_bufs_missed gso (Nat.lt_of_not_le bufs)
        exact absurd (sound skb size) missed
    · rintro ⟨bufs, short⟩ skb rfl
      exact checkSound_short bufs short
  · constructor
    · intro sound
      by_cases bufs : 8 ≤ (caps.setWidth 32).toNat
      · refine ⟨bufs, ?_⟩
        by_contra long
        obtain ⟨skb, size, head, missed⟩ := large_segment_missed gso bufs byte (Nat.not_lt.mp long)
        exact missed (sound skb size head)
      · obtain ⟨skb, size, head, missed⟩ := few_bufs_missed gso (Nat.lt_of_not_le bufs)
        exact absurd (sound skb size head) missed
    · rintro ⟨bufs, short⟩ skb rfl head
      exact checkSound_head bufs short head

theorem tso_segments_fit_ten :
    (¬ ∀ skb : TsoSkb, skb.gsoSize = 1448 → CheckSound skb 10) ∧
      ∀ skb : TsoSkb, skb.gsoSize = 1448 → skb.headlen ≤ txMaxDescData → CheckSound skb 10 := by
  constructor
  · intro all
    exact absurd ((tso_segments_fit_iff 10 1448 (by decide)).1.mp all) (by decide)
  · exact (tso_segments_fit_iff 10 1448 (by decide)).2.mpr (by decide)

def fivePages : TsoSkb where
  dma := 0
  headlen := 54
  hdrLen := 54
  frags := List.replicate 5 ⟨1, 0, 4096⟩
  gsoSize := 1448
  hdr_pos := by decide
  hdr_le := by decide
  hdr_first := by decide
  few := by decide
  short := by decide
  long := by decide

/-- 16K of linear data, which are two buffers, and six small fragments. -/
def longHead : TsoSkb where
  dma := 1
  headlen := 16384
  hdrLen := 54
  frags := List.replicate 6 ⟨1, 0, 200⟩
  gsoSize := 1448
  hdr_pos := by decide
  hdr_le := by decide
  hdr_first := by decide
  few := by decide
  short := by decide
  long := by decide

/-- A device of six buffers has the walk read a sixth fragment of five, and one of eight gets a
segment of nine. -/
theorem tso_check_untrue : ¬ CheckSound fivePages 6 ∧ ¬ CheckSound longHead 8 := by
  constructor
  · intro sound
    exact sound.inside (by decide +kernel)
  · intro sound
    exact absurd (sound.fits (by decide +kernel) 11) (by decide +kernel)

end Misses

end Idpf
