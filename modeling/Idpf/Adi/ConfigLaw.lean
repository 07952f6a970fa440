import Idpf.Adi.ConfigSpace
import Mathlib.Tactic.IntervalCases

/-! What a guest's writes can and cannot do to its configuration space. -/
namespace Idpf

/-- The bits of a BAR's low half that are below its size: 64M for BAR0, 16K for BAR3. -/
def barSizeBits (off : Nat) : BitVec 8 :=
  if 0x10 ≤ off ∧ off < 0x14 then leByte (0x4000000 - 1) (off - 0x10)
  else if 0x1c ≤ off ∧ off < 0x20 then leByte (0x4000 - 1) (off - 0x1c)
  else 0

def headerRo (off : Nat) : BitVec 8 :=
  match csrRwBmp[off]? with
  | none => 0
  | some mask => ~~~mask ||| barSizeBits off

/-- `idpf_vdcm_dev_cfg_read` of a word. -/
def readWord (cfg : CfgSpace) (off : Nat) : BitVec 32 := leWord fun i => cfg (off + i)

def address64 (hi lo : BitVec 32) : BitVec 64 := hi ++ lo

/-- Both halves of a BAR. -/
def readBar (cfg : CfgSpace) (off : Nat) : BitVec 64 :=
  address64 (readWord cfg (off + 4)) (readWord cfg off)

/-- The word that the last access at `off` wrote, if it was of four bytes. -/
def lastWord (off : Nat) (as : List CfgAccess) : Option (BitVec 32) :=
  (as.reverse.find? fun a => a.pos = off).bind fun a =>
    if a.buf.length = 4 then some (leWord (a.buf.getD · 0)) else none

/-- The address that the last accesses to the halves of a BAR make. -/
def lastBar (off : Nat) (as : List CfgAccess) : Option (BitVec 64) :=
  (lastWord off as).bind fun lo => (lastWord (off + 4) as).map fun hi => address64 hi lo

/-- The byte that was last written at `off`. -/
def lastByte (off : Nat) (as : List CfgAccess) : Option (BitVec 8) :=
  as.foldl (fun last a => (a.byteAt off).or last) none

def accesses (ws : List GuestWrite) : List CfgAccess := ws.flatMap GuestWrite.performed

/-- What holds in every state that the accesses of the guest's writes go through. Behind the header
a byte is what was last written, in the capabilities too. BAR3 has its address back where the bits
32 to 35 are clear. -/
structure ConfigLaw (numVectors : Nat) (ws : List GuestWrite) : Prop where
  performed :
    devWrites ws (pciConfigSpaceInit numVectors) = cfgAfter numVectors (accesses ws)
  readOnly : ∀ as, as <+: accesses ws → ∀ off,
    cfgAfter numVectors as off &&& headerRo off = pciConfigSpaceInit numVectors off &&& headerRo off
  cleared : ∀ as a, as ++ [a] <+: accesses ws → cfgAfter numVectors (as ++ [a]) 7 &&& 0xf9 =
    cfgAfter numVectors as 7 &&& 0xf9 &&& ~~~((a.byteAt 7).getD 0)
  copied : ∀ as, as <+: accesses ws → ∀ off, 64 ≤ off →
    cfgAfter numVectors as off = (lastByte off as).getD (pciConfigSpaceInit numVectors off)
  bar0 : ∀ as, as <+: accesses ws → ∀ address, lastBar 0x10 as = some address →
    (address &&& (0x4000000 - 1) = 0 →
      readBar (cfgAfter numVectors as) 0x10 = address ||| 0xc) ∧
    (address = ~~~0 → readBar (cfgAfter numVectors as) 0x10 = ~~~(0x4000000 - 1) ||| 0xc)
  bar3 : ∀ as, as <+: accesses ws → ∀ address, lastBar 0x1c as = some address →
    address &&& (0x4000 - 1) = 0 → address &&& 0xf00000000 = 0 →
      readBar (cfgAfter numVectors as) 0x1c = address ||| 0xc
  supplied : ∀ behind : GuestWrite → Nat → List (BitVec 8),
    devWrites (ws.map fun w => { w with behind := behind w }) (pciConfigSpaceInit numVectors) =
      devWrites ws (pciConfigSpaceInit numVectors)

section Words

theorem getLsbD_leWord (b : Nat → BitVec 8) {k : Nat} (inside : k < 32) :
    (leWord b).getLsbD k = (b (k / 8)).getLsbD (k % 8) := by
  have bits : (leWord b).getLsbD k = bif k < 8 then (b 0).getLsbD k else
      bif k - 8 < 8 then (b 1).getLsbD (k - 8) else
        bif k - 8 - 8 < 8 then (b 2).getLsbD (k - 8 - 8) else (b 3).getLsbD (k - 8 - 8 - 8) := by
    simp only [leWord, BitVec.getLsbD_append, Bool.cond_decide]
  rw [bits]
  obtain ⟨q, r, small, rfl⟩ : ∃ q r, r < 8 ∧ k = 8 * q + r :=
    ⟨k / 8, k % 8, Nat.mod_lt k (by decide), (Nat.div_add_mod k 8).symm⟩
  have byte : (8 * q + r) / 8 = q := by omega
  have bit : (8 * q + r) % 8 = r := by omega
  rw [byte, bit]
  have few : q < 4 := by omega
  interval_cases q
  · simp [small]
  · simp [small]
  · simp [small, show ¬16 + r < 8 by omega, show 16 + r - 8 = 8 + r by omega]
  · simp [small, show ¬24 + r < 8 by omega, show ¬16 + r < 8 by omega,
      show 24 + r - 8 = 16 + r by omega, show 16 + r - 8 = 8 + r by omega]

theorem leByte_leWord (b : Nat → BitVec 8) {i : Nat} (inside : i < 4) :
    leByte (leWord b) i = b i := by
  apply BitVec.eq_of_getLsbD_eq
  intro k hk
  have byte : (8 * i + k) / 8 = i := by omega
  have bit : (8 * i + k) % 8 = k := by omega
  rw [leByte, BitVec.getLsbD_extractLsb', getLsbD_leWord b (by omega), byte, bit,
    decide_eq_true hk, Bool.true_and]

theorem leByte_and (v w : BitVec 32) (i : Nat) : leByte (v &&& w) i = leByte v i &&& leByte w i :=
  BitVec.extractLsb'_and

theorem leWord_and (b c : Nat → BitVec 8) :
    leWord (fun i => b i &&& c i) = leWord b &&& leWord c := by
  apply BitVec.eq_of_getLsbD_eq
  intro k hk
  rw [BitVec.getLsbD_and, getLsbD_leWord _ hk, getLsbD_leWord _ hk, getLsbD_leWord _ hk,
    BitVec.getLsbD_and]

theorem leWord_or (b c : Nat → BitVec 8) :
    leWord (fun i => b i ||| c i) = leWord b ||| leWord c := by
  apply BitVec.eq_of_getLsbD_eq
  intro k hk
  rw [BitVec.getLsbD_or, getLsbD_leWord _ hk, getLsbD_leWord _ hk, getLsbD_leWord _ hk,
    BitVec.getLsbD_or]

theorem leWord_leByte (w : BitVec 32) : leWord (leByte w) = w := by
  apply BitVec.eq_of_getLsbD_eq
  intro k hk
  rw [getLsbD_leWord _ hk, leByte, BitVec.getLsbD_extractLsb', Nat.div_add_mod,
    decide_eq_true (Nat.mod_lt k (by decide)), Bool.true_and]

theorem leWord_congr {b c : Nat → BitVec 8} (same : ∀ i < 4, b i = c i) : leWord b = leWord c := by
  simp only [leWord, same 0 (by decide), same 1 (by decide), same 2 (by decide),
    same 3 (by decide)]

theorem address64_and (hi lo hi' lo' : BitVec 32) :
    address64 hi lo &&& address64 hi' lo' = address64 (hi &&& hi') (lo &&& lo') :=
  BitVec.and_append

theorem address64_or (hi lo hi' lo' : BitVec 32) :
    address64 hi lo ||| address64 hi' lo' = address64 (hi ||| hi') (lo ||| lo') :=
  BitVec.or_append

theorem address64_inj {hi lo hi' lo' : BitVec 32} (same : address64 hi lo = address64 hi' lo') :
    hi = hi' ∧ lo = lo' := by
  constructor
  · have high := congrArg (BitVec.extractLsb' 32 32) same
    unfold address64 at high
    rwa [BitVec.extractLsb'_append_eq_left, BitVec.extractLsb'_append_eq_left] at high
  · have low := congrArg (BitVec.setWidth 32) same
    unfold address64 at low
    rwa [BitVec.setWidth_append_eq_right, BitVec.setWidth_append_eq_right] at low

theorem and_not_of_and_eq_zero {w k : BitVec 32} (none : w &&& k = 0#32) : w &&& ~~~k = w := by
  calc w &&& ~~~k = w &&& ~~~k ||| w &&& k := by rw [none, BitVec.or_zero]
    _ = w := by
      apply BitVec.eq_of_getLsbD_eq
      intro i hi
      simp only [BitVec.getLsbD_or, BitVec.getLsbD_and, BitVec.getLsbD_not, hi, decide_true,
        Bool.true_and]
      generalize w.getLsbD i = a, k.getLsbD i = b
      revert a b
      decide

end Words

section Bytes
variable {pos off : Nat} {buf behind : List (BitVec 8)} {cfg : CfgSpace}

/-- What `buf` at `pos` has for a byte. -/
def byteFrom (pos : Nat) (buf : List (BitVec 8)) (off : Nat) : Option (BitVec 8) :=
  if pos ≤ off then buf[off - pos]? else none

theorem cfgWriteMask_apply (pos : Nat) (buf : List (BitVec 8)) (cfg : CfgSpace) (off : Nat) :
    cfgWriteMask pos buf cfg off =
      match byteFrom pos buf off with
      | none => cfg off
      | some b => cfgByte off (cfg off) b := by
  induction buf generalizing pos cfg with
  | nil =>
    unfold byteFrom
    split <;> simp_all [cfgWriteMask]
  | cons b buf ih =>
    rw [cfgWriteMask, ih]
    unfold byteFrom
    rcases Nat.lt_trichotomy off pos with before | rfl | after
    · rw [if_neg (by omega), if_neg (by omega), Function.update_of_ne (by omega)]
    · rw [if_neg (by omega), if_pos (Nat.le_refl off), Nat.sub_self, Function.update_self]
      rfl
    · have next : off - pos = off - (pos + 1) + 1 := by omega
      rw [if_pos (by omega), if_pos (by omega), next, List.getElem?_cons_succ,
        Function.update_of_ne (by omega)]

theorem barBytes_eq (buf behind : List (BitVec 8)) (mask : BitVec 32) (width : buf.length ≤ 4) :
    (List.range buf.length).map (leByte (leWord ((buf ++ behind).getD · 0) &&& mask)) =
      (List.range buf.length).map fun i => buf.getD i 0 &&& leByte mask i := by
  apply List.map_congr_left
  intro i mem
  have inside : i < buf.length := List.mem_range.mp mem
  rw [leByte_and, leByte_leWord _ (by omega), List.getD_eq_getElem?_getD,
    List.getElem?_append_left inside, ← List.getD_eq_getElem?_getD]

theorem byteFrom_map (mask : BitVec 32) :
    byteFrom pos ((List.range buf.length).map fun i => buf.getD i 0 &&& leByte mask i) off =
      (byteFrom pos buf off).map fun b => b &&& leByte mask (off - pos) := by
  unfold byteFrom
  split
  · by_cases inside : off - pos < buf.length
    · rw [List.getElem?_map, List.getElem?_range inside, List.getElem?_eq_getElem inside]
      simp [inside]
    · rw [List.getElem?_eq_none (by simpa using inside), List.getElem?_eq_none (by omega)]
      rfl
  · rfl

theorem cfgByte_ro {old new : BitVec 8} (ro : csrRwBmp[off]? = some 0#8) :
    cfgByte off old new = old := by
  have keep : old &&& ~~~0#8 = old := by rw [BitVec.not_zero, BitVec.and_allOnes]
  unfold cfgByte
  rw [ro]
  dsimp only
  split
  · rw [BitVec.and_zero, keep, BitVec.or_zero]
  · rw [BitVec.and_zero, keep, BitVec.or_zero]

/-- Where the two memory BARs have their halves. -/
def memoryBars : List Nat := [0x10, 0x14, 0x1c, 0x20]

/-- What a write leaves of the word at a memory BAR. -/
def barMask (pos : Nat) : BitVec 32 :=
  if pos = 0x10 then ~~~(0x4000000 - 1) else if pos = 0x1c then ~~~(0x4000 - 1) else ~~~0

theorem barMask_cut : ∀ pos ∈ memoryBars, ∀ i < 4,
    leByte (barMask pos) i = ~~~barSizeBits (pos + i) := by
  decide

theorem cfgWriteBar_eq {pos : Nat} {buf behind : List (BitVec 8)} {cfg : CfgSpace}
    (memory : pos ∈ memoryBars) :
    cfgWriteBar pos buf behind cfg = some (cfgWriteMask pos ((List.range buf.length).map
      (leByte (leWord ((buf ++ behind).getD · 0) &&& barMask pos))) cfg) := by
  simp only [memoryBars, List.mem_cons, List.not_mem_nil, or_false] at memory
  rcases memory with rfl | rfl | rfl | rfl
  all_goals rfl

theorem barSizeBits_zero (outside : off < 0x10 ∨ 0x14 ≤ off ∧ off < 0x1c ∨ 0x20 ≤ off) :
    barSizeBits off = 0#8 := by
  rw [barSizeBits, if_neg (by omega), if_neg (by omega)]
  rfl

end Bytes

namespace CfgAccess
variable {a : CfgAccess} {cfg : CfgSpace} {off : Nat}

theorem byteAt_eq (a : CfgAccess) (off : Nat) : a.byteAt off = byteFrom a.pos a.buf off := rfl

theorem byteAt_some {b : BitVec 8} (supplied : a.byteAt off = some b) :
    a.pos ≤ off ∧ off < a.pos + a.buf.length := by
  rw [byteAt_eq, byteFrom, Option.ite_none_right_eq_some] at supplied
  obtain ⟨first, entry⟩ := supplied
  have := (List.getElem?_eq_some_iff.mp entry).1
  omega

def change (a : CfgAccess) (cfg : CfgSpace) (off : Nat) : BitVec 8 :=
  match a.byteAt off with
  | none => cfg off
  | some b => cfgByte off (cfg off) (b &&& ~~~barSizeBits off)

/-- A write with a mask that is the one of the BAR. -/
theorem change_masked {mask : BitVec 32}
    (cut : ∀ i < 4, leByte mask i = ~~~barSizeBits (a.pos + i)) :
    cfgWriteMask a.pos ((List.range a.buf.length).map
      (leByte (leWord ((a.buf ++ a.behind).getD · 0) &&& mask))) cfg = a.change cfg := by
  have width : a.buf.length ≤ 4 := by have := a.width; omega
  funext off
  rw [barBytes_eq _ _ _ width, cfgWriteMask_apply, byteFrom_map, change, byteAt_eq]
  cases supplied : byteFrom a.pos a.buf off with
  | none => rfl
  | some b =>
    obtain ⟨first, last⟩ := byteAt_some (a.byteAt_eq off ▸ supplied)
    have byte : leByte mask (off - a.pos) = ~~~barSizeBits off := by
      rw [cut _ (by omega), Nat.add_sub_of_le first]
    rw [Option.map_some, byte]

theorem change_ignored (bar : a.pos = 0x18 ∨ a.pos = 0x24) : a.change cfg = cfg := by
  funext off
  unfold change
  split
  · rfl
  next b supplied =>
    obtain ⟨first, last⟩ := byteAt_some supplied
    have width : a.buf.length ≤ 4 := by have := a.width; omega
    apply cfgByte_ro
    obtain ⟨i, inside, rfl⟩ : ∃ i < 4, off = a.pos + i := ⟨off - a.pos, by omega, by omega⟩
    rcases bar with at_bar | at_bar
    all_goals
      rw [at_bar]
      interval_cases i
      all_goals rfl

theorem change_plain (outside : ¬(0x10 ≤ a.pos ∧ a.pos ≤ 0x24)) :
    a.change cfg = cfgWriteMask a.pos a.buf cfg := by
  funext off
  rw [cfgWriteMask_apply, change, byteAt_eq]
  cases supplied : byteFrom a.pos a.buf off with
  | none => rfl
  | some b =>
    obtain ⟨first, last⟩ := byteAt_some (a.byteAt_eq off ▸ supplied)
    have uncut : barSizeBits off = 0#8 := by
      apply barSizeBits_zero
      have aligned := a.aligned
      rcases a.width with w | w | w
      all_goals
        rw [w] at aligned last
        omega
    dsimp only
    rw [uncut, BitVec.not_zero, BitVec.and_allOnes]

theorem cfgWrite_eq (accepted : a.refused = false) :
    cfgWrite a.pos a.buf a.behind cfg = some (a.change cfg) := by
  simp only [refused, Bool.or_eq_false_iff, decide_eq_false_iff_not, Bool.and_eq_false_imp,
    Bool.and_eq_true, decide_eq_true_eq, and_imp, not_not] at accepted
  obtain ⟨inside, word⟩ := accepted
  unfold cfgWrite
  rw [if_neg inside]
  by_cases bar : 0x10 ≤ a.pos ∧ a.pos ≤ 0x24
  · rw [if_pos bar, if_neg (not_not.mpr (word bar.1 bar.2))]
    by_cases ignored : a.pos = 0x18 ∨ a.pos = 0x24
    · rw [change_ignored ignored]
      rcases ignored with at_bar | at_bar
      · rw [at_bar]
        rfl
      · rw [at_bar]
        rfl
    · have memory : a.pos ∈ memoryBars := by
        have aligned := word bar.1 bar.2
        simp only [memoryBars, List.mem_cons, List.not_mem_nil, or_false]
        omega
      rw [cfgWriteBar_eq memory, change_masked (barMask_cut a.pos memory)]
  · rw [if_neg bar, change_plain bar]

theorem cfgWrite_refused (refused : a.refused = true) :
    cfgWrite a.pos a.buf a.behind cfg = none := by
  simp only [CfgAccess.refused, Bool.or_eq_true, decide_eq_true_eq, Bool.and_eq_true] at refused
  unfold cfgWrite
  rcases refused with outside | ⟨bar, part⟩
  · rw [if_pos outside]
  · rw [if_pos bar, if_pos part, ite_self]

theorem apply_eq (accepted : a.refused = false) (cfg : CfgSpace) : a.apply cfg = a.change cfg := by
  rw [apply, cfgWrite_eq accepted]
  rfl

end CfgAccess

section Accesses

/-- The loop makes the accesses one after the other. -/
theorem devWriteLoop_snd (behind : Nat → List (BitVec 8)) (pos : Nat) (buf : List (BitVec 8))
    (readable done : Nat) (cfg : CfgSpace) :
    (devWriteLoop behind pos buf readable done cfg).2 =
      (performedLoop behind pos buf readable).foldl (fun cfg a => a.apply cfg) cfg := by
  fun_induction performedLoop behind pos buf readable generalizing done cfg with
  | case1 pos buf readable some_bytes filled a stop =>
    rw [devWriteLoop, if_neg some_bytes]
    dsimp only
    split
    · rfl
    next enough =>
      have none : cfgWrite pos (buf.take filled) (behind pos) cfg = Option.none :=
        CfgAccess.cfgWrite_refused (stop.resolve_left enough)
      rw [none]
      rfl
  | case2 pos buf readable some_bytes filled a go ih =>
    obtain ⟨enough, accepted⟩ := not_or.mp go
    have written : cfgWrite pos (buf.take filled) (behind pos) cfg = some (a.change cfg) :=
      CfgAccess.cfgWrite_eq (Bool.not_eq_true _ ▸ accepted)
    rw [devWriteLoop, if_neg some_bytes]
    dsimp only
    rw [if_neg enough, written, List.foldl_cons, a.apply_eq (Bool.not_eq_true _ ▸ accepted)]
    exact ih _ _
  | case3 pos buf readable nothing =>
    rw [devWriteLoop, if_pos (not_not.mp nothing)]
    rfl

theorem performedLoop_accepted {behind : Nat → List (BitVec 8)} {pos : Nat}
    {buf : List (BitVec 8)} {readable : Nat} :
    ∀ a ∈ performedLoop behind pos buf readable, a.refused = false := by
  fun_induction performedLoop behind pos buf readable with
  | case1 => exact fun a mem => absurd mem List.not_mem_nil
  | case2 pos buf readable some_bytes filled a go ih =>
    intro b mem
    rcases List.mem_cons.mp mem with rfl | mem
    · exact Bool.eq_false_iff.mpr (not_or.mp go).2
    · exact ih b mem
  | case3 => exact fun a mem => absurd mem List.not_mem_nil

variable {numVectors : Nat} {ws : List GuestWrite} {as : List CfgAccess} {a : CfgAccess}

theorem accesses_accepted : ∀ a ∈ accesses ws, a.refused = false := by
  intro a mem
  obtain ⟨w, -, mem⟩ := List.mem_flatMap.mp mem
  exact performedLoop_accepted a mem

theorem devWrites_eq (ws : List GuestWrite) :
    devWrites ws (pciConfigSpaceInit numVectors) = cfgAfter numVectors (accesses ws) := by
  rw [devWrites, cfgAfter, accesses, List.foldl_flatMap]
  congr 1
  funext cfg w
  exact devWriteLoop_snd w.behind w.pos w.buf w.readable 0 cfg

theorem cfgAfter_append (accepted : a.refused = false) :
    cfgAfter numVectors (as ++ [a]) = a.change (cfgAfter numVectors as) := by
  rw [cfgAfter, List.foldl_append, List.foldl_cons, List.foldl_nil, a.apply_eq accepted]
  rfl

/-- What holds of a new ADI and is kept by each access holds after all. -/
theorem cfgAfter_induction {I : List CfgAccess → CfgSpace → Prop}
    (start : I [] (pciConfigSpaceInit numVectors))
    (keep : ∀ as a cfg, a.refused = false → I as cfg → I (as ++ [a]) (a.change cfg))
    (accepted : ∀ a ∈ as, a.refused = false) : I as (cfgAfter numVectors as) := by
  induction as using List.reverseRecOn with
  | nil => exact start
  | append_singleton as a ih =>
    have last : a.refused = false := accepted a (by simp)
    rw [cfgAfter_append last]
    exact keep as a _ last (ih fun b mem => accepted b (List.mem_append_left _ mem))

end Accesses

section Bits

/-- The header byte with writable bits `mask`, where those in `s` are cut from what is written. -/
theorem ro_kept {old init b mask s : BitVec 8}
    (same : old &&& (~~~mask ||| s) = init &&& (~~~mask ||| s))
    (zero : init &&& s &&& mask = 0#8) :
    (old &&& ~~~mask ||| b &&& ~~~s &&& mask) &&& (~~~mask ||| s) = init &&& (~~~mask ||| s) := by
  apply BitVec.eq_of_getLsbD_eq
  intro k hk
  have same := congrArg (BitVec.getLsbD · k) same
  have zero := congrArg (BitVec.getLsbD · k) zero
  simp only [BitVec.getLsbD_and, BitVec.getLsbD_or, BitVec.getLsbD_not, hk, decide_true,
    Bool.true_and, BitVec.getLsbD_zero] at same zero ⊢
  revert same zero
  generalize old.getLsbD k = o, init.getLsbD k = i, b.getLsbD k = b, mask.getLsbD k = m,
    s.getLsbD k = s
  revert o i b m s
  decide

theorem or_and_absorb (a s : BitVec 8) : (a ||| s) &&& a = a := by
  apply BitVec.eq_of_getLsbD_eq
  intro k hk
  simp only [BitVec.getLsbD_and, BitVec.getLsbD_or]
  generalize a.getLsbD k = a, s.getLsbD k = s
  revert a s
  decide

theorem w1c_kept (old b mask : BitVec 8) :
    (old &&& ~~~mask ||| ~~~(b &&& mask) &&& old &&& mask) &&& ~~~mask = old &&& ~~~mask ∧
      (old &&& ~~~mask ||| ~~~(b &&& mask) &&& old &&& mask) &&& mask = old &&& mask &&& ~~~b := by
  constructor
  all_goals
    apply BitVec.eq_of_getLsbD_eq
    intro k hk
    simp only [BitVec.getLsbD_and, BitVec.getLsbD_or, BitVec.getLsbD_not, hk, decide_true,
      Bool.true_and]
    generalize old.getLsbD k = o, b.getLsbD k = b, mask.getLsbD k = m
    revert o b m
    decide

end Bits

section Law
variable {numVectors : Nat} {as : List CfgAccess} {a : CfgAccess} {off : Nat} {mask : BitVec 8}

theorem csrRwBmp_none (behind : 64 ≤ off) : csrRwBmp[off]? = none := List.getElem?_eq_none behind

theorem headerRo_eq (writable : csrRwBmp[off]? = some mask) :
    headerRo off = ~~~mask ||| barSizeBits off := by
  rw [headerRo, writable]

theorem cfgByte_eq (writable : csrRwBmp[off]? = some mask) (other : off ≠ 7) (old new : BitVec 8) :
    cfgByte off old new = old &&& ~~~mask ||| new &&& mask := by
  unfold cfgByte
  rw [writable]
  dsimp only
  rw [if_neg other]

/-- `PCI_STATUS + 1` -/
theorem cfgByte_status (old new : BitVec 8) :
    cfgByte 7 old new = old &&& ~~~0xf9 ||| ~~~(new &&& 0xf9) &&& old &&& 0xf9 := rfl

theorem pciConfigSpaceInit_header (header : off < 64) : pciConfigSpaceInit numVectors off =
    (vdcmPciConfig.getD (off / 8) 0).extractLsb' (8 * (off % 8)) 8 :=
  if_neg (by omega)

theorem pciConfigSpaceInit_zero (writable : csrRwBmp[off]? = some mask) :
    pciConfigSpaceInit numVectors off &&& barSizeBits off &&& mask = 0#8 := by
  have header : off < 64 := (List.getElem?_eq_some_iff.mp writable).1
  have all : ∀ off < 64, (vdcmPciConfig.getD (off / 8) 0).extractLsb' (8 * (off % 8)) 8 &&&
      barSizeBits off &&& csrRwBmp.getD off 0 = 0#8 := by
    decide
  have here := all off header
  rw [List.getD_eq_getElem?_getD, List.getD_eq_getElem?_getD, writable, Option.getD_some,
    ← List.getD_eq_getElem?_getD] at here
  rw [pciConfigSpaceInit_header header]
  exact here

def RoKept (numVectors : Nat) (cfg : CfgSpace) : Prop :=
  ∀ off, cfg off &&& headerRo off = pciConfigSpaceInit numVectors off &&& headerRo off

theorem RoKept.change {cfg : CfgSpace} (kept : RoKept numVectors cfg) :
    RoKept numVectors (a.change cfg) := by
  intro off
  unfold CfgAccess.change
  split
  · exact kept off
  next b supplied =>
    have before := kept off
    cases writable : csrRwBmp[off]? with
    | none =>
      have ro : headerRo off = 0#8 := by rw [headerRo, writable]; rfl
      rw [ro, BitVec.and_zero, BitVec.and_zero]
    | some mask =>
      rw [headerRo_eq writable] at before ⊢
      by_cases status : off = 7
      · subst status
        obtain rfl : 0xf9 = mask := Option.some.inj writable
        have uncut : barSizeBits 7 = 0#8 := rfl
        rw [uncut, BitVec.or_zero] at before ⊢
        rw [cfgByte_status, (w1c_kept _ _ _).1]
        exact before
      · rw [cfgByte_eq writable status]
        exact ro_kept before (pciConfigSpaceInit_zero writable)

theorem roKept_cfgAfter (accepted : ∀ a ∈ as, a.refused = false) :
    RoKept numVectors (cfgAfter numVectors as) :=
  cfgAfter_induction (I := fun _ => RoKept numVectors) (fun _ => rfl)
    (fun _ _ _ _ kept => kept.change) accepted

theorem cfgAfter_status (accepted : a.refused = false) :
    cfgAfter numVectors (as ++ [a]) 7 &&& 0xf9 =
      cfgAfter numVectors as 7 &&& 0xf9 &&& ~~~((a.byteAt 7).getD 0) := by
  rw [cfgAfter_append accepted]
  unfold CfgAccess.change
  cases a.byteAt 7 with
  | none =>
    dsimp only [Option.getD_none]
    rw [show ~~~(0 : BitVec 8) = BitVec.allOnes 8 from rfl, BitVec.and_allOnes]
  | some b =>
    have uncut : ~~~barSizeBits 7 = BitVec.allOnes 8 := rfl
    dsimp only [Option.getD_some]
    rw [uncut, BitVec.and_allOnes, cfgByte_status, (w1c_kept _ _ _).2]

theorem lastByte_append : lastByte off (as ++ [a]) = (a.byteAt off).or (lastByte off as) := by
  rw [lastByte, List.foldl_append]
  rfl

theorem cfgAfter_copied (accepted : ∀ a ∈ as, a.refused = false) (behind : 64 ≤ off) :
    cfgAfter numVectors as off = (lastByte off as).getD (pciConfigSpaceInit numVectors off) := by
  refine cfgAfter_induction (I := fun as cfg =>
    cfg off = (lastByte off as).getD (pciConfigSpaceInit numVectors off)) rfl
    (fun as a cfg _ before => ?_) accepted
  rw [lastByte_append, CfgAccess.change]
  cases a.byteAt off with
  | none => exact before
  | some b =>
    have uncut : barSizeBits off = 0#8 := barSizeBits_zero (by omega)
    dsimp only [Option.some_or, Option.getD_some]
    rw [cfgByte, csrRwBmp_none behind, uncut, BitVec.not_zero, BitVec.and_allOnes]

theorem lastWord_append : lastWord off (as ++ [a]) =
    if a.pos = off then if a.buf.length = 4 then some (leWord (a.buf.getD · 0)) else none
    else lastWord off as := by
  unfold lastWord
  rw [List.reverse_append, List.reverse_cons, List.reverse_nil, List.nil_append, List.cons_append,
    List.nil_append, List.find?_cons]
  by_cases here : a.pos = off
  · simp only [here, decide_true, if_true, Option.bind_some]
  · simp only [here, decide_false, if_false]

theorem byteAt_half (half : off % 4 = 0 ∧ 0x10 ≤ off ∧ off ≤ 0x20) (accepted : a.refused = false)
    (other : a.pos ≠ off) {i : Nat} (inside : i < 4) : a.byteAt (off + i) = none := by
  cases supplied : a.byteAt (off + i) with
  | none => rfl
  | some b =>
    obtain ⟨first, last⟩ := CfgAccess.byteAt_some supplied
    simp only [CfgAccess.refused, Bool.or_eq_false_iff, Bool.and_eq_false_imp, Bool.and_eq_true,
      decide_eq_true_eq, decide_eq_false_iff_not, and_imp, not_not] at accepted
    have aligned := a.aligned
    have word := accepted.2
    rcases a.width with w | w | w
    all_goals
      rw [w] at aligned last
      omega

/-- The writable bits of a BAR half are those of the last word, less those below the size. -/
theorem cfgAfter_half (half : off % 4 = 0 ∧ 0x10 ≤ off ∧ off ≤ 0x20)
    (accepted : ∀ a ∈ as, a.refused = false) {w : BitVec 32} (last : lastWord off as = some w)
    {i : Nat} (inside : i < 4) (writable : csrRwBmp[off + i]? = some mask) :
    cfgAfter numVectors as (off + i) = pciConfigSpaceInit numVectors (off + i) &&& ~~~mask |||
      leByte w i &&& ~~~barSizeBits (off + i) &&& mask := by
  refine (cfgAfter_induction (I := fun as cfg => RoKept numVectors cfg ∧
    ∀ w, lastWord off as = some w → cfg (off + i) = pciConfigSpaceInit numVectors (off + i) &&&
      ~~~mask ||| leByte w i &&& ~~~barSizeBits (off + i) &&& mask) ⟨fun _ => rfl, fun _ none =>
        nomatch none⟩ (fun as a cfg good before => ⟨before.1.change, fun w last => ?_⟩) accepted).2
    w last
  rw [lastWord_append] at last
  by_cases here : a.pos = off
  · rw [if_pos here, Option.ite_none_right_eq_some] at last
    obtain ⟨four, eq⟩ := last
    obtain rfl := Option.some.inj eq
    have supplied : a.byteAt (off + i) = some (a.buf.getD i 0) := by
      rw [CfgAccess.byteAt, here, if_pos (Nat.le_add_right _ _), Nat.add_sub_cancel_left,
        List.getD_eq_getElem?_getD, List.getElem?_eq_getElem (by omega), Option.getD_some]
    have ro := before.1 (off + i)
    rw [headerRo_eq writable] at ro
    have kept : cfg (off + i) &&& ~~~mask =
        pciConfigSpaceInit numVectors (off + i) &&& ~~~mask := by
      have both := congrArg (· &&& ~~~mask) ro
      simpa only [BitVec.and_assoc, or_and_absorb] using both
    rw [CfgAccess.change, supplied]
    dsimp only
    rw [cfgByte_eq writable (by omega), kept, leByte_leWord _ inside]
  · rw [if_neg here] at last
    rw [CfgAccess.change, byteAt_half half good here inside]
    exact before.2 w last

/-- The half as a word: what stays of the new ADI, and what is taken over. -/
theorem readWord_half (half : off % 4 = 0 ∧ 0x10 ≤ off ∧ off ≤ 0x20)
    (accepted : ∀ a ∈ as, a.refused = false) {w keep take : BitVec 32}
    (kept : ∀ i < 4, leByte keep i =
      (vdcmPciConfig.getD ((off + i) / 8) 0).extractLsb' (8 * ((off + i) % 8)) 8 &&&
        ~~~csrRwBmp.getD (off + i) 0)
    (taken : ∀ i < 4, leByte take i = ~~~barSizeBits (off + i) &&& csrRwBmp.getD (off + i) 0)
    (last : lastWord off as = some w) :
    readWord (cfgAfter numVectors as) off = keep ||| w &&& take := by
  have byte : ∀ i < 4, cfgAfter numVectors as (off + i) =
      leByte keep i ||| leByte w i &&& leByte take i := by
    intro i inside
    have header : off + i < csrRwBmp.length := by
      change off + i < 64
      omega
    have writable : csrRwBmp[off + i]? = some (csrRwBmp.getD (off + i) 0) := by
      rw [List.getD_eq_getElem?_getD, List.getElem?_eq_getElem header, Option.getD_some]
    rw [cfgAfter_half half accepted last inside writable, pciConfigSpaceInit_header header,
      kept i inside, taken i inside, BitVec.and_assoc]
  rw [readWord, leWord_congr byte, leWord_or, leWord_and, leWord_leByte, leWord_leByte,
    leWord_leByte]

theorem lastBar_some {address : BitVec 64} (last : lastBar off as = some address) : ∃ hi lo,
    lastWord off as = some lo ∧ lastWord (off + 4) as = some hi ∧ address = address64 hi lo := by
  obtain ⟨lo, low, rest⟩ := Option.bind_eq_some_iff.mp last
  obtain ⟨hi, high, rfl⟩ := Option.map_eq_some_iff.mp rest
  exact ⟨hi, lo, low, high, rfl⟩

theorem or_of_keep_nothing (w : BitVec 32) : 0#32 ||| w &&& ~~~0#32 = w := by
  rw [BitVec.not_zero, BitVec.and_allOnes, BitVec.zero_or]

/-- BAR0: the upper half is all writable. -/
theorem readBar0 (accepted : ∀ a ∈ as, a.refused = false) {address : BitVec 64}
    (last : lastBar 0x10 as = some address) :
    (address &&& (0x4000000 - 1) = 0 → readBar (cfgAfter numVectors as) 0x10 = address ||| 0xc) ∧
      (address = ~~~0 →
        readBar (cfgAfter numVectors as) 0x10 = ~~~(0x4000000 - 1) ||| 0xc) := by
  obtain ⟨hi, lo, low, high, rfl⟩ := lastBar_some last
  have upper : readWord (cfgAfter numVectors as) 0x14 = 0#32 ||| hi &&& ~~~0#32 :=
    readWord_half (by decide) accepted (by decide) (by decide) high
  have lower : readWord (cfgAfter numVectors as) 0x10 = 0xc#32 ||| lo &&& ~~~0x3ffffff#32 :=
    readWord_half (by decide) accepted (by decide) (by decide) low
  rw [or_of_keep_nothing] at upper
  have halves : readBar (cfgAfter numVectors as) 0x10 = address64
    (readWord (cfgAfter numVectors as) 0x14) (readWord (cfgAfter numVectors as) 0x10) := rfl
  rw [halves, upper, lower]
  constructor
  · intro aligned
    have cut : address64 (hi &&& 0#32) (lo &&& 0x3ffffff#32) = address64 0#32 0#32 :=
      (address64_and hi lo 0#32 0x3ffffff#32).symm.trans aligned
    rw [and_not_of_and_eq_zero (address64_inj cut).2, BitVec.or_comm]
    have flags := address64_or hi lo 0#32 0xc#32
    rw [BitVec.or_zero] at flags
    exact flags.symm
  · intro ones
    have all : address64 hi lo = address64 (~~~0#32) (~~~0#32) := ones
    obtain ⟨rfl, rfl⟩ := address64_inj all
    decide

/-- BAR3: the lowest bits of the upper half are not writable. -/
theorem readBar3 (accepted : ∀ a ∈ as, a.refused = false) {address : BitVec 64}
    (last : lastBar 0x1c as = some address) (aligned : address &&& (0x4000 - 1) = 0)
    (small : address &&& 0xf00000000 = 0) :
    readBar (cfgAfter numVectors as) 0x1c = address ||| 0xc := by
  obtain ⟨hi, lo, low, high, rfl⟩ := lastBar_some last
  have upper : readWord (cfgAfter numVectors as) 0x20 = 0#32 ||| hi &&& ~~~0xf#32 :=
    readWord_half (by decide) accepted (by decide) (by decide) high
  have lower : readWord (cfgAfter numVectors as) 0x1c = 0xc#32 ||| lo &&& ~~~0x3fff#32 :=
    readWord_half (by decide) accepted (by decide) (by decide) low
  have cut : address64 (hi &&& 0#32) (lo &&& 0x3fff#32) = address64 0#32 0#32 :=
    (address64_and hi lo 0#32 0x3fff#32).symm.trans aligned
  have nibble : address64 (hi &&& 0xf#32) (lo &&& 0#32) = address64 0#32 0#32 :=
    (address64_and hi lo 0xf#32 0#32).symm.trans small
  have flags := address64_or hi lo 0#32 0xc#32
  rw [BitVec.or_zero] at flags
  have halves : readBar (cfgAfter numVectors as) 0x1c = address64
    (readWord (cfgAfter numVectors as) 0x20) (readWord (cfgAfter numVectors as) 0x1c) := rfl
  rw [halves, upper, lower,
    and_not_of_and_eq_zero (address64_inj cut).2, and_not_of_and_eq_zero (address64_inj nibble).1,
    BitVec.zero_or, BitVec.or_comm]
  exact flags.symm

end Law

section Supplied

theorem cfgWrite_behind (pos : Nat) {buf : List (BitVec 8)} (behind behind' : List (BitVec 8))
    (cfg : CfgSpace) (width : buf.length ≤ 4) :
    cfgWrite pos buf behind cfg = cfgWrite pos buf behind' cfg := by
  unfold cfgWrite cfgWriteBar
  simp only [barBytes_eq buf behind _ width, barBytes_eq buf behind' _ width]

theorem accessSize_le (pos count : Nat) : accessSize pos count ≤ 4 := by
  unfold accessSize
  split
  · decide
  · split <;> decide

theorem devWriteLoop_behind (behind behind' : Nat → List (BitVec 8)) (pos : Nat)
    (buf : List (BitVec 8)) (readable done : Nat) (cfg : CfgSpace) :
    devWriteLoop behind pos buf readable done cfg =
      devWriteLoop behind' pos buf readable done cfg := by
  fun_induction devWriteLoop behind pos buf readable done cfg with
  | case1 pos buf readable done cfg nothing =>
    rw [devWriteLoop, if_pos nothing]
  | case2 pos buf readable done cfg some_bytes filled short =>
    rw [devWriteLoop, if_neg some_bytes]
    dsimp only
    rw [if_pos short]
  | case3 pos buf readable done cfg some_bytes filled enough refused =>
    have width : (buf.take filled).length ≤ 4 :=
      (List.length_take_le _ _).trans (accessSize_le pos buf.length)
    rw [cfgWrite_behind pos (behind pos) (behind' pos) cfg width] at refused
    rw [devWriteLoop, if_neg some_bytes]
    dsimp only
    rw [if_neg enough, refused]
  | case4 pos buf readable done cfg some_bytes filled enough cfg' written ih =>
    have width : (buf.take filled).length ≤ 4 :=
      (List.length_take_le _ _).trans (accessSize_le pos buf.length)
    rw [cfgWrite_behind pos (behind pos) (behind' pos) cfg width] at written
    rw [ih, devWriteLoop.eq_def behind' pos, if_neg some_bytes]
    dsimp only
    rw [if_neg enough, written]

theorem devWrites_behind (behind : GuestWrite → Nat → List (BitVec 8)) (ws : List GuestWrite)
    (cfg : CfgSpace) :
    devWrites (ws.map fun w => { w with behind := behind w }) cfg = devWrites ws cfg := by
  rw [devWrites, List.foldl_map]
  congr 1
  funext cfg w
  exact congrArg Prod.snd (devWriteLoop_behind (behind w) w.behind w.pos w.buf w.readable 0 cfg)

end Supplied

/-- For any writes of a guest, of any lengths and at any offsets. -/
theorem config_law (numVectors : Nat) (ws : List GuestWrite) : ConfigLaw numVectors ws where
  performed := devWrites_eq ws
  readOnly := fun _ pre => roKept_cfgAfter fun a mem => accesses_accepted a (pre.subset mem)
  cleared := fun as a pre =>
    cfgAfter_status (accesses_accepted a (pre.subset (List.mem_append_right as List.mem_cons_self)))
  copied := fun _ pre _ behind =>
    cfgAfter_copied (fun a mem => accesses_accepted a (pre.subset mem)) behind
  bar0 := fun _ pre _ last => readBar0 (fun a mem => accesses_accepted a (pre.subset mem)) last
  bar3 := fun _ pre _ last aligned small =>
    readBar3 (fun a mem => accesses_accepted a (pre.subset mem)) last aligned small
  supplied := fun behind => devWrites_behind behind ws _

/-- The guest writes the control word of MSI-X, and the table has another size and place. -/
theorem msix_size_written : ∃ w : GuestWrite,
    pciConfigSpaceInit 9 0x42 = 8 ∧ (devWrite w (pciConfigSpaceInit 9)).2 0x42 = 0xff ∧
      pciConfigSpaceInit 9 0x44 = 3 ∧ (devWrite w (pciConfigSpaceInit 9)).2 0x44 = 0 := by
  refine ⟨⟨0x40, [0x11, 0, 0xff, 0x07, 0, 0, 0, 0], 8, fun _ => []⟩, rfl, ?_, rfl, ?_⟩
  · simp [devWrite, devWriteLoop, accessSize, cfgWrite, cfgWriteMask, cfgByte, csrRwBmp]
  · simp [devWrite, devWriteLoop, accessSize, cfgWrite, cfgWriteMask, cfgByte, csrRwBmp]

end Idpf
