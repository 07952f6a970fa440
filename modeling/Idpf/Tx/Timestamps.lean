import Idpf.Rx.Fields
import Mathlib.Tactic.IntervalCases
import Mathlib.Tactic.Ring

/-! Times that pass through 24 bits of a Tx descriptor: the completion timestamps, which are
extended around a cached time of the device, and the launch times of flow scheduling. -/
namespace Idpf

/-- The three bytes of a timestamp field. -/
structure DescTs where
  b0 : Nat := 0
  b1 : Nat := 0
  b2 : Nat := 0
  deriving DecidableEq, Repr

def DescTs.val (ts : DescTs) : Nat := ts.b0 ||| ts.b1 <<< 8 ||| ts.b2 <<< 16

def DescTs.of (x : Nat) : DescTs := ⟨x % 256, x / 256 % 256, x / 65536 % 256⟩

theorem or_shiftLeft {low k : Nat} (small : low < 2 ^ k) (high : Nat) :
    low ||| high <<< k = low + high * 2 ^ k := by
  rw [Nat.or_comm, ← Nat.shiftLeft_add_eq_or_of_lt small, Nat.shiftLeft_eq, Nat.add_comm]

theorem DescTs.val_of_bytes {b0 b1 : Nat} (low : b0 < 256) (mid : b1 < 256) (b2 : Nat) :
    DescTs.val ⟨b0, b1, b2⟩ = b0 + b1 * 256 + b2 * 65536 := by
  have first : b0 ||| b1 <<< 8 = b0 + b1 * 2 ^ 8 := or_shiftLeft low b1
  unfold DescTs.val
  dsimp only
  rw [first, or_shiftLeft (show _ < 2 ^ 16 by omega)]
  rfl

theorem DescTs.val_of (x : Nat) : (DescTs.of x).val = x % 16777216 := by
  rw [DescTs.of, DescTs.val_of_bytes (Nat.mod_lt _ (by decide)) (Nat.mod_lt _ (by decide))]
  omega

/-- A time is within half of 2^32 of the cached one. -/
def NearPhc (cachedPhcTime t : Nat) : Prop :=
  (t + 2147483648 + (18446744073709551616 - cachedPhcTime)) % 18446744073709551616 < 4294967296

instance (c t : Nat) : Decidable (NearPhc c t) := inferInstanceAs (Decidable (_ < _))

/-- The extension is the one time near the cached one that has the low bits. -/
theorem tstampExtend_eq_iff {c x t : Nat} (cached : c < 18446744073709551616)
    (bits : x < 4294967296) (time : t < 18446744073709551616) :
    tstampExtend c x = t ↔ t % 4294967296 = x ∧ NearPhc c t := by
  unfold tstampExtend NearPhc u32Sub u32
  dsimp only
  split
  · omega
  · omega

/-- What the Tx queue keeps for completion timestamps, `tstmp_en` and the `u8` shift. -/
structure TxqTstamp where
  tstmpEn : Bool := false
  cmplTstampNsS : Nat := 0

/-- The part of `idpf_txq_group_alloc` about completion timestamps. -/
def txqTstampAlloc (txComplTstampGranS : Nat) : TxqTstamp :=
  if txComplTstampGranS ≠ 0 then ⟨true, txComplTstampGranS % 256⟩ else {}

/-- What `idpf_tx_hw_tstamp` tells the stack. A `u32` cannot be shifted by 32 or more. -/
inductive HwTstamp where
  | silent | undefined | report (ns : Nat)
  deriving DecidableEq, Repr

/-- `idpf_tx_hw_tstamp`; `wanted` is the skb's `SKBTX_HW_TSTAMP`. -/
def txHwTstamp (txq : TxqTstamp) (wanted : Bool) (cachedPhcTime : Nat) (descTs : DescTs) :
    HwTstamp :=
  if !wanted || !txq.tstmpEn then .silent
  else if txq.cmplTstampNsS ≥ 32 then .undefined
  else .report (tstampExtend cachedPhcTime (u32 (descTs.val <<< txq.cmplTstampNsS)))

/-- The bytes the device writes for a packet that leaves at `t`, in units of `2 ^ s` ns. -/
def cmplTs (s t : Nat) : DescTs := .of (t / 2 ^ s)

/-- The low bits of a time, rounded down to units of `2 ^ s`, are cut at 24 units and at 32 bits. -/
theorem cmplTs_bits {s : Nat} (defined : s < 32) (t : Nat) :
    u32 ((cmplTs s t).val <<< s) = t / 2 ^ s * 2 ^ s % 4294967296 ↔
      8 ≤ s ∨ t % 4294967296 < 2 ^ (24 + s) := by
  have units : (cmplTs s t).val <<< s = t / 2 ^ s % 16777216 * 2 ^ s := by
    rw [cmplTs, DescTs.val_of, Nat.shiftLeft_eq]
  rw [units]
  unfold u32
  by_cases wide : 8 ≤ s
  · -- 24 bits and the shift fill the word
    obtain ⟨k, rfl⟩ := Nat.exists_eq_add_of_le wide
    refine iff_of_true ?_ (.inl wide)
    have word : t / 2 ^ (8 + k) * 2 ^ (8 + k) = t / 2 ^ (8 + k) % 16777216 * 2 ^ (8 + k) +
        4294967296 * (t / 2 ^ (8 + k) / 16777216 * 2 ^ k) := by
      generalize t / 2 ^ (8 + k) = m
      rw [Nat.pow_add]
      have parts := Nat.mod_add_div m 16777216
      calc m * (2 ^ 8 * 2 ^ k) = (m % 16777216 + 16777216 * (m / 16777216)) * (2 ^ 8 * 2 ^ k) := by
            rw [parts]
        _ = _ := by ring
    rw [word, Nat.add_mul_mod_self_left]
  · have narrow : s < 8 := not_le.mp wide
    interval_cases s <;> omega

/-- The report for a packet that leaves at `t` is `t` rounded down. -/
theorem txHwTstamp_eq_iff {g c t : Nat} (cached : c < 18446744073709551616)
    (time : t < 18446744073709551616) (accepted : 0 < g) (octet : g < 256) :
    txHwTstamp (txqTstampAlloc g) true c (cmplTs g t) = .report (t / 2 ^ g * 2 ^ g) ↔
      g < 32 ∧ NearPhc c (t / 2 ^ g * 2 ^ g) ∧ (8 ≤ g ∨ t % 4294967296 < 2 ^ (24 + g)) := by
  have queue : txqTstampAlloc g = ⟨true, g⟩ := by
    rw [txqTstampAlloc, if_pos (Nat.ne_of_gt accepted), Nat.mod_eq_of_lt octet]
  rw [queue]
  change (if g ≥ 32 then HwTstamp.undefined
    else .report (tstampExtend c (u32 ((cmplTs g t).val <<< g)))) = _ ↔ _
  by_cases defined : g < 32
  · have floor : t / 2 ^ g * 2 ^ g < 18446744073709551616 :=
      Nat.lt_of_le_of_lt (Nat.div_mul_le_self t (2 ^ g)) time
    rw [if_neg (Nat.not_le.mpr defined), HwTstamp.report.injEq,
      tstampExtend_eq_iff cached (u32_lt _) floor, eq_comm, cmplTs_bits defined, and_comm]
    exact (and_iff_right defined).symm
  · rw [if_pos (Nat.not_lt.mp defined)]
    exact iff_of_false HwTstamp.noConfusion fun all => defined all.1

/-- The range that 24 bits in units of `2 ^ s` ns can tell around the cached time. -/
def CmplRange (s c t : Nat) : Prop :=
  (t + 2 ^ (23 + s) + (18446744073709551616 - c)) % 18446744073709551616 < 2 ^ (24 + s)

/-- Extending 32 bits is exact within half of their range. For the completion timestamps it is
known exactly which times are reported rounded down to the granularity. -/
theorem tstamp_extension_iff {c t : Nat} (cached : c < 18446744073709551616)
    (time : t < 18446744073709551616) :
    (-2147483648 ≤ (t : Int) - c → (t : Int) - c < 2147483648 → tstampExtend c (u32 t) = t) ∧
    ∀ g : Nat, 0 < g → g < 256 →
      (txHwTstamp (txqTstampAlloc g) true c (cmplTs g t) = .report (t / 2 ^ g * 2 ^ g) ↔
        g < 32 ∧ NearPhc c (t / 2 ^ g * 2 ^ g) ∧
          (8 ≤ g ∨ t % 4294967296 < 2 ^ (24 + g))) := by
  constructor
  · intro after before
    refine (tstampExtend_eq_iff cached (u32_lt t) time).mpr ⟨rfl, ?_⟩
    unfold NearPhc
    omega
  · intro g accepted octet
    exact txHwTstamp_eq_iff cached time accepted octet

/-- A time that is reported and one before the cached time, across a wrap of its low 32 bits. -/
theorem tstamp_extension_wrap :
    tstampExtend 4294967300 (u32 4294967290) = 4294967290 ∧
      txHwTstamp (txqTstampAlloc 8) true 4294967300 (cmplTs 8 4294967290) =
        .report 4294967040 := by
  have both := tstamp_extension_iff (c := 4294967300) (t := 4294967290) (by decide) (by decide)
  constructor
  · exact both.1 (by decide) (by decide)
  · exact (both.2 8 (by decide) (by decide)).mpr ⟨by decide, by decide, .inl (by decide)⟩

/-- In units of 2 ns the device tells 25 bits, which are extended as if they were 32: a packet that
leaves at the cached time is reported a second early. -/
theorem cmpl_tstamp_narrow :
    CmplRange 1 1073741824 1073741824 ∧
      txHwTstamp (txqTstampAlloc 1) true 1073741824 (cmplTs 1 1073741824) = .report 0 ∧
      1073741824 / 2 ^ 1 * 2 ^ 1 = 1073741824 := by
  refine ⟨?_, by decide +kernel, rfl⟩
  unfold CmplRange
  decide

/-- `tw_ts_gran_s` and `tw_horizon` of a vport. -/
structure EdtParams where
  twTsGranS : Nat := 0
  twHorizon : Nat := 0

/-- The `while` loop of `idpf_vport_edt_init`. -/
def twGranLoop (s twGranM : Nat) : Nat :=
  if twGranM >>> 1 ≠ 0 then twGranLoop (s + 1) (twGranM >>> 1) else s
termination_by twGranM
decreasing_by
  rw [Nat.shiftRight_eq_div_pow] at *
  omega

/-- `idpf_vport_edt_init`, on a vport that has just been allocated. -/
def vportEdtInit (edt : Bool) (tstampGranularityNs timeHorizonNs : Nat) : EdtParams :=
  if !edt then {}
  else
    let twGranM := (tstampGranularityNs + 18446744073709551615) % 18446744073709551616
    ⟨twGranLoop 0 twGranM + 1, timeHorizonNs⟩

/-- `idpf_get_flow_sche_tstamp`, with the launch time of the skb and the current time. The field is
zero before. -/
def getFlowScheTstamp (vport : EdtParams) (tsNs curTime : Nat) : DescTs :=
  if tsNs = 0 then { b0 := 1 }
  else if tsNs > (curTime + vport.twHorizon) % 18446744073709551616 then { b2 := 0x80 }
  else
    let tsVal := max tsNs curTime >>> vport.twTsGranS
    ⟨tsVal &&& 0xff, (tsVal >>> 8) &&& 0xff, (tsVal >>> 16) &&& 0x7f⟩

/-- The loop counts the halvings of what it is given. -/
theorem twGranLoop_ones (s k : Nat) : twGranLoop s (2 ^ (k + 1) - 1) = s + k := by
  have half : (2 ^ (k + 1) - 1) >>> 1 = 2 ^ k - 1 := by
    rw [Nat.shiftRight_eq_div_pow, Nat.pow_succ]
    omega
  have pos := Nat.two_pow_pos k
  induction k generalizing s with
  | zero =>
      rw [twGranLoop, half]
      rfl
  | succ k ih =>
      have more : 2 ^ (k + 1) - 1 ≠ 0 := by
        rw [Nat.pow_succ] at pos ⊢
        omega
      rw [twGranLoop, half, if_pos more, ih]
      · omega
      · rw [Nat.shiftRight_eq_div_pow, Nat.pow_succ]
        omega
      · exact Nat.two_pow_pos k

/-- A granularity of 1 ns becomes one of 2 ns. -/
theorem vportEdtInit_pow {k : Nat} (fits : k < 64) (horizon : Nat) :
    vportEdtInit true (2 ^ k) horizon = ⟨max k 1, horizon⟩ := by
  have pos := Nat.two_pow_pos k
  have word : 2 ^ k < 2 ^ 64 := Nat.pow_lt_pow_right (by decide) fits
  have minus : (2 ^ k + 18446744073709551615) % 18446744073709551616 = 2 ^ k - 1 := by omega
  unfold vportEdtInit
  dsimp only
  rw [minus, if_neg (by decide)]
  cases k with
  | zero =>
      rw [twGranLoop]
      rfl
  | succ k =>
      rw [twGranLoop_ones, Nat.zero_add, Nat.max_eq_left (Nat.succ_pos k)]

/-- The field a launch time should have, by the comment on its format. -/
def launchField (k horizon now ts : Nat) : Nat :=
  if ts > now + horizon then 2 ^ 23
  else
    let units := max ts now / 2 ^ k % 2 ^ 23
    if units = 0 then 1 else units

theorem launchField_ne_zero (k horizon now ts : Nat) : launchField k horizon now ts ≠ 0 := by
  unfold launchField
  split
  · decide
  · dsimp only
    split
    · exact Nat.one_ne_zero
    · assumption

def LaunchFits (k horizon now ts : Nat) : Prop :=
  ts > now + horizon ∨
    (now + horizon < 18446744073709551616 ∨ ts + 18446744073709551616 ≤ now + horizon) ∧
      (0 < k ∧ max ts now / 2 ^ k % 2 ^ 23 ≠ 0 ∨ k = 0 ∧ max ts now % 2 ^ 24 = 2 ^ 24 - 1)

/-- The field the driver writes. -/
theorem getFlowScheTstamp_val (vport : EdtParams) {ts now : Nat} (asked : 0 < ts) :
    (getFlowScheTstamp vport ts now).val =
      if ts > (now + vport.twHorizon) % 18446744073709551616 then 2 ^ 23
      else max ts now / 2 ^ vport.twTsGranS % 2 ^ 23 := by
  unfold getFlowScheTstamp
  rw [if_neg (Nat.ne_of_gt asked)]
  split
  · rfl
  · dsimp only
    rw [Nat.shiftRight_eq_div_pow]
    generalize max ts now / 2 ^ vport.twTsGranS = units
    have octet (x : Nat) : x &&& 0xff = x % 256 := Nat.and_two_pow_sub_one_eq_mod x 8
    have upper (x : Nat) : x &&& 0x7f = x % 128 := Nat.and_two_pow_sub_one_eq_mod x 7
    rw [octet, octet, upper, DescTs.val_of_bytes (Nat.mod_lt _ (by decide))
      (Nat.mod_lt _ (by decide)), Nat.shiftRight_eq_div_pow, Nat.shiftRight_eq_div_pow]
    omega

/-- For every granularity that is a power of two it is known exactly which launch times are encoded
as the format asks. -/
theorem launch_time_iff {k horizon now ts : Nat} (gran : k < 64)
    (window : horizon < 18446744073709551616) (clock : now < 18446744073709551616)
    (time : ts < 18446744073709551616) (asked : 0 < ts) :
    let field := (getFlowScheTstamp (vportEdtInit true (2 ^ k) horizon) ts now).val
    field = launchField k horizon now ts ∧ field ≠ 0 ↔ LaunchFits k horizon now ts := by
  intro field
  have written : field = if ts > (now + horizon) % 18446744073709551616 then 2 ^ 23
      else max ts now / 2 ^ max k 1 % 2 ^ 23 := by
    change (getFlowScheTstamp (vportEdtInit true (2 ^ k) horizon) ts now).val = _
    rw [vportEdtInit_pow gran, getFlowScheTstamp_val _ asked]
  have shown (same : field = launchField k horizon now ts) : field ≠ 0 :=
    same ▸ launchField_ne_zero k horizon now ts
  rw [and_iff_left_of_imp shown]
  have small (x : Nat) : x % 2 ^ 23 < 2 ^ 23 := Nat.mod_lt x (by decide)
  rw [written]
  unfold launchField LaunchFits
  dsimp only
  by_cases beyond : ts > now + horizon
  · rw [if_pos beyond, if_pos (by omega)]
    exact iff_of_true rfl (.inl beyond)
  · rw [if_neg beyond, or_iff_right beyond]
    by_cases seen : now + horizon < 18446744073709551616 ∨ ts + 18446744073709551616 ≤ now + horizon
    · rw [if_neg (by omega), and_iff_right seen]
      cases k with
      | zero =>
          rw [Nat.max_eq_right (Nat.zero_le 1), Nat.pow_zero, Nat.div_one, Nat.pow_one]
          split
          · omega
          · omega
      | succ k =>
          have wide : max (k + 1) 1 = k + 1 := Nat.max_eq_left (Nat.succ_pos k)
          rw [wide]
          have units := small (max ts now / 2 ^ (k + 1))
          split
          · omega
          · omega
    · -- the sum wraps and comes out below the launch time
      rw [if_pos (by omega)]
      refine iff_of_false ?_ fun all => seen all.1
      have units := small (max ts now / 2 ^ k)
      split
      · decide
      · omega

/-- A launch time in units of 512 ns, and one beyond the horizon. -/
theorem launch_time_512 :
    (getFlowScheTstamp (vportEdtInit true (2 ^ 9) 1000000) 5000 4000).val = 9 ∧
      (getFlowScheTstamp (vportEdtInit true (2 ^ 9) 1000000) 2000000 4000).val = 2 ^ 23 := by
  constructor
  · have fits : LaunchFits 9 1000000 4000 5000 := .inr (by decide)
    exact ((launch_time_iff (by decide) (by decide) (by decide) (by decide) (by decide)).mpr fits).1
  · have fits : LaunchFits 9 1000000 4000 2000000 := .inl (by decide)
    exact ((launch_time_iff (by decide) (by decide) (by decide) (by decide) (by decide)).mpr fits).1

/-- A launch time of which the low bits are zero is written as no launch time at all; one in units
of 1 ns is halved; and with a horizon that wraps a launch time within it counts as beyond it. -/
theorem launch_time_lost :
    ((getFlowScheTstamp (vportEdtInit true (2 ^ 9) 1000000) 4294967296 4294967296).val = 0 ∧
      launchField 9 1000000 4294967296 4294967296 = 1) ∧
    ((getFlowScheTstamp (vportEdtInit true (2 ^ 0) 1000000) 5000 4000).val = 2500 ∧
      launchField 0 1000000 4000 5000 = 5000) ∧
    (getFlowScheTstamp (vportEdtInit true (2 ^ 9) (2 ^ 64 - 1)) 5000 4000).val = 2 ^ 23 ∧
      launchField 9 (2 ^ 64 - 1) 4000 5000 = 9 := by
  rw [vportEdtInit_pow (by decide), vportEdtInit_pow (by decide), vportEdtInit_pow (by decide)]
  decide +kernel

end Idpf
