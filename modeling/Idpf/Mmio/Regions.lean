import Mathlib.Data.BitVec
import Mathlib.Data.List.Basic

/-! The regions of BAR0 that the driver maps, and the search for the region of a register. -/
namespace Idpf

/-- `struct idpf_mmio_reg`; `vaddr` is 0 where nothing is mapped. -/
structure MmioReg where
  vaddr : BitVec 64
  addrStart : BitVec 64
  addrLen : BitVec 64
  deriving DecidableEq, Repr

/-- `idpf_reg_offset_in_region` -/
def regOffsetInRegion (region : MmioReg) (off : BitVec 64) : Bool :=
  if off < region.addrStart || region.addrLen < 4 then false
  else off - region.addrStart ≤ region.addrLen - 4

/-- `idpf_get_reg_addr`: none where it runs into BUG. -/
def getRegAddr : List MmioReg → BitVec 64 → Option (BitVec 64)
  | [], _ => none
  | region :: regions, off =>
    if regOffsetInRegion region off then some (region.vaddr + (off - region.addrStart))
    else getRegAddr regions off

/-- A `struct resource` as `resource_set_range` fills it. -/
structure RegWindow where
  start : BitVec 64
  stop : BitVec 64
  deriving DecidableEq, Repr

/-- `resource_set_range` -/
def RegWindow.ofRange (start size : BitVec 64) : RegWindow := ⟨start, start + size - 1⟩

/-- The devices that the driver has its own registers for. -/
inductive RegDevice where
  | pf
  | vf
  | siov
  deriving DecidableEq, Repr

/-- `static_reg_info`: the windows of the mailbox and of the reset status. -/
def RegDevice.staticRegInfo : RegDevice → RegWindow × RegWindow
  | .pf => (.ofRange 0x08400000 4096, .ofRange 0x08407000 2048)
  | .vf => (.ofRange 0x6000 10240, .ofRange 0x8800 2048)
  | .siov => (.ofRange 0x20000 4096, .ofRange 0x8800 2048)

def RegDevice.windows (dev : RegDevice) : RegWindow × RegWindow :=
  let (mbx, rstat) := dev.staticRegInfo
  if rstat.start < mbx.start then (rstat, mbx) else (mbx, rstat)

/-- `idpf_calc_remaining_mmio_regs`, for a BAR of `barLen` bytes. -/
def calcRemainingMmioRegs (dev : RegDevice) (barLen : BitVec 64) : List MmioReg :=
  let (first, second) := dev.windows
  [⟨0, 0, first.start⟩,
    ⟨0, first.stop + 1, second.start - (first.stop + 1)⟩,
    ⟨0, second.stop + 1, barLen - (second.stop + 1)⟩]

/-- A reply to GET_LAN_MEMORY_REGIONS: its length, and what the receive buffer has. -/
structure RegionReply where
  sz : Nat
  numMemoryRegions : BitVec 16
  memReg : Nat → BitVec 64 × BitVec 64

/-- `idpf_send_get_lan_memory_regions`: the regions, or an error. -/
def sendGetLanMemoryRegions (reply : Option RegionReply) (alloc : Bool) : Option (List MmioReg) :=
  match reply with
  | none => none
  | some reply =>
    let numRegions := reply.numMemoryRegions.toNat
    let size := 8 + 16 * numRegions
    if reply.sz < size then none
    else if 4096 < size then none
    else if !alloc then none
    else some ((List.range numRegions).map fun i => ⟨0, (reply.memReg i).1, (reply.memReg i).2⟩)

/-- `idpf_map_lan_mmio_regs` -/
def mapLanMmioRegs (ioremap : BitVec 64 → BitVec 64 → BitVec 64) (barStart : BitVec 64) :
    List MmioReg → Option (List MmioReg)
  | [] => some []
  | region :: regions =>
    if region.addrLen = 0 then (mapLanMmioRegs ioremap barStart regions).map (region :: ·)
    else
      let vaddr := ioremap (region.addrStart + barStart) region.addrLen
      if vaddr = 0 then none
      else (mapLanMmioRegs ioremap barStart regions).map ({ region with vaddr := vaddr } :: ·)

/-- What decides the regions: the device, whether it has the capability, the BAR, the reply, whether
memory can be had, and what `devm_ioremap` gives (0 is NULL). -/
structure RegionEnv where
  dev : RegDevice
  lanMemoryRegions : Bool
  barStart : BitVec 64
  barLen : BitVec 64
  reply : Option RegionReply
  alloc : Bool
  ioremap : BitVec 64 → BitVec 64 → BitVec 64

namespace RegionEnv

/-- Whether `idpf_vc_core_init` takes what the two windows leave of the BAR. -/
def fallback (env : RegionEnv) : Bool := !env.lanMemoryRegions || env.dev = .siov

def layout (env : RegionEnv) : Option (List MmioReg) :=
  if env.fallback then
    if env.alloc then some (calcRemainingMmioRegs env.dev env.barLen) else none
  else sendGetLanMemoryRegions env.reply env.alloc

/-- `hw->lan_regs` once `idpf_vc_core_init` has mapped it. -/
def lanRegs (env : RegionEnv) : Option (List MmioReg) :=
  env.layout.bind (mapLanMmioRegs env.ioremap env.barStart)

end RegionEnv

def MmioReg.Holds (region : MmioReg) (off : Nat) : Prop :=
  region.addrStart.toNat ≤ off ∧ off + 4 ≤ region.addrStart.toNat + region.addrLen.toNat

theorem regOffsetInRegion_iff (region : MmioReg) (off : BitVec 64) :
    regOffsetInRegion region off = true ↔ region.Holds off.toNat := by
  unfold regOffsetInRegion MmioReg.Holds
  have four : (4 : BitVec 64).toNat = 4 := rfl
  by_cases out : off < region.addrStart ∨ region.addrLen < 4
  · rw [if_pos (by simpa using out)]
    simp only [BitVec.lt_def, four] at out
    simp only [Bool.false_eq_true, false_iff, not_and, not_le]
    omega
  · rw [if_neg (by simpa using out)]
    simp only [BitVec.lt_def, four, not_or, not_lt] at out
    have low : region.addrStart ≤ off := BitVec.le_def.mpr out.1
    have least : (4 : BitVec 64) ≤ region.addrLen := BitVec.le_def.mpr out.2
    rw [decide_eq_true_eq, BitVec.le_def, BitVec.toNat_sub_of_le low,
      BitVec.toNat_sub_of_le least, four]
    omega

theorem getRegAddr_eq_some {regions : List MmioReg} {off addr : BitVec 64}
    (found : getRegAddr regions off = some addr) : ∃ region ∈ regions,
      region.Holds off.toNat ∧ addr = region.vaddr + (off - region.addrStart) := by
  induction regions with
  | nil => exact absurd found.symm (Option.some_ne_none _)
  | cons region regions ih =>
      unfold getRegAddr at found
      split at found
      next here =>
        exact ⟨region, List.mem_cons_self, (regOffsetInRegion_iff region off).mp here,
          (Option.some.inj found).symm⟩
      · obtain ⟨other, member, holds⟩ := ih found
        exact ⟨other, List.mem_cons_of_mem _ member, holds⟩

theorem getRegAddr_isSome_iff (regions : List MmioReg) (off : BitVec 64) :
    (getRegAddr regions off).isSome = true ↔ ∃ region ∈ regions, region.Holds off.toNat := by
  induction regions with
  | nil => simp [getRegAddr]
  | cons region regions ih =>
      unfold getRegAddr
      rw [List.exists_mem_cons_iff, ← regOffsetInRegion_iff]
      by_cases here : regOffsetInRegion region off = true
      · rw [if_pos here]
        exact iff_of_true rfl (.inl here)
      · rw [if_neg here, ih]
        exact ⟨.inr, fun either => either.resolve_left here⟩

/-- Where the regions can be mapped they keep their places, and each that is not empty has an
address. -/
theorem mapLanMmioRegs_spec {ioremap : BitVec 64 → BitVec 64 → BitVec 64} {barStart : BitVec 64}
    {regions mapped : List MmioReg} (done : mapLanMmioRegs ioremap barStart regions = some mapped) :
    (∀ off, (∃ region ∈ mapped, region.Holds off) ↔ ∃ region ∈ regions, region.Holds off) ∧
      ∀ region ∈ mapped, region.addrLen ≠ 0 → region.vaddr ≠ 0 := by
  induction regions generalizing mapped with
  | nil =>
      obtain rfl := Option.some.inj done
      exact ⟨fun _ => Iff.rfl, fun _ member => absurd member List.not_mem_nil⟩
  | cons region regions ih =>
      unfold mapLanMmioRegs at done
      split at done
      next empty =>
        obtain ⟨rest, restDone, rfl⟩ := Option.map_eq_some_iff.mp done
        obtain ⟨places, addresses⟩ := ih restDone
        constructor
        · intro off
          rw [List.exists_mem_cons_iff, List.exists_mem_cons_iff, places]
        · exact List.forall_mem_cons.mpr ⟨fun some => absurd empty some, addresses⟩
      · dsimp only at done
        split at done
        · cases done
        next address =>
          obtain ⟨rest, restDone, rfl⟩ := Option.map_eq_some_iff.mp done
          obtain ⟨places, addresses⟩ := ih restDone
          constructor
          · intro off
            rw [List.exists_mem_cons_iff, List.exists_mem_cons_iff, places]
            rfl
          · exact List.forall_mem_cons.mpr ⟨fun _ => address, addresses⟩

theorem mapLanMmioRegs_isSome_iff {ioremap : BitVec 64 → BitVec 64 → BitVec 64}
    {barStart : BitVec 64} {regions : List MmioReg} :
    (mapLanMmioRegs ioremap barStart regions).isSome = true ↔
      ∀ region ∈ regions, region.addrLen ≠ 0 →
        ioremap (region.addrStart + barStart) region.addrLen ≠ 0 := by
  induction regions with
  | nil => exact iff_of_true rfl fun _ member => absurd member List.not_mem_nil
  | cons region regions ih =>
      unfold mapLanMmioRegs
      rw [List.forall_mem_cons]
      split
      next empty =>
        rw [Option.isSome_map, ih]
        exact ⟨fun rest => ⟨fun some => absurd empty some, rest⟩, And.right⟩
      next long =>
        dsimp only
        split
        next unmapped => exact iff_of_false Bool.false_ne_true fun both => both.1 long unmapped
        next address =>
          rw [Option.isSome_map, ih]
          exact ⟨fun rest => ⟨fun _ => address, rest⟩, And.right⟩

/-- What the fallback has to be: no length underflows, so that the regions end where the windows and
the BAR say; the regions are disjoint, and none meets a window. -/
structure FallbackSound (dev : RegDevice) (barLen : BitVec 64) (regions : List MmioReg) : Prop where
  ends : regions.map (fun r => r.addrStart.toNat + r.addrLen.toNat) =
    [dev.windows.1.start.toNat, dev.windows.2.start.toNat, barLen.toNat]
  disjoint : regions.Pairwise fun r q =>
    r.addrStart.toNat + r.addrLen.toNat ≤ q.addrStart.toNat ∨
      q.addrStart.toNat + q.addrLen.toNat ≤ r.addrStart.toNat
  outside : ∀ r ∈ regions, ∀ w ∈ [dev.staticRegInfo.1, dev.staticRegInfo.2],
    r.addrStart.toNat + r.addrLen.toNat ≤ w.start.toNat ∨ w.stop.toNat < r.addrStart.toNat

def RegDevice.windowsEnd (dev : RegDevice) : Nat := dev.windows.2.stop.toNat + 1

/-- The windows follow one another, far below the end of the address space. -/
theorem RegDevice.windows_ordered (dev : RegDevice) :
    dev.windows.1.start.toNat ≤ dev.windows.1.stop.toNat ∧
      dev.windows.1.stop.toNat + 1 ≤ dev.windows.2.start.toNat ∧
      dev.windows.2.start.toNat ≤ dev.windows.2.stop.toNat ∧
      dev.windows.2.stop.toNat + 1 < 2 ^ 64 := by
  cases dev <;> decide

theorem RegDevice.mem_windows {dev : RegDevice} {w : RegWindow}
    (member : w ∈ [dev.staticRegInfo.1, dev.staticRegInfo.2]) :
    w = dev.windows.1 ∨ w = dev.windows.2 := by
  rw [List.mem_pair] at member
  cases dev with
  | pf => exact member
  | vf => exact member
  | siov => exact member.symm

theorem toNat_succ {a : BitVec 64} (small : a.toNat + 1 < 2 ^ 64) :
    (a + 1).toNat = a.toNat + 1 := by
  rw [BitVec.toNat_add]
  exact Nat.mod_eq_of_lt small

/-- The fallback is as it has to be if and only if the BAR reaches to the end of the windows. -/
theorem fallbackSound_iff (dev : RegDevice) (barLen : BitVec 64) :
    FallbackSound dev barLen (calcRemainingMmioRegs dev barLen) ↔
      dev.windowsEnd ≤ barLen.toNat := by
  obtain ⟨first, between, second, small⟩ := dev.windows_ordered
  have start₁ := toNat_succ (a := dev.windows.1.stop) (by omega)
  have start₂ := toNat_succ small
  have len₁ : (dev.windows.2.start - (dev.windows.1.stop + 1)).toNat =
      dev.windows.2.start.toNat - (dev.windows.1.stop.toNat + 1) := by
    rw [BitVec.toNat_sub_of_le (BitVec.le_def.mpr (start₁ ▸ between)), start₁]
  have len₂ := BitVec.toNat_sub barLen (dev.windows.2.stop + 1)
  have bar := barLen.isLt
  have zero : (0 : BitVec 64).toNat = 0 := rfl
  rw [start₂] at len₂
  unfold RegDevice.windowsEnd
  constructor
  · intro sound
    have ends := sound.ends
    simp only [calcRemainingMmioRegs, List.map_cons, List.map_nil, List.cons.injEq, and_true,
      start₂, len₂] at ends
    omega
  · intro reaches
    have long : (barLen - (dev.windows.2.stop + 1)).toNat =
        barLen.toNat - (dev.windows.2.stop.toNat + 1) := by
      rw [BitVec.toNat_sub_of_le (BitVec.le_def.mpr (start₂ ▸ reaches)), start₂]
    constructor
    · simp only [calcRemainingMmioRegs, List.map_cons, List.map_nil, List.cons.injEq, and_true,
        start₁, start₂, len₁, long, zero]
      omega
    · simp only [calcRemainingMmioRegs, List.pairwise_cons, List.mem_cons, List.not_mem_nil,
        or_false, forall_eq_or_imp, forall_eq, start₁, start₂, len₁, long, zero,
        List.Pairwise.nil, and_true, false_implies, implies_true]
      omega
    · intro r region w window
      simp only [calcRemainingMmioRegs, List.mem_cons, List.not_mem_nil, or_false] at region
      obtain rfl | rfl := RegDevice.mem_windows window <;> obtain rfl | rfl | rfl := region <;>
        simp only [start₁, start₂, len₁, long, zero] <;> omega

end Idpf
