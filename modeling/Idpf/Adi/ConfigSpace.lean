import Mathlib.Data.BitVec
import Mathlib.Logic.Function.Basic

/-! The PCI configuration space that a guest sees of an ADI, and the guest's writes to it. -/
namespace Idpf

/-- `pci_cfg_space`, by the byte. -/
abbrev CfgSpace := Nat → BitVec 8

/-- Four bytes as a `u32`, the low one first. -/
def leWord (b : Nat → BitVec 8) : BitVec 32 := b 3 ++ b 2 ++ b 1 ++ b 0

/-- The bytes of a `u32`. -/
def leByte (w : BitVec 32) (i : Nat) : BitVec 8 := w.extractLsb' (8 * i) 8

/-- `idpf_vdcm_dev_csr_rw_bmp`: the writable bits of the header. -/
def csrRwBmp : List (BitVec 8) :=
  [0x00, 0x00, 0x00, 0x00, 0xff, 0x07, 0x00, 0xf9,
   0x00, 0x00, 0x00, 0x00, 0xff, 0x00, 0x00, 0x00,
   0xf0, 0xff, 0xff, 0xff, 0xff, 0xff, 0xff, 0xff,
   0x00, 0x00, 0x00, 0x00, 0xf0, 0xff, 0xff, 0xff,
   0xf0, 0xff, 0xff, 0xff, 0x00, 0x00, 0x00, 0x00,
   0x00, 0x00, 0x00, 0x00, 0x00, 0x00, 0x00, 0x00,
   0x00, 0x00, 0x00, 0x00, 0x00, 0x00, 0x00, 0x00,
   0x00, 0x00, 0x00, 0x00, 0xff, 0x00, 0x00, 0x00]

/-- What a byte becomes: in the header only the bits of the mask, and those of the high byte of
`PCI_STATUS` are cleared by a one. Behind the header it is copied. -/
def cfgByte (off : Nat) (oldval new : BitVec 8) : BitVec 8 :=
  match csrRwBmp[off]? with
  | none => new
  | some mask =>
    let newval := new &&& mask
    let newval := if off = 7 then ~~~newval &&& oldval &&& mask else newval
    oldval &&& ~~~mask ||| newval

/-- `idpf_vdcm_dev_cfg_write_mask`. -/
def cfgWriteMask : Nat → List (BitVec 8) → CfgSpace → CfgSpace
  | _, [], cfg => cfg
  | off, b :: buf, cfg =>
    cfgWriteMask (off + 1) buf (Function.update cfg off (cfgByte off (cfg off) b))

/-- `idpf_vdcm_dev_cfg_write_bar`: it takes four bytes from where `buf` is, whatever its length, so
that what lies behind it comes in. -/
def cfgWriteBar (offset : Nat) (buf behind : List (BitVec 8)) (cfg : CfgSpace) : Option CfgSpace :=
  let val := leWord ((buf ++ behind).getD · 0)
  let masked (val : BitVec 32) : Option CfgSpace :=
    some (cfgWriteMask offset ((List.range buf.length).map (leByte val)) cfg)
  match offset with
  | 0x10 => masked (val &&& ~~~(0x4000000 - 1))
  | 0x14 => masked (val &&& (~~~(0x4000000 - 1 : BitVec 64) >>> 32).setWidth 32)
  | 0x1c => masked (val &&& ~~~(0x4000 - 1))
  | 0x20 => masked (val &&& (~~~(0x4000 - 1 : BitVec 64) >>> 32).setWidth 32)
  | 0x24 | 0x18 => some cfg
  | _ => none

/-- `idpf_vdcm_dev_cfg_write`. -/
def cfgWrite (pos : Nat) (buf behind : List (BitVec 8)) (cfg : CfgSpace) : Option CfgSpace :=
  if 256 < pos + buf.length then none
  else if 0x10 ≤ pos ∧ pos ≤ 0x24 then
    if pos % 4 ≠ 0 then none else cfgWriteBar pos buf behind cfg
  else some (cfgWriteMask pos buf cfg)

/-- How many bytes `idpf_vdcm_dev_write` takes at once. -/
def accessSize (pos count : Nat) : Nat :=
  if 4 ≤ count ∧ pos % 4 = 0 then 4 else if 2 ≤ count ∧ pos % 2 = 0 then 2 else 1

theorem accessSize_pos (pos count : Nat) : 0 < accessSize pos count := by
  unfold accessSize
  split
  · decide
  · split <;> decide

/-- The loop of `idpf_vdcm_dev_write` on the configuration region: `readable` are the bytes that
copy_from_user can still get, and `behind` is what lies on the stack behind the variable. The result
is the number of bytes written, or -EFAULT. -/
def devWriteLoop (behind : Nat → List (BitVec 8)) (pos : Nat) (buf : List (BitVec 8))
    (readable done : Nat) (cfg : CfgSpace) : Option Nat × CfgSpace :=
  if buf.length = 0 then (some done, cfg)
  else
    let filled := accessSize pos buf.length
    if readable < filled then (none, cfg)
    else
      match cfgWrite pos (buf.take filled) (behind pos) cfg with
      | none => (none, cfg)
      | some cfg =>
        devWriteLoop behind (pos + filled) (buf.drop filled) (readable - filled) (done + filled) cfg
termination_by buf.length
decreasing_by
  have := accessSize_pos pos buf.length
  rw [List.length_drop]
  omega

structure GuestWrite where
  pos : Nat
  buf : List (BitVec 8)
  readable : Nat
  behind : Nat → List (BitVec 8)

/-- `idpf_vdcm_dev_write`. -/
def devWrite (w : GuestWrite) (cfg : CfgSpace) : Option Nat × CfgSpace :=
  devWriteLoop w.behind w.pos w.buf w.readable 0 cfg

/-- `idpf_vdcm_pci_config`. -/
def vdcmPciConfig : List (BitVec 64) :=
  [0x001000000dd58086, 0x0000000002000000, 0x000000000000000c, 0x0000000c00000000,
   0x0000000000000000, 0x0000808600000000, 0x0000004000000000, 0x0000000000000000,
   0x0000000300040011, 0x0000000000002003, 0x0000000000920010, 0x0000000000000000,
   0x0000000000000000, 0x0000000000000000, 0x0070001000000000, 0x0000000000000000,
   0x0000000000000000, 0x0000000000000000]

/-- `idpf_vdcm_dev_pci_config_space_init`. -/
def pciConfigSpaceInit (numVectors : Nat) : CfgSpace := fun off =>
  if off = 0x42 then BitVec.ofNat 8 (numVectors - 1)
  else (vdcmPciConfig.getD (off / 8) 0).extractLsb' (8 * (off % 8)) 8

def devWrites (ws : List GuestWrite) (cfg : CfgSpace) : CfgSpace :=
  ws.foldl (fun cfg w => (devWrite w cfg).2) cfg

/-- One access of 1, 2 or 4 bytes, at a multiple of that. -/
structure CfgAccess where
  pos : Nat
  buf : List (BitVec 8)
  behind : List (BitVec 8)
  width : buf.length = 1 ∨ buf.length = 2 ∨ buf.length = 4
  aligned : pos % buf.length = 0

namespace CfgAccess

/-- The access is answered with -EINVAL. -/
def refused (a : CfgAccess) : Bool :=
  256 < a.pos + a.buf.length || (0x10 ≤ a.pos && a.pos ≤ 0x24 && a.pos % 4 ≠ 0)

def apply (a : CfgAccess) (cfg : CfgSpace) : CfgSpace :=
  (cfgWrite a.pos a.buf a.behind cfg).getD cfg

def byteAt (a : CfgAccess) (off : Nat) : Option (BitVec 8) :=
  if a.pos ≤ off then a.buf[off - a.pos]? else none

end CfgAccess

def cfgAccess (behind : List (BitVec 8)) (pos : Nat) (buf : List (BitVec 8))
    (some_bytes : buf.length ≠ 0) : CfgAccess where
  pos := pos
  buf := buf.take (accessSize pos buf.length)
  behind := behind
  width := by
    rw [List.length_take]
    unfold accessSize
    split
    · omega
    · split <;> omega
  aligned := by
    rw [List.length_take]
    unfold accessSize
    split
    next word => rw [Nat.min_eq_left word.1, word.2]
    next =>
      split
      next half => rw [Nat.min_eq_left half.1, half.2]
      next => rw [Nat.min_eq_left (Nat.pos_of_ne_zero some_bytes), Nat.mod_one]

/-- The accesses that a write comes to, as far as it gets. -/
def performedLoop (behind : Nat → List (BitVec 8)) (pos : Nat) (buf : List (BitVec 8))
    (readable : Nat) : List CfgAccess :=
  if some_bytes : buf.length ≠ 0 then
    let filled := accessSize pos buf.length
    let a := cfgAccess (behind pos) pos buf some_bytes
    if readable < filled ∨ a.refused = true then []
    else a :: performedLoop behind (pos + filled) (buf.drop filled) (readable - filled)
  else []
termination_by buf.length
decreasing_by
  have := accessSize_pos pos buf.length
  rw [List.length_drop]
  omega

def GuestWrite.performed (w : GuestWrite) : List CfgAccess :=
  performedLoop w.behind w.pos w.buf w.readable

/-- The space after accesses, from that of a new ADI. -/
def cfgAfter (numVectors : Nat) (as : List CfgAccess) : CfgSpace :=
  as.foldl (fun cfg a => a.apply cfg) (pciConfigSpaceInit numVectors)

end Idpf
