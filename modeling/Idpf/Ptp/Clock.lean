import Idpf.General.Transition
import Idpf.Tx.Timestamps

/-! The time of the device that the driver keeps, and the 64 bits that timestamps are extended to
with it, while the clock runs and is set. -/
namespace Idpf
open General

/-- `enum idpf_ptp_access` -/
inductive PtpAccess where
  | none | direct | mailbox
  deriving DecidableEq, Repr

/-- `mailbox` is the error of a transaction. -/
inductive PtpErr where
  | eopnotsupp | eacces | mailbox
  deriving DecidableEq, Repr

/-- A kernel and a device whose clock, however it is adjusted, advances by at most `rate` ns in a
jiffy, less than half of 32 bits in two seconds and a jiffy. -/
structure PtpCfg where
  hz : Nat
  rate : Nat
  getDevClkTimeAccess : PtpAccess
  setDevClkTimeAccess : PtpAccess
  adjDevClkTimeAccess : PtpAccess
  slow : (2 * hz + 1) * rate < 2147483648

/-- What the device has put on a packet; `era` is that of its clock. -/
structure PtpStamp where
  time : Nat
  jiffies : Nat
  era : Nat
  deriving DecidableEq, Repr

/-- `struct idpf_ptp` and the clock of the device, which has advanced by `part` in this jiffy and
starts a new era when it is set. The worker is due at `due`. -/
structure PtpClock where
  clock : Nat
  jiffies : Nat
  part : Nat
  era : Nat
  cachedPhcTime : Nat
  cachedPhcJiffies : Nat
  cachedEra : Nat
  due : Nat
  stamps : List PtpStamp
  deriving DecidableEq, Repr

/-- `msecs_to_jiffies` -/
def msecsToJiffies (hz ms : Nat) : Nat := (ms * hz + 999) / 1000

namespace PtpClock

variable (c : PtpCfg) (s : PtpClock)

/-- `idpf_ptp_read_src_clk_reg`; the control plane may not reply. -/
def readSrcClkReg (replied : Bool) : Option Nat :=
  match c.getDevClkTimeAccess with
  | .none => none
  | .mailbox => if replied then some s.clock else none
  | .direct => some s.clock

/-- `idpf_ptp_update_cached_phctime` -/
def updateCachedPhctime (replied : Bool) : PtpClock × Option PtpErr :=
  match s.readSrcClkReg c replied with
  | some systime =>
    ({ s with cachedPhcTime := systime, cachedPhcJiffies := s.jiffies, cachedEra := s.era }, none)
  | none => (s, some .eacces)

def setClock (ns : Int) : PtpClock :=
  { s with clock := (ns % 18446744073709551616).toNat, era := s.era + 1 }

/-- `idpf_ptp_settime64`. That the cached time is not updated is no error. -/
def settime64 (ns : Int) (sent replied : Bool) : PtpClock × Option PtpErr :=
  if c.setDevClkTimeAccess ≠ .mailbox then (s, some .eopnotsupp)
  else if sent then (((s.setClock ns).updateCachedPhctime c replied).1, none)
  else (s, some .mailbox)

/-- `idpf_ptp_adjtime_nonatomic` -/
def adjtimeNonatomic (delta : Int) (read sent replied : Bool) : PtpClock × Option PtpErr :=
  match s.readSrcClkReg c read with
  | some now => s.settime64 c (now + delta) sent replied
  | none => (s, some .eacces)

/-- `idpf_ptp_adjtime` -/
def adjtime (delta : Int) (read sent replied : Bool) : PtpClock × Option PtpErr :=
  if c.adjDevClkTimeAccess ≠ .mailbox then (s, some .eopnotsupp)
  else if delta > 2147483647 ∨ delta < -2147483648 then s.adjtimeNonatomic c delta read sent replied
  else if sent then (((s.setClock (s.clock + delta)).updateCachedPhctime c replied).1, none)
  else (s, some .mailbox)

/-- `idpf_ptp_do_aux_work`, with the jiffies to the next time. -/
def doAuxWork (replied : Bool) : PtpClock × Nat :=
  let u := s.updateCachedPhctime c replied
  (u.1, msecsToJiffies c.hz (if u.2.isSome then 10 else 500))

/-- The cached time has been kept for more than two seconds. -/
def stale : Bool := decide (s.cachedPhcJiffies + 2 * c.hz < s.jiffies)

/-- `idpf_ptp_extend_tstamp` -/
def extendTstamp (inTstamp : Nat) : Nat :=
  if s.stale c then 0 else tstampExtend s.cachedPhcTime (u32 inTstamp)

end PtpClock

/-- What happens to the clock: time passes, the device puts its time on a packet, the worker runs,
the clock is set and adjusted. -/
inductive PtpOp where
  | pass (ns : Nat)
  | tick
  | stamp
  | auxWork (replied : Bool)
  | settime (ns : Int) (sent replied : Bool)
  | adjtime (delta : Int) (read sent replied : Bool)
  deriving DecidableEq, Repr

namespace PtpClock

def step (c : PtpCfg) (s : PtpClock) : PtpOp → Option PtpClock
  | .pass ns =>
    if s.part + ns ≤ c.rate then
      some { s with clock := (s.clock + ns) % 18446744073709551616, part := s.part + ns }
    else none
  | .tick => some { s with jiffies := s.jiffies + 1, part := 0 }
  | .stamp => some { s with stamps := ⟨s.clock, s.jiffies, s.era⟩ :: s.stamps }
  | .auxWork replied =>
    if s.due ≤ s.jiffies then
      let w := s.doAuxWork c replied
      some { w.1 with due := s.jiffies + w.2 }
    else none
  | .settime ns sent replied => some (s.settime64 c ns sent replied).1
  | .adjtime delta read sent replied => some (s.adjtime c delta read sent replied).1

def Start (s : PtpClock) : Prop :=
  s.clock < 18446744073709551616 ∧ s.part = 0 ∧ s.era = 1 ∧ s.cachedEra = 0 ∧
    s.due = s.jiffies ∧ s.stamps = []

/-- The clock has shown `t` at `j` and has been running since. -/
structure Showed (c : PtpCfg) (s : PtpClock) (t j : Nat) : Prop where
  time : t < 18446744073709551616
  before : j ≤ s.jiffies
  since : ∃ d, s.clock = (t + d) % 18446744073709551616 ∧ d ≤ (s.jiffies - j) * c.rate + s.part

variable {c : PtpCfg} {s s' : PtpClock}

theorem Showed.near {t j t' j' : Nat} (one : s.Showed c t j) (other : s.Showed c t' j')
    (part : s.part ≤ c.rate) (late : s.jiffies ≤ j + 2 * c.hz)
    (late' : s.jiffies ≤ j' + 2 * c.hz) : NearPhc t' t := by
  have short {j d : Nat} (late : s.jiffies ≤ j + 2 * c.hz)
      (since : d ≤ (s.jiffies - j) * c.rate + s.part) : d < 2147483648 := by
    have ticks : (s.jiffies - j) * c.rate ≤ 2 * c.hz * c.rate :=
      Nat.mul_le_mul_right _ (by omega)
    have slow := c.slow
    rw [Nat.add_mul, Nat.one_mul] at slow
    omega
  obtain ⟨d, clock, since⟩ := one.since
  obtain ⟨d', clock', since'⟩ := other.since
  have small := short late since
  have small' := short late' since'
  have time := one.time
  have time' := other.time
  have same := clock.symm.trans clock'
  unfold NearPhc
  omega

theorem Showed.pass {t j : Nat} (showed : s.Showed c t j) (ns : Nat) :
    ({ s with clock := (s.clock + ns) % 18446744073709551616, part := s.part + ns } :
      PtpClock).Showed c t j := by
  obtain ⟨d, clock, since⟩ := showed.since
  refine ⟨showed.time, showed.before, d + ns, ?_, ?_⟩
  · dsimp only
    rw [clock, Nat.mod_add_mod, Nat.add_assoc]
  · dsimp only
    omega

theorem Showed.tick {t j : Nat} (showed : s.Showed c t j) (part : s.part ≤ c.rate) :
    ({ s with jiffies := s.jiffies + 1, part := 0 } : PtpClock).Showed c t j := by
  obtain ⟨d, clock, since⟩ := showed.since
  have before := showed.before
  refine ⟨showed.time, Nat.le_succ_of_le before, d, clock, ?_⟩
  dsimp only
  rw [Nat.succ_sub before, Nat.succ_mul]
  omega

theorem Showed.same {t j : Nat} (showed : s.Showed c t j) (clock : s'.clock = s.clock)
    (jiffies : s'.jiffies = s.jiffies) (part : s'.part = s.part) : s'.Showed c t j := by
  refine ⟨showed.time, jiffies ▸ showed.before, ?_⟩
  rw [clock, jiffies, part]
  exact showed.since

theorem Showed.now (clock : s.clock < 18446744073709551616) : s.Showed c s.clock s.jiffies := by
  refine ⟨clock, le_rfl, 0, ?_, Nat.zero_le _⟩
  rw [Nat.add_zero, Nat.mod_eq_of_lt clock]

/-- The clock has been running since the cached time was read and since packets were stamped, if
it has not been set meanwhile. -/
structure Sound (c : PtpCfg) (s : PtpClock) : Prop where
  clock : s.clock < 18446744073709551616
  part : s.part ≤ c.rate
  order : s.cachedEra ≤ s.era
  cached : s.cachedEra = s.era → s.Showed c s.cachedPhcTime s.cachedPhcJiffies
  stamps : ∀ p ∈ s.stamps, p.era ≤ s.era ∧ (p.era = s.era → s.Showed c p.time p.jiffies)

theorem readSrcClkReg_some {replied : Bool} {t : Nat}
    (read : s.readSrcClkReg c replied = some t) : t = s.clock := by
  unfold readSrcClkReg at read
  split at read
  · cases read
  · split at read
    · exact (Option.some.inj read).symm
    · cases read
  · exact (Option.some.inj read).symm

theorem Sound.updateCachedPhctime (sound : s.Sound c) (replied : Bool) :
    (s.updateCachedPhctime c replied).1.Sound c := by
  unfold PtpClock.updateCachedPhctime
  split
  · next t read =>
    obtain rfl := readSrcClkReg_some read
    refine ⟨sound.clock, sound.part, le_rfl, fun _ => ?_, fun p member => ?_⟩
    · exact (Showed.now sound.clock).same rfl rfl rfl
    · obtain ⟨era, showed⟩ := sound.stamps p member
      exact ⟨era, fun same => (showed same).same rfl rfl rfl⟩
  · exact sound

theorem Sound.setClock (sound : s.Sound c) (ns : Int) : (s.setClock ns).Sound c := by
  refine ⟨?_, sound.part, Nat.le_succ_of_le sound.order, fun same => ?_, fun p member => ?_⟩
  · change (ns % 18446744073709551616).toNat < _
    omega
  · exact absurd (same.symm.trans_le sound.order) (Nat.not_succ_le_self _)
  · have era := (sound.stamps p member).1
    refine ⟨Nat.le_succ_of_le era, fun same => ?_⟩
    exact absurd (same.symm.trans_le era) (Nat.not_succ_le_self _)

theorem Sound.settime64 (sound : s.Sound c) (ns : Int) (sent replied : Bool) :
    (s.settime64 c ns sent replied).1.Sound c := by
  unfold PtpClock.settime64
  split
  · exact sound
  · split
    · exact (sound.setClock ns).updateCachedPhctime replied
    · exact sound

theorem Sound.adjtime (sound : s.Sound c) (delta : Int) (read sent replied : Bool) :
    (s.adjtime c delta read sent replied).1.Sound c := by
  unfold PtpClock.adjtime
  split
  · exact sound
  · split
    · unfold adjtimeNonatomic
      split
      · exact sound.settime64 _ sent replied
      · exact sound
    · split
      · exact (sound.setClock _).updateCachedPhctime replied
      · exact sound

theorem Sound.step (sound : s.Sound c) {op : PtpOp} (step : s.step c op = some s') :
    s'.Sound c := by
  unfold PtpClock.step at step
  cases op with
  | pass ns =>
      obtain ⟨room, step⟩ := Option.ite_none_right_eq_some.mp step
      obtain rfl := Option.some.inj step
      refine ⟨Nat.mod_lt _ (by decide), room, sound.order, fun same => (sound.cached same).pass ns,
        fun p member => ?_⟩
      obtain ⟨era, showed⟩ := sound.stamps p member
      exact ⟨era, fun same => (showed same).pass ns⟩
  | tick =>
      obtain rfl := Option.some.inj step
      refine ⟨sound.clock, Nat.zero_le _, sound.order,
        fun same => (sound.cached same).tick sound.part, fun p member => ?_⟩
      obtain ⟨era, showed⟩ := sound.stamps p member
      exact ⟨era, fun same => (showed same).tick sound.part⟩
  | stamp =>
      obtain rfl := Option.some.inj step
      refine ⟨sound.clock, sound.part, sound.order,
        fun same => (sound.cached same).same rfl rfl rfl, fun p member => ?_⟩
      obtain rfl | member := List.mem_cons.mp member
      · exact ⟨le_rfl, fun _ => (Showed.now sound.clock).same rfl rfl rfl⟩
      · obtain ⟨era, showed⟩ := sound.stamps p member
        exact ⟨era, fun same => (showed same).same rfl rfl rfl⟩
  | auxWork replied =>
      obtain ⟨-, step⟩ := Option.ite_none_right_eq_some.mp step
      obtain rfl := Option.some.inj step
      obtain ⟨clock, part, order, cached, stamps⟩ := sound.updateCachedPhctime replied
      refine ⟨clock, part, order, fun same => (cached same).same rfl rfl rfl, fun p member => ?_⟩
      obtain ⟨era, showed⟩ := stamps p member
      exact ⟨era, fun same => (showed same).same rfl rfl rfl⟩
  | settime ns sent replied =>
      obtain rfl := Option.some.inj step
      exact sound.settime64 ns sent replied
  | adjtime delta read sent replied =>
      obtain rfl := Option.some.inj step
      exact sound.adjtime delta read sent replied

theorem Start.sound (start : s.Start) : s.Sound c := by
  obtain ⟨clock, part, era, cached, -, stamps⟩ := start
  refine ⟨clock, part ▸ Nat.zero_le _, ?_, fun same => ?_, fun p member => ?_⟩
  · rw [cached]
    exact Nat.zero_le _
  · exact absurd ((cached.symm.trans same).trans era) (by decide)
  · rw [stamps] at member
    cases member

/-- Where the clock is the one that was cached and stamped, the 64 bits are right or not given. -/
theorem Sound.exact (sound : s.Sound c) {p : PtpStamp} (stamped : p ∈ s.stamps)
    (era : p.era = s.era) (synced : s.cachedEra = s.era)
    (recent : s.jiffies ≤ p.jiffies + 2 * c.hz) {x : Nat} (low : u32 x = u32 p.time) :
    s.extendTstamp c x = (if s.stale c then 0 else p.time) ∧
      (s.stale c = false → tstampExtend s.cachedPhcTime (u32 x) = p.time) := by
  have shown := (sound.stamps p stamped).2 era
  have cached := sound.cached synced
  have right (kept : s.stale c = false) : tstampExtend s.cachedPhcTime (u32 x) = p.time := by
    refine (tstampExtend_eq_iff cached.time (u32_lt x) shown.time).mpr ⟨low.symm, ?_⟩
    exact shown.near cached sound.part recent (Nat.le_of_not_lt (of_decide_eq_false kept))
  refine ⟨?_, right⟩
  unfold extendTstamp
  cases kept : s.stale c with
  | true => rfl
  | false => exact right kept

def mailboxPtp : PtpCfg := ⟨100, 10500000, .mailbox, .mailbox, .mailbox, by decide⟩

/-- The clock is set and its time not read again: what the device stamps next is extended in the
old era. -/
theorem extended_in_old_era : ∃ s,
    exec (PtpClock.step mailboxPtp) ⟨0, 7, 0, 1, 0, 0, 0, 7, []⟩
      [.auxWork true, .settime 1099511627776 true false, .stamp] = some s ∧
    s.stamps = [⟨1099511627776, 7, 2⟩] ∧ s.extendTstamp mailboxPtp 1099511627776 = 0 ∧
      s.stale mailboxPtp = false := by
  refine ⟨_, rfl, rfl, ?_, rfl⟩
  decide +kernel

/-- The worker runs no later than `slack` behind its time, and the clock is read whenever it is to
be cached. -/
def prompt (c : PtpCfg) (slack : Nat) (s : PtpClock) : PtpOp → Bool
  | .tick => decide (s.jiffies < s.due + slack)
  | .auxWork replied => (s.readSrcClkReg c replied).isSome
  | .settime _ _ replied => (s.readSrcClkReg c replied).isSome
  | .adjtime _ _ _ replied => (s.readSrcClkReg c replied).isSome
  | _ => true

/-- The worker is in time, and the cached time is of this era once there is one. -/
structure InTime (c : PtpCfg) (slack : Nat) (s : PtpClock) : Prop where
  late : s.jiffies ≤ s.due + slack
  ahead : s.due ≤ s.jiffies + msecsToJiffies c.hz 500
  synced : s.cachedEra = 0 ∨ s.cachedEra = s.era
  due : s.cachedEra ≠ 0 → s.due ≤ s.cachedPhcJiffies + msecsToJiffies c.hz 500

theorem updateCachedPhctime_read {replied : Bool}
    (read : (s.readSrcClkReg c replied).isSome = true) :
    s.updateCachedPhctime c replied =
      ({ s with
        cachedPhcTime := s.clock
        cachedPhcJiffies := s.jiffies
        cachedEra := s.era }, none) := by
  obtain ⟨t, some⟩ := Option.isSome_iff_exists.mp read
  obtain rfl := readSrcClkReg_some some
  rw [PtpClock.updateCachedPhctime, some]

theorem readSrcClkReg_setClock (ns : Int) (replied : Bool) :
    ((s.setClock ns).readSrcClkReg c replied).isSome = (s.readSrcClkReg c replied).isSome := by
  unfold readSrcClkReg
  cases c.getDevClkTimeAccess with
  | none => rfl
  | direct => rfl
  | mailbox => cases replied <;> rfl

variable {slack : Nat}

theorem InTime.setClock (inTime : s.InTime c slack) {replied : Bool}
    (read : (s.readSrcClkReg c replied).isSome = true) (ns : Int) :
    ((s.setClock ns).updateCachedPhctime c replied).1.InTime c slack := by
  rw [updateCachedPhctime_read ((readSrcClkReg_setClock ns replied).trans read)]
  exact ⟨inTime.late, inTime.ahead, .inr rfl, fun _ => inTime.ahead⟩

theorem InTime.settime64 (inTime : s.InTime c slack) {replied : Bool}
    (read : (s.readSrcClkReg c replied).isSome = true) (ns : Int) (sent : Bool) :
    (s.settime64 c ns sent replied).1.InTime c slack := by
  unfold PtpClock.settime64
  split
  · exact inTime
  · split
    · exact inTime.setClock read ns
    · exact inTime

theorem InTime.step (inTime : s.InTime c slack) {op : PtpOp} (ok : s.prompt c slack op = true)
    (step : s.step c op = some s') : s'.InTime c slack := by
  unfold PtpClock.step at step
  cases op with
  | pass ns =>
      obtain ⟨-, step⟩ := Option.ite_none_right_eq_some.mp step
      obtain rfl := Option.some.inj step
      exact ⟨inTime.late, inTime.ahead, inTime.synced, inTime.due⟩
  | tick =>
      obtain rfl := Option.some.inj step
      exact ⟨of_decide_eq_true ok, by have := inTime.ahead; dsimp only; omega, inTime.synced,
        inTime.due⟩
  | stamp =>
      obtain rfl := Option.some.inj step
      exact ⟨inTime.late, inTime.ahead, inTime.synced, inTime.due⟩
  | auxWork replied =>
      obtain ⟨-, step⟩ := Option.ite_none_right_eq_some.mp step
      obtain rfl := Option.some.inj step
      rw [doAuxWork, updateCachedPhctime_read ok]
      refine ⟨?_, le_rfl, .inr rfl, fun _ => le_rfl⟩
      dsimp only
      omega
  | settime ns sent replied =>
      obtain rfl := Option.some.inj step
      exact inTime.settime64 ok ns sent
  | adjtime delta read sent replied =>
      obtain rfl := Option.some.inj step
      unfold PtpClock.adjtime
      split
      · exact inTime
      · split
        · unfold adjtimeNonatomic
          split
          · exact inTime.settime64 ok _ sent
          · exact inTime
        · split
          · exact inTime.setClock ok _
          · exact inTime

end PtpClock

end Idpf
