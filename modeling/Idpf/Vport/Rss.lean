import Idpf.General.Transition
import Mathlib.Data.List.Basic

/-! The RSS table of a vport: the driver's copy, the one that is kept while RXHASH is off, and the
one that the device accepted last. -/
namespace Idpf
open General

/-- A vport as far as it is about the RSS table. `numRxq` are the active receive queues; `device` is
the last table that SET_RSS_LUT was accepted with, and `succeeded` whether the last operation
reported success. The rest is history: `before` is the table in force when RXHASH was turned off,
and `unsent` whether the driver wrote a table with no message about it accepted since. -/
structure RssVport where
  lutSize : Nat
  numRxq : Nat
  rxhash : Bool
  up : Bool
  lut : Option (List Nat)
  cached : Option (List Nat)
  device : Option (List Nat)
  before : Option (List Nat)
  unsent : Bool
  succeeded : Bool
  deriving DecidableEq, Repr

/-- Which of the two messages of `idpf_config_rss` the device accepts. -/
structure RssMsgs where
  key : Bool
  lut : Bool

/-- How `idpf_vport_open` goes: it fails before RSS, or gets there, with memory for the tables or
not, and `idpf_up_complete` succeeds or not. -/
inductive RssOpen where
  | early
  | rss (alloc : Bool) (msgs : RssMsgs) (complete : Bool)

/-- How `idpf_initiate_soft_reset` goes. -/
inductive SoftResetEnd where
  | noMemory
  | poolFails
  | addFails (readd : Bool) (reopen : RssOpen)
  | realNumFails (reopen : RssOpen)
  | done (opened : RssOpen)

/-- How `idpf_xdp_setup_prog` goes: it refuses the program, has nothing to reconfigure, cannot have
its queues, or has them. -/
inductive XdpSetupEnd where
  | refused
  | plain
  | queuesFail (numRxq : Nat)
  | done (numRxq : Nat) (opened : RssOpen)

namespace RssVport

def fail (s : RssVport) : RssVport := { s with succeeded := false }

def succeed (s : RssVport) : RssVport := { s with succeeded := true }

/-- What `idpf_send_get_set_rss_lut_msg` sends: zeroes while RXHASH is off. -/
def sent (s : RssVport) : Option (List Nat) :=
  s.lut.map fun t => if s.rxhash then t else t.map fun _ => 0

/-- `idpf_config_rss` -/
def configRss (s : RssVport) (msgs : RssMsgs) : RssVport :=
  if !msgs.key then s.fail
  else if !msgs.lut then s.fail
  else
    { s with
      device := s.sent
      unsent := false }.succeed

/-- `idpf_fill_dflt_rss_lut`. Without a queue the division traps; the remainder is no entry of a
table then either. -/
def dfltLut (s : RssVport) : List Nat := (List.range s.lutSize).map (· % s.numRxq)

/-- `idpf_init_rss` -/
def initRss (s : RssVport) (alloc : Bool) (msgs : RssMsgs) : RssVport :=
  if !alloc then
    { s with
      lut := none
      unsent := false }.fail
  else
    { s with
      lut := some s.dfltLut
      cached := some s.dfltLut
      unsent := true }.configRss msgs

/-- `idpf_deinit_rss` -/
def deinitRss (s : RssVport) : RssVport :=
  { s with
    lut := none
    cached := none
    before := none
    unsent := false }

/-- `idpf_vport_open` -/
def openVport (s : RssVport) (o : RssOpen) : RssVport :=
  if s.up then s.fail
  else
    match o with
    | .early => s.fail
    | .rss alloc msgs complete =>
      let s := if s.lut.isSome then s.configRss msgs else s.initRss alloc msgs
      if !s.succeeded then s
      else if !complete then s.deinitRss.fail
      else { s with up := true }

/-- `idpf_stop` -/
def closeVport (s : RssVport) : RssVport := { s with up := false }.succeed

def userLut (s : RssVport) (indir : Nat → Nat) : List Nat := (List.range s.lutSize).map indir

/-- `idpf_set_rxfh`. The key is not the table's matter, but it is sent with it. -/
def setRxfh (s : RssVport) (supported : Bool) (indir : Option (Nat → Nat)) (msgs : RssMsgs) :
    RssVport :=
  if !supported then s.fail
  else
    match indir with
    | none => if s.up then s.configRss msgs else s.succeed
    | some indir =>
      if s.lut.isNone then s.fail
      else
        let s :=
          { s with
            lut := some (s.userLut indir)
            unsent := true }
        if s.up then s.configRss msgs else s.succeed

/-- `idpf_set_features` where RXHASH changes, and `idpf_vport_manage_rss_lut`. -/
def setRxhash (s : RssVport) (busy : Bool) (msgs : RssMsgs) : RssVport :=
  if busy then s.fail
  else
    let s := { s with rxhash := !s.rxhash }
    match s.lut, s.cached with
    | some t, some c =>
      if s.rxhash then
        { s with
          lut := some c
          before := none
          unsent := true }.configRss msgs
      else
        { s with
          lut := some (t.map fun _ => 0)
          cached := some t
          before := some t
          unsent := true }.configRss msgs
    | _, _ => s.succeed

/-- The vport stopped for a soft reset; with a change of channels the tables are released. -/
def stopFor (s : RssVport) (numRxq : Option Nat) : RssVport :=
  let s := { s with up := false }
  if numRxq.isSome then s.deinitRss else s

def adopt (s : RssVport) (numRxq : Option Nat) : RssVport :=
  { s with numRxq := numRxq.getD s.numRxq }

/-- `idpf_initiate_soft_reset`, with a new number of queues where the cause is a change of them. -/
def softReset (s : RssVport) (numRxq : Option Nat) : SoftResetEnd → RssVport
  | .noMemory => s.fail
  | .poolFails => { s with up := false }.fail
  | .addFails readd reopen =>
    if readd && s.up then ((s.stopFor numRxq).openVport reopen).fail else (s.stopFor numRxq).fail
  | .realNumFails reopen =>
    if s.up then (((s.stopFor numRxq).adopt numRxq).openVport reopen).fail
    else ((s.stopFor numRxq).adopt numRxq).fail
  | .done o =>
    if s.up then ((s.stopFor numRxq).adopt numRxq).openVport o
    else ((s.stopFor numRxq).adopt numRxq).succeed

/-- `idpf_xdp_setup_prog` -/
def setupXdp (s : RssVport) : XdpSetupEnd → RssVport
  | .refused => s.fail
  | .plain => s.succeed
  | .queuesFail n => ((s.stopFor (some n)).adopt (some n)).fail
  | .done n o =>
    if s.up then ((s.stopFor (some n)).adopt (some n)).openVport o
    else ((s.stopFor (some n)).adopt (some n)).succeed

end RssVport

/-- The operations. A change of channels is refused, asks for what there is, or resets the vport. -/
inductive RssOp where
  | setRxfh (supported : Bool) (indir : Option (Nat → Nat)) (msgs : RssMsgs)
  | setRxhash (busy : Bool) (msgs : RssMsgs)
  | refuseChannels
  | sameChannels
  | setChannels (numRxq : Nat) (result : SoftResetEnd)
  | softReset (result : SoftResetEnd)
  | setupXdp (result : XdpSetupEnd)
  | openVport (result : RssOpen)
  | closeVport

namespace RssVport

/-- One operation. Only a change of buffer pools can fail there, never one of channels. -/
def step (s : RssVport) : RssOp → Option RssVport
  | .setRxfh supported indir msgs => some (s.setRxfh supported indir msgs)
  | .setRxhash busy msgs => some (s.setRxhash busy msgs)
  | .refuseChannels => some s.fail
  | .sameChannels => some s.succeed
  | .setChannels _ .poolFails => none
  | .setChannels n result => some (s.softReset (some n) result)
  | .softReset result => some (s.softReset none result)
  | .setupXdp result => some (s.setupXdp result)
  | .openVport result => some (s.openVport result)
  | .closeVport => some s.closeVport

def start (lutSize numRxq : Nat) (rxhash : Bool) : RssVport where
  lutSize := lutSize
  numRxq := numRxq
  rxhash := rxhash
  up := false
  lut := none
  cached := none
  device := none
  before := none
  unsent := false
  succeeded := true

/-- What has to hold: the entries of the table are below the number of active queues, all of them
are zero while RXHASH is off, turning it on gives the table that was in force before it was turned
off, and after a success the device has the driver's table. -/
structure Kept (s : RssVport) : Prop where
  below : ∀ t, s.lut = some t → ∀ q ∈ t, q < s.numRxq
  zero : s.rxhash = false → ∀ t, s.lut = some t → ∀ q ∈ t, q = 0
  restores : ∀ t, s.rxhash = false → s.before = some t → ∀ msgs,
    (s.setRxhash false msgs).lut = some t
  accepted : s.succeeded = true → ∀ t, s.lut = some t → s.device = some t

def agree (s : RssVport) : Bool := s.lut.all fun t => s.device = some t

/-- The default table for `numRxq` queues can be in force. -/
def dfltOk (s : RssVport) (numRxq : Nat) : Bool :=
  (s.lutSize = 0 || 0 < numRxq) && (s.rxhash || s.lutSize ≤ 1 || numRxq = 1)

/-- Opening the vport, with `numRxq` queues, does not fill a table that must not be in force. -/
def openOk (s : RssVport) (hasLut : Bool) (numRxq : Nat) : RssOpen → Bool
  | .early => true
  | .rss alloc _ _ => hasLut || !alloc || s.dfltOk numRxq

/-- The soft reset fills no table that must not be in force, and keeps none unsent. -/
def softResetOk (s : RssVport) (numRxq : Option Nat) : SoftResetEnd → Bool
  | .noMemory => true
  | .poolFails => true
  | .addFails readd reopen =>
    !(readd && s.up) || s.openOk (numRxq.isNone && s.lut.isSome) s.numRxq reopen
  | .realNumFails reopen =>
    !s.up || s.openOk (numRxq.isNone && s.lut.isSome) (numRxq.getD s.numRxq) reopen
  | .done o =>
    if s.up then s.openOk (numRxq.isNone && s.lut.isSome) (numRxq.getD s.numRxq) o
    else numRxq.isSome || !s.unsent

/-- The steps after which the table is still in order: a new table comes while the vport is up, has
its entries below the number of queues and while RXHASH is off only zeroes; no default table is
filled while RXHASH is off unless it is all zero; and what reports success without sending the
table comes only once a message about it has been accepted. -/
def ok (s : RssVport) : RssOp → Bool
  | .setRxfh supported indir _ =>
    !supported ||
      match indir with
      | none => s.up || !s.unsent
      | some indir => s.lut.isNone ||
          ((s.userLut indir).all (· < s.numRxq) && (s.rxhash || (s.userLut indir).all (· = 0)) &&
            s.up)
  | .setRxhash _ _ => true
  | .refuseChannels => true
  | .sameChannels => !s.unsent
  | .setChannels n result => s.softResetOk (some n) result
  | .softReset result => s.softResetOk none result
  | .setupXdp .refused => true
  | .setupXdp .plain => !s.unsent
  | .setupXdp (.queuesFail _) => true
  | .setupXdp (.done n o) => !s.up || s.openOk false n o
  | .openVport o => s.up || s.openOk s.lut.isSome s.numRxq o
  | .closeVport => !s.unsent

structure Inv (s : RssVport) : Prop where
  table : ∀ t, s.lut = some t → ∀ q ∈ t, q < s.numRxq
  kept : ∀ c, s.cached = some c → ∀ q ∈ c, q < s.numRxq
  pair : s.lut.isSome = s.cached.isSome
  zero : s.rxhash = false → ∀ t, s.lut = some t → ∀ q ∈ t, q = 0
  before : ∀ t, s.before = some t → s.rxhash = false ∧ s.cached = some t
  up : s.up = true → s.lut.isSome = true
  agree : s.unsent = false → s.agree = true

/-- What an operation has to leave: the invariant, and agreement where it reports success. -/
def Settled (s : RssVport) : Prop := s.Inv ∧ (s.succeeded = true → s.agree = true)

variable {s : RssVport} {msgs : RssMsgs} {n : Nat}

theorem agree_iff : s.agree = true ↔ ∀ t, s.lut = some t → s.device = some t := by
  unfold agree
  cases s.lut with
  | none => simp
  | some t => simp

theorem Inv.fail (inv : s.Inv) : s.fail.Settled :=
  ⟨⟨inv.table, inv.kept, inv.pair, inv.zero, inv.before, inv.up, inv.agree⟩,
    fun done => Bool.noConfusion done⟩

theorem Inv.succeed (inv : s.Inv) (agree : s.agree = true) : s.succeed.Settled :=
  ⟨⟨inv.table, inv.kept, inv.pair, inv.zero, inv.before, inv.up, inv.agree⟩, fun _ => agree⟩

theorem Inv.succeedSent (inv : s.Inv) (sent : (!s.unsent) = true) : s.succeed.Settled :=
  inv.succeed (inv.agree (Bool.not_eq_true' _ ▸ sent))

theorem Inv.sent_eq (inv : s.Inv) : s.sent = s.lut := by
  unfold sent
  cases table : s.lut with
  | none => rfl
  | some t =>
      rw [Option.map_some]
      split
      · rfl
      next off =>
        have zero := inv.zero (Bool.eq_false_iff.mpr off) t table
        congr 1
        calc t.map (fun _ => 0) = t.map id := List.map_congr_left fun q member =>
              (zero q member).symm
          _ = t := List.map_id t

theorem Inv.configRss (inv : s.Inv) : (s.configRss msgs).Settled := by
  unfold RssVport.configRss
  split
  · exact inv.fail
  · split
    · exact inv.fail
    · have accepted : ({ s with
          device := s.sent
          unsent := false } : RssVport).agree = true := by
        rw [agree_iff]
        intro t table
        exact inv.sent_eq.trans table
      exact Inv.succeed ⟨inv.table, inv.kept, inv.pair, inv.zero, inv.before, inv.up,
        fun _ => accepted⟩ accepted

theorem dfltLut_spec (fine : s.dfltOk s.numRxq = true) :
    (∀ q ∈ s.dfltLut, q < s.numRxq) ∧ (s.rxhash = false → ∀ q ∈ s.dfltLut, q = 0) := by
  simp only [dfltOk, Bool.and_eq_true, Bool.or_eq_true, decide_eq_true_eq] at fine
  obtain ⟨some, zero⟩ := fine
  simp only [dfltLut, List.mem_map, List.mem_range, forall_exists_index, and_imp]
  constructor
  · rintro - i inside rfl
    exact Nat.mod_lt i (by omega)
  · rintro off - i inside rfl
    rw [off] at zero
    obtain small | single := zero.imp_left (Or.resolve_left · Bool.false_ne_true)
    · obtain rfl : i = 0 := by omega
      exact Nat.zero_mod _
    · rw [single]
      exact Nat.mod_one i

theorem Inv.initRss {alloc : Bool} (inv : s.Inv) (empty : s.lut = none)
    (fine : (!alloc || s.dfltOk s.numRxq) = true) : (s.initRss alloc msgs).Settled := by
  have nothing : s.cached = none := Option.not_isSome_iff_eq_none.mp (by
    rw [← inv.pair, empty]
    exact Bool.false_ne_true)
  unfold RssVport.initRss
  split
  · apply Inv.fail
    constructor
    · exact fun t some => absurd some.symm (Option.some_ne_none t)
    · exact inv.kept
    · exact (congrArg Option.isSome nothing).symm
    · exact fun _ t some => absurd some.symm (Option.some_ne_none t)
    · exact inv.before
    · exact fun up => (congrArg Option.isSome empty).symm.trans (inv.up up)
    · exact fun _ => rfl
  next memory =>
    obtain ⟨below, zero⟩ := dfltLut_spec
      (Bool.or_eq_true _ _ ▸ fine |>.resolve_left memory)
    apply Inv.configRss
    constructor
    · rintro - ⟨⟩
      exact below
    · rintro - ⟨⟩
      exact below
    · rfl
    · rintro off - ⟨⟩
      exact zero off
    · intro t was
      exact absurd ((inv.before t was).2.symm.trans nothing) (Option.some_ne_none t)
    · exact fun _ => rfl
    · exact fun sent => Bool.noConfusion sent

theorem deinitRss_inv (down : s.up = false) : s.deinitRss.Inv where
  table := fun t some => absurd some.symm (Option.some_ne_none t)
  kept := fun t some => absurd some.symm (Option.some_ne_none t)
  pair := rfl
  zero := fun _ t some => absurd some.symm (Option.some_ne_none t)
  before := fun t some => absurd some.symm (Option.some_ne_none t)
  up := fun up => Bool.noConfusion (down.symm.trans up)
  agree := fun _ => rfl

theorem configRss_up : (s.configRss msgs).up = s.up := by
  unfold configRss
  split
  · rfl
  · split <;> rfl

theorem configRss_lut : (s.configRss msgs).lut = s.lut := by
  unfold configRss
  split
  · rfl
  · split <;> rfl

theorem initRss_up {alloc : Bool} : (s.initRss alloc msgs).up = s.up := by
  unfold initRss
  split
  · rfl
  · exact configRss_up

theorem initRss_lut {alloc : Bool} (done : (s.initRss alloc msgs).succeeded = true) :
    (s.initRss alloc msgs).lut = some s.dfltLut := by
  unfold initRss at done ⊢
  split at done
  · exact Bool.noConfusion done
  next memory =>
    rw [if_neg memory]
    exact configRss_lut

theorem Inv.openVport {o : RssOpen} (inv : s.Inv)
    (fine : (s.up || s.openOk s.lut.isSome s.numRxq o) = true) : (s.openVport o).Settled := by
  unfold RssVport.openVport
  split
  · exact inv.fail
  next down =>
    replace fine := (Bool.or_eq_true _ _ ▸ fine).resolve_left down
    cases o with
    | early => exact inv.fail
    | rss alloc msgs complete =>
        dsimp only
        generalize sent : (if s.lut.isSome = true then s.configRss msgs
          else s.initRss alloc msgs) = t
        have settled : t.Settled ∧ t.up = false ∧ (t.succeeded = true → t.lut.isSome = true) := by
          rw [← sent]
          split
          next there =>
            refine ⟨inv.configRss, ?_, ?_⟩
            · rw [configRss_up]
              exact Bool.eq_false_iff.mpr down
            · intro _
              rw [configRss_lut]
              exact there
          next missing =>
            refine ⟨inv.initRss (Option.not_isSome_iff_eq_none.mp missing) ?_, ?_, ?_⟩
            · rw [openOk, Bool.or_assoc, Bool.or_eq_true] at fine
              exact fine.resolve_left missing
            · rw [initRss_up]
              exact Bool.eq_false_iff.mpr down
            · intro done
              rw [initRss_lut done]
              rfl
        obtain ⟨⟨tInv, agree⟩, tDown, table⟩ := settled
        split
        · exact ⟨tInv, agree⟩
        next done =>
          have accepted : t.succeeded = true := by simpa using done
          split
          · exact (deinitRss_inv tDown).fail
          · exact ⟨⟨tInv.table, tInv.kept, tInv.pair, tInv.zero, tInv.before,
              fun _ => table accepted, tInv.agree⟩, agree⟩

theorem Inv.closeVport (inv : s.Inv) (sent : (!s.unsent) = true) : s.closeVport.Settled :=
  Inv.succeedSent ⟨inv.table, inv.kept, inv.pair, inv.zero, inv.before,
    fun up => Bool.noConfusion up, inv.agree⟩ sent

theorem Inv.setRxfh {supported : Bool} {indir : Option (Nat → Nat)} (inv : s.Inv)
    (fine : s.ok (.setRxfh supported indir msgs) = true) :
    (s.setRxfh supported indir msgs).Settled := by
  unfold RssVport.setRxfh
  split
  · exact inv.fail
  next can =>
    replace fine := (Bool.or_eq_true _ _ ▸ fine).resolve_left can
    cases indir with
    | none =>
        dsimp only at fine ⊢
        split
        · exact inv.configRss
        next down => exact inv.succeedSent ((Bool.or_eq_true _ _ ▸ fine).resolve_left down)
    | some indir =>
        dsimp only at fine ⊢
        split
        · exact inv.fail
        next there =>
          simp only [there, Bool.false_or, Bool.and_eq_true, Bool.or_eq_true, List.all_eq_true,
            decide_eq_true_eq] at fine
          obtain ⟨⟨below, zero⟩, up⟩ := fine
          have tables : ({ s with
              lut := some (s.userLut indir)
              unsent := true } : RssVport).Inv := by
            constructor
            · rintro - ⟨⟩
              exact below
            · exact inv.kept
            · rw [← inv.pair]
              cases table : s.lut with
              | none => exact absurd (congrArg Option.isNone table) there
              | some t => rfl
            · rintro off - ⟨⟩
              replace off : s.rxhash = false := off
              exact zero.resolve_left (off ▸ Bool.false_ne_true)
            · exact inv.before
            · exact fun _ => rfl
            · exact fun sent => Bool.noConfusion sent
          rw [if_pos up]
          exact tables.configRss

theorem Inv.setRxhash {busy : Bool} (inv : s.Inv) : (s.setRxhash busy msgs).Settled := by
  unfold RssVport.setRxhash
  split
  · exact inv.fail
  · dsimp only
    split
    next t c table kept =>
      split
      next on =>
        apply Inv.configRss
        constructor
        · intro lut same
          obtain rfl := Option.some.inj same
          exact inv.kept c kept
        · exact inv.kept
        · exact (congrArg Option.isSome kept).symm
        · exact fun off => absurd (off.symm.trans on) Bool.false_ne_true
        · exact fun t some => absurd some.symm (Option.some_ne_none t)
        · exact fun _ => rfl
        · exact fun sent => Bool.noConfusion sent
      next off =>
        have below := inv.table t table
        apply Inv.configRss
        constructor
        · intro lut same q member
          obtain rfl := Option.some.inj same
          obtain ⟨p, old, rfl⟩ := List.mem_map.mp member
          exact Nat.zero_lt_of_lt (below p old)
        · intro cached same
          obtain rfl := Option.some.inj same
          exact below
        · rfl
        · intro _ lut same q member
          obtain rfl := Option.some.inj same
          obtain ⟨p, old, rfl⟩ := List.mem_map.mp member
          rfl
        · intro was same
          obtain rfl := Option.some.inj same
          exact ⟨Bool.eq_false_iff.mpr off, rfl⟩
        · exact fun _ => rfl
        · exact fun sent => Bool.noConfusion sent
    next missing =>
      have empty : s.lut = none := by
        cases table : s.lut with
        | none => rfl
        | some t =>
            have pair := inv.pair
            rw [table] at pair
            obtain ⟨c, kept⟩ := Option.isSome_iff_exists.mp pair.symm
            exact absurd kept (missing t c table)
      have nothing : s.cached = none := Option.not_isSome_iff_eq_none.mp (by
        rw [← inv.pair, empty]
        exact Bool.false_ne_true)
      apply Inv.succeed
      · constructor
        · exact inv.table
        · exact inv.kept
        · exact inv.pair
        · exact fun _ t some => absurd (some.symm.trans empty) (Option.some_ne_none t)
        · exact fun t was => absurd ((inv.before t was).2.symm.trans nothing) (Option.some_ne_none t)
        · exact inv.up
        · exact inv.agree
      · rw [agree_iff]
        exact fun t some => absurd (some.symm.trans empty) (Option.some_ne_none t)

/-- Turning RXHASH on gives the table from before it was turned off. -/
theorem Inv.restores {t : List Nat} (inv : s.Inv) (was : s.before = some t) (msgs : RssMsgs) :
    (s.setRxhash false msgs).lut = some t := by
  obtain ⟨off, kept⟩ := inv.before t was
  have pair := inv.pair
  rw [kept] at pair
  obtain ⟨zeros, table⟩ := Option.isSome_iff_exists.mp pair
  unfold RssVport.setRxhash
  simp only [Bool.false_eq_true, if_false, off, Bool.not_false, table, kept, if_true]
  exact configRss_lut

theorem Inv.stopFor (inv : s.Inv) (change : Option Nat) : (s.stopFor change).Inv := by
  cases change with
  | none =>
      exact ⟨inv.table, inv.kept, inv.pair, inv.zero, inv.before, fun up => Bool.noConfusion up,
        inv.agree⟩
  | some n => exact deinitRss_inv rfl

/-- A new number of queues comes with a change of channels, and then there is no table. -/
theorem Inv.adopt (inv : s.Inv) (change : Option Nat) :
    ((s.stopFor change).adopt change).Inv := by
  have stopped := inv.stopFor change
  cases change with
  | none => exact stopped
  | some n =>
      constructor
      · exact fun t some => absurd some.symm (Option.some_ne_none t)
      · exact fun t some => absurd some.symm (Option.some_ne_none t)
      · exact stopped.pair
      · exact stopped.zero
      · exact stopped.before
      · exact stopped.up
      · exact fun _ => rfl

theorem openOk_stopFor (change : Option Nat) (n : Nat) (o : RssOpen) :
    (s.stopFor change).openOk (s.stopFor change).lut.isSome n o =
      s.openOk (change.isNone && s.lut.isSome) n o := by
  cases change <;> rfl

theorem Inv.reopen {change : Option Nat} {o : RssOpen} (inv : s.Inv)
    (fine : s.openOk (change.isNone && s.lut.isSome) s.numRxq o = true) :
    ((s.stopFor change).openVport o).Settled := by
  apply (inv.stopFor change).openVport
  rw [Bool.or_eq_true, show (s.stopFor change).numRxq = s.numRxq by cases change <;> rfl,
    openOk_stopFor]
  exact .inr fine

theorem Inv.openNew {o : RssOpen} (inv : s.Inv) (change : Option Nat)
    (fine : s.openOk (change.isNone && s.lut.isSome) (change.getD s.numRxq) o = true) :
    (((s.stopFor change).adopt change).openVport o).Settled := by
  apply (inv.adopt change).openVport
  rw [Bool.or_eq_true]
  right
  rw [← openOk_stopFor] at fine
  cases change with
  | none => exact fine
  | some n => exact fine

theorem Inv.succeedNew (inv : s.Inv) (change : Option Nat)
    (fine : (change.isSome || !s.unsent) = true) :
    ((s.stopFor change).adopt change).succeed.Settled := by
  apply (inv.adopt change).succeedSent
  cases change with
  | none => exact fine
  | some n => rfl

theorem Inv.softReset {change : Option Nat} {result : SoftResetEnd} (inv : s.Inv)
    (fine : s.softResetOk change result = true) : (s.softReset change result).Settled := by
  cases result with
  | noMemory => exact inv.fail
  | poolFails => exact (inv.stopFor none).fail
  | addFails readd reopen =>
      unfold softResetOk at fine
      unfold RssVport.softReset
      dsimp only at fine ⊢
      split
      next again =>
        rw [again] at fine
        exact (inv.reopen fine).1.fail
      · exact (inv.stopFor change).fail
  | realNumFails reopen =>
      unfold softResetOk at fine
      unfold RssVport.softReset
      dsimp only at fine ⊢
      split
      next up =>
        rw [up] at fine
        exact (inv.openNew change fine).1.fail
      · exact (inv.adopt change).fail
  | done o =>
      unfold softResetOk at fine
      unfold RssVport.softReset
      dsimp only at fine ⊢
      split at fine
      next up =>
        rw [if_pos up]
        exact inv.openNew change fine
      next down =>
        rw [if_neg down]
        exact inv.succeedNew change fine

theorem Inv.setupXdp {result : XdpSetupEnd} (inv : s.Inv) (fine : s.ok (.setupXdp result) = true) :
    (s.setupXdp result).Settled := by
  cases result with
  | refused => exact inv.fail
  | plain => exact inv.succeedSent fine
  | queuesFail n => exact (inv.adopt (some n)).fail
  | done n o =>
      unfold ok at fine
      unfold RssVport.setupXdp
      dsimp only at fine ⊢
      split
      next up =>
        rw [up] at fine
        exact inv.openNew (some n) fine
      · exact inv.succeedNew (some n) rfl

theorem Inv.step {op : RssOp} {t : RssVport} (inv : s.Inv) (fine : s.ok op = true)
    (stepped : s.step op = some t) : t.Settled := by
  cases op with
  | setRxfh supported indir msgs =>
      obtain rfl := Option.some.inj stepped
      exact inv.setRxfh fine
  | setRxhash busy msgs =>
      obtain rfl := Option.some.inj stepped
      exact inv.setRxhash
  | refuseChannels =>
      obtain rfl := Option.some.inj stepped
      exact inv.fail
  | sameChannels =>
      obtain rfl := Option.some.inj stepped
      exact inv.succeedSent fine
  | setChannels n result =>
      have reset : t = s.softReset (some n) result := by
        cases result with
        | poolFails => cases stepped
        | _ => exact (Option.some.inj stepped).symm
      rw [reset]
      exact inv.softReset fine
  | softReset result =>
      obtain rfl := Option.some.inj stepped
      exact inv.softReset fine
  | setupXdp result =>
      obtain rfl := Option.some.inj stepped
      exact inv.setupXdp fine
  | openVport result =>
      obtain rfl := Option.some.inj stepped
      exact inv.openVport fine
  | closeVport =>
      obtain rfl := Option.some.inj stepped
      exact inv.closeVport fine

/-- Where a run begins: a vport that was just built, of any size. -/
def Init (s : RssVport) : Prop := ∃ lutSize numRxq rxhash, s = start lutSize numRxq rxhash

theorem Init.settled (init : s.Init) : s.Settled := by
  obtain ⟨lutSize, numRxq, rxhash, rfl⟩ := init
  exact ⟨⟨fun t some => absurd some.symm (Option.some_ne_none t),
    fun t some => absurd some.symm (Option.some_ne_none t), rfl,
    fun _ t some => absurd some.symm (Option.some_ne_none t),
    fun t some => absurd some.symm (Option.some_ne_none t), fun up => Bool.noConfusion up,
    fun _ => rfl⟩, fun _ => rfl⟩

/-- In a run whose steps all meet the condition the table is in order in every state. -/
theorem rss_kept (run : Reachable step (fun s op => s.ok op = true) Init s) : s.Kept := by
  obtain ⟨inv, agree⟩ := run.invariant (I := Settled) (fun _ init => init.settled)
    fun _ _ _ settled fine stepped => settled.1.step fine stepped
  exact ⟨inv.table, inv.zero, fun _ _ was => inv.restores was, fun done => agree_iff.mp (agree done)⟩

/-- A table is set and refused and set again, kept over RXHASH off and on and over closing and
opening, given up for a change of channels, and set up anew. -/
theorem rss_kept_run : ∃ s, Reachable step (fun s op => s.ok op = true) Init s ∧
    s.lut = some [0, 1, 0, 1] ∧ s.Kept := by
  obtain ⟨s, run, table⟩ : ∃ s, execIf step ok (start 4 4 true)
      [.openVport (.rss true ⟨true, true⟩ true), .setRxfh true (some fun i => 3 - i) ⟨true, false⟩,
        .setRxfh true (some fun i => 3 - i) ⟨true, true⟩, .setRxhash false ⟨true, true⟩,
        .closeVport, .openVport (.rss true ⟨true, true⟩ true), .setRxhash false ⟨true, true⟩,
        .setupXdp (.done 4 (.rss true ⟨true, true⟩ true)),
        .setChannels 2 (.done (.rss true ⟨true, true⟩ true)), .closeVport] = some s ∧
        s.lut = some [0, 1, 0, 1] := by
    apply Option.map_eq_some_iff.mp
    decide +kernel
  have init : Init (start 4 4 true) := ⟨4, 4, true, rfl⟩
  have reached := Reachable.execIf (.start init) run
  exact ⟨s, reached, table, rss_kept reached⟩

/-- RXHASH is off when the channels change: the default table is filled all the same, and the
device is sent zeroes. -/
theorem channel_change_ignores_rxhash :
    ¬ ∀ s, Reachable step anyStep Init s → s.Kept := by
  intro claim
  obtain ⟨s, run, off, table⟩ : ∃ s, exec step (start 4 4 true)
      [.openVport (.rss true ⟨true, true⟩ true), .setRxhash false ⟨true, true⟩,
        .setChannels 2 (.done (.rss true ⟨true, true⟩ true))] = some s ∧
        s.rxhash = false ∧ s.lut = some [0, 1, 0, 1] := by
    refine ⟨_, rfl, ?_⟩
    decide +kernel
  have init : Init (start 4 4 true) := ⟨4, 4, true, rfl⟩
  have kept := claim s (Reachable.exec (.start init) run)
  exact absurd (kept.zero off _ table 1 (by decide)) Nat.one_ne_zero

end RssVport

end Idpf
