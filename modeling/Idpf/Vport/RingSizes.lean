import Idpf.Tx.Basic
import Idpf.Vport.QueueRequests

/-! The sizes of the Rx queues and of the buffer queues that feed them, through ring size changes,
header split, XDP programs and resets: no group may have more buffers than completions. -/
namespace Idpf
open General

/-! IDPF_MIN_RXQ_DESC, IDPF_REQ_DESC_MULTIPLE and IDPF_REQ_RXQ_DESC_MULTIPLE -/

def minRxqDesc : Nat := 64
def reqDescMultiple : Nat := 32
def reqRxqDescMultiple : Nat := 2 * reqDescMultiple

/-- `ALIGN` of a 32-bit number. -/
def align32 (x a : Nat) : Nat := (x + (a - 1)) % 2 ^ 32 / a * a

/-- The rings of a group: the descriptors of its Rx queue and of its buffer queues. -/
structure RxRings where
  rxq : Nat
  bufqs : List Nat
  deriving DecidableEq, Repr

/-- There are no more buffers than the Rx queue has descriptors. -/
def RxRings.Fits (g : RxRings) : Prop := g.bufqs.sum ≤ g.rxq

/-- The Rx descriptors that the user asked for, or the default. -/
def UserConfig.rxd (user : UserConfig) : Nat :=
  if user.numReqRxqDesc = 0 then 512 else user.numReqRxqDesc

namespace QVecRsrc

/-- What `idpf_rxq_group_alloc` gives a group. -/
def rings (r : QVecRsrc) : RxRings := ⟨r.rxqDescCount, r.bufqDescCount.take r.numBufqsPerQgrp⟩

/-- The loop over the buffer queues in `idpf_set_ringparam`. -/
def setBufqDescs (r : QVecRsrc) (rxd : Nat) : QVecRsrc :=
  { r with bufqDescCount := r.bufqDescCount.mapIdx fun i n =>
      if i < r.numBufqsPerQgrp then rxd / r.numBufqsPerQgrp else n }

end QVecRsrc

/-- What calculating the counts makes of those of a buffer queue. -/
def fullCount (rxd bufqs n : Nat) : Nat := if n = 0 then rxd / bufqs else n

/-- `ETHTOOL_TCP_DATA_SPLIT_*` -/
inductive DataSplit where
  | unknown
  | disabled
  | enabled
  deriving DecidableEq, Repr

/-- `idpf_vport_calc_num_q_desc` on the vport of a slot. -/
def QueueUse.calcNumQDesc (s : QueueUse) : QueueUse :=
  match s.config, s.vport with
  | some user, some v => { s with vport := some { v with rsrc := v.rsrc.calcNumQDesc user } }
  | _, _ => s

/-- A vport slot with the header split flag, whether the device can split headers, and the rings that
are allocated while the vport is up. -/
structure RingSlot where
  use : QueueUse
  cap : Bool
  hsplit : Bool
  rings : Option RxRings

/-- What may change the sizes; `reopen` is whether the vport that was up comes up again. -/
inductive SizeOp where
  | create (e : CreateEnv) (result : CreateEnd)
  | register
  | up (works : Bool)
  | down
  | setRingparam (tx rx : Nat) (split : DataSplit) (xsk : Bool) (result : SoftEnd) (reopen : Bool)
  | setPrivFlags (hsplit : Bool) (result : SoftEnd) (reopen : Bool)
  | setChannels (combined tx rx avail : Nat) (result : SoftEnd) (reopen : Bool)
  | softReset (result : SoftEnd) (reopen : Bool)
  | xdpSetup (prog queues : Bool) (avail : Nat) (added reopen : Bool)
  | hardReset
  | destroy

namespace RingSlot

/-- `idpf_is_hsplit_supported` -/
def splits (s : RingSlot) (r : QVecRsrc) : Bool := r.rxSplit && s.cap

/-- `idpf_vport_get_hsplit` -/
def getHsplit (s : RingSlot) (r : QVecRsrc) : DataSplit :=
  if s.splits r then if s.hsplit then .enabled else .disabled else .unknown

/-- `idpf_vport_set_hsplit`: the flag after it, `none` where it returns false. -/
def setHsplit (s : RingSlot) (r : QVecRsrc) (val : DataSplit) : Option Bool :=
  if s.splits r then some (val != .disabled) else if val = .unknown then some s.hsplit else none

def xdpHsplit (s : RingSlot) (r : QVecRsrc) (prog : Bool) : Bool :=
  (s.setHsplit r (if prog then .disabled else .enabled)).getD s.hsplit

/-- The checks of `idpf_set_ringparam`: the header split flag if the request is carried out. -/
def ringRequest (s : RingSlot) (r : QVecRsrc) (tx rx : Nat) (split : DataSplit) (xsk : Bool) :
    Option Bool :=
  if xsk then none
  else if tx < minTxqDesc then none
  else if rx < minRxqDesc then none
  else if align32 tx reqDescMultiple = r.txqDescCount ∧
      align32 rx reqRxqDescMultiple = r.rxqDescCount ∧ split = s.getHsplit r then none
  else s.setHsplit r split

/-- The slot after a reset or a change of the program. A vport that is up is stopped before the
device is asked for queues. -/
def follow (s : RingSlot) (use : QueueUse) (reopen : Bool) : RingSlot :=
  { s with
    use
    rings :=
      if use.asked.isEmpty then s.rings
      else if s.rings.isSome && reopen then use.vport.map fun v => v.rsrc.rings
      else none }

/-- `idpf_set_ringparam`. The counts of the buffer queues change in the vport itself, before the reset
that is to bring the rest. -/
def setRingparam (s : RingSlot) (user : UserConfig) (v : QueueVport) (tx rx : Nat)
    (split : DataSplit) (xsk : Bool) (result : SoftEnd) (reopen : Bool) : RingSlot :=
  match s.ringRequest v.rsrc tx rx split xsk with
  | none => s
  | some hsplit =>
    let rxd := align32 rx reqRxqDescMultiple
    let user' := { user with
      numReqTxqDesc := align32 tx reqDescMultiple
      numReqRxqDesc := rxd }
    let v' := { v with rsrc := v.rsrc.setBufqDescs rxd }
    let use := { s.use with
      config := some user'
      vport := some v'
      asked := [] }
    { s with hsplit }.follow
      (use.reset v' { v' with rsrc := v'.rsrc.calcNumQDesc user' } result) reopen

/-- A program is set or removed while there is a vport. -/
def toggles (s : RingSlot) (prog : Bool) : Bool :=
  match s.use.config, s.use.vport with
  | some user, some _ => user.xdpProg != prog
  | _, _ => false

def step (s : RingSlot) : SizeOp → Option RingSlot
  | .create e result =>
    (s.use.step (.create e result)).map fun use =>
      { s with
        use := use.calcNumQDesc
        hsplit :=
          match use.config, use.vport with
          | some user, some v => s.xdpHsplit v.rsrc user.xdpProg
          | _, _ => s.hsplit }
  | .register => (s.use.step .register).map fun use => { s with use }
  | .up works =>
    match s.use.vport, s.rings with
    | some v, none => some { s with rings := if works then some v.rsrc.rings else none }
    | some _, some _ => some s
    | none, _ => none
  | .down => some { s with rings := none }
  | .setRingparam tx rx split xsk result reopen =>
    match s.use.config, s.use.vport with
    | some user, some v => some (s.setRingparam user v tx rx split xsk result reopen)
    | _, _ => none
  | .setPrivFlags hsplit result reopen =>
    match s.use.config, s.use.vport with
    | some user, some v =>
      if hsplit && (!s.splits v.rsrc || user.xdpProg) then some s
      else if hsplit = s.hsplit then some s
      else (s.use.step (.softReset result)).map fun use => { s with hsplit }.follow use reopen
    | _, _ => none
  | .setChannels combined tx rx avail result reopen =>
    (s.use.step (.setChannels combined tx rx avail result)).map fun use => s.follow use reopen
  | .softReset result reopen =>
    (s.use.step (.softReset result)).map fun use => s.follow use reopen
  | .xdpSetup prog queues avail added reopen =>
    (s.use.step (.xdpSetup prog (queues || s.rings.isSome) avail added)).map fun use =>
      if s.toggles prog then
        { s with
          hsplit :=
            match s.use.vport with
            | some v => s.xdpHsplit v.rsrc prog
            | none => s.hsplit }.follow use.calcNumQDesc (added && reopen)
      else { s with use }
  | .hardReset => (s.use.step .hardReset).map fun use => { s with use, rings := none }
  | .destroy => (s.use.step .destroy).map fun use => { s with use, rings := none }

def Start (s : RingSlot) : Prop := ∃ cap hsplit, s = ⟨.start, cap, hsplit, none⟩

/-- What the vport is set up for, and what is allocated, has no more buffers than completions. -/
def Fits (s : RingSlot) : Prop :=
  (∀ v, s.use.vport = some v → v.rsrc.rings.Fits) ∧ ∀ g, s.rings = some g → g.Fits

/-- The steps that keep the sizes right: a request for rings that fails asks for no more than there
are, and where a program is removed the buffer queues have counts that fit together, or none yet. -/
def ok (s : RingSlot) : SizeOp → Bool
  | .setRingparam tx rx split xsk result _ =>
    match s.use.config, s.use.vport with
    | some _, some v =>
      (s.ringRequest v.rsrc tx rx split xsk).isNone || result = .late || result = .done ||
        v.rsrc.numBufqsPerQgrp * (align32 rx reqRxqDescMultiple / v.rsrc.numBufqsPerQgrp) ≤
          v.rsrc.rxqDescCount
    | _, _ => true
  | .xdpSetup prog _ _ _ _ =>
    match s.use.config, s.use.vport with
    | some user, some v =>
      prog || !user.xdpProg || !v.rsrc.rxSplit ||
        (v.rsrc.bufqDescCount.map (fullCount user.rxd 2)).sum ≤ user.rxd
    | _, _ => true
  | _ => true

end RingSlot

def bufqsOf (rxSplit xdp : Bool) : Nat := if rxSplit then if xdp then 1 else 2 else 0

theorem bufqsOf_cases (rxSplit xdp : Bool) :
    bufqsOf rxSplit xdp = 0 ∨ bufqsOf rxSplit xdp = 1 ∨ bufqsOf rxSplit xdp = 2 := by
  cases rxSplit with
  | false => exact .inl rfl
  | true =>
      cases xdp with
      | true => exact .inr (.inl rfl)
      | false => exact .inr (.inr rfl)

/-- What holds of the counts of a vport with its config: the buffers that they make are no more than
the completions that the user asked for. -/
structure Settled (user : UserConfig) (r : QVecRsrc) : Prop where
  bufqs : r.numBufqsPerQgrp = bufqsOf r.rxSplit user.xdpProg
  two : r.bufqDescCount.length = 2
  asked : r.rings.bufqs.sum ≤ user.rxd

section counts

variable {user user' : UserConfig} {r : QVecRsrc}

theorem adjusted (r : QVecRsrc) (xdp : Bool) (numQ : QueueKind → Nat) :
    let r' := (r.initNumQs xdp numQ).calcNumQGroups
    r'.rxSplit = r.rxSplit ∧ r'.numBufqsPerQgrp = bufqsOf r.rxSplit xdp ∧
      r'.bufqDescCount = r.bufqDescCount ∧ r'.rxqDescCount = r.rxqDescCount := by
  unfold QVecRsrc.initNumQs QVecRsrc.calcNumQGroups bufqsOf
  cases split : r.rxSplit with
  | false => simp
  | true => cases xdp <;> simp

theorem setBufqDescs_bufqs (r : QVecRsrc) (two : r.bufqDescCount.length = 2) (n : Nat)
    (bufqs : r.numBufqsPerQgrp = 0 ∨ r.numBufqsPerQgrp = 1 ∨ r.numBufqsPerQgrp = 2) :
    (r.setBufqDescs n).rings.bufqs =
      List.replicate r.numBufqsPerQgrp (n / r.numBufqsPerQgrp) := by
  obtain ⟨a, c, counts⟩ := List.length_eq_two.mp two
  unfold QVecRsrc.setBufqDescs QVecRsrc.rings
  rw [counts]
  obtain none | one | both := bufqs
  · simp [none]
  · simp [one]
  · simp [both, List.replicate]

/-- The counts are calculated where there are none yet. -/
theorem calcNumQDesc_rings (r : QVecRsrc) (user : UserConfig) (two : r.bufqDescCount.length = 2)
    (bufqs : r.numBufqsPerQgrp = 0 ∨ r.numBufqsPerQgrp = 1 ∨ r.numBufqsPerQgrp = 2) :
    (r.calcNumQDesc user).rings =
      ⟨user.rxd, r.rings.bufqs.map (fullCount user.rxd r.numBufqsPerQgrp)⟩ := by
  obtain ⟨a, c, counts⟩ := List.length_eq_two.mp two
  unfold QVecRsrc.calcNumQDesc QVecRsrc.rings fullCount UserConfig.rxd
  rw [counts]
  obtain none | one | both := bufqs
  · simp [none]
  · simp [one]
  · simp [both]

theorem fullCount_sum_le {rxd n : Nat} (le : n ≤ rxd) (bufqs : Nat) :
    ((List.replicate bufqs (n / bufqs)).map (fullCount rxd bufqs)).sum ≤ rxd := by
  rw [List.map_replicate, List.sum_replicate_nat]
  unfold fullCount
  split
  · exact Nat.mul_div_le rxd bufqs
  · exact (Nat.mul_div_le n bufqs).trans le

theorem calcNumQDesc_length (r : QVecRsrc) (user : UserConfig) :
    (r.calcNumQDesc user).bufqDescCount.length = r.bufqDescCount.length :=
  List.length_mapIdx

/-- The counts calculated anew, where they fit. -/
theorem settled_calc (bufqs : r.numBufqsPerQgrp = bufqsOf r.rxSplit user.xdpProg)
    (two : r.bufqDescCount.length = 2)
    (fits : (r.rings.bufqs.map (fullCount user.rxd r.numBufqsPerQgrp)).sum ≤ user.rxd) :
    Settled user (r.calcNumQDesc user) ∧ (r.calcNumQDesc user).rings.Fits := by
  have few : r.numBufqsPerQgrp = 0 ∨ r.numBufqsPerQgrp = 1 ∨ r.numBufqsPerQgrp = 2 :=
    bufqs ▸ bufqsOf_cases _ _
  have rings := calcNumQDesc_rings r user two few
  refine ⟨⟨bufqs, (calcNumQDesc_length r user).trans two, ?_⟩, ?_⟩
  · rw [rings]
    exact fits
  · rw [RxRings.Fits, rings]
    exact fits

theorem settled_fresh {numQ : QueueKind → Nat} (txSplit rxSplit : Bool) (user : UserConfig) :
    let r := ((QVecRsrc.zero txSplit rxSplit).initNumQs user.xdpProg numQ).calcNumQGroups
    Settled user (r.calcNumQDesc user) ∧ (r.calcNumQDesc user).rings.Fits := by
  intro r
  obtain ⟨split, bufqs, counts, -⟩ := adjusted (QVecRsrc.zero txSplit rxSplit) user.xdpProg numQ
  have zero : r.rings.bufqs = List.replicate r.numBufqsPerQgrp (0 / r.numBufqsPerQgrp) := by
    change r.bufqDescCount.take r.numBufqsPerQgrp = _
    have few := bufqsOf_cases rxSplit user.xdpProg
    rw [counts, bufqs, Nat.zero_div]
    change [0, 0].take (bufqsOf rxSplit user.xdpProg) = List.replicate (bufqsOf rxSplit _) 0
    obtain none | one | both := few
    · rw [none]
      rfl
    · rw [one]
      rfl
    · rw [both]
      rfl
  apply settled_calc
  · rw [split]
    exact bufqs
  · exact congrArg List.length counts
  · rw [zero]
    exact fullCount_sum_le (Nat.zero_le _) _

/-- A request of the user: the counts of the buffer queues, and what is calculated from them. -/
theorem Settled.request (old : Settled user r) (n : Nat) (xdp : user'.xdpProg = user.xdpProg)
    (asked : n ≤ user'.rxd) :
    Settled user' (r.setBufqDescs n) ∧
      Settled user' ((r.setBufqDescs n).calcNumQDesc user') ∧
      ((r.setBufqDescs n).calcNumQDesc user').rings.Fits := by
  have few : r.numBufqsPerQgrp = 0 ∨ r.numBufqsPerQgrp = 1 ∨ r.numBufqsPerQgrp = 2 :=
    old.bufqs ▸ bufqsOf_cases _ _
  have bufqs : (r.setBufqDescs n).numBufqsPerQgrp =
      bufqsOf (r.setBufqDescs n).rxSplit user'.xdpProg := by
    rw [xdp]
    exact old.bufqs
  have two : (r.setBufqDescs n).bufqDescCount.length = 2 := List.length_mapIdx.trans old.two
  have shares := setBufqDescs_bufqs r old.two n few
  refine ⟨⟨bufqs, two, ?_⟩, settled_calc bufqs two ?_⟩
  · rw [shares, List.sum_replicate_nat]
    exact (Nat.mul_div_le n _).trans asked
  · rw [shares]
    exact fullCount_sum_le asked _

theorem Settled.toggle {prog : Bool} {numQ : QueueKind → Nat} (old : Settled user r)
    (change : user.xdpProg ≠ prog) :
    let user' := { user with xdpProg := prog }
    let r' := ((r.initNumQs prog numQ).calcNumQGroups).calcNumQDesc user'
    (r'.rings.Fits ↔ prog = true ∨ r.rxSplit = false ∨
      (r.bufqDescCount.map (fullCount user.rxd 2)).sum ≤ user.rxd) ∧
      (r'.rings.Fits → Settled user' r') := by
  intro user' r'
  obtain ⟨a, c, counts⟩ := List.length_eq_two.mp old.two
  obtain ⟨split, bufqs, kept, -⟩ := adjusted r prog numQ
  have two : (r.initNumQs prog numQ).calcNumQGroups.bufqDescCount.length = 2 := by
    rw [kept]
    exact old.two
  have few := bufqsOf_cases r.rxSplit prog
  rw [← bufqs] at few
  have rings := calcNumQDesc_rings _ user' two few
  have bufqs' : (r.initNumQs prog numQ).calcNumQGroups.numBufqsPerQgrp =
      bufqsOf (r.initNumQs prog numQ).calcNumQGroups.rxSplit user'.xdpProg := by
    rw [split]
    exact bufqs
  have new : r'.rings = ⟨user.rxd, ((r.bufqDescCount.take (bufqsOf r.rxSplit prog)).map
      (fullCount user.rxd (bufqsOf r.rxSplit prog)))⟩ := by
    rw [← kept, ← bufqs]
    exact rings
  constructor
  · rw [RxRings.Fits, new, counts]
    cases both : r.rxSplit with
    | false => simp [bufqsOf]
    | true =>
        cases prog with
        | true =>
            have before : user.xdpProg = false := Bool.eq_false_iff.mpr change
            have asked := old.asked
            have fits : fullCount user.rxd 1 a ≤ user.rxd := by
              unfold QVecRsrc.rings at asked
              rw [old.bufqs, both, before, counts] at asked
              simp only [bufqsOf, if_true, Bool.false_eq_true, if_false, List.take_succ_cons,
                List.take_zero, List.sum_cons, List.sum_nil] at asked
              unfold fullCount
              split
              · exact Nat.div_le_self _ 1
              · omega
            simp [bufqsOf, fits]
        | false => simp [bufqsOf]
  · intro fits
    refine (settled_calc bufqs' two ?_).1
    rw [RxRings.Fits, rings] at fits
    exact fits

/-- Counts that make the same rings. -/
structure SameSizes (r r' : QVecRsrc) : Prop where
  split : r'.rxSplit = r.rxSplit
  bufqs : r'.numBufqsPerQgrp = r.numBufqsPerQgrp
  counts : r'.bufqDescCount = r.bufqDescCount
  rxq : r'.rxqDescCount = r.rxqDescCount

theorem SameSizes.rings {r' : QVecRsrc} (same : SameSizes r r') : r'.rings = r.rings := by
  unfold QVecRsrc.rings
  rw [same.rxq, same.counts, same.bufqs]

theorem Settled.congr {r' : QVecRsrc} (old : Settled user r) (same : SameSizes r r')
    (xdp : user'.xdpProg = user.xdpProg) (rxd : user'.rxd = user.rxd) : Settled user' r' := by
  constructor
  · rw [same.bufqs, same.split, xdp]
    exact old.bufqs
  · rw [same.counts]
    exact old.two
  · rw [same.rings, rxd]
    exact old.asked

end counts

namespace RingSlot

variable {s t : RingSlot} {user : UserConfig} {v : QueueVport}

/-- The vport of the slot, where there is one, has counts that are settled. -/
def Sized (use : QueueUse) : Prop :=
  ∀ v, use.vport = some v → ∃ user, use.config = some user ∧ Settled user v.rsrc

def SetUp (use : QueueUse) : Prop := ∀ v, use.vport = some v → v.rsrc.rings.Fits

theorem sized_of {use : QueueUse} (config : use.config = some user) (vport : use.vport = some v)
    (settled : Settled user v.rsrc) : Sized use := by
  intro w there
  rw [vport] at there
  obtain rfl := Option.some.inj there
  exact ⟨user, config, settled⟩

theorem Sized.settled {use : QueueUse} (sized : Sized use) (config : use.config = some user)
    (vport : use.vport = some v) : Settled user v.rsrc := by
  obtain ⟨user', config', settled⟩ := sized v vport
  obtain rfl := Option.some.inj (config.symm.trans config')
  exact settled

theorem setUp_of {use : QueueUse} (vport : use.vport = some v) : SetUp use ↔ v.rsrc.rings.Fits := by
  constructor
  · exact fun fits => fits v vport
  · intro fits w there
    rw [vport] at there
    obtain rfl := Option.some.inj there
    exact fits

theorem gone {use : QueueUse} (vport : use.vport = none) : Sized use ∧ SetUp use := by
  constructor
  · exact fun w there => absurd (vport.symm.trans there) (Option.some_ne_none w).symm
  · exact fun w there => absurd (vport.symm.trans there) (Option.some_ne_none w).symm

/-- A vport that comes up again has rings of the sizes that it is set up for. -/
theorem follow_fits (rings : ∀ g, s.rings = some g → g.Fits) (use : QueueUse) (reopen : Bool) :
    (s.follow use reopen).Fits ↔ SetUp use := by
  constructor
  · exact fun fits => fits.1
  · intro fits
    refine ⟨fits, ?_⟩
    intro g there
    unfold follow at there
    dsimp only at there
    split at there
    · exact rings g there
    · split at there
      · obtain ⟨v, vport, rfl⟩ := Option.map_eq_some_iff.mp there
        exact fits v vport
      · cases there

theorem calcNumQDesc_some {use : QueueUse} (config : use.config = some user)
    (vport : use.vport = some v) :
    use.calcNumQDesc =
      { use with vport := some { v with rsrc := v.rsrc.calcNumQDesc user } } := by
  unfold QueueUse.calcNumQDesc
  rw [config, vport]

theorem calcNumQDesc_none {use : QueueUse} (vport : use.vport = none) : use.calcNumQDesc = use := by
  unfold QueueUse.calcNumQDesc
  split
  next there => exact absurd (vport.symm.trans there) (Option.some_ne_none _).symm
  · rfl

theorem initNumReq_sizes (user : UserConfig) (numQ : QueueKind → Nat) :
    (user.initNumReq numQ).xdpProg = user.xdpProg ∧ (user.initNumReq numQ).rxd = user.rxd := by
  unfold UserConfig.initNumReq
  split
  · exact ⟨rfl, rfl⟩
  · exact ⟨rfl, rfl⟩

theorem create_sized {u : QueueUse} (there : u.vport = none) (e : CreateEnv) (result : CreateEnd) :
    Sized (u.create e result).calcNumQDesc ∧ SetUp (u.create e result).calcNumQDesc := by
  cases result with
  | msgFailed =>
      rw [calcNumQDesc_none (by exact there)]
      exact gone there
  | early r =>
      rw [calcNumQDesc_none (by exact there)]
      exact gone there
  | late r =>
      rw [calcNumQDesc_none (by exact there)]
      exact gone there
  | done r =>
      obtain ⟨xdp, -⟩ := initNumReq_sizes (u.configFor e) r.numQ
      have fresh := @settled_fresh r.numQ r.txSplit r.rxSplit ((u.configFor e).initNumReq r.numQ)
      rw [xdp] at fresh
      have rsrc : (QueueUse.newVport e (u.configFor e) r).rsrc =
          ((QVecRsrc.zero r.txSplit r.rxSplit).initNumQs (u.configFor e).xdpProg
            r.numQ).calcNumQGroups := (QueueUse.allocVecIndexes_spec _ _ _).1
      rw [← rsrc] at fresh
      rw [calcNumQDesc_some rfl rfl]
      exact ⟨sized_of rfl rfl fresh.1, (setUp_of rfl).mpr fresh.2⟩

/-- A change of the channels makes no difference to the sizes. -/
theorem setChannels_sized {u : QueueUse} (config : u.config = some user) (vport : u.vport = some v)
    (settled : Settled user v.rsrc) (fits : v.rsrc.rings.Fits) (tx rx avail : Nat)
    (result : SoftEnd) :
    Sized (u.setChannels user v tx rx avail result) ∧
      SetUp (u.setChannels user v tx rx avail result) := by
  have old : Sized u ∧ SetUp u := ⟨sized_of config vport settled, (setUp_of vport).mpr fits⟩
  unfold QueueUse.setChannels
  split
  · exact old
  · split
    · exact old
    · dsimp only
      generalize request : { user with numReqTxQs := tx, numReqRxQs := rx } = user'
      generalize new : (v.adjustQs user').allocVecIndexes user.xdpProg avail = v'
      have xdp : user'.xdpProg = user.xdpProg := by rw [← request]
      have rxd : user'.rxd = user.rxd := by rw [← request]; rfl
      have same : SameSizes v.rsrc v'.rsrc := by
        rw [← new, (QueueUse.allocVecIndexes_spec _ _ _).1]
        obtain ⟨split, bufqs, counts, rxq⟩ := adjusted v.rsrc user'.xdpProg
          (user'.totalQs v.rsrc.txSplit v.rsrc.rxSplit)
        have old := settled.bufqs
        rw [← xdp] at old
        exact ⟨split, bufqs.trans old.symm, counts, rxq⟩
      have fits' : v'.rsrc.rings.Fits := same.rings ▸ fits
      cases result with
      | noMem => exact old
      | refused => exact ⟨sized_of config vport settled, (setUp_of vport).mpr fits⟩
      | late => exact ⟨sized_of config rfl (settled.congr same rfl rfl), (setUp_of rfl).mpr fits'⟩
      | done => exact ⟨sized_of rfl rfl (settled.congr same xdp rxd), (setUp_of rfl).mpr fits'⟩

theorem softReset_sized {u : QueueUse} (config : u.config = some user) (vport : u.vport = some v)
    (settled : Settled user v.rsrc) (fits : v.rsrc.rings.Fits) (result : SoftEnd) :
    Sized (u.reset v v result) ∧ SetUp (u.reset v v result) := by
  cases result with
  | noMem => exact ⟨sized_of config vport settled, (setUp_of vport).mpr fits⟩
  | refused => exact ⟨sized_of config vport settled, (setUp_of vport).mpr fits⟩
  | late => exact ⟨sized_of config rfl settled, (setUp_of rfl).mpr fits⟩
  | done => exact ⟨sized_of config rfl settled, (setUp_of rfl).mpr fits⟩

/-- A request of the user for rings. -/
theorem setRingparam_sized (config : s.use.config = some user) (vport : s.use.vport = some v)
    (settled : Settled user v.rsrc) (fits : s.Fits) (tx rx : Nat) (split : DataSplit) (xsk : Bool)
    (result : SoftEnd) (reopen : Bool) :
    Sized (s.setRingparam user v tx rx split xsk result reopen).use ∧
      ((s.setRingparam user v tx rx split xsk result reopen).Fits ↔
        s.ok (.setRingparam tx rx split xsk result reopen) = true) := by
  unfold setRingparam ok
  rw [config, vport]
  dsimp only
  cases request : s.ringRequest v.rsrc tx rx split xsk with
  | none => exact ⟨sized_of config vport settled, fun _ => rfl, fun _ => fits⟩
  | some hsplit =>
      dsimp only
      generalize align32 rx reqRxqDescMultiple = n
      generalize align32 tx reqDescMultiple = txd
      have few : v.rsrc.numBufqsPerQgrp = 0 ∨ v.rsrc.numBufqsPerQgrp = 1 ∨
          v.rsrc.numBufqsPerQgrp = 2 := settled.bufqs ▸ bufqsOf_cases _ _
      have asked : n ≤ ({ user with numReqTxqDesc := txd, numReqRxqDesc := n } : UserConfig).rxd := by
        unfold UserConfig.rxd
        dsimp only
        split
        · omega
        · exact Nat.le_refl n
      generalize req : ({ user with numReqTxqDesc := txd, numReqRxqDesc := n } : UserConfig) = user'
        at asked
      have xdp : user'.xdpProg = user.xdpProg := by rw [← req]
      obtain ⟨half, whole, fit⟩ := settled.request n xdp asked
      have shares := setBufqDescs_bufqs v.rsrc settled.two n few
      have misfit : (v.rsrc.setBufqDescs n).rings.Fits ↔
          v.rsrc.numBufqsPerQgrp * (n / v.rsrc.numBufqsPerQgrp) ≤ v.rsrc.rxqDescCount := by
        rw [RxRings.Fits, shares, List.sum_replicate_nat]
        rfl
      have follows := @follow_fits { s with hsplit } fits.2
      cases result with
      | noMem =>
          refine ⟨sized_of rfl rfl half, (follows _ _).trans ((setUp_of rfl).trans ?_)⟩
          simpa using misfit
      | refused =>
          refine ⟨sized_of rfl rfl half, (follows _ _).trans ((setUp_of rfl).trans ?_)⟩
          simpa using misfit
      | late =>
          refine ⟨sized_of rfl rfl whole, (follows _ _).trans ((setUp_of rfl).trans ?_)⟩
          simpa using fit
      | done =>
          refine ⟨sized_of rfl rfl whole, (follows _ _).trans ((setUp_of rfl).trans ?_)⟩
          simpa using fit

theorem xdpSetup_sized {u : QueueUse} {prog queues added : Bool} {avail : Nat}
    (vport : u.vport = some v) (settled : Settled user v.rsrc) (change : user.xdpProg ≠ prog) :
    let use := (u.xdpSetup user prog queues avail added).calcNumQDesc
    (SetUp use ↔ prog = true ∨ v.rsrc.rxSplit = false ∨
      (v.rsrc.bufqDescCount.map (fullCount user.rxd 2)).sum ≤ user.rxd) ∧ (SetUp use → Sized use) := by
  intro use
  have toggled := @Settled.toggle user v.rsrc prog (({ user with xdpProg := prog } : UserConfig).totalQs
    v.rsrc.txSplit v.rsrc.rxSplit) settled change
  obtain ⟨v', there, rsrc⟩ : ∃ v', (u.xdpSetup user prog queues avail added).vport = some v' ∧
      v'.rsrc = (v.adjustQs { user with xdpProg := prog }).rsrc := by
    unfold QueueUse.xdpSetup
    rw [vport]
    dsimp only
    rw [if_neg change]
    split
    · exact ⟨_, rfl, rfl⟩
    · split
      · exact ⟨_, rfl, (QueueUse.allocVecIndexes_spec _ _ _).1⟩
      · exact ⟨_, rfl, rfl⟩
  have config' : (u.xdpSetup user prog queues avail added).config =
      some { user with xdpProg := prog } := by
    unfold QueueUse.xdpSetup
    rw [vport]
    dsimp only
    rw [if_neg change]
    split
    · rfl
    · split
      · rfl
      · rfl
  have after : use.config = some { user with xdpProg := prog } ∧ use.vport =
      some { v' with rsrc := v'.rsrc.calcNumQDesc { user with xdpProg := prog } } := by
    change (QueueUse.calcNumQDesc _).config = _ ∧ (QueueUse.calcNumQDesc _).vport = _
    rw [calcNumQDesc_some config' there]
    exact ⟨config', rfl⟩
  rw [setUp_of after.2]
  dsimp only
  rw [rsrc]
  refine ⟨toggled.1, fun fits => sized_of after.1 after.2 ?_⟩
  dsimp only
  rw [rsrc]
  exact toggled.2 fits

theorem no_rings (use : QueueUse) (vport : SetUp use) : Fits { s with use, rings := none } :=
  ⟨vport, fun g there => absurd there (Option.some_ne_none g).symm⟩

/-- A program is set or removed, with what becomes of the rings. -/
theorem step_xdpSetup (z : Sized s.use) (fits : s.Fits) {prog queues added reopen : Bool}
    {avail : Nat} (taken : s.step (.xdpSetup prog queues avail added reopen) = some t) :
    (t.Fits ↔ s.ok (.xdpSetup prog queues avail added reopen) = true) ∧
      (t.Fits → Sized t.use) := by
  obtain ⟨use, made, rfl⟩ := Option.map_eq_some_iff.mp taken
  cases config : s.use.config with
  | none => simp only [QueueUse.step, QueueUse.stepFrom, config, reduceCtorEq] at made
  | some user =>
      cases vport : s.use.vport with
      | none =>
          simp only [QueueUse.step, QueueUse.stepFrom, config, vport, QueueUse.xdpSetup,
            Option.some.injEq] at made
          simp only [toggles, ok, config, vport, Bool.false_eq_true, if_false, ← made]
          have nothing := @gone { s.use with
            config := some { user with xdpProg := prog }
            vport := none
            asked := [] } rfl
          exact ⟨⟨fun _ => trivial, fun _ => ⟨nothing.2, fits.2⟩⟩, fun _ => nothing.1⟩
      | some v =>
          have settled := z.settled config vport
          simp only [QueueUse.step, QueueUse.stepFrom, config, vport, Option.some.injEq] at made
          by_cases change : user.xdpProg = prog
          · have same : s.toggles prog = false := by
              simp only [toggles, config, vport, change, bne_self_eq_false]
            have allowed : s.ok (.xdpSetup prog queues avail added reopen) = true := by
              simp only [ok, config, vport, change, Bool.or_not_self, Bool.true_or]
            have old : Sized s.use ∧ SetUp s.use := ⟨z, fits.1⟩
            unfold Sized SetUp at old
            rw [config, vport] at old
            simp only [QueueUse.xdpSetup, change, if_true] at made
            rw [same, if_neg Bool.false_ne_true, allowed, ← made]
            exact ⟨⟨fun _ => rfl, fun _ => ⟨old.2, fits.2⟩⟩, fun _ => old.1⟩
          · have other : s.toggles prog = true := by
              simp only [toggles, config, vport, bne_iff_ne, ne_eq]
              exact change
            obtain ⟨good, sized⟩ := @xdpSetup_sized user v { s.use with
              config := some user
              vport := some v
              asked := [] } prog (queues || s.rings.isSome) added avail rfl settled change
            rw [made] at good sized
            rw [other, if_pos rfl]
            have follows := @follow_fits { s with hsplit := match s.use.vport with
              | some v => s.xdpHsplit v.rsrc prog
              | none => s.hsplit } fits.2 use.calcNumQDesc (added && reopen)
            refine ⟨follows.trans (good.trans ?_), fun fit => sized (follows.mp fit)⟩
            simp only [ok, config, vport]
            cases prog with
            | true => simp
            | false =>
                have on : user.xdpProg = true := by simpa using change
                simp [on]

theorem step_setPrivFlags (z : Sized s.use) (fits : s.Fits) {hsplit : Bool} {result : SoftEnd}
    {reopen : Bool} (taken : s.step (.setPrivFlags hsplit result reopen) = some t) :
    Sized t.use ∧ t.Fits := by
  cases config : s.use.config with
  | none => simp only [step, config, reduceCtorEq] at taken
  | some user =>
      cases vport : s.use.vport with
      | none => simp only [step, config, vport, reduceCtorEq] at taken
      | some v =>
          have settled := z.settled config vport
          simp only [step, config, vport] at taken
          split at taken
          · exact Option.some.inj taken ▸ ⟨z, fits⟩
          · split at taken
            · exact Option.some.inj taken ▸ ⟨z, fits⟩
            · obtain ⟨use, made, rfl⟩ := Option.map_eq_some_iff.mp taken
              simp only [QueueUse.step, QueueUse.stepFrom, config, vport,
                Option.some.injEq] at made
              have reset := softReset_sized (u := { s.use with
                config := some user
                vport := some v
                asked := [] }) rfl rfl settled (fits.1 v vport) result
              rw [made] at reset
              exact ⟨reset.1, (follow_fits (s := { s with hsplit }) fits.2 _ _).mpr reset.2⟩

theorem step_setChannels (z : Sized s.use) (fits : s.Fits) {combined tx rx avail : Nat}
    {result : SoftEnd} {reopen : Bool}
    (taken : s.step (.setChannels combined tx rx avail result reopen) = some t) :
    Sized t.use ∧ t.Fits := by
  obtain ⟨use, made, rfl⟩ := Option.map_eq_some_iff.mp taken
  cases config : s.use.config with
  | none => simp only [QueueUse.step, QueueUse.stepFrom, config, reduceCtorEq] at made
  | some user =>
      cases vport : s.use.vport with
      | none => simp only [QueueUse.step, QueueUse.stepFrom, config, vport, reduceCtorEq] at made
      | some v =>
          have settled := z.settled config vport
          simp only [QueueUse.step, QueueUse.stepFrom, config, vport] at made
          have fit := fits.1 v vport
          split at made
          · rw [← Option.some.inj made]
            have same : Sized s.use ∧ SetUp s.use := ⟨z, fits.1⟩
            unfold Sized SetUp at same
            rw [config, vport] at same
            exact ⟨same.1, (follow_fits fits.2 _ _).mpr same.2⟩
          · rw [← Option.some.inj made]
            have changed := setChannels_sized (u := { s.use with
              config := some user
              vport := some v
              asked := [] }) rfl rfl settled fit (combined + tx) (combined + rx) avail result
            exact ⟨changed.1, (follow_fits fits.2 _ _).mpr changed.2⟩

theorem step_softReset (z : Sized s.use) (fits : s.Fits) {result : SoftEnd} {reopen : Bool}
    (taken : s.step (.softReset result reopen) = some t) : Sized t.use ∧ t.Fits := by
  obtain ⟨use, made, rfl⟩ := Option.map_eq_some_iff.mp taken
  cases config : s.use.config with
  | none => simp only [QueueUse.step, QueueUse.stepFrom, config, reduceCtorEq] at made
  | some user =>
      cases vport : s.use.vport with
      | none => simp only [QueueUse.step, QueueUse.stepFrom, config, vport, reduceCtorEq] at made
      | some v =>
          have settled := z.settled config vport
          simp only [QueueUse.step, QueueUse.stepFrom, config, vport, Option.some.injEq] at made
          have reset := softReset_sized (u := { s.use with
            config := some user
            vport := some v
            asked := [] }) rfl rfl settled (fits.1 v vport) result
          rw [made] at reset
          exact ⟨reset.1, (follow_fits fits.2 _ _).mpr reset.2⟩

/-- One step keeps the sizes right if and only if it is one of those that do. -/
theorem step_fits (z : Sized s.use) (fits : s.Fits) {o : SizeOp} (taken : s.step o = some t) :
    (t.Fits ↔ s.ok o = true) ∧ (t.Fits → Sized t.use) := by
  have always {t : RingSlot} (good : Sized t.use ∧ t.Fits) :
      (t.Fits ↔ true = true) ∧ (t.Fits → Sized t.use) :=
    ⟨⟨fun _ => rfl, fun _ => good.2⟩, fun _ => good.1⟩
  cases o with
  | create e result =>
      obtain ⟨use, made, rfl⟩ := Option.map_eq_some_iff.mp taken
      cases vport : s.use.vport with
      | some v => simp only [QueueUse.step, QueueUse.stepFrom, vport, reduceCtorEq] at made
      | none =>
          simp only [QueueUse.step, QueueUse.stepFrom, vport, Option.some.injEq] at made
          obtain ⟨sized, setUp⟩ := create_sized (u := { s.use with
            vport := none
            asked := [] }) rfl e result
          rw [made] at sized setUp
          exact always ⟨sized, setUp, fits.2⟩
  | register =>
      obtain ⟨use, made, rfl⟩ := Option.map_eq_some_iff.mp taken
      cases vport : s.use.vport with
      | none => simp only [QueueUse.step, QueueUse.stepFrom, vport, reduceCtorEq] at made
      | some v =>
          simp only [QueueUse.step, QueueUse.stepFrom, vport, Option.some.injEq] at made
          rw [← made]
          have same : Sized s.use ∧ SetUp s.use := ⟨z, fits.1⟩
          unfold Sized SetUp at same
          rw [vport] at same
          exact always ⟨same.1, same.2, fits.2⟩
  | up works =>
      cases vport : s.use.vport with
      | none => simp only [step, vport, reduceCtorEq] at taken
      | some v =>
          cases rings : s.rings with
          | some g =>
              simp only [step, vport, rings, Option.some.injEq] at taken
              exact taken ▸ always ⟨z, fits⟩
          | none =>
              simp only [step, vport, rings, Option.some.injEq] at taken
              rw [← taken]
              refine always ⟨z, fits.1, ?_⟩
              intro g there
              dsimp only at there
              split at there
              · rw [← Option.some.inj there]
                exact fits.1 v vport
              · cases there
  | down =>
      obtain rfl := Option.some.inj taken
      exact always ⟨z, no_rings s.use fits.1⟩
  | setRingparam tx rx split xsk result reopen =>
      cases config : s.use.config with
      | none => simp only [step, config, reduceCtorEq] at taken
      | some user =>
          cases vport : s.use.vport with
          | none => simp only [step, config, vport, reduceCtorEq] at taken
          | some v =>
              have settled := z.settled config vport
              simp only [step, config, vport, Option.some.injEq] at taken
              obtain ⟨sized, good⟩ :=
                setRingparam_sized config vport settled fits tx rx split xsk result reopen
              rw [taken] at sized good
              exact ⟨good, fun _ => sized⟩
  | setPrivFlags hsplit result reopen => exact always (step_setPrivFlags z fits taken)
  | setChannels combined tx rx avail result reopen => exact always (step_setChannels z fits taken)
  | softReset result reopen => exact always (step_softReset z fits taken)
  | xdpSetup prog queues avail added reopen => exact step_xdpSetup z fits taken
  | hardReset =>
      obtain rfl := Option.some.inj taken
      obtain ⟨sized, setUp⟩ := @gone { s.use with
        vport := none
        asked := [] } rfl
      exact always ⟨sized, no_rings _ setUp⟩
  | destroy =>
      obtain rfl := Option.some.inj taken
      obtain ⟨sized, setUp⟩ := @gone { s.use with
        config := none
        netdev := none
        registered := false
        vport := none
        asked := [] } rfl
      exact always ⟨sized, no_rings _ setUp⟩

theorem reached (run : Reachable step (fun s o => s.ok o = true) Start s) :
    Sized s.use ∧ s.Fits := by
  apply run.invariant
  · rintro _ ⟨cap, hsplit, rfl⟩
    obtain ⟨sized, setUp⟩ := @gone .start rfl
    exact ⟨sized, setUp, fun g there => absurd there (Option.some_ne_none g).symm⟩
  · intro s o t held good taken
    obtain ⟨same, sized⟩ := step_fits held.1 held.2 taken
    have fits := same.mpr good
    exact ⟨sized fits, fits⟩

/-- In a run of steps that keep the sizes right there are never more buffers than completions, and
the next step keeps it so if and only if it is such a step too. -/
theorem rx_bufs_fit (run : Reachable step (fun s o => s.ok o = true) Start s) :
    s.Fits ∧ ∀ o t, s.step o = some t → (t.Fits ↔ s.ok o = true) := by
  obtain ⟨sized, fits⟩ := reached run
  exact ⟨fits, fun o t taken => (step_fits sized fits taken).1⟩

/-- The slot of a vport with the split queue model, as it starts. -/
def splitStart : RingSlot := ⟨.start, true, true, none⟩

/-- A vport that is up takes a program, loses it again and gets larger rings. -/
theorem rx_bufs_fit_run :
    ∃ s : RingSlot, s.Fits ∧ s.rings = some ⟨1024, [512, 512]⟩ := by
  have run : (execIf step ok splitStart
      [.create (splitEnv 4) (.done (splitReply 4)), .up true, .xdpSetup true true 16 true true,
        .xdpSetup false true 16 true true,
        .setRingparam 512 1000 .enabled false .done true]).map (fun s => s.rings) =
          some (some ⟨1024, [512, 512]⟩) := by
    decide +kernel
  obtain ⟨s, steps, rings⟩ := Option.map_eq_some_iff.mp run
  exact ⟨s, (rx_bufs_fit (Reachable.execIf (.start ⟨true, true, rfl⟩) steps)).1, rings⟩

/-- The rings are made larger while there is a program, and it is removed: the second buffer queue
still has its size of before. -/
theorem rx_bufs_beyond_completions :
    ∃ s : RingSlot, Reachable step anyStep Start s ∧ s.rings = some ⟨1024, [1024, 256]⟩ ∧
      ¬ s.Fits := by
  have run : (exec step splitStart
      [.create (splitEnv 4) (.done (splitReply 4)), .up true, .xdpSetup true true 16 true true,
        .setRingparam 512 1024 .disabled false .done true,
        .xdpSetup false true 16 true true]).map (fun s => s.rings) =
          some (some ⟨1024, [1024, 256]⟩) := by
    decide +kernel
  obtain ⟨s, steps, rings⟩ := Option.map_eq_some_iff.mp run
  refine ⟨s, Reachable.exec (.start ⟨true, true, rfl⟩) steps, rings, ?_⟩
  intro fits
  exact absurd (fits.2 _ rings) (by decide : ¬ 1024 + (256 + 0) ≤ 1024)

end RingSlot

end Idpf
