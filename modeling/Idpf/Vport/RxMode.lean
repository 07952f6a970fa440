import Idpf.General.Transition

/-! Promiscuous modes: what the stack asks for, the flags that the driver keeps of it, and what the
device has been told. -/
namespace Idpf
open General

/-- `IFF_PROMISC` and `IFF_ALLMULTI` of a netdev. -/
structure RxFlags where
  promisc : Bool
  allmulti : Bool
  deriving DecidableEq, Repr

/-- `__IDPF_PROMISC_UC` and `__IDPF_PROMISC_MC`, or `VIRTCHNL2_UNICAST_PROMISC` and
`VIRTCHNL2_MULTICAST_PROMISC`. -/
structure PromiscModes where
  uc : Bool
  mc : Bool
  deriving DecidableEq, Repr

/-- The table above the tests of `idpf_set_rx_mode`. -/
def RxFlags.wanted (f : RxFlags) : PromiscModes := ⟨f.promisc, f.promisc || f.allmulti⟩

def RxFlags.off : RxFlags := ⟨false, false⟩

/-- A vport: the netdev's flags, those of `config_data->user_flags`, the bit of `adapter->flags` at
the place of `__IDPF_PROMISC_MC`, and what the device has been told since it made the vport. -/
structure RxMode where
  flags : RxFlags
  user : PromiscModes
  adapterMc : Bool
  told : PromiscModes
  deriving DecidableEq, Repr

namespace RxMode

variable (s : RxMode) (f : RxFlags)

/-- The test for `IFF_PROMISC`, with whether it changes anything. -/
def enterPromisc : RxMode × Bool :=
  if f.promisc && !s.user.uc then
    ({ s with user := { s.user with uc := true }, adapterMc := true }, true)
  else (s, false)

def leavePromisc : RxMode × Bool :=
  if !f.promisc && s.user.uc then ({ s with user := { s.user with uc := false } }, true)
  else (s, false)

/-- The test for `IFF_ALLMULTI`. -/
def enterAllmulti : RxMode × Bool :=
  if f.allmulti && !s.user.mc then ({ s with user := { s.user with mc := true } }, true)
  else (s, false)

def leaveAllmulti : RxMode × Bool :=
  if !(f.allmulti || f.promisc) && s.user.mc then
    ({ s with user := { s.user with mc := false } }, true)
  else (s, false)

/-- `idpf_set_promiscuous`; the flags are in the message, and `sent` tells whether it arrives. -/
def setPromiscuous (sent : Bool) : RxMode := if sent then { s with told := s.user } else s

/-- `idpf_set_rx_mode`, less the addresses. -/
def setRxMode (cap : Bool) (sent : Bool) : RxMode :=
  let s := { s with flags := f }
  if cap then
    let a := s.enterPromisc f
    let b := a.1.leavePromisc f
    let c := b.1.enterAllmulti f
    let d := c.1.leaveAllmulti f
    if a.2 || b.2 || c.2 || d.2 then d.1.setPromiscuous sent else d.1
  else s

end RxMode

/-- `ndo_set_rx_mode` is called, or the device makes the vport anew, as it does in a hard reset. The
driver's flags outlive that. -/
inductive RxModeOp where
  | setRxMode (f : RxFlags) (sent : Bool)
  | recreate
  deriving DecidableEq, Repr

namespace RxMode

def step (cap : Bool) (s : RxMode) : RxModeOp → Option RxMode
  | .setRxMode f sent => some (s.setRxMode f cap sent)
  | .recreate => some { s with told := ⟨false, false⟩ }

def start : RxMode := ⟨.off, ⟨false, false⟩, false, ⟨false, false⟩⟩

/-- The device receives what the table says for the netdev's flags. -/
def Agrees (s : RxMode) : Prop := s.told = s.flags.wanted

instance (s : RxMode) : Decidable s.Agrees := inferInstanceAs (Decidable (_ = _))

/-- `IFF_PROMISC` comes alone only after `IFF_ALLMULTI`, a message that is needed arrives, and no
vport is made anew while it has a mode. -/
def careful (cap : Bool) (s : RxMode) : RxModeOp → Bool
  | .setRxMode f sent =>
    (!f.promisc || f.allmulti || s.user.mc) && (cap && sent || decide (f.wanted = s.user))
  | .recreate => decide (s.flags = .off)

variable {cap : Bool} {s t : RxMode}

/-- What `idpf_set_rx_mode` makes of the driver's flags: the multicast flag stays as long as one of
the two is set. -/
def nextModes (m : PromiscModes) (f : RxFlags) : PromiscModes :=
  ⟨f.promisc, f.allmulti || f.promisc && m.mc⟩

theorem setRxMode_eq (s : RxMode) (f : RxFlags) (sent : Bool) :
    (s.setRxMode f true sent).user = nextModes s.user f ∧ (s.setRxMode f true sent).flags = f ∧
      (s.setRxMode f true sent).told =
        if nextModes s.user f ≠ s.user ∧ sent = true then nextModes s.user f else s.told := by
  obtain ⟨flags, ⟨uc, mc⟩, adapterMc, told⟩ := s
  obtain ⟨promisc, allmulti⟩ := f
  cases promisc <;> cases allmulti <;> cases uc <;> cases mc <;> cases sent <;>
    exact ⟨rfl, rfl, rfl⟩

/-- The device has been told what the table says, and the driver knows. -/
structure Settled (s : RxMode) : Prop where
  agrees : s.Agrees
  known : s.user = s.told

/-- The driver's flags are those of the table unless `IFF_PROMISC` comes alone. -/
theorem nextModes_eq_wanted_iff (m : PromiscModes) (f : RxFlags) :
    nextModes m f = f.wanted ↔ (!f.promisc || f.allmulti || m.mc) = true := by
  obtain ⟨promisc, allmulti⟩ := f
  rw [nextModes, RxFlags.wanted, PromiscModes.mk.injEq]
  cases promisc <;> cases allmulti <;> simp

theorem wanted_eq_off_iff (f : RxFlags) : f.wanted = ⟨false, false⟩ ↔ f = .off := by
  obtain ⟨promisc, allmulti⟩ := f
  cases promisc <;> cases allmulti <;> decide

theorem alone_of_wanted {m : PromiscModes} {f : RxFlags} (same : f.wanted = m) :
    (!f.promisc || f.allmulti || m.mc) = true := by
  obtain ⟨promisc, allmulti⟩ := f
  subst same
  cases promisc <;> simp [RxFlags.wanted]

theorem careful_iff (s : RxMode) (f : RxFlags) (sent : Bool) :
    s.careful cap (.setRxMode f sent) = true ↔
      nextModes s.user f = f.wanted ∧ ((cap = true ∧ sent = true) ∨ f.wanted = s.user) := by
  rw [careful, Bool.and_eq_true, ← nextModes_eq_wanted_iff, Bool.or_eq_true, Bool.and_eq_true,
    decide_eq_true_iff]

theorem Settled.setRxMode (settled : s.Settled) (f : RxFlags) (sent : Bool) :
    ((s.setRxMode f true sent).Agrees ↔ s.careful true (.setRxMode f sent) = true) ∧
      ((s.setRxMode f true sent).Agrees → (s.setRxMode f true sent).Settled) := by
  obtain ⟨user, flags, told⟩ := s.setRxMode_eq f sent
  rw [careful_iff, Agrees, told, flags]
  by_cases same : nextModes s.user f = s.user
  · -- No message is needed.
    rw [if_neg fun changed => changed.1 same, ← settled.known]
    refine ⟨⟨fun now => ?_, fun fine => same.symm.trans fine.1⟩, fun now => ⟨?_, ?_⟩⟩
    · exact ⟨same.trans now, .inr now.symm⟩
    · rw [Agrees, told, flags, if_neg fun changed => changed.1 same, ← settled.known]
      exact now
    · rw [user, told, if_neg fun changed => changed.1 same, same, settled.known]
  · cases sent with
    | true =>
        rw [if_pos ⟨same, rfl⟩]
        refine ⟨⟨fun now => ⟨now, .inl ⟨rfl, rfl⟩⟩, And.left⟩, fun now => ⟨?_, ?_⟩⟩
        · rw [Agrees, told, flags, if_pos ⟨same, rfl⟩]
          exact now
        · rw [user, told, if_pos ⟨same, rfl⟩]
    | false =>
        -- The device keeps the modes that it had, which are not wanted any more.
        rw [if_neg fun changed => Bool.false_ne_true changed.2, ← settled.known]
        have stale : s.user ≠ f.wanted := by
          intro now
          have alone := (nextModes_eq_wanted_iff s.user f).mpr (alone_of_wanted now.symm)
          exact same (alone.trans now.symm)
        refine ⟨iff_of_false stale fun fine => ?_, fun now => absurd now stale⟩
        exact fine.2.elim (fun sent => Bool.false_ne_true sent.2) fun now => stale now.symm

theorem Settled.step (settled : s.Settled) {op : RxModeOp} (step : s.step cap op = some t) :
    (t.Agrees ↔ s.careful cap op = true) ∧ (t.Agrees → t.Settled) := by
  cases op with
  | setRxMode f sent =>
      obtain rfl := Option.some.inj step
      cases cap with
      | true => exact settled.setRxMode f sent
      | false =>
          have told : (s.setRxMode f false sent).told = s.user := settled.known.symm
          rw [careful_iff, Agrees, told]
          refine ⟨⟨fun now => ⟨?_, .inr now.symm⟩, fun fine => ?_⟩, fun now => ⟨?_, settled.known⟩⟩
          · exact (nextModes_eq_wanted_iff s.user f).mpr (alone_of_wanted now.symm)
          · exact (fine.2.resolve_left fun sent => Bool.false_ne_true sent.1).symm
          · exact told.trans now
  | recreate =>
      obtain rfl := Option.some.inj step
      have agrees : ({ s with told := ⟨false, false⟩ } : RxMode).Agrees ↔ s.flags = .off :=
        eq_comm.trans (wanted_eq_off_iff s.flags)
      refine ⟨agrees.trans decide_eq_true_iff.symm, fun now => ⟨now, ?_⟩⟩
      rw [settled.known, settled.agrees, agrees.mp now]
      rfl

/-- The device receives what the table says, at every moment of a run, exactly if every step of the
run is a careful one. -/
theorem modes_agree_iff {ops : List RxModeOp} (run : exec (RxMode.step cap) start ops = some s) :
    (∀ front u, front <+: ops → exec (RxMode.step cap) start front = some u → u.Agrees) ↔
      execIf (RxMode.step cap) (careful cap) start ops = some s :=
  execIf_always (I := Settled) (fun _ _ _ settled step => settled.step step) ⟨rfl, rfl⟩ rfl run

/-- `IFF_PROMISC` alone: the device is told of unicast packets only. With `IFF_ALLMULTI` before it,
all is as the table says, until the vport is made anew. -/
theorem modes_agree_iff_alone :
    (∃ s, exec (RxMode.step true) start [.setRxMode ⟨true, false⟩ true] = some s ∧
      s.told = ⟨true, false⟩ ∧ ¬s.Agrees) ∧
    ∃ s, exec (RxMode.step true) start [.setRxMode ⟨false, true⟩ true,
        .setRxMode ⟨true, false⟩ true] = some s ∧ s.Agrees := by
  refine ⟨⟨_, rfl, rfl, by decide⟩, _, rfl, ?_⟩
  have run : exec (RxMode.step true) start [.setRxMode ⟨false, true⟩ true,
      .setRxMode ⟨true, false⟩ true] = some _ := rfl
  exact (modes_agree_iff run).mpr rfl _ _ List.prefix_rfl run

end RxMode

end Idpf
