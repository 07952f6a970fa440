import Idpf.General.Transition
import Mathlib.Algebra.Group.Int.Defs
import Mathlib.Algebra.Group.Nat.Defs
import Mathlib.Algebra.Group.Prod
import Mathlib.Data.Int.DivMod

/-! Dynamic interrupt moderation. After each window of events `net_dim` compares the rates with
those of the window before and may move to a neighbouring profile of moderation; what it measures
is up to the traffic. -/
namespace Idpf
open General

/-- `enum dim_tune_state`. -/
inductive DimTune where
  | parkingOnTop | parkingTired | goingRight | goingLeft
  deriving DecidableEq, Repr

/-- `enum dim_stats_state`. -/
inductive DimVerdict where
  | worse | same | better
  deriving DecidableEq, Repr

/-- `enum dim_step_result`. -/
inductive DimStepResult where
  | stepped | tooTired | onEdge
  deriving DecidableEq, Repr

/-- `enum dim_state`. -/
inductive DimState where
  | startMeasure | measureInProgress | applyNewProfile
  deriving DecidableEq, Repr

/-- The rates of `struct dim_stats` that are compared: packets, bytes and events a millisecond. -/
structure DimStats where
  ppms : Int
  bpms : Int
  epms : Int
  deriving DecidableEq, Repr

/-- `struct dim_sample`, the time in nanoseconds. -/
structure DimSample where
  time : Int
  pktCtr : Nat
  byteCtr : Nat
  eventCtr : Nat
  deriving DecidableEq, Repr

/-- `struct dim`; the four counters are `u8`. -/
structure Dim where
  state : DimState
  prevStats : DimStats
  startSample : DimSample
  profileIx : Nat
  tune : DimTune
  stepsRight : Nat
  stepsLeft : Nat
  tired : Nat
  deriving DecidableEq, Repr

/-- `NET_DIM_PARAMS_NUM_PROFILES`. -/
def netDimNumProfiles : Nat := 5

/-- `DIM_NEVENTS`. -/
def dimNevents : Nat := 64

/-- `idpf_init_dim` on a zeroed vector. -/
def initDim : Dim :=
  ⟨.startMeasure, ⟨0, 0, 0⟩, ⟨0, 0, 0, 0⟩, 1, .parkingOnTop, 0, 0, 0⟩

/-- What an `int` is as an `unsigned long`. -/
def ulongOfInt (x : Int) : Nat := (x % 2 ^ 64).toNat

/-- `IS_SIGNIFICANT_DIFF`; the difference and its `abs` are an `int` each. -/
def isSignificantDiff (val ref : Int) : Bool :=
  let diff := (val - ref).bmod (2 ^ 32)
  decide (10 < 100 * ulongOfInt (Int.bmod diff.natAbs (2 ^ 32)) % 2 ^ 64 / ulongOfInt ref)

/-- `net_dim_stats_compare`. -/
def statsCompare (curr prev : DimStats) : DimVerdict :=
  if prev.bpms = 0 then
    if curr.bpms ≠ 0 then .better else .same
  else if isSignificantDiff curr.bpms prev.bpms then
    if prev.bpms < curr.bpms then .better else .worse
  else if prev.ppms = 0 then
    if curr.ppms ≠ 0 then .better else .same
  else if isSignificantDiff curr.ppms prev.ppms then
    if prev.ppms < curr.ppms then .better else .worse
  else if prev.epms = 0 then .same
  else if isSignificantDiff curr.epms prev.epms then
    if curr.epms < prev.epms then .better else .worse
  else .same

namespace Dim

variable (d : Dim)

/-- `dim_on_top`. -/
def onTop : Bool :=
  match d.tune with
  | .parkingOnTop | .parkingTired => true
  | .goingRight => decide (1 < d.stepsLeft) && decide (d.stepsRight = 1)
  | .goingLeft => decide (1 < d.stepsRight) && decide (d.stepsLeft = 1)

/-- `dim_turn`. -/
def turn : Dim :=
  match d.tune with
  | .parkingOnTop | .parkingTired => d
  | .goingRight => { d with tune := .goingLeft, stepsLeft := 0 }
  | .goingLeft => { d with tune := .goingRight, stepsRight := 0 }

/-- `dim_park_on_top`. -/
def parkOnTop : Dim :=
  { d with stepsRight := 0, stepsLeft := 0, tired := 0, tune := .parkingOnTop }

/-- `dim_park_tired`. -/
def parkTired : Dim :=
  { d with stepsRight := 0, stepsLeft := 0, tune := .parkingTired }

/-- `net_dim_step`. -/
def step : Dim × DimStepResult :=
  if d.tired = netDimNumProfiles * 2 then (d, .tooTired)
  else
    match d.tune with
    | .parkingOnTop | .parkingTired => ({ d with tired := (d.tired + 1) % 256 }, .stepped)
    | .goingRight =>
      if d.profileIx = netDimNumProfiles - 1 then (d, .onEdge)
      else ({ d with
        profileIx := (d.profileIx + 1) % 256
        stepsRight := (d.stepsRight + 1) % 256
        tired := (d.tired + 1) % 256 }, .stepped)
    | .goingLeft =>
      if d.profileIx = 0 then (d, .onEdge)
      else ({ d with
        profileIx := (d.profileIx + 255) % 256
        stepsLeft := (d.stepsLeft + 1) % 256
        tired := (d.tired + 1) % 256 }, .stepped)

/-- `net_dim_exit_parking`. -/
def exitParking : Dim :=
  (step { d with tune := if d.profileIx ≠ 0 then .goingLeft else .goingRight }).1

/-- The branch of `net_dim_decision` for a direction, after the turn. -/
def advance : Dim :=
  if d.onTop then d.parkOnTop
  else
    match d.step with
    | (e, .onEdge) => e.parkOnTop
    | (e, .tooTired) => e.parkTired
    | (e, .stepped) => e

/-- The tuning that `net_dim_decision` arrives at. -/
def retune (curr : DimStats) : Dim :=
  match d.tune with
  | .parkingOnTop =>
    if statsCompare curr d.prevStats ≠ .same then d.exitParking else d
  | .parkingTired =>
    let e := { d with tired := (d.tired + 255) % 256 }
    if e.tired = 0 then e.exitParking else e
  | .goingRight | .goingLeft =>
    (if statsCompare curr d.prevStats ≠ .better then d.turn else d).advance

/-- `net_dim_decision`, with whether the profile is another one. -/
def decision (curr : DimStats) : Dim × Bool :=
  let e := d.retune curr
  (if d.tune ≠ .parkingOnTop ∨ e.tune ≠ .parkingOnTop then { e with prevStats := curr } else e,
    decide (e.profileIx ≠ d.profileIx))

end Dim

/-- `BIT_GAP`. -/
def bitGap (bits finish start : Nat) : Nat := ((finish : Int) - start + 2 ^ bits).toNat % 2 ^ bits

/-- A rate a millisecond as an `int`, of a count over some microseconds. -/
def perMsec (count deltaUs : Nat) : Int :=
  (((count * 1000 + deltaUs - 1) / deltaUs : Nat) : Int).bmod (2 ^ 32)

/-- `dim_calc_stats`: where no microsecond has passed the rates stay what was on the stack. -/
def calcStats (junk : DimStats) (start finish : DimSample) : DimStats :=
  let deltaUs := ((finish.time - start.time).tdiv 1000 % 2 ^ 32).toNat
  if deltaUs = 0 then junk
  else ⟨perMsec (bitGap 32 finish.pktCtr start.pktCtr) deltaUs,
    perMsec (bitGap 32 finish.byteCtr start.byteCtr) deltaUs, perMsec dimNevents deltaUs⟩

namespace Dim

/-- The end of `net_dim` that starts a measurement, at the time `now`. -/
def startMeasure (d : Dim) (s : DimSample) (now : Int) : Dim :=
  { d with startSample := { s with time := now }, state := .measureInProgress }

/-- `net_dim`, with whether it schedules the work. -/
def netDim (d : Dim) (junk : DimStats) (s : DimSample) (now : Int) : Dim × Bool :=
  match d.state with
  | .measureInProgress =>
    if bitGap 16 s.eventCtr d.startSample.eventCtr < dimNevents then (d, false)
    else
      match d.decision (calcStats junk d.startSample s) with
      | (e, true) => ({ e with state := .applyNewProfile }, true)
      | (e, false) => (e.startMeasure s now, false)
  | .startMeasure => (d.startMeasure s now, false)
  | .applyNewProfile => (d, false)

def Going (d : Dim) : Prop := d.tune = .goingRight ∨ d.tune = .goingLeft

/-- The counters are within their bounds, those of the steps by how far the profile is from either
end. -/
structure Tuned (d : Dim) : Prop where
  ix : d.profileIx < netDimNumProfiles
  tired : d.tired ≤ netDimNumProfiles * 2
  stepsRight : d.stepsRight < netDimNumProfiles
  stepsLeft : d.stepsLeft < netDimNumProfiles
  onTop : d.tune = .parkingOnTop → d.tired = 0
  weary : d.tune = .parkingTired → 0 < d.tired
  still : ¬d.Going → d.stepsRight = 0 ∧ d.stepsLeft = 0
  right : d.tune = .goingRight → d.stepsRight ≤ d.profileIx
  left : d.tune = .goingLeft → d.stepsLeft + d.profileIx < netDimNumProfiles

/-- How often the profile can still change before a decision that leaves it alone. -/
def fuel (d : Dim) : Nat :=
  match d.tune with
  | .parkingOnTop | .parkingTired => netDimNumProfiles * 2
  | .goingRight | .goingLeft => netDimNumProfiles * 2 - d.tired

theorem fuel_le (d : Dim) : d.fuel ≤ netDimNumProfiles * 2 := by
  unfold fuel
  split
  · exact Nat.le_refl _
  · exact Nat.le_refl _
  · exact Nat.sub_le _ _
  · exact Nat.sub_le _ _

theorem fuel_going {d : Dim} (going : d.Going) : d.fuel = netDimNumProfiles * 2 - d.tired := by
  cases going with
  | inl right => simp only [fuel, right]
  | inr left => simp only [fuel, left]

theorem fuel_ge (d : Dim) : netDimNumProfiles * 2 - d.tired ≤ d.fuel := by
  unfold fuel
  split
  · exact Nat.sub_le _ _
  · exact Nat.sub_le _ _
  · exact Nat.le_refl _
  · exact Nat.le_refl _

theorem fuel_parked {d : Dim} (parked : ¬d.Going) : d.fuel = netDimNumProfiles * 2 := by
  unfold fuel
  split
  · rfl
  · rfl
  · next right => exact absurd (.inl right) parked
  · next left => exact absurd (.inr left) parked

theorem profiles_pos : 0 < netDimNumProfiles := Nat.zero_lt_succ 4

theorem initDim_tuned : initDim.Tuned where
  ix := by decide
  tired := by decide
  stepsRight := by decide
  stepsLeft := by decide
  onTop := fun _ => rfl
  weary := fun h => nomatch h
  still := fun _ => ⟨rfl, rfl⟩
  right := fun h => nomatch h
  left := fun h => nomatch h

variable {d : Dim}

theorem Tuned.turn (tuned : d.Tuned) : d.turn.Tuned := by
  unfold Dim.turn
  cases h : d.tune with
  | parkingOnTop => exact tuned
  | parkingTired => exact tuned
  | goingRight =>
      refine ⟨tuned.ix, tuned.tired, tuned.stepsRight, profiles_pos, nofun, nofun, ?_, nofun, ?_⟩
      · exact fun parked => absurd (.inr rfl) parked
      · exact fun _ => (Nat.zero_add _).symm ▸ tuned.ix
  | goingLeft =>
      refine ⟨tuned.ix, tuned.tired, profiles_pos, tuned.stepsLeft, nofun, nofun, ?_, ?_, nofun⟩
      · exact fun parked => absurd (.inl rfl) parked
      · exact fun _ => Nat.zero_le _

theorem turn_going (going : d.Going) : d.turn.Going := by
  unfold turn
  cases going with
  | inl right =>
      rw [right]
      exact .inr rfl
  | inr left =>
      rw [left]
      exact .inl rfl

theorem turn_tired : d.turn.tired = d.tired := by
  unfold turn
  split <;> rfl

theorem turn_profileIx : d.turn.profileIx = d.profileIx := by
  unfold turn
  split <;> rfl

theorem Tuned.parkOnTop (tuned : d.Tuned) : d.parkOnTop.Tuned :=
  ⟨tuned.ix, Nat.zero_le _, profiles_pos, profiles_pos, fun _ => rfl, nofun, fun _ => ⟨rfl, rfl⟩,
    nofun, nofun⟩

theorem Tuned.parkTired (tuned : d.Tuned) (weary : 0 < d.tired) : d.parkTired.Tuned :=
  ⟨tuned.ix, tuned.tired, profiles_pos, profiles_pos, nofun, fun _ => weary,
    fun _ => ⟨rfl, rfl⟩, nofun, nofun⟩

theorem Tuned.measured (tuned : d.Tuned) (state : DimState) (prevStats : DimStats)
    (startSample : DimSample) : { d with state, prevStats, startSample }.Tuned :=
  ⟨tuned.ix, tuned.tired, tuned.stepsRight, tuned.stepsLeft, tuned.onTop, tuned.weary, tuned.still,
    tuned.right, tuned.left⟩

/-- A step to a neighbouring profile. -/
structure Moved (d e : Dim) : Prop where
  tuned : e.Tuned
  going : e.Going
  tired : e.tired = d.tired + 1
  profileIx : e.profileIx = d.profileIx + 1 ∨ e.profileIx + 1 = d.profileIx

namespace Moved

variable {e : Dim}

theorem spends (moved : d.Moved e) : e.fuel < netDimNumProfiles * 2 - d.tired := by
  have bound := moved.tuned.tired
  rw [fuel_going moved.going, moved.tired]
  rw [moved.tired] at bound
  omega

end Moved

/-- What `net_dim_step` does in either direction. -/
theorem step_cases (tuned : d.Tuned) (going : d.Going) :
    (d.step = (d, .tooTired) ∧ d.tired = netDimNumProfiles * 2) ∨
      (d.step = (d, .onEdge) ∧ (d.tune = .goingRight → d.profileIx + 1 = netDimNumProfiles) ∧
        (d.tune = .goingLeft → d.profileIx = 0)) ∨
      (d.step.2 = .stepped ∧ d.Moved d.step.1) := by
  obtain ⟨ix, tired, stepsRight, stepsLeft, onTop, weary, -, goesRight, goesLeft⟩ := tuned
  simp only [netDimNumProfiles] at ix tired stepsRight stepsLeft goesRight goesLeft ⊢
  unfold step
  by_cases weariest : d.tired = netDimNumProfiles * 2
  · rw [if_pos weariest]
    exact .inl ⟨rfl, weariest⟩
  · rw [if_neg weariest]
    simp only [netDimNumProfiles] at weariest ⊢
    cases going with
    | inl right =>
        have room := goesRight right
        simp only [right]
        split
        · next edge => exact .inr (.inl ⟨rfl, fun _ => by omega, nofun⟩)
        · next inner =>
          refine .inr (.inr ⟨rfl, ⟨⟨?_, ?_, ?_, stepsLeft, nofun, nofun,
            fun parked => absurd (.inl rfl) parked, fun _ => ?_, nofun⟩,
            .inl rfl, ?_, .inl ?_⟩⟩)
          all_goals simp only [netDimNumProfiles]; omega
    | inr left =>
        have room := goesLeft left
        simp only [left]
        split
        · next edge => exact .inr (.inl ⟨rfl, nofun, fun _ => edge⟩)
        · next inner =>
          refine .inr (.inr ⟨rfl, ⟨⟨?_, ?_, stepsRight, ?_, nofun, nofun,
            fun parked => absurd (.inr rfl) parked, nofun, fun _ => ?_⟩,
            .inr rfl, ?_, .inr ?_⟩⟩)
          all_goals simp only [netDimNumProfiles]; omega

/-- The branch for a direction either parks where it is or goes on. -/
theorem advance_cases (tuned : d.Tuned) (going : d.Going) :
    (d.advance.Tuned ∧ d.advance.profileIx = d.profileIx) ∨ d.Moved d.advance := by
  unfold advance
  by_cases top : d.onTop = true
  · rw [if_pos top]
    exact .inl ⟨tuned.parkOnTop, rfl⟩
  · rw [if_neg top]
    obtain ⟨stop, weary⟩ | ⟨stop, -⟩ | ⟨result, moved⟩ := step_cases tuned going
    · rw [stop]
      refine .inl ⟨tuned.parkTired ?_, rfl⟩
      rw [weary]
      decide
    · rw [stop]
      exact .inl ⟨tuned.parkOnTop, rfl⟩
    · cases h : d.step with
      | mk e r =>
          rw [h] at result moved
          obtain rfl : r = .stepped := result
          exact .inr moved

theorem exitParking_moved (ix : d.profileIx < netDimNumProfiles) (tired : d.tired = 0)
    (still : d.stepsRight = 0 ∧ d.stepsLeft = 0) : d.Moved d.exitParking := by
  unfold exitParking
  generalize aim : (if d.profileIx ≠ 0 then DimTune.goingLeft else .goingRight) = t
  have going : t = .goingRight ∨ t = .goingLeft := by
    rw [← aim]
    split
    · exact .inr rfl
    · exact .inl rfl
  have ready : { d with tune := t }.Tuned := by
    refine ⟨ix, tired ▸ Nat.zero_le _, still.1 ▸ profiles_pos, still.2 ▸ profiles_pos,
      fun _ => tired, ?_, fun _ => still, fun _ => still.1 ▸ Nat.zero_le _, fun _ => ?_⟩
    · rintro rfl
      cases going <;> contradiction
    · exact still.2 ▸ (Nat.zero_add _).symm ▸ ix
  obtain ⟨-, weary⟩ | ⟨-, right, left⟩ | ⟨-, moved⟩ := step_cases ready going
  · exact absurd (tired.symm.trans weary) (by decide)
  · exfalso
    dsimp only at right left
    by_cases zero : d.profileIx = 0
    · rw [if_neg (not_not_intro zero)] at aim
      have last := right aim.symm
      rw [zero] at last
      contradiction
    · rw [if_pos zero] at aim
      exact zero (left aim.symm)
  · exact ⟨moved.tuned, moved.going, moved.tired, moved.profileIx⟩

/-- A decision leaves the profile alone or uses up some of the fuel. -/
structure Decided (d e : Dim) : Prop where
  tuned : e.Tuned
  fuel : e.profileIx ≠ d.profileIx → e.fuel < d.fuel
  tired : d.tune = .parkingTired → 1 < d.tired →
    e.tune = .parkingTired ∧ e.tired + 1 = d.tired ∧ e.profileIx = d.profileIx

theorem retune_parked (tuned : d.Tuned) (top : d.tune = .parkingOnTop) (curr : DimStats) :
    d.Decided (d.retune curr) := by
  have parked : ¬d.Going := by
    rw [Going, top]
    exact fun going => by cases going <;> contradiction
  have awake : d.tune ≠ .parkingTired := by
    rw [top]
    exact nofun
  simp only [retune, top]
  split
  · have moved := exitParking_moved tuned.ix (tuned.onTop top) (tuned.still parked)
    refine ⟨moved.tuned, fun _ => ?_, fun tired => absurd tired awake⟩
    rw [fuel_parked parked]
    exact Nat.lt_of_lt_of_le moved.spends (Nat.sub_le _ _)
  · exact ⟨tuned, fun other => absurd rfl other, fun tired => absurd tired awake⟩

theorem retune_tired (tuned : d.Tuned) (weary : d.tune = .parkingTired) (curr : DimStats) :
    d.Decided (d.retune curr) := by
  have parked : ¬d.Going := by
    rw [Going, weary]
    exact fun going => by cases going <;> contradiction
  have some := tuned.weary weary
  have few := tuned.tired
  have wrap : (d.tired + 255) % 256 = d.tired - 1 := by
    simp only [netDimNumProfiles] at few
    omega
  simp only [retune, weary, wrap]
  split
  · next last =>
    have moved := exitParking_moved (d := { d with tired := d.tired - 1 }) tuned.ix last
      (tuned.still parked)
    refine ⟨moved.tuned, fun _ => ?_, fun _ more => absurd last (by omega)⟩
    rw [fuel_parked parked]
    exact Nat.lt_of_lt_of_le moved.spends (Nat.sub_le _ _)
  · next more =>
    refine ⟨⟨tuned.ix, Nat.le_trans (Nat.sub_le _ _) few, tuned.stepsRight, tuned.stepsLeft,
      nofun, fun _ => Nat.pos_of_ne_zero more, fun _ => tuned.still parked, nofun, nofun⟩,
      fun other => absurd rfl other, fun _ _ => ⟨rfl, Nat.sub_add_cancel some, rfl⟩⟩

theorem retune_going (tuned : d.Tuned) (going : d.Going) (curr : DimStats) :
    d.Decided (d.retune curr) := by
  have awake : d.tune ≠ .parkingTired := by
    cases going with
    | inl right => rw [right]; exact nofun
    | inr left => rw [left]; exact nofun
  have turned : ∀ e : Dim, e.Tuned → e.Going → e.tired = d.tired → e.profileIx = d.profileIx →
      d.Decided e.advance := by
    intro e ready toGo tired ix
    obtain ⟨kept, same⟩ | moved := advance_cases ready toGo
    · exact ⟨kept, fun other => absurd (same.trans ix) other, fun weary => absurd weary awake⟩
    · refine ⟨moved.tuned, fun _ => ?_, fun weary => absurd weary awake⟩
      have spent := moved.spends
      rw [tired] at spent
      exact Nat.lt_of_lt_of_le spent d.fuel_ge
  have split : d.retune curr =
      (if statsCompare curr d.prevStats ≠ .better then d.turn else d).advance := by
    cases going with
    | inl right => simp only [retune, right]
    | inr left => simp only [retune, left]
  rw [split]
  split
  · exact turned d.turn tuned.turn (turn_going going) turn_tired turn_profileIx
  · exact turned d tuned going rfl rfl

/-- What a decision does, whatever has been measured. -/
theorem decision_decided (tuned : d.Tuned) (curr : DimStats) :
    d.Decided (d.decision curr).1 := by
  have decided : d.Decided (d.retune curr) := by
    cases h : d.tune with
    | parkingOnTop => exact retune_parked tuned h curr
    | parkingTired => exact retune_tired tuned h curr
    | goingRight => exact retune_going tuned (.inl h) curr
    | goingLeft => exact retune_going tuned (.inr h) curr
  unfold decision
  dsimp only
  split
  · exact ⟨decided.tuned.measured _ _ _, decided.fuel, decided.tired⟩
  · exact decided

theorem decision_snd (curr : DimStats) :
    (d.decision curr).2 = true ↔ (d.decision curr).1.profileIx ≠ d.profileIx := by
  unfold decision
  dsimp only
  split
  · exact decide_eq_true_iff
  · exact decide_eq_true_iff

theorem step_state : d.step.1.state = d.state := by
  unfold step
  split
  · rfl
  · split <;> (try split) <;> rfl

theorem advance_state : d.advance.state = d.state := by
  have kept := d.step_state
  unfold advance
  split
  · rfl
  · split
    · next h => rwa [h] at kept
    · next h => rwa [h] at kept
    · next h => rwa [h] at kept

theorem turn_state : d.turn.state = d.state := by
  unfold turn
  split <;> rfl

theorem retune_state (curr : DimStats) : (d.retune curr).state = d.state := by
  unfold retune exitParking
  split
  · split
    · exact step_state
    · rfl
  · dsimp only
    split
    · exact step_state
    · rfl
  all_goals
    split
    · exact advance_state.trans turn_state
    · exact advance_state

theorem decision_state (curr : DimStats) : (d.decision curr).1.state = d.state := by
  unfold decision
  dsimp only
  split <;> exact retune_state curr

/-- `net_dim_decision` as a step of a run. -/
def decide (d : Dim) (curr : DimStats) : Option Dim := some (d.decision curr).1

def count (d : Dim) (curr : DimStats) : Nat × Nat :=
  if (d.decision curr).2 then (1, 0) else (0, 1)

theorem decide_tuned (h : Reachable Dim.decide anyStep (· = initDim) d) : d.Tuned := by
  refine h.invariant (I := Tuned) ?_ ?_
  · rintro _ rfl
    exact initDim_tuned
  · intro d curr e tuned _ step
    obtain rfl := Option.some.inj step
    exact (decision_decided tuned curr).tuned

theorem exec_decide (d : Dim) (ms : List DimStats) : ∃ e, exec Dim.decide d ms = some e := by
  induction ms generalizing d with
  | nil => exact ⟨d, rfl⟩
  | cons m ms ih =>
      obtain ⟨e, rest⟩ := ih (d.decision m).1
      exact ⟨e, (exec_cons rfl).trans rest⟩

/-- The fuel pays for the changes: what they have cost and what is left stay within what the other
decisions have filled up. -/
def Paid (n : Nat × Nat) (d : Dim) : Prop :=
  d.Tuned ∧ n.1 + d.fuel ≤ netDimNumProfiles * 2 * (n.2 + 1)

theorem Paid.decide {n : Nat × Nat} {e : Dim} (paid : Paid n d) (m : DimStats)
    (step : d.decide m = some e) : Paid (n + count d m) e := by
  obtain ⟨tuned, bound⟩ := paid
  obtain rfl := Option.some.inj step
  have decided := decision_decided tuned m
  refine ⟨decided.tuned, ?_⟩
  unfold count
  split
  · next moved =>
    have spent := decided.fuel ((decision_snd m).mp moved)
    simp only [Prod.fst_add, Prod.snd_add, Nat.add_zero]
    omega
  · have full := fuel_le (d.decision m).1
    simp only [Prod.fst_add, Prod.snd_add]
    rw [Nat.mul_add, Nat.mul_one]
    omega

theorem count_fuel (tuned : d.Tuned) (ms : List DimStats) :
    (tally Dim.decide count d ms).1 ≤
      netDimNumProfiles * 2 * ((tally Dim.decide count d ms).2 + 1) := by
  obtain ⟨e, run⟩ := exec_decide d ms
  have start : Paid 0 d := ⟨tuned, by simpa using d.fuel_le⟩
  have paid := exec_tally (I := Paid) (fun n d m e before => before.decide m) start run
  rw [zero_add] at paid
  exact Nat.le_trans (Nat.le_add_right _ _) paid.2

theorem count_tired (tuned : d.Tuned) (weary : d.tune = .parkingTired) (ms : List DimStats)
    (few : ms.length < d.tired) : tally Dim.decide count d ms = (0, ms.length) := by
  induction ms generalizing d with
  | nil => rfl
  | cons m ms ih =>
      rw [List.length_cons] at few
      have decided := decision_decided tuned m
      obtain ⟨still, less, same⟩ := decided.tired weary (by omega)
      have left : (d.decision m).2 = false := by
        cases h : (d.decision m).2 with
        | true => exact absurd same ((decision_snd m).mp h)
        | false => rfl
      have rest := ih decided.tuned still (by omega)
      simp only [tally, Dim.decide, rest, count, left, Bool.false_eq_true, if_false,
        List.length_cons]
      exact Prod.ext rfl (Nat.add_comm _ _)

/-- However the traffic changes, no counter wraps, of eleven decisions in a row one leaves the
profile alone, and none changes it while the tuning is tired. -/
theorem tuning_bounded (h : Reachable Dim.decide anyStep (· = initDim) d) (ms : List DimStats) :
    d.Tuned ∧
      (tally Dim.decide count d ms).1 ≤
        netDimNumProfiles * 2 * ((tally Dim.decide count d ms).2 + 1) ∧
      (d.tune = .parkingTired → ms.length < d.tired →
        tally Dim.decide count d ms = (0, ms.length)) :=
  ⟨decide_tuned h, count_fuel (decide_tuned h) ms,
    fun weary => count_tired (decide_tuned h) weary ms⟩

/-- The `k`th of rates that halve each time. -/
def halving (k : Nat) : DimStats := ⟨1, 2 ^ (20 - k), 1⟩

/-- They turn the tuning around until it is tired, and then it stays. -/
theorem tuning_bounded_halving :
    ∃ d, exec Dim.decide initDim ((List.range 11).map halving) = some d ∧
      d.tune = .parkingTired ∧ d.Tuned ∧
      tally Dim.decide count d (List.replicate 9 (halving 0)) = (0, 9) := by
  have seen : (exec Dim.decide initDim ((List.range 11).map halving)).map
      (fun d => (d.tune, d.tired)) = some (.parkingTired, 10) := by decide +kernel
  obtain ⟨d, run, facts⟩ := Option.map_eq_some_iff.mp seen
  obtain ⟨weary, tired⟩ := Prod.mk.inj facts
  have reached : Reachable Dim.decide anyStep (· = initDim) d :=
    Reachable.exec (s := initDim) (.start rfl) run
  obtain ⟨tuned, -, rests⟩ := tuning_bounded reached (List.replicate 9 (halving 0))
  exact ⟨d, run, weary, tuned, rests weary (by rw [tired]; exact Nat.lt_succ_self 9)⟩

end Dim

end Idpf
