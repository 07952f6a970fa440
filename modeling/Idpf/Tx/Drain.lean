import Idpf.General.Transition
import Mathlib.Data.List.Basic
import Mathlib.Logic.Function.Basic

/-! The handshake that drains the Tx queues of a vport before they are torn down.
The thread that disables the queues and the handlers that find software markers on
the completion queues share flags only, and each access is a step of its own. -/
namespace Idpf
open General

/-- `struct idpf_queue` objects with a poll mode flag. -/
inductive QueueRef where
  | txq (i : Nat)
  | complq (j : Nat)
  deriving DecidableEq, Repr

/-- Queues and vectors of a vport in the split model. Queue `t` reports on the
completion queue of its group, and `idpf_vport_intr_map_vector_to_qs` deals the
completion queues out to the vectors in turn. -/
structure DrainConfig where
  numTxq : Nat
  numTxqGrp : Nat
  numVectors : Nat
  grpOf : Nat → Nat
  some : 0 < numTxq
  vectors : 0 < numVectors
  grouped : ∀ t < numTxq, grpOf t < numTxqGrp

/-- `q_vector->tx`. -/
def DrainConfig.vecTx (c : DrainConfig) (v : Nat) : List QueueRef :=
  ((List.range c.numTxqGrp).filter fun j => j % c.numVectors == v).map .complq

/-- The vector whose NAPI polls the completion queue of `t`. -/
def DrainConfig.owner (c : DrainConfig) (t : Nat) : Nat := c.grpOf t % c.numVectors

/-- Where the disabling thread stands: in `idpf_send_disable_queues_msg` setting
poll mode on queue `i` or scheduling vector `v`, in `idpf_wait_for_marker_event`
setting the marker flag of queue `i`, waiting, or clearing poll mode again with
the result at hand. -/
inductive DisablePhase where
  | idle
  | setPoll (i : Nat)
  | schedule (v : Nat)
  | setMarker (i : Nat)
  | waiting
  | ended (success : Bool) (i : Nat)
  deriving DecidableEq, Repr

/-- `swMarker` and `pollMode` are queue flags, `vportMarker` is
`IDPF_VPORT_SW_MARKER`. A vector's handler that is going through the queues in
`idpf_tx_handle_sw_marker` looks at queue `scan` next. `round` counts disables,
`markers` are those the device was asked for and the driver has not processed, and
`cleared` tells the queues whose marker of this round has been. -/
structure DrainState where
  cfg : DrainConfig
  swMarker : Nat → Bool
  pollMode : QueueRef → Bool
  vportMarker : Bool
  napi : Nat → Bool
  missed : Nat → Bool
  scan : Nat → Option Nat
  phase : DisablePhase
  round : Nat
  markers : List (Nat × Nat)
  cleared : Nat → Bool

/-- `disable` begins a request, `thread` is the next access of the disabling
thread and `timeout` the end of its wait. `marker` and `check` are the accesses of
a handler, which runs in a NAPI poll or, with a budget of 0, in a netpoll. `irq`
schedules a vector and `pollEnd` ends its poll with the work complete or not. -/
inductive DrainEvent where
  | disable
  | thread
  | timeout
  | marker (t round : Nat)
  | check (v : Nat)
  | irq (v : Nat)
  | pollEnd (v : Nat) (complete : Bool)

namespace DrainState

/-- `napi_schedule`. -/
def napiSchedule (s : DrainState) (v : Nat) : DrainState :=
  if s.napi v then { s with missed := Function.update s.missed v true }
  else { s with napi := Function.update s.napi v true }

def thread (s : DrainState) : Option DrainState :=
  match s.phase with
  | .idle => none
  | .setPoll i =>
    if i < s.cfg.numTxq then
      some { s with
        pollMode := Function.update s.pollMode (.txq i) true
        phase := .setPoll (i + 1) }
    else some { s with phase := .schedule 0 }
  | .schedule v =>
    if v < s.cfg.numVectors then some { s.napiSchedule v with phase := .schedule (v + 1) }
    else some { s with phase := .setMarker 0 }
  | .setMarker i =>
    if i < s.cfg.numTxq then
      some { s with
        swMarker := Function.update s.swMarker i true
        phase := .setMarker (i + 1) }
    else some { s with phase := .waiting }
  | .waiting =>
    if s.vportMarker then some { s with vportMarker := false, phase := .ended true 0 } else none
  | .ended success i =>
    if i < s.cfg.numTxq then
      some { s with
        pollMode := Function.update s.pollMode (.txq i) false
        phase := .ended success (i + 1) }
    else some { s with phase := .idle }

/-- The last look of `wait_event_timeout` at its condition. -/
def timeout (s : DrainState) : DrainState :=
  { s with vportMarker := false, phase := .ended s.vportMarker 0 }

/-- One turn of the loop in `idpf_tx_handle_sw_marker`. -/
def check (s : DrainState) (v i : Nat) : DrainState :=
  if s.swMarker i then { s with scan := Function.update s.scan v none }
  else if i + 1 = s.cfg.numTxq then
    { s with scan := Function.update s.scan v none, vportMarker := true }
  else { s with scan := Function.update s.scan v (some (i + 1)) }

/-- The end of `idpf_vport_splitq_napi_poll`: poll mode is looked up on
`q_vector->tx[0]`. -/
def pollEnd (s : DrainState) (v : Nat) (complete : Bool) : DrainState :=
  if !complete then s
  else if ((s.cfg.vecTx v).head?.map s.pollMode).getD false then s
  else if s.missed v then { s with missed := Function.update s.missed v false }
  else { s with napi := Function.update s.napi v false }

def step (s : DrainState) : DrainEvent → Option DrainState
  | .disable =>
    if s.phase = .idle then
      some { s with
        phase := .setPoll 0
        round := s.round + 1
        markers := s.markers ++ (List.range s.cfg.numTxq).map fun t => (t, s.round + 1)
        cleared := fun _ => false }
    else none
  | .thread => s.thread
  | .timeout => if s.phase = .waiting then some s.timeout else none
  | .marker t round =>
    if t < s.cfg.numTxq ∧ (t, round) ∈ s.markers ∧ s.scan (s.cfg.owner t) = none then
      some { s with
        swMarker := Function.update s.swMarker t false
        scan := Function.update s.scan (s.cfg.owner t) (some 0)
        markers := s.markers.erase (t, round)
        cleared := if round = s.round then Function.update s.cleared t true else s.cleared }
    else none
  | .check v => (s.scan v).map (s.check v)
  | .irq v => some (s.napiSchedule v)
  | .pollEnd v complete =>
    if s.napi v = true ∧ s.scan v = none then some (s.pollEnd v complete) else none

end DrainState

def DrainConfig.init (c : DrainConfig) : DrainState where
  cfg := c
  swMarker := fun _ => false
  pollMode := fun _ => false
  vportMarker := false
  napi := fun _ => false
  missed := fun _ => false
  scan := fun _ => none
  phase := .idle
  round := 0
  markers := []
  cleared := fun _ => false

def DrainStart (s : DrainState) : Prop := ∃ c : DrainConfig, s = c.init

/-- The vector polls for a disable that has scheduled it and has not seen its wait end. -/
def DrainState.polled (s : DrainState) (v : Nat) : Bool :=
  match s.phase with
  | .schedule k => decide (v < k)
  | .setMarker _ | .waiting => true
  | _ => false

/-- Steps that do not break the handshake. The wait begins with the vport flag clear
and no handler going through the queues. A marker of the disable at work is not
processed before all marker flags are set; a marker of an earlier one not after the
flag of its queue is, while the disable lasts. A vector that polls for the disable
does not complete its work. -/
def drainOk (s : DrainState) : DrainEvent → Bool
  | .thread =>
    match s.phase with
    | .setMarker i => decide (i < s.cfg.numTxq) ||
        !s.vportMarker && (List.range s.cfg.numVectors).all fun v => (s.scan v).isNone
    | _ => true
  | .marker t round =>
    match s.phase with
    | .setPoll _ | .schedule _ => round != s.round
    | .setMarker i => round != s.round && decide (i ≤ t)
    | .waiting => round == s.round
    | _ => true
  | .pollEnd v complete =>
    !(complete && s.polled v && (List.range s.cfg.numTxq).any fun t => s.cfg.owner t == v) ||
      s.missed v
  | _ => true

def DisablePhase.starting : DisablePhase → Bool
  | .setPoll _ | .schedule _ | .setMarker _ => true
  | _ => false

/-- What holds while a disable waits: the marker flags tell which markers are still to
come, a handler has found the flags behind it clear, and once all are clear the vport
flag is set or some handler is about to set it. -/
structure Waiting (s : DrainState) : Prop where
  flags : ∀ t < s.cfg.numTxq, s.swMarker t = !s.cleared t
  sound : s.vportMarker = true → ∀ t < s.cfg.numTxq, s.cleared t = true
  behind : ∀ v i, s.scan v = some i → ∀ j < i, s.cleared j = true
  told : (∀ t < s.cfg.numTxq, s.cleared t = true) →
    s.vportMarker = true ∨ ∃ t < s.cfg.numTxq, s.scan (s.cfg.owner t) ≠ none

structure DrainInv (s : DrainState) : Prop where
  scans : ∀ v i, s.scan v = some i →
    i < s.cfg.numTxq ∧ ∃ t < s.cfg.numTxq, s.cfg.owner t = v
  polls : ∀ t < s.cfg.numTxq, s.polled (s.cfg.owner t) = true → s.napi (s.cfg.owner t) = true
  fresh : s.phase.starting = true → ∀ t, s.cleared t = false
  flagged : ∀ i, s.phase = .setMarker i → ∀ j < i, s.swMarker j = true
  waits : s.phase = .waiting → Waiting s

theorem DrainConfig.owner_lt (c : DrainConfig) (t : Nat) : c.owner t < c.numVectors :=
  Nat.mod_lt _ c.vectors

theorem napiSchedule_napi (s : DrainState) (v : Nat) {u : Nat}
    (kept : u = v ∨ s.napi u = true) : (s.napiSchedule v).napi u = true := by
  unfold DrainState.napiSchedule
  by_cases on : s.napi v = true
  · rw [if_pos on]
    rcases kept with rfl | already
    · exact on
    · exact already
  · rw [if_neg on]
    by_cases same : u = v
    · subst u
      exact Function.update_self ..
    · exact (Function.update_of_ne same ..).trans (kept.resolve_left same)

theorem napiSchedule_rest (s : DrainState) (v : Nat) :
    ∃ napi missed, s.napiSchedule v = { s with napi, missed } := by
  unfold DrainState.napiSchedule
  split <;> exact ⟨_, _, rfl⟩

theorem pollEnd_rest (s : DrainState) (v : Nat) (complete : Bool) :
    ∃ napi missed, s.pollEnd v complete = { s with napi, missed } := by
  unfold DrainState.pollEnd
  split
  · exact ⟨_, _, rfl⟩
  · split
    · exact ⟨_, _, rfl⟩
    · split <;> exact ⟨_, _, rfl⟩

theorem update_some {scan : Nat → Option Nat} {v u j : Nat} {x : Option Nat}
    (next : Function.update scan v x u = some j) :
    (u = v ∧ x = some j) ∨ (u ≠ v ∧ scan u = some j) := by
  by_cases same : u = v
  · rw [same, Function.update_self] at next
    exact .inl ⟨same, next⟩
  · rw [Function.update_of_ne same] at next
    exact .inr ⟨same, next⟩

theorem update_true {flag : Nat → Bool} (t : Nat) {u : Nat} (on : flag u = true) :
    Function.update flag t true u = true := by
  by_cases same : u = t
  · rw [same, Function.update_self]
  · rw [Function.update_of_ne same]
    exact on

theorem Waiting.cleared_of {s : DrainState} (w : Waiting s) {i : Nat} (inside : i < s.cfg.numTxq)
    (clear : s.swMarker i = false) : s.cleared i = true := by
  have flag := w.flags i inside
  rw [clear] at flag
  cases done : s.cleared i with
  | true => rfl
  | false => rw [done] at flag; cases flag

theorem Waiting.behind_next {s : DrainState} (w : Waiting s) {v i : Nat}
    (at_ : s.scan v = some i) (inside : i < s.cfg.numTxq) (clear : s.swMarker i = false) :
    ∀ j < i + 1, s.cleared j = true := by
  intro j before
  by_cases here : j = i
  · rw [here]
    exact w.cleared_of inside clear
  · exact w.behind v i at_ j (by omega)

namespace DrainInv

variable {s s' : DrainState}

theorem setNapi (v : DrainInv s) {napi missed : Nat → Bool}
    (kept : ∀ t < s.cfg.numTxq, s.polled (s.cfg.owner t) = true →
      napi (s.cfg.owner t) = true) : DrainInv { s with napi, missed } :=
  ⟨v.scans, kept, v.fresh, v.flagged,
    fun h => ⟨(v.waits h).flags, (v.waits h).sound, (v.waits h).behind, (v.waits h).told⟩⟩

theorem irq (v : DrainInv s) (vec : Nat) : DrainInv (s.napiSchedule vec) := by
  have on := fun t inside polled => napiSchedule_napi s vec (.inr (v.polls t inside polled))
  obtain ⟨napi, missed, eq⟩ := napiSchedule_rest s vec
  rw [eq] at on ⊢
  exact v.setNapi on

theorem pollEnd (v : DrainInv s) {vec : Nat} {complete : Bool}
    (ok : drainOk s (.pollEnd vec complete) = true) : DrainInv (s.pollEnd vec complete) := by
  have on : ∀ t < s.cfg.numTxq, s.polled (s.cfg.owner t) = true →
      (s.pollEnd vec complete).napi (s.cfg.owner t) = true := by
    intro t inside polled
    have running := v.polls t inside polled
    unfold DrainState.pollEnd
    split
    · exact running
    · next done =>
      split
      · exact running
      · split
        · exact running
        · next unmissed =>
          have other : s.cfg.owner t ≠ vec := by
            rintro rfl
            have owns : ((List.range s.cfg.numTxq).any fun u =>
                s.cfg.owner u == s.cfg.owner t) = true :=
              List.any_eq_true.mpr ⟨t, List.mem_range.mpr inside, beq_self_eq_true _⟩
            simp only [drainOk, polled, owns, Bool.and_true, Bool.or_eq_true,
              Bool.not_eq_true'] at ok
            rcases ok with open_ | missed
            · rw [open_] at done
              exact done rfl
            · exact unmissed missed
          exact (Function.update_of_ne other ..).trans running
  obtain ⟨napi, missed, eq⟩ := pollEnd_rest s vec complete
  rw [eq] at on ⊢
  exact v.setNapi on

theorem marker (v : DrainInv s) {t round : Nat} (known : t < s.cfg.numTxq)
    (ok : drainOk s (.marker t round) = true) :
    DrainInv { s with
      swMarker := Function.update s.swMarker t false
      scan := Function.update s.scan (s.cfg.owner t) (some 0)
      markers := s.markers.erase (t, round)
      cleared := if round = s.round then Function.update s.cleared t true else s.cleared } := by
  refine ⟨fun vec i next => ?_, v.polls, fun starting u => ?_, fun i phase j before => ?_,
    fun phase => ?_⟩
  · rcases update_some next with ⟨own, first⟩ | ⟨-, old⟩
    · obtain rfl := Option.some.inj first
      exact ⟨s.cfg.some, t, known, own.symm⟩
    · exact v.scans vec i old
  · have other : round ≠ s.round := by
      cases phase : s.phase <;>
        simp_all only [drainOk, DisablePhase.starting, bne_iff_ne, ne_eq, Bool.and_eq_true,
          not_false_eq_true, Bool.false_eq_true]
    change (if round = s.round then Function.update s.cleared t true else s.cleared) u = false
    rw [if_neg other]
    exact v.fresh starting u
  · have phase' : s.phase = .setMarker i := phase
    have past : i ≤ t := by
      simp only [drainOk, phase', Bool.and_eq_true, decide_eq_true_eq] at ok
      exact ok.2
    exact (Function.update_of_ne (by omega) ..).trans (v.flagged i phase j before)
  · have w := v.waits phase
    have phase' : s.phase = .waiting := phase
    have own : round = s.round := by
      simpa only [drainOk, phase', beq_iff_eq] using ok
    rw [if_pos own]
    refine ⟨fun u inside => ?_, fun set_ u inside => update_true t (w.sound set_ u inside),
      fun vec i next j before => ?_, fun _ => .inr ⟨t, known, ?_⟩⟩
    · change Function.update s.swMarker t false u = !Function.update s.cleared t true u
      by_cases same : u = t
      · rw [same, Function.update_self, Function.update_self]
        rfl
      · rw [Function.update_of_ne same, Function.update_of_ne same]
        exact w.flags u inside
    · rcases update_some next with ⟨-, first⟩ | ⟨-, old⟩
      · obtain rfl := Option.some.inj first
        exact absurd before (Nat.not_lt_zero j)
      · exact update_true t (w.behind vec i old j before)
    · change Function.update s.scan (s.cfg.owner t) (some 0) (s.cfg.owner t) ≠ none
      rw [Function.update_self]
      exact nofun

theorem check (v : DrainInv s) {vec i : Nat} (at_ : s.scan vec = some i) :
    DrainInv (s.check vec i) := by
  obtain ⟨inside, t, known, owns⟩ := v.scans vec i at_
  have rest : ∀ {u j}, Function.update s.scan vec none u = some j → s.scan u = some j := by
    intro u j next
    rcases update_some next with ⟨-, gone⟩ | ⟨-, old⟩
    · cases gone
    · exact old
  unfold DrainState.check
  split
  · next flagged =>
    refine ⟨fun u j next => v.scans u j (rest next), v.polls, v.fresh, v.flagged, fun phase => ?_⟩
    have w := v.waits phase
    refine ⟨w.flags, w.sound, fun u j next => w.behind u j (rest next), fun all => ?_⟩
    have left := w.flags i inside
    rw [flagged, all i inside] at left
    cases left
  · next set_ =>
    have clear : s.swMarker i = false := Bool.not_eq_true _ ▸ set_
    split
    · next last =>
      refine ⟨fun u j next => v.scans u j (rest next), v.polls, v.fresh, v.flagged,
        fun phase => ?_⟩
      have w := v.waits phase
      refine ⟨w.flags, fun _ u below => w.behind_next at_ inside clear u ?_,
        fun u j next => w.behind u j (rest next), fun _ => .inl rfl⟩
      have below' : u < s.cfg.numTxq := below
      omega
    · next more =>
      refine ⟨fun u j next => ?_, v.polls, v.fresh, v.flagged, fun phase => ?_⟩
      · rcases update_some next with ⟨same, on⟩ | ⟨-, old⟩
        · obtain rfl := Option.some.inj on
          exact ⟨by show i + 1 < s.cfg.numTxq; omega, t, known, owns.trans same.symm⟩
        · exact v.scans u j old
      · have w := v.waits phase
        refine ⟨w.flags, w.sound, fun u j next => ?_, fun _ => .inr ⟨t, known, ?_⟩⟩
        · rcases update_some next with ⟨-, on⟩ | ⟨-, old⟩
          · obtain rfl := Option.some.inj on
            exact w.behind_next at_ inside clear
          · exact w.behind u j old
        · change Function.update s.scan vec (some (i + 1)) (s.cfg.owner t) ≠ none
          rw [owns, Function.update_self]
          exact nofun

theorem disable (v : DrainInv s) : DrainInv { s with
    phase := .setPoll 0
    round := s.round + 1
    markers := s.markers ++ (List.range s.cfg.numTxq).map fun t => (t, s.round + 1)
    cleared := fun _ => false } :=
  ⟨v.scans, fun _ _ polled => absurd polled Bool.false_ne_true, fun _ _ => rfl, fun _ => nofun,
    nofun⟩

theorem timeout (v : DrainInv s) : DrainInv s.timeout :=
  ⟨v.scans, fun _ _ polled => absurd polled Bool.false_ne_true, nofun, fun _ => nofun,
    nofun⟩

theorem thread (v : DrainInv s) (ok : drainOk s .thread = true) (taken : s.thread = some s') :
    DrainInv s' := by
  unfold DrainState.thread at taken
  cases phase : s.phase with
  | idle =>
      rw [phase] at taken
      cases taken
  | setPoll i =>
      have fresh := v.fresh (by rw [phase]; rfl)
      simp only [phase] at taken
      split at taken
      · obtain rfl := Option.some.inj taken
        exact ⟨v.scans, fun _ _ polled => absurd polled Bool.false_ne_true, fun _ => fresh,
          fun _ => nofun, nofun⟩
      · obtain rfl := Option.some.inj taken
        refine ⟨v.scans, fun t _ polled => ?_, fun _ => fresh, fun _ => nofun, nofun⟩
        simp only [DrainState.polled, decide_eq_true_eq] at polled
        exact absurd polled (Nat.not_lt_zero _)
  | schedule k =>
      have fresh := v.fresh (by rw [phase]; rfl)
      simp only [phase] at taken
      split at taken
      · obtain rfl := Option.some.inj taken
        have on : ∀ t < s.cfg.numTxq, s.cfg.owner t < k + 1 →
            (s.napiSchedule k).napi (s.cfg.owner t) = true := by
          intro t inside before
          refine napiSchedule_napi s k ?_
          by_cases same : s.cfg.owner t = k
          · exact .inl same
          · refine .inr (v.polls t inside ?_)
            simp only [DrainState.polled, phase, decide_eq_true_eq]
            omega
        obtain ⟨napi, missed, eq⟩ := napiSchedule_rest s k
        rw [eq] at on ⊢
        exact ⟨v.scans, fun t inside polled => on t inside (of_decide_eq_true polled),
          fun _ => fresh, fun _ => nofun, nofun⟩
      · next done =>
        obtain rfl := Option.some.inj taken
        refine ⟨v.scans, fun t inside _ => v.polls t inside ?_, fun _ => fresh, fun i h => ?_,
          nofun⟩
        · have below := s.cfg.owner_lt t
          simp only [DrainState.polled, phase, decide_eq_true_eq]
          omega
        · cases h
          exact fun j before => absurd before (Nat.not_lt_zero j)
  | setMarker i =>
      have fresh := v.fresh (by rw [phase]; rfl)
      have polls : ∀ t < s.cfg.numTxq, s.napi (s.cfg.owner t) = true := fun t inside =>
        v.polls t inside (by simp only [DrainState.polled, phase])
      simp only [phase] at taken
      split at taken
      · obtain rfl := Option.some.inj taken
        refine ⟨v.scans, fun t inside _ => polls t inside, fun _ => fresh, fun k h => ?_,
          nofun⟩
        cases h
        intro j before
        by_cases here : j = i
        · rw [here]
          exact Function.update_self ..
        · exact (Function.update_of_ne here ..).trans (v.flagged i phase j (by omega))
      · next done =>
        obtain rfl := Option.some.inj taken
        simp only [drainOk, phase, decide_eq_true_eq, Bool.or_eq_true, Bool.and_eq_true,
          Bool.not_eq_true', List.all_eq_true, List.mem_range, Option.isNone_iff_eq_none] at ok
        obtain ⟨quiet, still⟩ := ok.resolve_left done
        refine ⟨v.scans, fun t inside _ => polls t inside, nofun,
          fun _ => nofun, fun _ => ⟨fun t inside => ?_, fun h => ?_, fun vec j next => ?_,
            fun all => ?_⟩⟩
        · have inside' : t < s.cfg.numTxq := inside
          exact (v.flagged i phase t (by omega)).trans (by rw [fresh t]; rfl)
        · exact absurd (show s.vportMarker = true from h) (by rw [quiet]; exact Bool.false_ne_true)
        · obtain ⟨-, t, -, owns⟩ := v.scans vec j next
          have none := still vec (owns ▸ s.cfg.owner_lt t)
          rw [show s.scan vec = some j from next] at none
          cases none
        · have first := all 0 s.cfg.some
          rw [show s.cleared 0 = false from fresh 0] at first
          cases first
  | waiting =>
      simp only [phase] at taken
      split at taken
      · obtain rfl := Option.some.inj taken
        exact ⟨v.scans, fun _ _ polled => absurd polled Bool.false_ne_true, nofun,
          fun _ => nofun, nofun⟩
      · cases taken
  | ended success i =>
      simp only [phase] at taken
      split at taken
      · obtain rfl := Option.some.inj taken
        exact ⟨v.scans, fun _ _ polled => absurd polled Bool.false_ne_true, nofun,
          fun _ => nofun, nofun⟩
      · obtain rfl := Option.some.inj taken
        exact ⟨v.scans, fun _ _ polled => absurd polled Bool.false_ne_true, nofun,
          fun _ => nofun, nofun⟩

theorem step (v : DrainInv s) {e : DrainEvent} (ok : drainOk s e = true)
    (taken : s.step e = some s') : DrainInv s' := by
  cases e with
  | disable =>
      simp only [DrainState.step, Option.ite_none_right_eq_some, Option.some.injEq] at taken
      obtain ⟨-, rfl⟩ := taken
      exact v.disable
  | thread => exact v.thread ok taken
  | timeout =>
      simp only [DrainState.step, Option.ite_none_right_eq_some, Option.some.injEq] at taken
      obtain ⟨-, rfl⟩ := taken
      exact v.timeout
  | marker t round =>
      simp only [DrainState.step, Option.ite_none_right_eq_some, Option.some.injEq] at taken
      obtain ⟨⟨known, -⟩, rfl⟩ := taken
      exact v.marker known ok
  | check vec =>
      obtain ⟨i, at_, rfl⟩ := Option.map_eq_some_iff.mp taken
      exact v.check at_
  | irq vec =>
      obtain rfl := Option.some.inj taken
      exact v.irq vec
  | pollEnd vec complete =>
      simp only [DrainState.step, Option.ite_none_right_eq_some, Option.some.injEq] at taken
      obtain ⟨-, rfl⟩ := taken
      exact v.pollEnd ok

theorem start (h : DrainStart s) : DrainInv s := by
  obtain ⟨c, rfl⟩ := h
  exact ⟨fun _ _ => nofun, fun _ _ polled => absurd polled Bool.false_ne_true,
    nofun, fun _ => nofun, nofun⟩

end DrainInv

/-- In every run whose steps keep to the handshake, the vectors of all queues poll from
the moment they are scheduled to the end of the wait; a wait that ends with success
has seen the marker of every queue, and one that ends with a timeout has not: a
marker is missing or its handler is still at work. -/
theorem drain_handshake {s : DrainState}
    (run : Reachable DrainState.step (fun s e => drainOk s e = true) DrainStart s) :
    (∀ t < s.cfg.numTxq, s.polled (s.cfg.owner t) = true → s.napi (s.cfg.owner t) = true) ∧
    ∀ e s', s.phase = .waiting → s.step e = some s' →
      (s'.phase = .ended true 0 → ∀ t < s.cfg.numTxq, s.cleared t = true) ∧
      (s'.phase = .ended false 0 →
        ∃ t < s.cfg.numTxq, s.cleared t = false ∨ s.scan (s.cfg.owner t) ≠ none) := by
  have v := run.invariant (I := DrainInv) (fun _ h => DrainInv.start h)
    (fun _ _ _ v ok taken => v.step ok taken)
  refine ⟨v.polls, fun e s' phase taken => ?_⟩
  have w := v.waits phase
  -- only the thread itself and its timer can end the wait
  have ended : ∀ success, s'.phase = .ended success 0 → s.vportMarker = success := by
    intro success ends
    cases e with
    | disable => simp only [DrainState.step, phase, reduceCtorEq, if_false] at taken
    | thread =>
        simp only [DrainState.step, DrainState.thread, phase] at taken
        split at taken
        · next set_ =>
          obtain rfl := Option.some.inj taken
          cases ends
          exact set_
        · cases taken
    | timeout =>
        simp only [DrainState.step, phase, if_true, Option.some.injEq] at taken
        subst taken
        exact (DisablePhase.ended.inj ends).1
    | marker t round =>
        simp only [DrainState.step, Option.ite_none_right_eq_some, Option.some.injEq] at taken
        obtain ⟨-, rfl⟩ := taken
        exact absurd (phase.symm.trans ends) nofun
    | check vec =>
        obtain ⟨i, -, rfl⟩ := Option.map_eq_some_iff.mp taken
        have same : (s.check vec i).phase = s.phase := by
          unfold DrainState.check
          split
          · rfl
          · split <;> rfl
        exact absurd (phase.symm.trans (same.symm.trans ends)) nofun
    | irq vec =>
        obtain rfl := Option.some.inj taken
        obtain ⟨_, _, eq⟩ := napiSchedule_rest s vec
        rw [eq] at ends
        exact absurd (phase.symm.trans ends) nofun
    | pollEnd vec complete =>
        simp only [DrainState.step, Option.ite_none_right_eq_some, Option.some.injEq] at taken
        obtain ⟨-, rfl⟩ := taken
        obtain ⟨_, _, eq⟩ := pollEnd_rest s vec complete
        rw [eq] at ends
        exact absurd (phase.symm.trans ends) nofun
  refine ⟨fun ends => w.sound (ended true ends), fun ends => ?_⟩
  by_contra all
  have each : ∀ t < s.cfg.numTxq, s.cleared t = true ∧ s.scan (s.cfg.owner t) = none := by
    intro t inside
    by_contra missing
    refine all ⟨t, inside, ?_⟩
    rcases Bool.eq_false_or_eq_true (s.cleared t) with done | open_
    · exact .inr fun idle => missing ⟨done, idle⟩
    · exact .inl open_
  rcases w.told fun t inside => (each t inside).1 with set_ | ⟨t, inside, busy⟩
  · rw [ended false ends] at set_
    cases set_
  · exact busy (each t inside).2

/-- The marker of a disable that timed out comes late and sets the vport flag; the next
disable takes it for its own and succeeds at once. -/
theorem drain_stale_flag :
    let c : DrainConfig := ⟨1, 1, 1, fun _ => 0, by decide, by decide, by decide⟩
    let access := List.replicate 6 DrainEvent.thread
    let run := exec DrainState.step c.init
      ([.disable] ++ access ++ [.timeout, .thread, .thread, .marker 0 1, .check 0, .disable] ++
        access)
    ∃ s s', run = some s ∧ s.phase = .waiting ∧ s.step .thread = some s' ∧
      s'.phase = .ended true 0 ∧ s.cleared 0 = false := by
  intro c access run
  have seen : (run.bind fun s => (s.step .thread).map fun s' =>
      (s.phase, s'.phase, s.cleared 0)) = some (.waiting, .ended true 0, false) := by
    decide +kernel
  obtain ⟨s, reached, next⟩ := Option.bind_eq_some_iff.mp seen
  obtain ⟨s', taken, eq⟩ := Option.map_eq_some_iff.mp next
  simp only [Prod.mk.injEq] at eq
  exact ⟨s, s', reached, eq.1, taken, eq.2⟩

/-- Two queues of one vector whose markers come in time. -/
theorem drain_handshake_markers :
    let c : DrainConfig := ⟨2, 2, 1, id, by decide, by decide, by decide⟩
    let access := List.replicate 8 DrainEvent.thread
    let run := execIf DrainState.step drainOk c.init
      ([.disable] ++ access ++ [.marker 1 1, .check 0, .pollEnd 0 false,
        .marker 0 1, .check 0, .check 0])
    ∃ s s', run = some s ∧ s.step .thread = some s' ∧ s'.phase = .ended true 0 ∧
      ∀ t < s.cfg.numTxq, s.cleared t = true := by
  intro c access run
  have seen : (run.bind fun s => (s.step .thread).map fun s' =>
      (s.phase, s'.phase)) = some (.waiting, .ended true 0) := by decide +kernel
  obtain ⟨s, reached, next⟩ := Option.bind_eq_some_iff.mp seen
  obtain ⟨s', taken, eq⟩ := Option.map_eq_some_iff.mp next
  obtain ⟨waits, ends⟩ := Prod.mk.inj eq
  have started : DrainStart c.init := ⟨c, rfl⟩
  have passed := Reachable.execIf (.start started) reached
  exact ⟨s, s', reached, taken, ends, ((drain_handshake passed).2 _ s' waits taken).1 ends⟩

end Idpf
