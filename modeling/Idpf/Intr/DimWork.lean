import Idpf.Intr.Dim
import Idpf.Vport.Coalesce

/-! One side of a vector whose moderation is tuned: the poll decides, a work item writes the
register, and a user sets a fixed value, each in accesses of its own. -/
namespace Idpf
open General

/-- Where a poll is in `idpf_net_dim`. -/
inductive DimPoll where
  | idle
  | polled (s : DimSample)
  | moved
  | applied
  | restarting (s : DimSample)
  deriving DecidableEq, Repr

/-- Where the work is in `idpf_tx_dim_work` or `idpf_rx_dim_work`. -/
inductive DimJob where
  | idle
  | begun
  | clamped
  | loaded (itr : Nat)
  | written
  deriving DecidableEq, Repr

/-- A side of `struct idpf_q_vector`, with the ITR register. `queued` is the pending bit of the
work, `storing` a value that `__idpf_set_q_coalesce` is about to write, and `manual` tells that the
last write to the register was of a fixed value. -/
structure Moderation where
  dim : Dim
  poll : DimPoll
  job : DimJob
  queued : Bool
  dynamic : Bool
  itrValue : Nat
  storing : Option Nat
  reg : Nat
  manual : Bool

/-- The part of the vport that is read: the table of profiles, and the kernel's `HZ`. -/
structure DimVport where
  itrProfile : List Nat
  hz : Int

/-- `napi` begins `idpf_net_dim` and `poll` is its next access, `work` is the next one of the work
item. The others are those of `__idpf_set_q_coalesce`. -/
inductive DimEvent where
  | napi (s : DimSample)
  | poll (junk : DimStats) (now : Int)
  | work
  | setStatic (usecs : Nat)
  | writeStatic
  | setDynamic

namespace DimVport

variable (v : DimVport)

def itr (ix : Nat) : Nat := v.itrProfile.getD ix 0

/-- `idpf_update_dim_sample`. -/
def updateSample (d : Dim) (s : DimSample) : Dim :=
  if v.hz ≤ (s.time - d.startSample.time).tdiv 1000000 then { d with state := .startMeasure } else d

end DimVport

namespace Moderation

variable (m : Moderation)

def pollNext (junk : DimStats) (now : Int) : Option Moderation :=
  match m.poll with
  | .idle => none
  | .polled s =>
    match m.dim.state with
    | .measureInProgress =>
      if bitGap 16 s.eventCtr m.dim.startSample.eventCtr < dimNevents then
        some { m with poll := .idle }
      else
        match m.dim.decision (calcStats junk m.dim.startSample s) with
        | (e, true) => some { m with dim := e, poll := .moved }
        | (e, false) => some { m with dim := e, poll := .restarting s }
    | .startMeasure => some { m with poll := .restarting s }
    | .applyNewProfile => some { m with poll := .idle }
  | .moved => some { m with dim := { m.dim with state := .applyNewProfile }, poll := .applied }
  | .applied => some { m with queued := true, poll := .idle }
  | .restarting s => some { m with dim := m.dim.startMeasure s now, poll := .idle }

def workNext (v : DimVport) : Option Moderation :=
  match m.job with
  | .idle => if m.queued then some { m with queued := false, job := .begun } else none
  | .begun =>
    if netDimNumProfiles ≤ m.dim.profileIx then
      some { m with dim := { m.dim with profileIx := netDimNumProfiles - 1 }, job := .clamped }
    else some { m with job := .clamped }
  | .clamped => some { m with job := .loaded (v.itr m.dim.profileIx) }
  | .loaded itr => some { m with reg := itrRegVal itr, manual := false, job := .written }
  | .written => some { m with dim := { m.dim with state := .startMeasure }, job := .idle }

/-- One access; `__idpf_set_q_coalesce` runs under a lock. -/
def step (v : DimVport) : DimEvent → Option Moderation
  | .napi s =>
    match m.poll with
    | .idle =>
      if m.dynamic then some { m with dim := v.updateSample m.dim s, poll := .polled s }
      else some m
    | _ => none
  | .poll junk now => m.pollNext junk now
  | .work => m.workNext v
  | .setStatic usecs =>
    match m.storing with
    | none => some { m with itrValue := usecs, dynamic := false, storing := some usecs }
    | some _ => none
  | .writeStatic =>
    match m.storing with
    | none => none
    | some usecs => some { m with reg := itrRegVal usecs, manual := true, storing := none }
  | .setDynamic =>
    match m.storing with
    | none => some { m with dynamic := true }
    | some _ => none

def settled : Bool :=
  match m.poll, m.job with
  | .idle, .idle => !m.queued
  | _, _ => false

def Late : Prop := m.queued = true ∨ m.poll = .moved ∨ m.poll = .applied

def Pending : Prop := m.Late ∨ m.job = .begun ∨ m.job = .clamped

variable {m}

theorem Pending.late (pending : m.Pending) (begun : m.job ≠ .begun) (clamped : m.job ≠ .clamped) :
    m.Late := by
  rcases pending with late | job | job
  · exact late
  · exact absurd job begun
  · exact absurd job clamped

end Moderation

/-- What `idpf_vport_intr_ena_irq_all` leaves a side in. -/
def DimVport.init (v : DimVport) (dynamic : Bool) (itrValue : Nat) : Moderation where
  dim := initDim
  poll := .idle
  job := .idle
  queued := false
  dynamic := dynamic
  itrValue := itrValue
  storing := none
  reg := itrRegVal (if dynamic then v.itr initDim.profileIx else itrValue)
  manual := !dynamic

def DimStart (v : DimVport) (m : Moderation) : Prop :=
  ∃ dynamic itrValue, m = v.init dynamic itrValue

/-- A poll waits for the work only while the work is to come, and what the register has or is about
to get is the value of the profile, unless the work will look at the profile again. -/
structure DimSynced (v : DimVport) (m : Moderation) : Prop where
  tuned : m.dim.Tuned
  applying : m.dim.state = .applyNewProfile →
    m.queued = true ∨ m.job ≠ .idle ∨ m.poll = .applied
  loaded : ¬m.Pending → ∀ itr, m.job = .loaded itr → itr = v.itr m.dim.profileIx
  reg : ¬m.Pending → (∀ itr, m.job ≠ .loaded itr) → m.manual = false →
    m.reg = itrRegVal (v.itr m.dim.profileIx)

namespace DimSynced

variable {v : DimVport} {m m' : Moderation}

/-- What a poll may do as long as the profile stays. -/
theorem frame (h : DimSynced v m) {d : Dim} {p : DimPoll} (tuned : d.Tuned)
    (ix : d.profileIx = m.dim.profileIx)
    (applying : d.state = .applyNewProfile → m.queued = true ∨ m.job ≠ .idle ∨ p = .applied)
    (ahead : m.poll = .moved ∨ m.poll = .applied → p = .moved ∨ p = .applied) :
    DimSynced v { m with dim := d, poll := p } := by
  have pending : m.Pending → { m with dim := d, poll := p }.Pending := by
    rintro ((queued | poll) | job)
    · exact .inl (.inl queued)
    · exact .inl (.inr (ahead poll))
    · exact .inr job
  refine ⟨tuned, applying, fun calm => ?_, fun calm => ?_⟩
  · dsimp only
    rw [ix]
    exact h.loaded fun p => calm (pending p)
  · dsimp only
    rw [ix]
    exact h.reg fun p => calm (pending p)

theorem of_pending (pending : m.Pending) (tuned : m.dim.Tuned)
    (applying : m.dim.state = .applyNewProfile →
      m.queued = true ∨ m.job ≠ .idle ∨ m.poll = .applied) : DimSynced v m :=
  ⟨tuned, applying, fun calm => absurd pending calm, fun calm => absurd pending calm⟩

theorem init (dynamic : Bool) (itrValue : Nat) : DimSynced v (v.init dynamic itrValue) where
  tuned := Dim.initDim_tuned
  applying := fun apply => nomatch apply
  loaded := fun _ _ job => nomatch job
  reg := by
    intro _ _ manual
    cases dynamic with
    | true => rfl
    | false => cases manual

theorem napi (h : DimSynced v m) {s : DimSample} (step : m.step v (.napi s) = some m') :
    DimSynced v m' := by
  simp only [Moderation.step] at step
  split at step
  · next idle =>
    split at step
    · obtain rfl := Option.some.inj step
      have behind : m.poll = .moved ∨ m.poll = .applied → False := by
        rw [idle]
        exact fun poll => by cases poll <;> contradiction
      unfold DimVport.updateSample
      split
      · exact h.frame (h.tuned.measured _ _ _) rfl nofun fun poll => (behind poll).elim
      · refine h.frame h.tuned rfl (fun apply => ?_) fun poll => (behind poll).elim
        rcases h.applying apply with queued | job | applied
        · exact .inl queued
        · exact .inr (.inl job)
        · exact (behind (.inr applied)).elim
    · obtain rfl := Option.some.inj step
      exact h
  · cases step

theorem poll (h : DimSynced v m) {junk : DimStats} {now : Int}
    (step : m.pollNext junk now = some m') : DimSynced v m' := by
  unfold Moderation.pollNext at step
  cases at_ : m.poll with
  | idle =>
      rw [at_] at step
      cases step
  | polled s =>
      have behind : m.poll = .moved ∨ m.poll = .applied → False := by
        rw [at_]
        exact fun poll => by cases poll <;> contradiction
      have waits : m.dim.state = .applyNewProfile → m.queued = true ∨ m.job ≠ .idle := by
        intro apply
        rcases h.applying apply with queued | job | applied
        · exact .inl queued
        · exact .inr job
        · exact (behind (.inr applied)).elim
      rw [at_] at step
      dsimp only at step
      cases phase : m.dim.state with
      | measureInProgress =>
          rw [phase] at step
          dsimp only at step
          split at step
          · obtain rfl := Option.some.inj step
            exact h.frame h.tuned rfl (fun apply => by rw [phase] at apply; cases apply)
              fun poll => (behind poll).elim
          · have decided := Dim.decision_decided h.tuned (calcStats junk m.dim.startSample s)
            have kept := Dim.decision_state (d := m.dim) (calcStats junk m.dim.startSample s)
            have told := Dim.decision_snd (d := m.dim) (calcStats junk m.dim.startSample s)
            rw [phase] at kept
            split at step
            · next e decision =>
              rw [decision] at decided kept
              obtain rfl := Option.some.inj step
              refine of_pending (.inl (.inr (.inl rfl))) decided.tuned fun apply => ?_
              exact absurd (kept.symm.trans apply) (by decide)
            · next e decision =>
              rw [decision] at decided kept told
              obtain rfl := Option.some.inj step
              have same : e.profileIx = m.dim.profileIx := by
                by_contra other
                exact absurd (told.mpr other) Bool.false_ne_true
              exact h.frame decided.tuned same
                (fun apply => absurd (kept.symm.trans apply) (by decide))
                fun poll => (behind poll).elim
      | startMeasure =>
          rw [phase] at step
          obtain rfl := Option.some.inj step
          exact h.frame h.tuned rfl (fun apply => by rw [phase] at apply; cases apply)
            fun poll => (behind poll).elim
      | applyNewProfile =>
          rw [phase] at step
          obtain rfl := Option.some.inj step
          exact h.frame h.tuned rfl
            (fun apply => (waits apply).imp_right .inl) fun poll => (behind poll).elim
  | moved =>
      rw [at_] at step
      obtain rfl := Option.some.inj step
      exact of_pending (.inl (.inr (.inr rfl))) (h.tuned.measured _ _ _)
        fun _ => .inr (.inr rfl)
  | applied =>
      rw [at_] at step
      obtain rfl := Option.some.inj step
      exact of_pending (.inl (.inl rfl)) h.tuned fun _ => .inl rfl
  | restarting s =>
      rw [at_] at step
      obtain rfl := Option.some.inj step
      exact h.frame (h.tuned.measured _ _ _) rfl nofun
        fun poll => by rw [at_] at poll; cases poll <;> contradiction

theorem work (h : DimSynced v m) (step : m.workNext v = some m') : DimSynced v m' := by
  unfold Moderation.workNext at step
  cases at_ : m.job with
  | idle =>
      rw [at_] at step
      dsimp only at step
      split at step
      · obtain rfl := Option.some.inj step
        exact of_pending (.inr (.inl rfl)) h.tuned fun _ => .inr (.inl nofun)
      · cases step
  | begun =>
      rw [at_] at step
      dsimp only at step
      rw [if_neg (Nat.not_le.mpr h.tuned.ix)] at step
      obtain rfl := Option.some.inj step
      exact of_pending (.inr (.inr rfl)) h.tuned fun _ => .inr (.inl nofun)
  | clamped =>
      rw [at_] at step
      obtain rfl := Option.some.inj step
      refine ⟨h.tuned, fun _ => .inr (.inl nofun), fun _ itr job => ?_, fun _ other => ?_⟩
      · exact (DimJob.loaded.inj job).symm
      · exact absurd rfl (other _)
  | loaded itr =>
      rw [at_] at step
      obtain rfl := Option.some.inj step
      refine ⟨h.tuned, fun _ => .inr (.inl nofun), nofun,
        fun calm _ _ => ?_⟩
      have fresh : itr = v.itr m.dim.profileIx := by
        refine h.loaded (fun pending => calm ?_) itr at_
        exact .inl (pending.late (by rw [at_]; nofun) (by rw [at_]; nofun))
      exact congrArg itrRegVal fresh
  | written =>
      rw [at_] at step
      obtain rfl := Option.some.inj step
      refine ⟨h.tuned.measured _ _ _, nofun, nofun, fun calm _ => ?_⟩
      refine h.reg (fun pending => calm ?_) fun itr job => by rw [at_] at job; cases job
      exact .inl (pending.late (by rw [at_]; nofun) (by rw [at_]; nofun))

theorem next (h : DimSynced v m) (e : DimEvent) (step : m.step v e = some m') :
    DimSynced v m' := by
  cases e with
  | napi s => exact h.napi step
  | poll junk now => exact h.poll step
  | work => exact h.work step
  | setStatic usecs =>
      simp only [Moderation.step] at step
      split at step
      · obtain rfl := Option.some.inj step
        exact ⟨h.tuned, h.applying, h.loaded, h.reg⟩
      · cases step
  | writeStatic =>
      simp only [Moderation.step] at step
      split at step
      · cases step
      · obtain rfl := Option.some.inj step
        exact ⟨h.tuned, h.applying, h.loaded, fun _ _ manual => nomatch manual⟩
  | setDynamic =>
      simp only [Moderation.step] at step
      split at step
      · obtain rfl := Option.some.inj step
        exact ⟨h.tuned, h.applying, h.loaded, h.reg⟩
      · cases step

theorem of_reachable (h : Reachable (fun m e => m.step v e) anyStep (DimStart v) m) :
    DimSynced v m := by
  refine h.invariant (I := DimSynced v) ?_ fun m e m' synced _ step => synced.next e step
  rintro _ ⟨dynamic, itrValue, rfl⟩
  exact init dynamic itrValue

end DimSynced

namespace Moderation

variable {v : DimVport} {m : Moderation}

theorem settled_iff : m.settled = true ↔ m.poll = .idle ∧ m.job = .idle ∧ m.queued = false := by
  unfold settled
  split
  · next poll job => simp only [poll, job, Bool.not_eq_true', true_and]
  · next other =>
    refine ⟨nofun, fun calm => ?_⟩
    exact (other calm.1 calm.2.1).elim

/-- A poll that nothing comes between is `net_dim`. -/
theorem netDim_refines (s : DimSample) (junk : DimStats) (now : Int) (at_ : m.poll = .polled s) :
    ∃ n, exec (fun m e => Moderation.step m v e) m (List.replicate n (.poll junk now)) =
      some { m with
        dim := (m.dim.netDim junk s now).1
        poll := .idle
        queued := (m.dim.netDim junk s now).2 || m.queued } := by
  cases phase : m.dim.state with
  | measureInProgress =>
      by_cases few : bitGap 16 s.eventCtr m.dim.startSample.eventCtr < dimNevents
      · refine ⟨1, ?_⟩
        simp only [List.replicate, exec, step, pollNext, at_, phase, if_pos few, Dim.netDim,
          Bool.false_or, Option.bind_some]
      · cases decision : m.dim.decision (calcStats junk m.dim.startSample s) with
        | mk e moved =>
            cases moved with
            | true =>
                refine ⟨3, ?_⟩
                simp only [List.replicate, exec, step, pollNext, at_, phase, if_neg few,
                  Dim.netDim, decision, Bool.true_or, Option.bind_some]
            | false =>
                refine ⟨2, ?_⟩
                simp only [List.replicate, exec, step, pollNext, at_, phase, if_neg few,
                  Dim.netDim, decision, Bool.false_or, Option.bind_some]
  | startMeasure =>
      refine ⟨2, ?_⟩
      simp only [List.replicate, exec, step, pollNext, at_, phase, Dim.netDim, Bool.false_or,
        Option.bind_some]
  | applyNewProfile =>
      refine ⟨1, ?_⟩
      simp only [List.replicate, exec, step, pollNext, at_, phase, Dim.netDim, Bool.false_or,
        Option.bind_some]

/-- Once the poll and the work have come to an end, the tuning measures on, and the register has
the value of its profile unless a user's came after it. -/
theorem settled_register (h : Reachable (fun m e => m.step v e) anyStep (DimStart v) m)
    (calm : m.settled = true) :
    m.dim.state ≠ .applyNewProfile ∧
      (m.manual = false → m.reg = itrRegVal (v.itr m.dim.profileIx)) := by
  have synced := DimSynced.of_reachable h
  obtain ⟨poll, job, queued⟩ := settled_iff.mp calm
  have rest : ¬m.Pending := by
    rintro ((p | p | p) | p | p)
    · rw [queued] at p
      cases p
    · rw [poll] at p
      cases p
    · rw [poll] at p
      cases p
    · rw [job] at p
      cases p
    · rw [job] at p
      cases p
  refine ⟨fun apply => ?_, synced.reg rest fun itr other => ?_⟩
  · rcases synced.applying apply with p | p | p
    · rw [queued] at p
      cases p
    · exact p job
    · rw [poll] at p
      cases p
  · rw [job] at other
    cases other

def calmStatic (m : Moderation) : DimEvent → Bool
  | .setStatic _ => m.settled
  | _ => true

/-- With a fixed value nothing is going on, and the register has it once it is written. -/
structure Fixed (m : Moderation) : Prop where
  calm : m.dynamic = false → m.settled = true
  storing : ∀ usecs, m.storing = some usecs → m.dynamic = false ∧ m.itrValue = usecs
  reg : m.dynamic = false → m.storing = none → m.reg = itrRegVal m.itrValue

theorem Fixed.of_dynamic (dynamic : m.dynamic = true) (storing : m.storing = none) : m.Fixed := by
  refine ⟨fun off => ?_, fun usecs on => ?_, fun off => ?_⟩
  · rw [dynamic] at off
    cases off
  · rw [storing] at on
    cases on
  · rw [dynamic] at off
    cases off

namespace Fixed

variable {m' : Moderation}

theorem init (v : DimVport) (dynamic : Bool) (itrValue : Nat) :
    (v.init dynamic itrValue).Fixed := by
  refine ⟨fun _ => rfl, nofun, fun off _ => ?_⟩
  obtain rfl : dynamic = false := off
  rfl

theorem dynamic_of_busy (h : m.Fixed) (busy : m.settled = false) :
    m.dynamic = true ∧ m.storing = none := by
  have on : m.dynamic = true := by
    cases dynamic : m.dynamic with
    | true => rfl
    | false => exact absurd ((h.calm dynamic).symm.trans busy) (by decide)
  refine ⟨on, ?_⟩
  cases storing : m.storing with
  | none => rfl
  | some usecs => exact absurd (on.symm.trans (h.storing usecs storing).1) (by decide)

theorem poll (h : m.Fixed) {junk : DimStats} {now : Int} (step : m.pollNext junk now = some m') :
    m'.Fixed := by
  have busy : m.settled = false := by
    rw [← Bool.not_eq_true, settled_iff]
    intro calm
    rw [pollNext, calm.1] at step
    cases step
  obtain ⟨dynamic, storing⟩ := h.dynamic_of_busy busy
  suffices same : m'.dynamic = m.dynamic ∧ m'.storing = m.storing from
    .of_dynamic (same.1.trans dynamic) (same.2.trans storing)
  unfold pollNext at step
  repeat' split at step
  all_goals
    cases step
    try exact ⟨rfl, rfl⟩

theorem work (h : m.Fixed) (step : m.workNext v = some m') : m'.Fixed := by
  have busy : m.settled = false := by
    rw [← Bool.not_eq_true, settled_iff]
    rintro ⟨-, job, queued⟩
    rw [workNext, job] at step
    simp only [queued, Bool.false_eq_true, if_false, reduceCtorEq] at step
  obtain ⟨dynamic, storing⟩ := h.dynamic_of_busy busy
  suffices same : m'.dynamic = m.dynamic ∧ m'.storing = m.storing from
    .of_dynamic (same.1.trans dynamic) (same.2.trans storing)
  unfold workNext at step
  repeat' split at step
  all_goals
    cases step
    try exact ⟨rfl, rfl⟩

theorem next (h : m.Fixed) (e : DimEvent) (ok : m.calmStatic e = true)
    (step : m.step v e = some m') : m'.Fixed := by
  cases e with
  | napi s =>
      simp only [Moderation.step] at step
      split at step
      · split at step
        · next on =>
          obtain rfl := Option.some.inj step
          refine .of_dynamic on ?_
          cases storing : m.storing with
          | none => rfl
          | some usecs => exact absurd (on.symm.trans (h.storing usecs storing).1) (by decide)
        · obtain rfl := Option.some.inj step
          exact h
      · cases step
  | poll junk now => exact h.poll step
  | work => exact h.work step
  | setStatic usecs =>
      simp only [Moderation.step] at step
      split at step
      · obtain rfl := Option.some.inj step
        exact ⟨fun _ => ok, fun _ stores => ⟨rfl, Option.some.inj stores⟩, nofun⟩
      · cases step
  | writeStatic =>
      simp only [Moderation.step] at step
      split at step
      · cases step
      · next usecs stores =>
        obtain rfl := Option.some.inj step
        obtain ⟨off, value⟩ := h.storing usecs stores
        exact ⟨fun _ => h.calm off, nofun, fun _ _ => congrArg itrRegVal value.symm⟩
  | setDynamic =>
      simp only [Moderation.step] at step
      split at step
      · next idle =>
        obtain rfl := Option.some.inj step
        exact .of_dynamic rfl idle
      · cases step

end Fixed

/-- Where every fixed value is set while neither a poll nor the work is at anything, the register
keeps it for as long as the mode stays. -/
theorem static_kept
    (h : Reachable (fun m e => m.step v e) (fun m e => m.calmStatic e = true) (DimStart v) m)
    (static : m.dynamic = false) (written : m.storing = none) : m.reg = itrRegVal m.itrValue := by
  have fixed : m.Fixed := by
    refine h.invariant (I := Fixed) ?_ fun m e m' fixed ok step => fixed.next e ok step
    rintro _ ⟨dynamic, itrValue, rfl⟩
    exact Fixed.init v dynamic itrValue
  exact fixed.reg static written

def burst : DimSample := ⟨2000000, 64, 64000, 64⟩

/-- A window is measured, the profile changes, and the work writes the register. -/
def burstRun : List DimEvent :=
  [.napi ⟨1000000, 0, 0, 0⟩, .poll ⟨0, 0, 0⟩ 1000000, .poll ⟨0, 0, 0⟩ 1000000, .napi burst,
    .poll ⟨0, 0, 0⟩ 2000000, .poll ⟨0, 0, 0⟩ 2000000, .poll ⟨0, 0, 0⟩ 2000000, .work, .work, .work,
    .work, .work]

/-- A vport with five profiles, and `HZ` of 1000. -/
def burstVport : DimVport := ⟨[2, 8, 32, 96, 128], 1000⟩

theorem settled_register_burst :
    ∃ m, exec (fun m e => Moderation.step m burstVport e) (burstVport.init true 0) burstRun =
        some m ∧ m.settled = true ∧ m.dim.profileIx = 0 ∧ m.dim.state ≠ .applyNewProfile ∧
      (m.manual = false → m.reg = itrRegVal (burstVport.itr m.dim.profileIx)) := by
  have seen : (exec (fun m e => Moderation.step m burstVport e) (burstVport.init true 0)
      burstRun).map (fun m => (m.settled, m.dim.profileIx)) = some (true, 0) := by decide +kernel
  obtain ⟨m, run, facts⟩ := Option.map_eq_some_iff.mp seen
  obtain ⟨calm, ix⟩ := Prod.mk.inj facts
  exact ⟨m, run, calm, ix, settled_register ((Reachable.start ⟨true, 0, rfl⟩).exec run) calm⟩

/-- A fixed value that is set while the work has read the table is overwritten. -/
example : (exec (fun m e => Moderation.step m burstVport e) (burstVport.init true 0)
    (burstRun.dropLast.dropLast ++ [.setStatic 100, .writeStatic, .work, .work])).map
      (fun m => (m.dynamic, m.itrValue, m.reg)) = some (false, 100, itrRegVal 2) := by
  decide +kernel

/-- The same value set after the work. -/
theorem static_kept_burst :
    ∃ m, execIf (fun m e => Moderation.step m burstVport e) calmStatic
        (burstVport.init true 0) (burstRun ++ [.setStatic 100, .writeStatic]) = some m ∧
      m.itrValue = 100 ∧ m.reg = itrRegVal m.itrValue := by
  have seen : (execIf (fun m e => Moderation.step m burstVport e) calmStatic
      (burstVport.init true 0) (burstRun ++ [.setStatic 100, .writeStatic])).map
        (fun m => (m.dynamic, m.storing, m.itrValue)) = some (false, none, 100) := by decide +kernel
  obtain ⟨m, run, facts⟩ := Option.map_eq_some_iff.mp seen
  obtain ⟨static, rest⟩ := Prod.mk.inj facts
  obtain ⟨written, value⟩ := Prod.mk.inj rest
  exact ⟨m, run, value,
    static_kept ((Reachable.start ⟨true, 0, rfl⟩).execIf run) static written⟩

end Moderation

/-- The bytes of an array of `u16` on a little-endian host. -/
def itrBytes (ws : List Nat) : List Nat := ws.flatMap fun w => [w % 256, w / 256 % 256]

/-- The `u16` that bytes stand for. -/
def itrWords : List Nat → List Nat
  | lo :: hi :: rest => (lo + 256 * hi) :: itrWords rest
  | _ => []

/-- `memcpy` of some bytes from one array of `u16` to another. -/
def copyItrProfile (n : Nat) (dst src : List Nat) : List Nat :=
  itrWords ((itrBytes src).take n ++ (itrBytes dst).drop n)

theorem itrWord_split {w : Nat} (small : w < 2 ^ 16) : w % 256 + 256 * (w / 256 % 256) = w := by
  omega

theorem itrWords_bytes {ws : List Nat} (small : ∀ w ∈ ws, w < 2 ^ 16) :
    itrWords (itrBytes ws) = ws := by
  induction ws with
  | nil => rfl
  | cons w ws ih =>
      obtain ⟨first, rest⟩ := List.forall_mem_cons.mp small
      exact congrArg₂ List.cons (itrWord_split first) (ih rest)

theorem copyItrProfile_cons {s : Nat} (small : s < 2 ^ 16) (n d : Nat) (dst src : List Nat) :
    copyItrProfile (n + 2) (d :: dst) (s :: src) = s :: copyItrProfile n dst src :=
  congrArg₂ List.cons (itrWord_split small) rfl

/-- The words that the bytes reach are copied and those behind them are not. -/
theorem copyItrProfile_getD {n i : Nat} {dst src : List Nat} (same : src.length = dst.length)
    (small : ∀ w ∈ dst, w < 2 ^ 16) (smallSrc : ∀ w ∈ src, w < 2 ^ 16) :
    (2 * (i + 1) ≤ n → (copyItrProfile n dst src).getD i 0 = src.getD i 0) ∧
      (n ≤ 2 * i → (copyItrProfile n dst src).getD i 0 = dst.getD i 0) := by
  induction dst generalizing n i src with
  | nil =>
      obtain rfl := List.length_eq_zero_iff.mp same
      simp only [copyItrProfile, itrBytes, List.flatMap_nil, List.take_nil, List.drop_nil,
        List.append_nil, itrWords, List.getD_nil, implies_true, and_self]
  | cons d dst ih =>
      cases src with
      | nil => cases same
      | cons s src =>
          have rest := (List.forall_mem_cons.mp small).2
          obtain ⟨first, restSrc⟩ := List.forall_mem_cons.mp smallSrc
          match n with
          | 0 =>
              refine ⟨fun reached => by omega, fun _ => ?_⟩
              exact congrArg (List.getD · i 0) (itrWords_bytes small)
          | 1 =>
              refine ⟨fun reached => by omega, fun behind => ?_⟩
              obtain ⟨j, rfl⟩ : ∃ j, i = j + 1 := ⟨i - 1, by omega⟩
              exact congrArg (List.getD · j 0) (itrWords_bytes rest)
          | n + 2 =>
              rw [copyItrProfile_cons first]
              cases i with
              | zero => exact ⟨fun _ => rfl, fun behind => by omega⟩
              | succ j =>
                  obtain ⟨reached, behind⟩ := ih (n := n) (i := j) (Nat.succ.inj same) rest restSrc
                  exact ⟨fun h => reached (by omega), fun h => behind (by omega)⟩

/-- The tables of `idpf_vport_init`. -/
def dimItr : ItrSide → List Nat
  | .tx => [2, 8, 64, 128, 256]
  | .rx => [2, 8, 32, 96, 128]

/-- What `idpf_vport_init` leaves in a zeroed vport: `IDPF_DIM_PROFILE_SLOTS` is taken for a number
of bytes. -/
def vportDim (sd : ItrSide) (hz : Int) : DimVport :=
  ⟨copyItrProfile netDimNumProfiles (List.replicate netDimNumProfiles 0) (dimItr sd), hz⟩

theorem vportDim_itr (sd : ItrSide) (hz : Int) (ix : Nat) :
    (vportDim sd hz).itr ix = if ix < 3 then (dimItr sd).getD ix 0 else 0 := by
  have small : ∀ w ∈ dimItr sd, w < 2 ^ 16 := by cases sd <;> decide
  have size : (dimItr sd).length = (List.replicate netDimNumProfiles 0).length := by
    cases sd <;> rfl
  have copied := copyItrProfile_getD (n := netDimNumProfiles) (i := ix) size (by decide) small
  simp only [netDimNumProfiles] at copied
  unfold DimVport.itr vportDim
  split
  · next low =>
    by_cases whole : ix < 2
    · exact copied.1 (by omega)
    · obtain rfl : ix = 2 := by omega
      cases sd <;> rfl
  · next high =>
    rw [netDimNumProfiles, copied.2 (by omega), List.getD_eq_getElem?_getD,
      List.getElem?_replicate]
    split <;> rfl

/-- The register of a side at rest: at the two profiles for the heaviest traffic nothing is
throttled. -/
theorem Moderation.settled_throttle {sd : ItrSide} {hz : Int} {m : Moderation}
    (h : Reachable (fun m e => m.step (vportDim sd hz) e) anyStep (DimStart (vportDim sd hz)) m)
    (calm : m.settled = true) (tuned : m.manual = false) :
    m.reg = if m.dim.profileIx < 3 then itrRegVal ((dimItr sd).getD m.dim.profileIx 0) else 0 := by
  rw [(settled_register h calm).2 tuned, vportDim_itr]
  exact apply_ite itrRegVal _ _ _

/-- A window of one millisecond with 64 packets, the `k`th, which changes the profile. -/
def windowRun (k : Nat) (bytes : Nat) : List DimEvent :=
  let start : Int := 2000000 * k
  [.napi ⟨start, 0, 0, 0⟩, .poll ⟨0, 0, 0⟩ start, .poll ⟨0, 0, 0⟩ start,
    .napi ⟨start + 1000000, 64, bytes, 64⟩, .poll ⟨0, 0, 0⟩ start, .poll ⟨0, 0, 0⟩ start,
    .poll ⟨0, 0, 0⟩ start] ++ List.replicate 5 .work

/-- Traffic that grows takes the Rx side to the fourth profile. -/
theorem Moderation.settled_throttle_fourth :
    ∃ m, exec (fun m e => Moderation.step m (vportDim .rx 1000) e)
        ((vportDim .rx 1000).init true 0)
        (windowRun 0 1000 ++ windowRun 1 100 ++ windowRun 2 1000 ++ windowRun 3 10000) = some m ∧
      m.dim.profileIx = 3 ∧
      m.reg = if m.dim.profileIx < 3 then itrRegVal ((dimItr .rx).getD m.dim.profileIx 0)
        else 0 := by
  have seen : (exec (fun m e => Moderation.step m (vportDim .rx 1000) e)
      ((vportDim .rx 1000).init true 0)
      (windowRun 0 1000 ++ windowRun 1 100 ++ windowRun 2 1000 ++ windowRun 3 10000)).map
        (fun m => (m.settled, m.manual, m.dim.profileIx)) = some (true, false, 3) := by
    decide +kernel
  obtain ⟨m, run, facts⟩ := Option.map_eq_some_iff.mp seen
  obtain ⟨calm, rest⟩ := Prod.mk.inj facts
  obtain ⟨tuned, ix⟩ := Prod.mk.inj rest
  exact ⟨m, run, ix, settled_throttle ((Reachable.start ⟨true, 0, rfl⟩).exec run) calm tuned⟩

end Idpf
