import Idpf.Vport.XdpRings

/-! A soft reset: what is left of a vport at each of the steps that can fail, and when an error
leaves it as it was. -/
namespace Idpf
open General

/-- `enum idpf_vport_reset_cause`; `none` stands for a value that is none of the causes. -/
inductive SoftCause where
  | none
  | qChange
  | qDescChange
  | mtuChange
  | rscChange
  | hsplitChange
  | qSchChange
  | xdpChange
  deriving DecidableEq, Repr

/-- What `idpf_initiate_soft_reset` returns: 0, or the step that fails. -/
inductive SoftRet where
  | done
  | noMem
  | inval
  | notMapped
  | notAdded
  | notSet
  | notOpened
  deriving DecidableEq, Repr

/-- How the steps go: the memory for the clone, whether the device acts on DEL_QUEUES, the stop of a
vport that is up, the change of a pool, the two requests for queues, the free vectors, whether the
stack takes the numbers of queues, and how the vport is opened again. -/
structure SoftRun where
  mem : Bool
  delQueues : Bool
  stop : StopRun
  pool : Bool
  addNew : MsgEnd
  addOld : MsgEnd
  avail : Nat
  realNum : Bool
  reopen : OpenRun

def MsgEnd.acted : MsgEnd → Bool
  | .accepted => true
  | .failed done => done

namespace QueueVport

def cloned (v : QueueVport) (user : UserConfig) : SoftCause → QueueVport
  | .qChange => v.adjustQs user
  | .qDescChange => { v with rsrc := v.rsrc.calcNumQDesc user }
  | _ => v

/-- The clone once it is the vport: new numbers of queues have vectors of their own. -/
def settled (v : QueueVport) (user : UserConfig) (cause : SoftCause) (avail : Nat) : QueueVport :=
  let v := v.cloned user cause
  if cause = .qChange then v.allocVecIndexes user.xdpProg avail else v

end QueueVport

/-- The last call has come back, and a vport that is down was not opened by it. -/
structure OpenVport.Calm (vp : OpenVport) : Prop where
  back : vp.stuck = false
  closed : vp.up = false → vp.ret ≠ .opened

namespace XdpSlot

variable {ρ : Type*}

/-- `idpf_send_add_queues_msg` -/
def request (s : XdpSlot ρ) (v : QueueVport) (end_ : MsgEnd) : XdpSlot ρ :=
  { s with
    devQueues := if end_.acted then fun k => s.devQueues k + v.addQueuesAsk k else s.devQueues
    ring := { s.ring with use := { s.ring.use with
      asked := s.ring.use.asked ++ [⟨s.ring.use.maxQ, v.addQueuesAsk⟩] } } }

/-- `idpf_vport_stop`, before which `idpf_initiate_soft_reset` has the device delete the queues. -/
def takeDown (s : XdpSlot ρ) (run : SoftRun) : XdpSlot ρ :=
  s.teardown ⟨run.delQueues, run.stop, run.addNew, run.avail, run.reopen⟩

/-- The run of an open of a vport that is to have the counts of `v`. -/
def openRun (s : XdpSlot ρ) (user : UserConfig) (v : QueueVport) (r : OpenRun) : OpenRun :=
  { r with
    rsrc := v.sizes (s.ring.getHsplit v.rsrc = .enabled) r
    xdpProg := user.xdpProg }

/-- `idpf_vport_open`, with whether it returns 0; there is no result where it does not return. -/
def reopen (s : XdpSlot ρ) (user : UserConfig) (v : QueueVport) (r : OpenRun) :
    Option (Bool × XdpSlot ρ) :=
  let vp := s.vp.openVport (s.openRun user v r)
  if vp.stuck then none else some (vp.ret = .opened, s.opened v vp)

/-- The label `err_open`. -/
def errOpen (s : XdpSlot ρ) (up : Bool) (user : UserConfig) (v : QueueVport) (r : OpenRun)
    (err : SoftRet) : Option (SoftRet × XdpSlot ρ) :=
  if up then (s.reopen user v r).map fun o => (err, o.2) else some (err, s)

/-- From the second switch on, for a vport that was up or not. -/
def rebuild (s : XdpSlot ρ) (up : Bool) (user : UserConfig) (v : QueueVport) (cause : SoftCause)
    (run : SoftRun) : Option (SoftRet × XdpSlot ρ) :=
  let s := if cause = .qChange then { s with rssLut := false } else s
  let s := s.request (v.cloned user cause) run.addNew
  if run.addNew.accepts then
    let v := v.settled user cause run.avail
    let s := s.put user (some v)
    if !run.realNum then s.errOpen up user v run.reopen .notSet
    else if up then
      (s.reopen user v run.reopen).map fun o => (if o.1 then .done else .notOpened, o.2)
    else some (.done, s)
  else
    -- the label `err_reset`; the old vport has not been written to
    let s := s.request v run.addOld
    s.errOpen (up && run.addOld.accepts) user v run.reopen .notAdded

/-- `idpf_initiate_soft_reset`; there is no result where it does not return. -/
def softReset (s : XdpSlot ρ) (cause : SoftCause) (run : SoftRun) :
    Option (SoftRet × XdpSlot ρ) :=
  let s := s.unasked
  match s.ring.use.config, s.ring.use.vport with
  | some user, some v =>
    if !run.mem then some (.noMem, s)
    else if cause = .none then some (.inval, s)
    else
      let t := s.takeDown run
      if t.vp.stuck then none
      else if cause = .xdpChange && !run.pool then some (.notMapped, t)
      else t.rebuild s.vp.up user v cause run
  | _, _ => none

/-- The counts that the vport has after the requests for queues. -/
def counts (v : QueueVport) (user : UserConfig) (cause : SoftCause) (run : SoftRun) : QueueVport :=
  if run.addNew.accepts then v.settled user cause run.avail else v

def reopens (s : XdpSlot ρ) (v : QueueVport) (user : UserConfig) (cause : SoftCause)
    (run : SoftRun) : Bool :=
  (s.openRun user (counts v user cause run) run.reopen).succeeds

/-- A vport that was up comes up again: the device gives out queues, and the open succeeds. -/
def comesUp (s : XdpSlot ρ) (v : QueueVport) (user : UserConfig) (cause : SoftCause)
    (run : SoftRun) : Bool :=
  (run.addNew.accepts || run.addOld.accepts) && s.reopens v user cause run

def asks (s : XdpSlot ρ) (v : QueueVport) (user : UserConfig) (cause : SoftCause)
    (run : SoftRun) : List QueueAsk :=
  ⟨s.ring.use.maxQ, (v.cloned user cause).addQueuesAsk⟩ ::
    if run.addNew.accepts then [] else [⟨s.ring.use.maxQ, v.addQueuesAsk⟩]

def given (s : XdpSlot ρ) (v : QueueVport) (user : UserConfig) (cause : SoftCause)
    (run : SoftRun) (k : QueueKind) : Nat :=
  (if run.delQueues then 0 else s.devQueues k) +
    (if run.addNew.acted then (v.cloned user cause).addQueuesAsk k else 0) +
    if !run.addNew.accepts && run.addOld.acted then v.addQueuesAsk k else 0

/-- How a reset ends that has come to ask for queues. -/
structure SoftEnds (s : XdpSlot ρ) (v : QueueVport) (user : UserConfig) (cause : SoftCause)
    (run : SoftRun) (ret : SoftRet) (t : XdpSlot ρ) : Prop where
  ring : t.ring = { s.ring with
    use := { s.ring.use with
      asked := asks s v user cause run
      vport := some (counts v user cause run) }
    rings := t.ring.rings }
  rings : s.Matched → t.ring.rings =
    if t.vp.up then some (counts v user cause run).rsrc.rings else none
  prog : t.prog = s.prog
  calm : s.vp.Calm → t.vp.Calm
  device : ∀ k, t.devQueues k = s.given v user cause run k
  up : t.vp.up = (s.vp.up && s.comesUp v user cause run)
  done : ret = .done ↔ run.addNew.accepts = true ∧ run.realNum = true ∧
    (s.vp.up = true → s.reopens v user cause run = true)

variable {s t u : XdpSlot ρ} {v w : QueueVport} {user : UserConfig} {cause : SoftCause}
  {run : SoftRun} {r : OpenRun} {ret err : SoftRet} {up : Bool}

theorem openRun_congr (cap : t.ring.cap = s.ring.cap) (hsplit : t.ring.hsplit = s.ring.hsplit) :
    t.openRun user v r = s.openRun user v r := by
  unfold openRun RingSlot.getHsplit RingSlot.splits
  rw [cap, hsplit]

/-- What an open of a vport that is down leaves. -/
structure Reopened (s : XdpSlot ρ) (v : QueueVport) (ok : Bool) (t : XdpSlot ρ) : Prop where
  ring : t.ring = { s.ring with rings := t.ring.rings }
  rings : s.ring.rings = none → t.ring.rings = if ok then some v.rsrc.rings else none
  prog : t.prog = s.prog
  calm : s.vp.Calm → t.vp.Calm
  devQueues : t.devQueues = s.devQueues
  up : t.vp.up = ok

theorem reopen_ends {b : Bool} (down : s.vp.up = false) (ret : s.vp.ret ≠ .opened)
    (back : s.vp.stuck = false) (result : s.reopen user v r = some (b, t)) :
    b = (s.openRun user v r).succeeds ∧ s.Reopened v (s.openRun user v r).succeeds t := by
  have ends := s.vp.openVport_ends (s.openRun user v r) down ret back
  unfold reopen at result
  dsimp only at result
  split at result
  · cases result
  · next returns =>
    obtain ⟨rfl, rfl⟩ := Prod.mk.inj (Option.some.inj result)
    have back := Bool.eq_false_iff.mpr returns
    cases ok : (s.openRun user v r).succeeds with
    | true =>
        rw [ok] at ends
        obtain ⟨opened, up, -⟩ := ends
        refine ⟨decide_eq_true opened, rfl, fun _ => if_pos up, rfl, fun _ => ⟨back, ?_⟩, rfl, up⟩
        exact fun off => absurd (up.symm.trans off) Bool.noConfusion
    | false =>
        rw [ok] at ends
        obtain ⟨closed, off⟩ := ends
        exact ⟨decide_eq_false closed, rfl, fun _ => if_neg (Bool.eq_false_iff.mp off), rfl,
          fun _ => ⟨back, fun _ => closed⟩, rfl, off⟩

theorem errOpen_ends (down : s.vp.up = false)
    (fresh : up = true → s.vp.ret ≠ .opened ∧ s.vp.stuck = false)
    (result : s.errOpen up user v r err = some (ret, t)) :
    ret = err ∧ s.Reopened v (up && (s.openRun user v r).succeeds) t := by
  unfold errOpen at result
  cases up with
  | false =>
      obtain ⟨rfl, rfl⟩ := Prod.mk.inj (Option.some.inj result)
      exact ⟨rfl, rfl, id, rfl, id, rfl, down⟩
  | true =>
      obtain ⟨⟨b, u⟩, opened, eq⟩ := Option.map_eq_some_iff.mp result
      obtain ⟨rfl, rfl⟩ := Prod.mk.inj eq
      obtain ⟨ret, back⟩ := fresh rfl
      exact ⟨rfl, (reopen_ends down ret back opened).2⟩

/-- The slot when the device has been told to delete the queues and the vport has been stopped. -/
structure TakenDown (s : XdpSlot ρ) (run : SoftRun) (t : XdpSlot ρ) : Prop where
  ring : t.ring = { s.ring with rings := t.ring.rings }
  rings : s.Matched → t.ring.rings = none
  prog : t.prog = s.prog
  calm : s.vp.Calm → t.vp.stuck = false → t.vp.Calm
  devQueues : t.devQueues = if run.delQueues then fun _ => 0 else s.devQueues
  down : t.vp.up = false
  ret : s.vp.up = true → t.vp.ret ≠ .opened

theorem takeDown_takenDown (s : XdpSlot ρ) (run : SoftRun) : s.TakenDown run (s.takeDown run) := by
  have down : (s.takeDown run).vp.up = false := (s.teardown_rest _).2.2
  have stopped (up : s.vp.up = true) : (s.takeDown run).vp.ret ≠ .opened := by
    have vp : (s.takeDown run).vp = s.vp.stop run.stop := s.teardown_vp _ up
    rw [vp, (s.vp.stop_ends run.stop up).2.1]
    exact OpenRet.noConfusion
  refine ⟨?_, fun m => ?_, (s.teardown_rest _).1, fun calm back => ⟨back, fun _ => ?_⟩, ?_, down,
    stopped⟩
  · unfold takeDown teardown
    dsimp only
    split <;> rfl
  · have rings := m.rings
    unfold takeDown teardown
    dsimp only
    split
    · rfl
    · next off =>
      rw [Bool.eq_false_iff.mpr off] at rings
      exact Option.isSome_eq_false_iff.mp rings |> Option.isNone_iff_eq_none.mp
  · by_cases up : s.vp.up = true
    · exact stopped up
    · have vp : (s.takeDown run).vp = s.vp := s.teardown_down _ up
      rw [vp]
      exact calm.closed (Bool.eq_false_iff.mpr up)
  · unfold takeDown teardown
    dsimp only
    split <;> rfl

theorem given_accepted (added : run.addNew.accepts = true) (k : QueueKind) :
    s.given v user cause run k = (if run.delQueues then 0 else s.devQueues k) +
      (v.cloned user cause).addQueuesAsk k := by
  unfold given
  rw [added]
  cases answer : run.addNew with
  | accepted => rfl
  | failed acted =>
      rw [answer] at added
      cases added

/-- The slot once the device has been asked for the queues of the clone. -/
structure Asked (s : XdpSlot ρ) (v : QueueVport) (user : UserConfig) (cause : SoftCause)
    (run : SoftRun) (u : XdpSlot ρ) : Prop where
  config : s.ring.use.config = some user
  vport : s.ring.use.vport = some v
  ring : u.ring = { s.ring with
    use := { s.ring.use with
      asked := [⟨s.ring.use.maxQ, (v.cloned user cause).addQueuesAsk⟩] }
    rings := u.ring.rings }
  rings : s.Matched → u.ring.rings = none
  prog : u.prog = s.prog
  calm : s.vp.Calm → u.vp.Calm
  devQueues : u.devQueues = if run.addNew.acted then
      fun k => (if run.delQueues then 0 else s.devQueues k) + (v.cloned user cause).addQueuesAsk k
    else fun k => if run.delQueues then 0 else s.devQueues k
  down : u.vp.up = false
  fresh : s.vp.up = true → u.vp.ret ≠ .opened ∧ u.vp.stuck = false

theorem Asked.cap (asked : s.Asked v user cause run u) : u.ring.cap = s.ring.cap := by
  rw [asked.ring]

theorem Asked.hsplit (asked : s.Asked v user cause run u) : u.ring.hsplit = s.ring.hsplit := by
  rw [asked.ring]

theorem Asked.accepted (asked : s.Asked v user cause run u) (added : run.addNew.accepts = true)
    (result : (let w := v.settled user cause run.avail
      let u := u.put user (some w)
      if !run.realNum then u.errOpen s.vp.up user w run.reopen .notSet
      else if s.vp.up then
        (u.reopen user w run.reopen).map fun o => (if o.1 then SoftRet.done else .notOpened, o.2)
      else some (.done, u)) = some (ret, t)) : s.SoftEnds v user cause run ret t := by
  have counted : counts v user cause run = v.settled user cause run.avail := if_pos added
  have device (k : QueueKind) : u.devQueues k = s.given v user cause run k := by
    rw [given_accepted added, asked.devQueues]
    cases answer : run.addNew with
    | accepted => rfl
    | failed acted =>
        rw [answer] at added
        cases added
  have same : (u.put user (some (v.settled user cause run.avail))).openRun user
      (v.settled user cause run.avail) run.reopen =
        s.openRun user (counts v user cause run) run.reopen := by
    rw [counted]
    exact openRun_congr asked.cap asked.hsplit
  have requests : s.asks v user cause run =
      [⟨s.ring.use.maxQ, (v.cloned user cause).addQueuesAsk⟩] := by
    unfold asks
    rw [if_pos added]
  have comes : s.comesUp v user cause run = s.reopens v user cause run := by
    unfold comesUp
    rw [added, Bool.true_or, Bool.true_and]
  dsimp only at result
  generalize slot : u.put user (some (v.settled user cause run.avail)) = y at result same
  have ring : y.ring = { s.ring with
      use := { s.ring.use with
        asked := s.asks v user cause run
        vport := some (counts v user cause run) }
      rings := y.ring.rings } := by
    rw [← slot, requests, counted]
    unfold put
    dsimp only
    rw [asked.ring, ← asked.config]
  have rings (m : s.Matched) : y.ring.rings = none := by
    rw [← slot]
    exact asked.rings m
  have prog : y.prog = s.prog := by rw [← slot, ← asked.prog]; rfl
  have vp : y.vp = u.vp := by rw [← slot]; rfl
  have calm (quiet : s.vp.Calm) : y.vp.Calm := by
    rw [vp]
    exact asked.calm quiet
  have queues : y.devQueues = u.devQueues := by rw [← slot]; rfl
  have down : y.vp.up = false := by rw [vp, asked.down]
  have fresh (up : s.vp.up = true) : y.vp.ret ≠ .opened ∧ y.vp.stuck = false := by
    rw [vp]
    exact asked.fresh up
  cases realNum : run.realNum with
  | false =>
      rw [realNum, Bool.not_false, if_pos rfl] at result
      obtain ⟨rfl, reopened⟩ := errOpen_ends down fresh result
      rw [same] at reopened
      refine ⟨?_, fun m => ?_, reopened.prog.trans prog, reopened.calm ∘ calm,
        fun k => ?_, ?_, iff_of_false SoftRet.noConfusion ?_⟩
      · refine reopened.ring.trans ?_
        rw [ring]
      · rw [reopened.rings (rings m), reopened.up, counted]
      · rw [reopened.devQueues, queues, device]
      · rw [reopened.up, comes]
        rfl
      · rintro ⟨-, set, -⟩
        rw [realNum] at set
        cases set
  | true =>
      rw [realNum, Bool.not_true, if_neg Bool.false_ne_true] at result
      split at result
      · next up =>
        obtain ⟨⟨b, z⟩, opened, eq⟩ := Option.map_eq_some_iff.mp result
        obtain ⟨rfl, rfl⟩ := Prod.mk.inj eq
        obtain ⟨ret, back⟩ := fresh up
        obtain ⟨ok, reopened⟩ := reopen_ends down ret back opened
        rw [same] at ok reopened
        refine ⟨?_, fun m => ?_, reopened.prog.trans prog, reopened.calm ∘ calm,
          fun k => ?_, ?_, ?_⟩
        · refine reopened.ring.trans ?_
          rw [ring]
        · rw [reopened.rings (rings m), reopened.up, counted]
        · rw [reopened.devQueues, queues, device]
        · rw [reopened.up, up, comes, Bool.true_and]
          rfl
        · dsimp only
          have ok : b = s.reopens v user cause run := ok
          rw [ok]
          cases works : s.reopens v user cause run with
          | true => exact iff_of_true rfl ⟨added, realNum, fun _ => rfl⟩
          | false => exact iff_of_false SoftRet.noConfusion fun all => nomatch all.2.2 up
      · next off =>
        obtain ⟨rfl, rfl⟩ := Prod.mk.inj (Option.some.inj result)
        refine ⟨ring, fun m => ?_, prog, calm, fun k => ?_, ?_, iff_of_true rfl
          ⟨added, realNum, fun up => absurd up off⟩⟩
        · rw [rings m, down]
          rfl
        · rw [queues, device]
        · rw [down, Bool.eq_false_iff.mpr off, Bool.false_and]

theorem Asked.refused (asked : s.Asked v user cause run u) (refused : run.addNew.accepts = false)
    (result : (u.request v run.addOld).errOpen (s.vp.up && run.addOld.accepts) user v run.reopen
      .notAdded = some (ret, t)) : s.SoftEnds v user cause run ret t := by
  have counted : counts v user cause run = v := if_neg (Bool.eq_false_iff.mp refused)
  have same : (u.request v run.addOld).openRun user v run.reopen =
      s.openRun user (counts v user cause run) run.reopen := by
    rw [counted]
    exact openRun_congr asked.cap asked.hsplit
  have ring : (u.request v run.addOld).ring = { s.ring with
      use := { s.ring.use with
        asked := s.asks v user cause run
        vport := some (counts v user cause run) }
      rings := u.ring.rings } := by
    unfold request asks
    dsimp only
    rw [asked.ring, refused, counted, ← asked.vport, if_neg Bool.false_ne_true]
    rfl
  have fresh (up : (s.vp.up && run.addOld.accepts) = true) :
      (u.request v run.addOld).vp.ret ≠ .opened ∧ (u.request v run.addOld).vp.stuck = false :=
    asked.fresh (Bool.and_eq_true_iff.mp up).1
  have down : (u.request v run.addOld).vp.up = false := asked.down
  obtain ⟨rfl, reopened⟩ := errOpen_ends down fresh result
  rw [same] at reopened
  refine ⟨?_, fun m => ?_, reopened.prog.trans asked.prog, fun calm => ?_,
    fun k => ?_, ?_, iff_of_false SoftRet.noConfusion ?_⟩
  · refine reopened.ring.trans ?_
    rw [ring]
  · rw [reopened.rings (asked.rings m), reopened.up, counted]
  · exact reopened.calm (asked.calm calm)
  · rw [reopened.devQueues]
    unfold given request
    dsimp only
    rw [asked.devQueues, refused, Bool.not_false, Bool.true_and]
    cases run.addNew.acted <;> cases run.addOld.acted <;> rfl
  · rw [reopened.up]
    unfold comesUp reopens
    rw [refused, Bool.false_or, Bool.and_assoc]
  · rintro ⟨added, -⟩
    rw [refused] at added
    cases added

/-- The rest of the reset, for a vport that has been taken down. -/
theorem rebuild_ends (taken : s.TakenDown run u) (back : u.vp.stuck = false)
    (quiet : s.ring.use.asked = [])
    (config : s.ring.use.config = some user) (vport : s.ring.use.vport = some v)
    (result : u.rebuild s.vp.up user v cause run = some (ret, t)) :
    s.SoftEnds v user cause run ret t := by
  have asked : s.Asked v user cause run
      ((if cause = .qChange then { u with rssLut := false } else u).request
        (v.cloned user cause) run.addNew) := by
    have ring : (if cause = .qChange then { u with rssLut := false } else u).ring = u.ring := by
      split <;> rfl
    have queues : (if cause = .qChange then { u with rssLut := false } else u).devQueues =
        u.devQueues := by
      split <;> rfl
    have vp : (if cause = .qChange then { u with rssLut := false } else u).vp = u.vp := by
      split <;> rfl
    unfold request
    constructor
    · exact config
    · exact vport
    · dsimp only
      rw [ring, taken.ring, quiet]
      rfl
    · exact fun m => (congrArg RingSlot.rings ring).trans (taken.rings m)
    · dsimp only
      rw [← taken.prog]
      split <;> rfl
    · dsimp only
      rw [vp]
      exact fun calm => taken.calm calm back
    · dsimp only
      rw [queues, taken.devQueues]
      cases run.addNew.acted <;> cases run.delQueues <;> rfl
    · dsimp only
      rw [vp, taken.down]
    · dsimp only
      rw [vp]
      exact fun up => ⟨taken.ret up, back⟩
  unfold rebuild at result
  cases added : run.addNew.accepts with
  | true =>
      rw [added] at result
      exact asked.accepted added result
  | false =>
      rw [added] at result
      exact asked.refused added result

theorem softReset_call (s : XdpSlot ρ) (config : s.ring.use.config = some user)
    (vport : s.ring.use.vport = some v) (cause : SoftCause) (run : SoftRun) :
    s.softReset cause run =
      if !run.mem then some (.noMem, s.unasked)
      else if cause = .none then some (.inval, s.unasked)
      else if (s.unasked.takeDown run).vp.stuck then none
      else if cause = .xdpChange && !run.pool then some (.notMapped, s.unasked.takeDown run)
      else (s.unasked.takeDown run).rebuild s.vp.up user v cause run := by
  have old : s.unasked.ring.use.config = some user ∧ s.unasked.ring.use.vport = some v :=
    ⟨config, vport⟩
  unfold softReset
  dsimp only
  rw [old.1, old.2]
  rfl

/-- A reset that comes to ask for queues, if it returns. -/
theorem softReset_ends (config : s.ring.use.config = some user) (vport : s.ring.use.vport = some v)
    (mem : run.mem = true) (known : cause ≠ .none)
    (mapped : ¬(cause = .xdpChange ∧ run.pool = false))
    (result : s.softReset cause run = some (ret, t)) : s.SoftEnds v user cause run ret t := by
  have unmapped : ¬(decide (cause = .xdpChange) && !run.pool) = true := by
    simpa using mapped
  rw [s.softReset_call config vport, mem, if_neg (Bool.not_true ▸ Bool.false_ne_true),
    if_neg known, if_neg unmapped] at result
  split at result
  · cases result
  · next returns =>
    have ends := rebuild_ends (takeDown_takenDown s.unasked run) (Bool.eq_false_iff.mpr returns)
      rfl config vport result
    exact ⟨ends.ring, fun m => ends.rings m.unasked, ends.prog, ends.calm, ends.device, ends.up,
      ends.done⟩

/-- What a reset that comes to ask for queues is in the model of the rings. -/
def softEnd (run : SoftRun) (ret : SoftRet) : SoftEnd :=
  if run.addNew.accepts then if ret = .done then .done else .late else .refused

theorem settled_ask (v : QueueVport) (user : UserConfig) (cause : SoftCause) (avail : Nat) :
    (v.settled user cause avail).addQueuesAsk = (v.cloned user cause).addQueuesAsk := by
  unfold QueueVport.settled
  dsimp only
  split
  · funext k
    cases k <;> simp only [QueueVport.addQueuesAsk, (QueueUse.allocVecIndexes_spec _ _ _).1]
  · rfl

theorem asks_reset (s : XdpSlot ρ) (v : QueueVport) (user : UserConfig) (cause : SoftCause)
    (run : SoftRun) (ret : SoftRet) (vport : s.ring.use.vport = some v) :
    { s.ring.use with
      asked := s.asks v user cause run
      vport := some (counts v user cause run) } =
    s.unasked.ring.use.reset v (v.settled user cause run.avail) (softEnd run ret) := by
  unfold asks counts softEnd unasked
  cases run.addNew.accepts with
  | true =>
      by_cases done : ret = .done
      · rw [if_pos rfl, if_pos done, if_pos rfl, if_pos rfl, ← settled_ask v user cause run.avail]
        rfl
      · rw [if_pos rfl, if_neg done, if_pos rfl, if_pos rfl, ← settled_ask v user cause run.avail]
        rfl
  | false =>
      rw [if_neg Bool.false_ne_true, if_neg Bool.false_ne_true, if_neg Bool.false_ne_true,
        ← settled_ask v user cause run.avail, ← vport]
      rfl

/-- A reset is a step of the model of the rings, but for one that cannot map a pool. -/
theorem SoftEnds.follow (ends : s.SoftEnds v user cause run ret t) (m : s.Matched)
    (vport : s.ring.use.vport = some v) : t.Matched ∧ t.ring = s.unasked.ring.follow
      (s.unasked.ring.use.reset v (v.settled user cause run.avail) (softEnd run ret))
      t.vp.up := by
  have rings := ends.rings m
  have up := ends.up
  refine ⟨⟨fun user' there => ?_, ?_⟩, ?_⟩
  · rw [ends.ring] at there
    rw [ends.prog]
    exact m.flag user' there
  · rw [rings]
    cases t.vp.up <;> rfl
  · rw [← s.asks_reset v user cause run ret vport]
    refine ends.ring.trans ?_
    have reopen : (s.ring.rings.isSome && t.vp.up) = t.vp.up := by
      rw [m.rings, up]
      cases s.vp.up <;> rfl
    unfold RingSlot.follow asks unasked
    dsimp only
    rw [reopen, rings]
    rfl

/-- A reset that leaves the counts alone is a step of the model of the rings, which stays in
agreement with the vport. -/
theorem softReset_step (m : s.Matched) (config : s.ring.use.config = some user)
    (vport : s.ring.use.vport = some v) (keeps : v.settled user cause run.avail = v)
    (mapped : ¬(cause = .xdpChange ∧ run.pool = false))
    (result : s.softReset cause run = some (ret, t)) :
    t.Matched ∧ ∃ end_, s.ring.step (.softReset end_ t.vp.up) = some t.ring := by
  have step (end_ : SoftEnd) (reopen : Bool) : s.ring.step (.softReset end_ reopen) =
      some (s.unasked.ring.follow (s.unasked.ring.use.reset v v end_) reopen) := by
    unfold RingSlot.step QueueUse.step QueueUse.stepFrom unasked
    dsimp only
    rw [config, vport]
    rfl
  have untouched (same : s.unasked = t) :
      t.Matched ∧ ∃ end_, s.ring.step (.softReset end_ t.vp.up) = some t.ring := by
    subst same
    exact ⟨m.unasked, .noMem, step .noMem _⟩
  cases mem : run.mem with
  | false =>
      rw [s.softReset_call config vport, mem] at result
      exact untouched (Prod.mk.inj (Option.some.inj result)).2
  | true =>
  by_cases known : cause = .none
  · rw [s.softReset_call config vport, mem, known] at result
    exact untouched (Prod.mk.inj (Option.some.inj result)).2
  · obtain ⟨matched, ring⟩ := (softReset_ends config vport mem known mapped result).follow m vport
    rw [keeps] at ring
    exact ⟨matched, softEnd run ret, by rw [step, ring]⟩

/-- What an error is to leave as it was. -/
structure Unchanged (s t : XdpSlot ρ) : Prop where
  vport : t.ring.use.vport = s.ring.use.vport
  device : t.devQueues = s.devQueues
  up : t.vp.up = s.vp.up

/-- A device that deletes queues when told to, and adds the queues that it says it has added. -/
structure Honest (run : SoftRun) : Prop where
  delQueues : run.delQueues = true
  addNew : run.addNew.acted = run.addNew.accepts
  addOld : run.addOld.acted = run.addOld.accepts

/-- The step that fails can be undone, or none does: the device gives out queues, a vport that was
up comes up with them, and the vport has counts other than its own only if nothing fails later. -/
structure RollsBack (s : XdpSlot ρ) (v : QueueVport) (user : UserConfig) (cause : SoftCause)
    (run : SoftRun) : Prop where
  mapped : ¬(cause = .xdpChange ∧ run.pool = false)
  added : (run.addNew.accepts || run.addOld.accepts) = true
  reopens : s.vp.up = true → s.reopens v user cause run = true
  own : run.addNew.accepts = true → run.realNum = false → v.settled user cause run.avail = v

theorem given_honest (honest : Honest run) (k : QueueKind) : s.given v user cause run k =
    if run.addNew.accepts then (v.cloned user cause).addQueuesAsk k
    else if run.addOld.accepts then v.addQueuesAsk k else 0 := by
  unfold given
  rw [honest.delQueues, honest.addNew, honest.addOld]
  cases run.addNew.accepts with
  | true => exact (Nat.add_zero _).trans (Nat.zero_add _)
  | false =>
      cases run.addOld.accepts with
      | true => exact Nat.zero_add _
      | false => rfl

/-- Where the request for queues comes, it is as it was exactly if the failure can be undone. -/
theorem SoftEnds.unchanged_iff (ends : s.SoftEnds v user cause run ret t) (honest : Honest run)
    (vport : s.ring.use.vport = some v) (device : s.devQueues = v.addQueuesAsk)
    (some_ : v.addQueuesAsk ≠ fun _ => 0) (mapped : ¬(cause = .xdpChange ∧ run.pool = false)) :
    (ret ≠ .done → s.Unchanged t) ↔ s.RollsBack v user cause run := by
  have given := ends.device
  simp only [given_honest honest] at given
  have up := ends.up
  have isDone := ends.done
  have after := congrArg (fun g => g.use.vport) ends.ring
  unfold counts at after
  constructor
  · intro same
    by_cases fine : ret = .done
    · obtain ⟨added, realNum, works⟩ := isDone.mp fine
      refine ⟨mapped, by rw [added, Bool.true_or], works, fun _ unset => ?_⟩
      rw [realNum] at unset
      cases unset
    · obtain ⟨counts, queues, still⟩ := same fine
      rw [after, vport, Option.some.injEq] at counts
      rw [up] at still
      have added : (run.addNew.accepts || run.addOld.accepts) = true := by
        by_contra neither
        obtain ⟨new, old⟩ := Bool.or_eq_false_iff.mp (Bool.not_eq_true _ ▸ neither)
        refine some_ (funext fun k => ?_)
        have none := given k
        rwa [queues, device, new, old] at none
      refine ⟨mapped, added, fun isUp => ?_, fun accepted _ => ?_⟩
      · unfold comesUp at still
        rwa [isUp, added, Bool.true_and, Bool.true_and] at still
      · rwa [if_pos accepted] at counts
  · intro back fine
    have own : (if run.addNew.accepts then v.settled user cause run.avail else v) = v := by
      split
      · next added =>
        refine back.own added (Bool.eq_false_iff.mpr fun set => fine (isDone.mpr ?_))
        exact ⟨added, set, back.reopens⟩
      · rfl
    refine ⟨after.trans ((congrArg some own).trans vport.symm), funext fun k => ?_, ?_⟩
    · rw [given k, device]
      cases added : run.addNew.accepts with
      | true =>
          rw [added, if_pos rfl] at own
          rw [if_pos rfl, ← settled_ask v user cause run.avail, own]
      | false =>
          have readded := back.added
          rw [added, Bool.false_or] at readded
          rw [if_neg Bool.false_ne_true, if_pos readded]
    · rw [up]
      unfold comesUp
      rw [back.added, Bool.true_and]
      cases isUp : s.vp.up with
      | true => exact (Bool.true_and _).trans (back.reopens isUp)
      | false => rfl

end XdpSlot

/-- A reset that returns an error leaves the counts, the queues of the device and whether the vport
is up as they were exactly if it fails before anything is taken apart, or what has been taken apart can
be put back. -/
theorem softReset_atomic_iff {ρ : Type*} {s t : XdpSlot ρ} {v : QueueVport} {user : UserConfig}
    {cause : SoftCause} {run : SoftRun} {ret : SoftRet}
    (config : s.ring.use.config = some user) (vport : s.ring.use.vport = some v)
    (device : s.devQueues = v.addQueuesAsk) (some_ : v.addQueuesAsk ≠ fun _ => 0)
    (honest : XdpSlot.Honest run) (result : s.softReset cause run = some (ret, t)) :
    (ret ≠ .done → s.Unchanged t) ↔
      run.mem = false ∨ cause = .none ∨ s.RollsBack v user cause run := by
  have call := s.softReset_call config vport cause run
  cases mem : run.mem with
  | false =>
      rw [call, mem] at result
      obtain ⟨rfl, rfl⟩ := Prod.mk.inj (Option.some.inj result)
      exact iff_of_true (fun _ => ⟨rfl, rfl, rfl⟩) (.inl rfl)
  | true =>
  by_cases known : cause = .none
  · rw [call, mem, known] at result
    obtain ⟨rfl, rfl⟩ := Prod.mk.inj (Option.some.inj result)
    exact iff_of_true (fun _ => ⟨rfl, rfl, rfl⟩) (.inr (.inl known))
  have reduce : (true = false ∨ cause = .none ∨ s.RollsBack v user cause run) ↔
      s.RollsBack v user cause run :=
    ⟨fun h => (h.resolve_left Bool.noConfusion).resolve_left known, fun h => .inr (.inr h)⟩
  rw [reduce]
  by_cases unmapped : cause = .xdpChange ∧ run.pool = false
  · obtain ⟨rfl, pool⟩ := unmapped
    rw [call, mem, pool] at result
    refine iff_of_false (fun same => ?_) fun back => back.mapped ⟨rfl, pool⟩
    have taken := s.unasked.takeDown_takenDown run
    by_cases stuck : (s.unasked.takeDown run).vp.stuck = true
    · rw [stuck] at result
      cases result
    · rw [Bool.eq_false_iff.mpr stuck] at result
      obtain ⟨rfl, rfl⟩ := Prod.mk.inj (Option.some.inj result)
      have queues := (same SoftRet.noConfusion).device
      rw [taken.devQueues, honest.delQueues, if_pos rfl, device] at queues
      exact some_ queues.symm
  · exact (XdpSlot.softReset_ends config vport mem known unmapped result).unchanged_iff honest
      vport device some_ unmapped

/-- A run in which the device does as it is told. -/
def SoftRun.with (pool : Bool) (addNew : MsgEnd) (realNum : Bool) : SoftRun where
  mem := true
  delQueues := true
  stop := ⟨false, ⟨true, true, ⟨none, true⟩⟩, ⟨none, true⟩⟩
  pool := pool
  addNew := addNew
  addOld := .accepted
  avail := 4
  realNum := realNum
  reopen := smoothRun

/-- The device refuses the queues of a vport that is up, which gets back its own; and a pool that
cannot be mapped leaves such a vport without queues. -/
theorem softReset_atomic_iff_refused :
    (∃ t, (progVport none upVport).softReset .rscChange (.with true (.failed false) true) =
        some (.notAdded, t) ∧ t.vp.up = true ∧ (progVport none upVport).Unchanged t) ∧
    ∃ t, (progVport none upVport).softReset .xdpChange (.with false .accepted true) =
        some (.notMapped, t) ∧ t.vp.up = false ∧ ¬(progVport none upVport).Unchanged t := by
  obtain ⟨user, config⟩ : ∃ user, (progVport none upVport).ring.use.config = some user := ⟨_, rfl⟩
  obtain ⟨v, vport⟩ : ∃ v, (progVport none upVport).ring.use.vport = some v := ⟨_, rfl⟩
  have device : (progVport none upVport).devQueues = v.addQueuesAsk := by
    obtain rfl := Option.some.inj vport
    funext k
    cases k <;> decide +kernel
  have some_ : v.addQueuesAsk ≠ fun _ => 0 := by
    rw [← device]
    exact fun none => absurd (congrFun none .tx) (by decide +kernel)
  have isUp : (progVport none upVport).vp.up = true := by decide +kernel
  constructor
  · have run : ((progVport none upVport).softReset .rscChange
        (.with true (.failed false) true)).map (fun r => (r.1, r.2.vp.up)) =
          some (.notAdded, true) := by decide +kernel
    obtain ⟨⟨ret, t⟩, result, seen⟩ := Option.map_eq_some_iff.mp run
    obtain ⟨rfl, up⟩ := Prod.mk.inj seen
    refine ⟨t, result, up, (softReset_atomic_iff config vport device some_ ⟨rfl, rfl, rfl⟩
      result).mpr (.inr (.inr ⟨nofun, rfl, fun _ => ?_, nofun⟩)) SoftRet.noConfusion⟩
    obtain rfl := Option.some.inj config
    obtain rfl := Option.some.inj vport
    decide +kernel
  · have run : ((progVport none upVport).softReset .xdpChange (.with false .accepted true)).map
        (fun r => (r.1, r.2.vp.up)) = some (.notMapped, false) := by decide +kernel
    obtain ⟨⟨ret, t⟩, result, seen⟩ := Option.map_eq_some_iff.mp run
    obtain ⟨rfl, down⟩ := Prod.mk.inj seen
    refine ⟨t, result, down, fun same => ?_⟩
    have back := (softReset_atomic_iff config vport device some_ ⟨rfl, rfl, rfl⟩ result).mp
      fun _ => same
    obtain unread | none | rolls := back
    · cases unread
    · cases none
    · exact rolls.mapped ⟨rfl, rfl⟩

end Idpf
