import Idpf.Vport.OpenEnds
import Idpf.Vport.RingSizes
import Idpf.Vport.Unwind

/-! Attaching and detaching an XDP program: what has been taken apart by the time a step fails. -/
namespace Idpf
open General

/-- IDPF_XDP_MAX_MTU -/
def xdpMaxMtu : Nat := 3046

/-- What `idpf_xdp_setup_prog` returns: 0, or the step that fails. -/
inductive XdpRet where
  | done
  | opNotSupp
  | busy
  | noMem
  | notAdded
  | notOpened
  deriving DecidableEq, Repr

/-- How the steps go: whether the device acts on DEL_QUEUES, the stop of a vport that is up, the end
of ADD_QUEUES, the free vectors, and how the vport is opened again. The allocation that fails is the
one in `reopen`, for a vport that is down too. -/
structure XdpRun where
  delQueues : Bool
  stop : StopRun
  addQueues : MsgEnd
  avail : Nat
  reopen : OpenRun

/-- A vport slot with its program: the references that are held, `xdp_prog` of the Rx queues that
there are, the queues that the device has given out, and whether there is a table for RSS. -/
structure XdpSlot (ρ : Type*) where
  ring : RingSlot
  prog : Option ρ
  refs : ρ → Nat
  rxqProgs : List (Option ρ)
  devQueues : QueueKind → Nat
  rssLut : Bool
  mtu : Nat
  resetInProg : Bool
  vp : OpenVport

/-- The sizes of the queues and vectors that a vport is opened with. -/
def QueueVport.sizes (v : QueueVport) (hsplitEn : Bool) (r : OpenRun) : VportSizes where
  numQVectors := v.numQVectors
  numTxqGrp := v.rsrc.numTxqGrp
  numTxq := if v.rsrc.txSplit then 1 else v.rsrc.numTxq
  numRxqGrp := v.rsrc.numRxqGrp
  numRxq := if v.rsrc.rxSplit then 1 else v.rsrc.numRxq
  numBufqsPerQgrp := v.rsrc.numBufqsPerQgrp
  txqSplit := v.rsrc.txSplit
  rxqSplit := v.rsrc.rxSplit
  flowSchEn := r.rsrc.flowSchEn
  hsplitEn := hsplitEn
  zeroCopy := r.rsrc.zeroCopy

/-- `idpf_vport_adjust_qs` and `idpf_vport_calc_num_q_desc` -/
def QueueVport.relaid (v : QueueVport) (user : UserConfig) : QueueVport :=
  let v := v.adjustQs user
  { v with rsrc := v.rsrc.calcNumQDesc user }

namespace XdpSlot

variable {ρ : Type*}

def mtuTooLarge (s : XdpSlot ρ) : Bool :=
  s.ring.use.vport.any fun v =>
    decide (xdpMaxMtu < s.mtu) || decide (v.rsrc.bufqSize.headD 0 < s.mtu)

/-- `xchg` of the program, and `bpf_prog_put` of the old one. -/
def swapProg [DecidableEq ρ] (s : XdpSlot ρ) (prog : Option ρ) : XdpSlot ρ :=
  { s with
    prog := prog
    refs := match s.prog with
      | none => s.refs
      | some old => Function.update s.refs old (s.refs old - 1) }

/-- The vport and the config that the slot has from now on. -/
def put (s : XdpSlot ρ) (user : UserConfig) (vport : Option QueueVport) : XdpSlot ρ :=
  { s with ring := { s.ring with use := { s.ring.use with
      config := some user
      vport := vport } } }

def unasked (s : XdpSlot ρ) : XdpSlot ρ :=
  { s with ring := { s.ring with use := { s.ring.use with asked := [] } } }

/-- `idpf_copy_xdp_prog_to_qs` -/
def copyProgToQs (s : XdpSlot ρ) (prog : Option ρ) : XdpSlot ρ :=
  { s with rxqProgs := s.rxqProgs.map fun _ => prog }

/-- DEL_QUEUES, for a vport that is up with the stop. -/
def teardown (s : XdpSlot ρ) (run : XdpRun) : XdpSlot ρ :=
  let s := { s with devQueues := if run.delQueues then fun _ => 0 else s.devQueues }
  if s.vp.up then
    { s with
      vp := s.vp.stop run.stop
      rxqProgs := []
      ring := { s.ring with rings := none } }
  else s

/-- From `idpf_deinit_rss` to `idpf_vport_calc_num_q_desc`. -/
def switchProg [DecidableEq ρ] (s : XdpSlot ρ) (user : UserConfig) (v : QueueVport)
    (prog : Option ρ) : XdpSlot ρ :=
  let s := { s with
    rssLut := false
    ring := { s.ring with hsplit := s.ring.xdpHsplit v.rsrc prog.isSome } }
  let user := { user with xdpProg := prog.isSome }
  (s.swapProg prog).put user (some (v.relaid user))

/-- `idpf_send_add_queues_msg`, with whether it returns 0. -/
def addQueues (s : XdpSlot ρ) (v : QueueVport) (run : XdpRun) : Bool × XdpSlot ρ :=
  let given := fun k => s.devQueues k + v.addQueuesAsk k
  let s := { s with ring := { s.ring with use := { s.ring.use with
    asked := [⟨s.ring.use.maxQ, v.addQueuesAsk⟩] } } }
  match run.addQueues with
  | .accepted => (true, { s with devQueues := given })
  | .failed acted => (false, { s with devQueues := if acted then given else s.devQueues })

/-- The sizes that a vport of the slot is opened with. -/
def sizes (s : XdpSlot ρ) (v : QueueVport) (run : XdpRun) : VportSizes :=
  v.sizes (s.ring.getHsplit v.rsrc = .enabled) run.reopen

def hold (s : XdpSlot ρ) (held : List VportPtr) : XdpSlot ρ :=
  { s with vp := { s.vp with held := held } }

/-- The rest for a vport that is down. A failure that the release functions do not survive ends the
call. -/
def rebuildDown (s : XdpSlot ρ) (user : UserConfig) (v : QueueVport) (run : XdpRun) :
    Option (XdpRet × XdpSlot ρ) :=
  let c := s.sizes v run
  if run.reopen.fail.any c.traps then none
  else
    let queues := c.queueAllocAll run.reopen.fail s.vp.held
    let s := s.hold queues.1
    if !queues.2 then some (.noMem, s)
    else
      let added := s.addQueues v run
      let s := added.2.hold (c.queuesRel false added.2.vp.held)
      if !added.1 then some (.notAdded, s)
      else some (.done, s.put user (some (v.allocVecIndexes user.xdpProg run.avail)))

/-- What `idpf_vport_open` makes of the slot. It gives the program to the Rx queues up to the one at
which `idpf_vport_xdp_init` gives up. -/
def opened (s : XdpSlot ρ) (v : QueueVport) (vp : OpenVport) : XdpSlot ρ :=
  { s with
    vp := vp
    rssLut := vp.up
    rxqProgs := if vp.up then (List.range vp.rsrc.numRxqs).map fun i =>
      if i ≤ vp.xdpReady then s.prog else none else []
    ring := { s.ring with rings := if vp.up then some v.rsrc.rings else none } }

def rebuildUp (s : XdpSlot ρ) (user : UserConfig) (v : QueueVport) (run : XdpRun) :
    Option (XdpRet × XdpSlot ρ) :=
  let added := s.addQueues v run
  let s := added.2
  if !added.1 then some (.notAdded, s)
  else
    let v := v.allocVecIndexes user.xdpProg run.avail
    let s := s.put user (some v)
    let vp := s.vp.openVport { run.reopen with
      rsrc := s.sizes v run
      xdpProg := user.xdpProg }
    if vp.stuck then none
    else some (if vp.ret = .opened then .done else .notOpened, s.opened v vp)

/-- The part of `idpf_xdp_setup_prog` that takes the vport apart and builds it again. -/
def reconfigure [DecidableEq ρ] (s : XdpSlot ρ) (user : UserConfig) (v : QueueVport)
    (prog : Option ρ) (run : XdpRun) : Option (XdpRet × XdpSlot ρ) :=
  let t := s.teardown run
  if t.vp.stuck then none
  else
    let t := t.switchProg user v prog
    let user := { user with xdpProg := prog.isSome }
    if s.vp.up then t.rebuildUp user (v.relaid user) run
    else t.rebuildDown user (v.relaid user) run

/-- `idpf_xdp_setup_prog`; there is no result where it does not return. -/
def setupProg [DecidableEq ρ] (s : XdpSlot ρ) (prog : Option ρ) (run : XdpRun) :
    Option (XdpRet × XdpSlot ρ) :=
  if s.mtuTooLarge then some (.opNotSupp, s)
  else if prog.isSome && s.resetInProg then some (.busy, s)
  else
    let s := s.unasked
    match s.ring.use.config, s.ring.use.vport with
    | none, _ => none
    | some user, none =>
      some (.done, (s.swapProg prog).put { user with xdpProg := prog.isSome } none)
    | some user, some v =>
      if s.prog.isSome = prog.isSome then
        let s := if s.vp.up then s.copyProgToQs prog else s
        some (.done, (s.swapProg prog).put { user with xdpProg := prog.isSome } (some v))
      else s.reconfigure user v prog run

/-- What an error has to leave as it was, and that it adds no use of the new program. -/
structure Undisturbed (s : XdpSlot ρ) (wanted : Option ρ) (t : XdpSlot ρ) : Prop where
  prog : t.prog = s.prog
  hsplit : t.ring.hsplit = s.ring.hsplit
  counts : t.ring.use.vport = s.ring.use.vport
  device : t.devQueues = s.devQueues
  up : t.vp.up = s.vp.up
  old : ∀ p, s.prog = some p → t.refs p = s.refs p
  new : ∀ p, wanted = some p → t.prog = some p ∨ some p ∈ t.rxqProgs →
    s.prog = some p ∨ some p ∈ s.rxqProgs

/-- The call returns, and if it is with an error it has changed nothing. -/
def Atomic [DecidableEq ρ] (s : XdpSlot ρ) (prog : Option ρ) (run : XdpRun) : Prop :=
  ∃ ret t, s.setupProg prog run = some (ret, t) ∧ (ret ≠ .done → s.Undisturbed prog t)

def newSizes (s : XdpSlot ρ) (user : UserConfig) (v : QueueVport) (prog : Option ρ)
    (run : XdpRun) : VportSizes :=
  let ring := { s.ring with hsplit := s.ring.xdpHsplit v.rsrc prog.isSome }
  let v := v.relaid { user with xdpProg := prog.isSome }
  let v := if s.vp.up then v.allocVecIndexes prog.isSome run.avail else v
  v.sizes (ring.getHsplit v.rsrc = .enabled) run.reopen

/-- No step fails once the vport has been taken apart: the device adds the queues, and there is the
memory for them; for a vport that is up, the stop finds its NAPI instances enabled and nothing
fails when it is opened again. -/
def completes (s : XdpSlot ρ) (user : UserConfig) (v : QueueVport) (prog : Option ρ)
    (run : XdpRun) : Bool :=
  let c := s.newSizes user v prog run
  !s.vp.stuck && (run.addQueues.accepts &&
    if s.vp.up then
      ((List.range s.vp.rsrc.numQVectors).all fun v => s.vp.napi v = .enabled) &&
        { run.reopen with
          rsrc := c
          xdpProg := prog.isSome }.succeeds
    else VportSizes.spared run.reopen.fail c.queueAllocs)

/-- When a call leaves nothing half done: it is refused at once, there is a program before and after
or neither, or no later step fails. -/
def safe (s : XdpSlot ρ) (prog : Option ρ) (run : XdpRun) : Bool :=
  s.mtuTooLarge || (prog.isSome && s.resetInProg) ||
    match s.ring.use.config, s.ring.use.vport with
    | none, _ => false
    | some _, none => true
    | some user, some v => s.prog.isSome == prog.isSome || s.completes user v prog run

/-- The parts of a slot that the steps after the swap leave alone, as long as the vport stays
down. -/
structure Alike (s t : XdpSlot ρ) : Prop where
  prog : t.prog = s.prog
  refs : t.refs = s.refs
  hsplit : t.ring.hsplit = s.ring.hsplit
  up : t.vp.up = s.vp.up
  rssLut : t.rssLut = s.rssLut

def Outcome (ok : Bool) (s : XdpSlot ρ) (r : Option (XdpRet × XdpSlot ρ)) : Prop :=
  if ok then ∃ t, r = some (.done, t) else ∀ ret t, r = some (ret, t) → ret ≠ .done ∧ s.Alike t

variable {s t : XdpSlot ρ} {prog : Option ρ} {run : XdpRun} {user : UserConfig} {v : QueueVport}

theorem addQueues_eq (s : XdpSlot ρ) (v : QueueVport) (run : XdpRun) :
    ∃ given, s.addQueues v run = (run.addQueues.accepts, { s with
      devQueues := given
      ring := { s.ring with use := { s.ring.use with
        asked := [⟨s.ring.use.maxQ, v.addQueuesAsk⟩] } } }) := by
  unfold addQueues
  cases run.addQueues with
  | accepted => exact ⟨_, rfl⟩
  | failed acted => exact ⟨_, rfl⟩

theorem addQueues_alike (s : XdpSlot ρ) (v : QueueVport) (run : XdpRun) :
    s.Alike (s.addQueues v run).2 := by
  obtain ⟨given, after⟩ := s.addQueues_eq v run
  rw [after]
  exact ⟨rfl, rfl, rfl, rfl, rfl⟩

theorem rebuildDown_outcome :
    Outcome (run.addQueues.accepts &&
        VportSizes.spared run.reopen.fail (s.sizes v run).queueAllocs) s
      (s.rebuildDown user v run) := by
  unfold rebuildDown
  dsimp only
  cases memory : VportSizes.spared run.reopen.fail (s.sizes v run).queueAllocs with
  | false =>
      rw [Bool.and_false]
      intro ret t result
      split at result
      · cases result
      · rw [VportSizes.queueAllocAll_snd, memory] at result
        obtain ⟨rfl, rfl⟩ := Prod.mk.inj (Option.some.inj result)
        exact ⟨XdpRet.noConfusion, rfl, rfl, rfl, rfl, rfl⟩
  | true =>
      rw [VportSizes.traps_spared memory, if_neg Bool.false_ne_true,
        VportSizes.queueAllocAll_snd, memory, if_neg (Bool.not_true ▸ Bool.false_ne_true),
        Bool.and_true]
      obtain ⟨given, after⟩ := (s.hold ((s.sizes v run).queueAllocAll run.reopen.fail
        s.vp.held).1).addQueues_eq v run
      rw [after]
      cases run.addQueues.accepts with
      | true => exact ⟨_, rfl⟩
      | false =>
          intro ret t result
          obtain ⟨rfl, rfl⟩ := Prod.mk.inj (Option.some.inj result)
          exact ⟨XdpRet.noConfusion, rfl, rfl, rfl, rfl, rfl⟩

theorem rebuildUp_outcome (user : UserConfig) (v : QueueVport) (run : XdpRun)
    (down : s.vp.up = false) (ret : s.vp.ret ≠ .opened) (back : s.vp.stuck = false)
    (rss : s.rssLut = false) :
    Outcome (run.addQueues.accepts && { run.reopen with
        rsrc := s.sizes (v.allocVecIndexes user.xdpProg run.avail) run
        xdpProg := user.xdpProg }.succeeds) s (s.rebuildUp user v run) := by
  unfold rebuildUp
  dsimp only
  obtain ⟨given, after⟩ := s.addQueues_eq v run
  rw [after]
  cases run.addQueues.accepts with
  | false =>
      intro ret t result
      obtain ⟨rfl, rfl⟩ := Prod.mk.inj (Option.some.inj result)
      exact ⟨XdpRet.noConfusion, rfl, rfl, rfl, rfl, rfl⟩
  | true =>
  rw [if_neg (Bool.not_true ▸ Bool.false_ne_true), Bool.true_and]
  dsimp only
  generalize v.allocVecIndexes user.xdpProg run.avail = w
  generalize put : { s with
    devQueues := given
    ring := { s.ring with use := { s.ring.use with
      asked := [⟨s.ring.use.maxQ, v.addQueuesAsk⟩] } } }.put user (some w) = u
  have uvp : u.vp = s.vp := put ▸ rfl
  have usizes : u.sizes w run = s.sizes w run := put ▸ rfl
  have uAlike : s.Alike u := put ▸ ⟨rfl, rfl, rfl, rfl, rfl⟩
  rw [uvp, usizes]
  generalize ({ run.reopen with
    rsrc := s.sizes w run
    xdpProg := user.xdpProg } : OpenRun) = e
  have ends := s.vp.openVport_ends e down ret back
  generalize s.vp.openVport e = after at ends ⊢
  cases ok : e.succeeds with
  | true =>
      rw [ok] at ends
      obtain ⟨opened, -, returns⟩ := ends
      rw [if_neg (returns ▸ Bool.false_ne_true), if_pos opened]
      exact ⟨_, rfl⟩
  | false =>
      rw [ok] at ends
      intro r t result
      obtain ⟨closed, off⟩ := ends
      split at result
      · cases result
      · obtain ⟨rfl, rfl⟩ := Prod.mk.inj (Option.some.inj result)
        exact ⟨XdpRet.noConfusion, uAlike.prog, uAlike.refs, uAlike.hsplit, off.trans down.symm,
          off.trans rss.symm⟩

theorem teardown_vp (s : XdpSlot ρ) (run : XdpRun) (up : s.vp.up = true) :
    (s.teardown run).vp = s.vp.stop run.stop := by
  unfold teardown
  exact (congrArg XdpSlot.vp (if_pos up)).trans rfl

theorem teardown_down (s : XdpSlot ρ) (run : XdpRun) (down : ¬ s.vp.up = true) :
    (s.teardown run).vp = s.vp := by
  unfold teardown
  exact (congrArg XdpSlot.vp (if_neg down)).trans rfl

theorem teardown_ring (s : XdpSlot ρ) (run : XdpRun) :
    (s.teardown run).ring.cap = s.ring.cap ∧
    (s.teardown run).ring.hsplit = s.ring.hsplit := by
  unfold teardown
  dsimp only
  split
  · exact ⟨rfl, rfl⟩
  · exact ⟨rfl, rfl⟩

theorem teardown_rest (s : XdpSlot ρ) (run : XdpRun) :
    (s.teardown run).prog = s.prog ∧ (s.teardown run).refs = s.refs ∧
    (s.teardown run).vp.up = false := by
  unfold teardown
  dsimp only
  split
  · next up => exact ⟨rfl, rfl, (s.vp.stop_ends run.stop up).1⟩
  · next down => exact ⟨rfl, rfl, Bool.eq_false_iff.mpr down⟩

theorem undisturbed_refl : s.Undisturbed prog s :=
  ⟨rfl, rfl, rfl, rfl, rfl, fun _ _ => rfl, fun _ _ used => used⟩

theorem outcome_none : Outcome false s none := fun _ _ result => nomatch result

variable [DecidableEq ρ]

theorem switched_sizes (s : XdpSlot ρ) (user : UserConfig) (v : QueueVport) (prog : Option ρ)
    (run : XdpRun) (w : QueueVport) :
    ((s.teardown run).switchProg user v prog).sizes w run = w.sizes
      ({ s.ring with hsplit := s.ring.xdpHsplit v.rsrc prog.isSome }.getHsplit w.rsrc = .enabled)
      run.reopen := by
  obtain ⟨cap, hsplit⟩ := s.teardown_ring run
  have same : (s.teardown run).ring.xdpHsplit v.rsrc prog.isSome =
      s.ring.xdpHsplit v.rsrc prog.isSome := by
    unfold RingSlot.xdpHsplit RingSlot.setHsplit RingSlot.splits
    rw [cap, hsplit]
  have flag : ((s.teardown run).switchProg user v prog).ring.hsplit =
      s.ring.xdpHsplit v.rsrc prog.isSome := same
  have device : ((s.teardown run).switchProg user v prog).ring.cap = s.ring.cap := cap
  unfold XdpSlot.sizes RingSlot.getHsplit RingSlot.splits
  rw [flag, device]

/-- Which of the two ways the vport goes, it ends as it should. -/
theorem reconfigure_outcome (s : XdpSlot ρ) (user : UserConfig) (v : QueueVport)
    (prog : Option ρ) (run : XdpRun) :
    Outcome (s.completes user v prog run) ((s.teardown run).switchProg user v prog)
      (s.reconfigure user v prog run) := by
  have sizes := s.switched_sizes user v prog run
  unfold reconfigure completes newSizes
  dsimp only
  split
  next up =>
    obtain ⟨down, ret, stuck⟩ := s.vp.stop_ends run.stop up
    have vp := s.teardown_vp run up
    have returns : (!s.vp.stuck && (List.range s.vp.rsrc.numQVectors).all fun v =>
        s.vp.napi v = .enabled) = !(s.vp.stop run.stop).stuck := by
      rw [stuck, Bool.not_or, List.not_any_eq_all_not]
      simp
    rw [vp, ← sizes, Bool.and_left_comm run.addQueues.accepts, ← Bool.and_assoc, returns]
    cases waits : (s.vp.stop run.stop).stuck with
    | true => exact outcome_none
    | false =>
        rw [Bool.not_false, Bool.true_and, if_neg Bool.false_ne_true]
        have after : ((s.teardown run).switchProg user v prog).vp = s.vp.stop run.stop := vp
        rw [← after] at down ret waits
        exact rebuildUp_outcome { user with xdpProg := prog.isSome }
          (v.relaid { user with xdpProg := prog.isSome }) run down
          (ret.trans_ne OpenRet.noConfusion) waits rfl
  next down =>
    rw [s.teardown_down run down, ← sizes]
    cases s.vp.stuck with
    | true => exact outcome_none
    | false => exact rebuildDown_outcome

/-- The slot after a call that failed later on: the program is there all the same, the old one has
lost its reference, header split is as for the new one, and the vport is down without RSS. -/
structure HalfDone (s : XdpSlot ρ) (v : QueueVport) (wanted : Option ρ) (t : XdpSlot ρ) :
    Prop where
  prog : t.prog = wanted
  refs : ∀ p, t.refs p = if s.prog = some p then s.refs p - 1 else s.refs p
  hsplit : t.ring.hsplit = s.ring.xdpHsplit v.rsrc wanted.isSome
  down : t.vp.up = false
  rss : t.rssLut = false

theorem swapProg_refs (s : XdpSlot ρ) (prog : Option ρ) (p : ρ) :
    (s.swapProg prog).refs p = if s.prog = some p then s.refs p - 1 else s.refs p := by
  unfold swapProg
  cases s.prog with
  | none => rfl
  | some old =>
      change Function.update s.refs old (s.refs old - 1) p = _
      rw [Function.update_apply]
      by_cases same : p = old
      · rw [if_pos same, if_pos (congrArg some same.symm), same]
      · rw [if_neg same, if_neg fun there => same (Option.some.inj there).symm]

theorem halfDone_of_alike (alike : Alike ((s.teardown run).switchProg user v prog) t) :
    s.HalfDone v prog t := by
  obtain ⟨same, refs, down⟩ := s.teardown_rest run
  obtain ⟨cap, hsplit⟩ := s.teardown_ring run
  constructor
  · exact alike.prog
  · intro p
    rw [alike.refs]
    have swapped := (s.teardown run).swapProg_refs prog p
    rw [same, refs] at swapped
    exact swapped
  · rw [alike.hsplit]
    change (s.teardown run).ring.xdpHsplit v.rsrc prog.isSome = _
    unfold RingSlot.xdpHsplit RingSlot.setHsplit RingSlot.splits
    rw [cap, hsplit]
  · exact alike.up.trans down
  · exact alike.rssLut

/-- A call that takes the vport apart succeeds where no later step fails, and otherwise leaves it
half done, if it returns at all. -/
theorem setupProg_ends (run : XdpRun) (config : s.ring.use.config = some user)
    (vport : s.ring.use.vport = some v) (fits : s.mtuTooLarge = false)
    (free : (prog.isSome && s.resetInProg) = false) (changes : s.prog.isSome ≠ prog.isSome) :
    (s.completes user v prog run = true → ∃ t, s.setupProg prog run = some (.done, t)) ∧
      (s.completes user v prog run = false → ∀ ret t, s.setupProg prog run = some (ret, t) →
        ret ≠ .done ∧ s.HalfDone v prog t) := by
  have call : s.setupProg prog run = s.unasked.reconfigure user v prog run := by
    unfold setupProg unasked
    rw [fits, free, if_neg Bool.false_ne_true, if_neg Bool.false_ne_true]
    dsimp only
    rw [config, vport]
    exact if_neg changes
  have outcome := s.unasked.reconfigure_outcome user v prog run
  have same : s.unasked.completes user v prog run = s.completes user v prog run := rfl
  rw [call]
  rw [same] at outcome
  refine ⟨fun fine => ?_, fun failing ret t result => ?_⟩
  · rw [fine] at outcome
    exact outcome
  · rw [failing] at outcome
    obtain ⟨error, alike⟩ := outcome ret t result
    have half := halfDone_of_alike alike
    exact ⟨error, half.prog, half.refs, half.hsplit, half.down, half.rss⟩

end XdpSlot

/-- A call is atomic exactly if it is refused at once, the vport need not be configured anew, or no
step fails after the vport was taken apart. -/
theorem setupProg_atomic_iff {ρ : Type*} [DecidableEq ρ] (s : XdpSlot ρ) (prog : Option ρ)
    (run : XdpRun) : s.Atomic prog run ↔ s.safe prog run = true := by
  unfold XdpSlot.Atomic XdpSlot.safe
  cases large : s.mtuTooLarge with
  | true =>
      refine iff_of_true ⟨.opNotSupp, s, ?_, fun _ => XdpSlot.undisturbed_refl⟩ rfl
      rw [XdpSlot.setupProg, large]
      rfl
  | false =>
  cases busy : prog.isSome && s.resetInProg with
  | true =>
      refine iff_of_true ⟨.busy, s, ?_, fun _ => XdpSlot.undisturbed_refl⟩ rfl
      rw [XdpSlot.setupProg, large, busy]
      rfl
  | false =>
  have call : s.setupProg prog run = match s.ring.use.config, s.ring.use.vport with
      | none, _ => none
      | some user, none =>
        some (.done, (s.unasked.swapProg prog).put { user with xdpProg := prog.isSome } none)
      | some user, some v =>
        if s.prog.isSome = prog.isSome then
          let s := if s.vp.up then s.unasked.copyProgToQs prog else s.unasked
          some (.done, (s.swapProg prog).put { user with xdpProg := prog.isSome } (some v))
        else s.unasked.reconfigure user v prog run := by
    rw [XdpSlot.setupProg, large, busy]
    rfl
  cases config : s.ring.use.config with
  | none =>
      rw [config] at call
      refine iff_of_false ?_ Bool.false_ne_true
      rintro ⟨ret, t, result, -⟩
      rw [call] at result
      cases result
  | some user =>
  cases vport : s.ring.use.vport with
  | none =>
      rw [config, vport] at call
      exact iff_of_true ⟨.done, _, call, fun error => absurd rfl error⟩ rfl
  | some v =>
  by_cases same : s.prog.isSome = prog.isSome
  · rw [config, vport] at call
    dsimp only at call
    rw [if_pos same] at call
    refine iff_of_true ⟨.done, _, call, fun error => absurd rfl error⟩ ?_
    rw [same]
    simp
  · obtain ⟨fine, failing⟩ := XdpSlot.setupProg_ends run config vport large busy same
    dsimp only
    rw [Bool.false_or, Bool.false_or, beq_eq_false_iff_ne.mpr same, Bool.false_or]
    cases completes : s.completes user v prog run with
    | true =>
        obtain ⟨t, result⟩ := fine completes
        exact iff_of_true ⟨.done, t, result, fun error => absurd rfl error⟩ rfl
    | false =>
        refine iff_of_false ?_ Bool.false_ne_true
        rintro ⟨ret, t, result, kept⟩
        obtain ⟨error, half⟩ := failing completes ret t result
        have old := (kept error).prog
        rw [half.prog] at old
        exact same (congrArg Option.isSome old).symm

/-- Two queues of each kind on two vectors, with the program `prog`. -/
def progVport (prog : Option Nat) (vp : OpenVport) : XdpSlot Nat where
  ring :=
    { use := { QueueUse.start with
        config := some { UserConfig.fresh 4 with
          numReqTxQs := 2
          numReqRxQs := 2
          xdpProg := prog.isSome }
        maxQ := fun _ => 4
        vport := some
          { rsrc := ((QVecRsrc.zero true true).initNumQs prog.isSome
              (withTheirs true true 2 2 2)).calcNumQGroups
            dflt := true
            numQVectors := 2
            vecIdxs := 4 } }
      cap := true
      hsplit := prog.isNone
      rings := none }
  prog := prog
  refs := fun _ => 1
  rxqProgs := if vp.up then [prog, prog] else []
  devQueues := withTheirs true true 2 2 2
  rssLut := true
  mtu := 1500
  resetInProg := false
  vp := vp

def smoothRun : OpenRun :=
  { OpenVport.smooth with rsrc := { OpenVport.oneQueue with
      numQVectors := 2
      numTxqGrp := 2
      numRxqGrp := 2 } }

def XdpRun.with (addQueues : MsgEnd) (reopen : OpenRun) : XdpRun :=
  ⟨true, ⟨false, ⟨true, true, ⟨none, true⟩⟩, ⟨none, true⟩⟩, addQueues, 4, reopen⟩

/-- A vport that was never opened, and the same once it was. -/
def downVport : OpenVport := .start smoothRun.rsrc

def upVport : OpenVport := downVport.openVport smoothRun

/-- A program is attached to a vport that is down, and there is no memory for the queues; one is
detached from a vport that is up, and the device does not add the queues. Both programs have been
swapped by then, header split is turned, the queues of the device are gone, and the old program has
lost its reference. -/
theorem setupProg_untrue :
    (∃ t, (progVport none downVport).setupProg (some 7)
        (.with .accepted { smoothRun with fail := some .txqGrps }) = some (.noMem, t) ∧
      (t.prog, t.ring.hsplit, t.devQueues .rx) = (some 7, false, 0) ∧
      ¬ (progVport none downVport).Undisturbed (some 7) t) ∧
    ∃ t, upVport.up = true ∧ (progVport (some 3) upVport).setupProg none
        (.with (.failed false) smoothRun) = some (.notAdded, t) ∧
      (t.prog, t.ring.hsplit, t.devQueues .rx, t.vp.up, t.refs 3) = (none, true, 0, false, 0) ∧
      ¬ (progVport (some 3) upVport).Undisturbed none t := by
  constructor
  · have run : ((progVport none downVport).setupProg (some 7)
        (.with .accepted { smoothRun with fail := some .txqGrps })).map
          (fun r => (r.1, r.2.prog, r.2.ring.hsplit, r.2.devQueues .rx)) =
            some (.noMem, some 7, false, 0) := by decide +kernel
    obtain ⟨⟨ret, t⟩, result, seen⟩ := Option.map_eq_some_iff.mp run
    obtain ⟨rfl, rest⟩ := Prod.mk.inj seen
    refine ⟨t, result, rest, fun kept => ?_⟩
    have old : t.prog = none := kept.prog
    rw [(Prod.mk.inj rest).1] at old
    cases old
  · have run : ((progVport (some 3) upVport).setupProg none
        (.with (.failed false) smoothRun)).map (fun r => (r.1, r.2.prog, r.2.ring.hsplit,
          r.2.devQueues .rx, r.2.vp.up, r.2.refs 3)) =
            some (.notAdded, none, true, 0, false, 0) := by decide +kernel
    obtain ⟨⟨ret, t⟩, result, seen⟩ := Option.map_eq_some_iff.mp run
    obtain ⟨rfl, rest⟩ := Prod.mk.inj seen
    refine ⟨t, by decide +kernel, result, rest, fun kept => ?_⟩
    have old : t.prog = some 3 := kept.prog
    rw [(Prod.mk.inj rest).1] at old
    cases old

end Idpf
