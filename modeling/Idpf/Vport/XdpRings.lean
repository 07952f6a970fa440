import Idpf.Vport.XdpSetup

/-! What setting up an XDP program makes of the rings: the call refines the step that the model of
the ring sizes has for it. -/
namespace Idpf
open General

theorem relaid_ask {v : QueueVport} {user : UserConfig} :
    (v.relaid user).addQueuesAsk = (v.adjustQs user).addQueuesAsk := by
  funext k
  cases k <;> rfl

/-- Vectors and descriptors are counted independently. -/
theorem relaid_alloc {v : QueueVport} {user : UserConfig} (xdp : Bool) (avail : Nat) :
    (v.relaid user).allocVecIndexes xdp avail =
      { (v.adjustQs user).allocVecIndexes xdp avail with
        rsrc := ((v.adjustQs user).allocVecIndexes xdp avail).rsrc.calcNumQDesc user } := by
  have same : (v.relaid user).rsrc.numReqVecs xdp = (v.adjustQs user).rsrc.numReqVecs xdp := rfl
  have dflt : (v.relaid user).dflt = (v.adjustQs user).dflt := rfl
  unfold QueueVport.allocVecIndexes
  rw [same, dflt]
  dsimp only
  split
  · rfl
  · rfl

namespace RingSlot

/-- A slot with the counts of `v`, as far as the device was asked for queues, gave them, and the
vport was opened. -/
def grown (g : RingSlot) (user : UserConfig) (v : QueueVport) (avail : Nat)
    (asked added up : Bool) : RingSlot :=
  let w := if added then v.allocVecIndexes user.xdpProg avail else v
  { g with
    use := { g.use with
      config := some user
      vport := some w
      asked := if asked then [⟨g.use.maxQ, v.addQueuesAsk⟩] else [] }
    rings := if up then some w.rsrc.rings else none }

variable {g : RingSlot} {user : UserConfig} {v : QueueVport}

/-- How the model of the rings has it. -/
theorem step_xdpSetup_grown {prog : Bool} (config : g.use.config = some user)
    (vport : g.use.vport = some v) (changes : user.xdpProg ≠ prog)
    (asked added reopen : Bool) (avail : Nat) (up : g.rings.isSome = true → asked = true)
    (none : asked = false → added = false) :
    g.step (.xdpSetup prog asked avail added reopen) =
      some ({ g with hsplit := g.xdpHsplit v.rsrc prog }.grown { user with xdpProg := prog }
        (v.relaid { user with xdpProg := prog }) avail asked added
        (g.rings.isSome && (added && reopen))) := by
  have toggles : g.toggles prog = true := by
    unfold RingSlot.toggles
    rw [config, vport]
    exact bne_iff_ne.mpr changes
  have down : asked = false → g.rings = .none := by
    intro no
    cases rings : g.rings with
    | none => rfl
    | some r =>
        rw [up (by rw [rings]; rfl)] at no
        cases no
  have queues : (asked || g.rings.isSome) = asked := by
    cases asked with
    | true => rfl
    | false =>
        rw [down rfl]
        rfl
  unfold RingSlot.step QueueUse.step QueueUse.stepFrom
  dsimp only
  rw [config, vport, toggles, queues]
  unfold QueueUse.xdpSetup grown
  dsimp only [Option.map_some]
  rw [if_pos rfl, if_neg changes]
  cases asked with
  | false =>
      rw [none rfl, down rfl]
      rfl
  | true =>
      unfold RingSlot.follow
      cases added with
      | false =>
          dsimp only
          rw [Bool.false_and, Bool.and_false, relaid_ask]
          rfl
      | true =>
          dsimp only
          rw [Bool.true_and, if_pos rfl, if_pos rfl, relaid_alloc, relaid_ask]
          rfl

/-- Nothing has been sent yet, and nothing is allocated. -/
structure Switched (g : RingSlot) (user : UserConfig) (v : QueueVport) : Prop where
  config : g.use.config = some user
  vport : g.use.vport = some v
  unasked : g.use.asked = []
  rings : g.rings = none

theorem Switched.same (w : g.Switched user v) (avail : Nat) :
    g = g.grown user v avail false false false := by
  obtain ⟨⟨_, _, _, _, _, _⟩, _, _, _⟩ := g
  obtain ⟨rfl, rfl, rfl, rfl⟩ := w
  rfl

theorem Switched.asks (w : g.Switched user v) (avail : Nat) :
    { g with use := { g.use with asked := [⟨g.use.maxQ, v.addQueuesAsk⟩] } } =
      g.grown user v avail true false false := by
  obtain ⟨⟨_, _, _, _, _, _⟩, _, _, _⟩ := g
  obtain ⟨rfl, rfl, rfl, rfl⟩ := w
  rfl

theorem Switched.gives (w : g.Switched user v) (avail : Nat) :
    { g with use := { g.use with
      config := some user
      vport := some (v.allocVecIndexes user.xdpProg avail)
      asked := [⟨g.use.maxQ, v.addQueuesAsk⟩] } } = g.grown user v avail true true false := by
  obtain ⟨⟨_, _, _, _, _, _⟩, _, _, _⟩ := g
  obtain ⟨rfl, rfl, rfl, rfl⟩ := w
  rfl

end RingSlot

namespace XdpSlot

variable {ρ : Type*} {s t : XdpSlot ρ} {prog : Option ρ} {run : XdpRun} {user : UserConfig}
  {v : QueueVport} {ret : XdpRet}

theorem addQueues_ring : (s.addQueues v run).2.ring = { s.ring with use := { s.ring.use with
    asked := [⟨s.ring.use.maxQ, v.addQueuesAsk⟩] } } := by
  obtain ⟨given, after⟩ := s.addQueues_eq v run
  rw [after]

theorem rebuildDown_ring (w : s.ring.Switched user v)
    (result : s.rebuildDown user v run = some (ret, t)) :
    t.prog = s.prog ∧ t.vp.up = s.vp.up ∧ ∃ asked added, (asked = false → added = false) ∧
      t.ring = s.ring.grown user v run.avail asked added false := by
  have added := (s.hold ((s.sizes v run).queueAllocAll run.reopen.fail s.vp.held).1
    ).addQueues_alike v run
  unfold rebuildDown at result
  dsimp only at result
  split at result
  · cases result
  · split at result
    · obtain ⟨rfl, rfl⟩ := Prod.mk.inj (Option.some.inj result)
      exact ⟨rfl, rfl, false, false, fun _ => rfl, w.same run.avail⟩
    · split at result
      · obtain ⟨rfl, rfl⟩ := Prod.mk.inj (Option.some.inj result)
        exact ⟨added.prog, added.up, true, false, fun _ => rfl,
          addQueues_ring.trans (w.asks run.avail)⟩
      · obtain ⟨rfl, rfl⟩ := Prod.mk.inj (Option.some.inj result)
        refine ⟨added.prog, added.up, true, true, fun same => same, ?_⟩
        unfold put hold
        dsimp only
        rw [addQueues_ring]
        exact w.gives run.avail

theorem rebuildUp_ring (w : s.ring.Switched user v) (down : s.vp.up = false)
    (result : s.rebuildUp user v run = some (ret, t)) :
    t.prog = s.prog ∧ ∃ added, (added && t.vp.up) = t.vp.up ∧
      t.ring = s.ring.grown user v run.avail true added t.vp.up := by
  have alike := s.addQueues_alike v run
  unfold rebuildUp at result
  dsimp only at result
  split at result
  · obtain ⟨rfl, rfl⟩ := Prod.mk.inj (Option.some.inj result)
    have still := alike.up.trans down
    refine ⟨alike.prog, false, still.symm, ?_⟩
    rw [still]
    exact addQueues_ring.trans (w.asks run.avail)
  · split at result
    · cases result
    · obtain ⟨rfl, rfl⟩ := Prod.mk.inj (Option.some.inj result)
      refine ⟨alike.prog, true, Bool.true_and _, ?_⟩
      unfold opened put
      dsimp only
      rw [addQueues_ring]
      rfl

/-- The config says whether there is a program, and there are rings while the vport is up. -/
structure Matched (s : XdpSlot ρ) : Prop where
  flag : ∀ user, s.ring.use.config = some user → user.xdpProg = s.prog.isSome
  rings : s.ring.rings.isSome = s.vp.up

theorem Matched.of_grown {g : RingSlot} {avail : Nat} {asked added up : Bool}
    (ring : t.ring = g.grown user v avail asked added up) (flag : user.xdpProg = t.prog.isSome)
    (isUp : t.vp.up = up) : t.Matched := by
  constructor
  · intro user' config
    rw [ring] at config
    obtain rfl := Option.some.inj config
    exact flag
  · rw [ring, isUp]
    unfold RingSlot.grown
    cases up with
    | true => rfl
    | false => rfl

theorem Matched.unasked (m : s.Matched) : s.unasked.Matched := ⟨m.flag, m.rings⟩

variable [DecidableEq ρ]

theorem Matched.switched_ring (m : s.Matched) (user : UserConfig) (v : QueueVport)
    (prog : Option ρ) (run : XdpRun) (asked : s.ring.use.asked = []) :
    ((s.teardown run).switchProg user v prog).ring.Switched { user with xdpProg := prog.isSome }
      (v.relaid { user with xdpProg := prog.isSome }) ∧
    ∀ w avail a b up, ((s.teardown run).switchProg user v prog).ring.grown
      { user with xdpProg := prog.isSome } w avail a b up =
        { s.ring with hsplit := s.ring.xdpHsplit v.rsrc prog.isSome }.grown
          { user with xdpProg := prog.isSome } w avail a b up := by
  have rings := m.rings
  unfold teardown
  dsimp only
  split
  · exact ⟨⟨rfl, rfl, asked, rfl⟩, fun _ _ _ _ _ => rfl⟩
  · next down =>
    rw [Bool.eq_false_iff.mpr down, Option.isSome_eq_false_iff, Option.isNone_iff_eq_none] at rings
    exact ⟨⟨rfl, rfl, asked, rings⟩, fun _ _ _ _ _ => rfl⟩

theorem reconfigure_ring (m : s.Matched) (config : s.ring.use.config = some user)
    (vport : s.ring.use.vport = some v) (asked : s.ring.use.asked = [])
    (changes : s.prog.isSome ≠ prog.isSome)
    (result : s.reconfigure user v prog run = some (ret, t)) :
    t.Matched ∧ ∃ queues added reopen,
      s.ring.step (.xdpSetup prog.isSome queues run.avail added reopen) = some t.ring := by
  obtain ⟨switched, grown⟩ := m.switched_ring user v prog run asked
  have other : user.xdpProg ≠ prog.isSome := (m.flag user config).trans_ne changes
  unfold reconfigure at result
  dsimp only at result
  split at result
  · cases result
  · split at result
    · next up =>
      have down : ((s.teardown run).switchProg user v prog).vp.up = false :=
        (s.teardown_rest run).2.2
      obtain ⟨same, added, most, ring⟩ := rebuildUp_ring switched down result
      rw [grown] at ring
      refine ⟨.of_grown ring (congrArg Option.isSome same).symm rfl, true, added, t.vp.up, ?_⟩
      have step := RingSlot.step_xdpSetup_grown config vport other true added t.vp.up
        run.avail (fun _ => rfl) Bool.noConfusion
      rw [step, ring, m.rings, up, most, Bool.true_and]
    · next off =>
      obtain ⟨same, still, queues, added, none, ring⟩ := rebuildDown_ring switched result
      rw [grown] at ring
      have down : t.vp.up = false := still.trans (s.teardown_rest run).2.2
      have rings := m.rings.trans (Bool.eq_false_iff.mpr off)
      refine ⟨.of_grown ring (congrArg Option.isSome same).symm down, queues, added, false, ?_⟩
      have step := RingSlot.step_xdpSetup_grown config vport other queues added false
        run.avail
        (fun up => absurd (rings.symm.trans up) Bool.false_ne_true) none
      rw [step, ring, rings]
      rfl

/-- Every call keeps the two in agreement, and but for one that is refused at once it is a step of
the model of the rings. -/
theorem setupProg_ring (m : s.Matched) (result : s.setupProg prog run = some (ret, t)) :
    t.Matched ∧ (t = s ∨ ∃ queues added reopen,
      s.ring.step (.xdpSetup prog.isSome queues run.avail added reopen) = some t.ring) := by
  unfold setupProg at result
  dsimp only at result
  split at result
  · obtain ⟨rfl, rfl⟩ := Prod.mk.inj (Option.some.inj result)
    exact ⟨m, .inl rfl⟩
  split at result
  · obtain ⟨rfl, rfl⟩ := Prod.mk.inj (Option.some.inj result)
    exact ⟨m, .inl rfl⟩
  split at result
  · cases result
  · next user config vport =>
    obtain ⟨rfl, rfl⟩ := Prod.mk.inj (Option.some.inj result)
    have config : s.ring.use.config = some user := config
    have vport : s.ring.use.vport = none := vport
    refine ⟨⟨?_, m.rings⟩, .inr ⟨false, false, false, ?_⟩⟩
    · intro user' same
      obtain rfl := Option.some.inj same
      rfl
    · unfold RingSlot.step QueueUse.step QueueUse.stepFrom RingSlot.toggles QueueUse.xdpSetup
      dsimp only
      rw [config, vport]
      rfl
  · next user v config vport =>
    have config : s.ring.use.config = some user := config
    have vport : s.ring.use.vport = some v := vport
    split at result
    · next same =>
      obtain ⟨rfl, rfl⟩ := Prod.mk.inj (Option.some.inj result)
      have flag : user.xdpProg = prog.isSome := (m.flag user config).trans same
      refine ⟨⟨?_, ?_⟩, .inr ⟨false, false, false, ?_⟩⟩
      · intro user' there
        obtain rfl := Option.some.inj there
        rfl
      · split
        · exact m.rings
        · exact m.rings
      · have toggles : s.ring.toggles prog.isSome = false := by
          unfold RingSlot.toggles
          rw [config, vport]
          dsimp only
          rw [flag]
          exact bne_self_eq_false _
        unfold RingSlot.step QueueUse.step QueueUse.stepFrom QueueUse.xdpSetup
        dsimp only
        rw [config, vport, toggles]
        dsimp only [Option.map_some]
        rw [if_pos flag, if_neg Bool.false_ne_true, ← flag]
        split
        · rfl
        · rfl
    · next changes =>
      obtain ⟨matched, queues, added, reopen, step⟩ :=
        reconfigure_ring (s := s.unasked) m.unasked config vport rfl changes result
      exact ⟨matched, .inr ⟨queues, added, reopen, step⟩⟩

end XdpSlot

end Idpf
