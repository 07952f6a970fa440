import Idpf.Vport.SoftReset

/-! The pointers of a vport over its soft resets. The clone is made while the vport still has its
queues; when it is copied back they have been freed, and until they are allocated anew the pointers
are left to freed memory. -/
namespace Idpf
open General

/-- The pointers to freed memory, of `q_vectors`, `txq_grps`, `rxq_grps` and `txqs`, and whether one
has been followed or freed again. -/
structure Leftover where
  ptrs : List VportPtr
  used : Bool
  deriving DecidableEq, Repr

namespace Leftover
open VportSizes

/-- The pointer is written: to null, or to memory that is held. -/
def write (p : VportPtr) (l : Leftover) : Leftover := { l with ptrs := l.ptrs.filter (· ≠ p) }

def look (p : VportPtr) (l : Leftover) : Leftover :=
  { l with used := l.used || decide (p ∈ l.ptrs) }

def rel (p : VportPtr) (l : Leftover) : Leftover := (l.look p).write p

/-- `idpf_vport_queue_grp_rel_all` -/
def queueGrpRelAll (l : Leftover) : Leftover := (l.rel .txqGrps).rel .rxqGrps

/-- `idpf_vport_queues_rel` -/
def queuesRel (l : Leftover) : Leftover :=
  ((l.look .txqGrps).look .rxqGrps).queueGrpRelAll.rel .fastTxqs

variable (c : VportSizes) (fail : Option VportPtr)

/-- `idpf_vport_intr_alloc`. Where there is no array of vectors it returns at once. -/
def intrAlloc (l : Leftover) : Leftover :=
  let l := l.write .qVectors
  if fail = some .qVectors || spared fail c.intrAllocs then l else l.rel .qVectors

/-- `idpf_txq_group_alloc` -/
def txqGroupAlloc (l : Leftover) : Leftover :=
  let l := l.write .txqGrps
  if fail = some .txqGrps || spared fail c.txqGroupAllocs then l else l.rel .txqGrps

/-- `idpf_rxq_group_alloc` -/
def rxqGroupAlloc (l : Leftover) : Leftover :=
  let l := l.write .rxqGrps
  if fail = some .rxqGrps || spared fail c.rxqGroupAllocs then l else l.rel .rxqGrps

/-- `idpf_vport_queue_grp_alloc_all` -/
def queueGrpAllocAll (l : Leftover) : Leftover :=
  let l := l.txqGroupAlloc c fail
  if !spared fail c.txqGroupAllocs then l.queueGrpRelAll
  else
    let l := l.rxqGroupAlloc c fail
    if !spared fail c.rxqGroupAllocs then l.queueGrpRelAll else l

/-- `idpf_vport_queue_alloc_all` -/
def queueAllocAll (l : Leftover) : Leftover :=
  let l := l.queueGrpAllocAll c fail
  if !(spared fail c.txqGroupAllocs && spared fail c.rxqGroupAllocs) then l.queuesRel
  else if !spared fail c.txDescAllocsAll then l.queuesRel
  else if !spared fail c.rxDescAllocsAll then (l.look .rxqGrps).queuesRel
  else
    let l := l.write .fastTxqs
    if !spared fail [.fastTxqs] then l.queuesRel else l

/-- `idpf_vport_open`. What is released for a failure further on has been written by then. -/
def openVport (l : Leftover) : Leftover :=
  let l := l.intrAlloc c fail
  if !spared fail c.intrAllocs then l
  else
    let l := l.queueAllocAll c fail
    if spared fail c.queueAllocs then l else l.rel .qVectors

/-- `idpf_vport_stop` of a vport that is up. -/
def stop (l : Leftover) : Leftover := l.queuesRel.rel .qVectors

/-- The allocation that fails is one whose failure has the release functions follow pointers that
have not been written yet. -/
def hits : Bool :=
  spared fail c.intrAllocs && !(spared fail c.txqGroupAllocs && (spared fail c.rxqGroupAllocs &&
    (spared fail c.txDescAllocsAll && spared fail c.rxDescAllocsAll)))

/-- The pointers of the queues after a reset whose open has failed to get vectors. -/
def queues : List VportPtr := [.txqGrps, .rxqGrps, .fastTxqs]

end Leftover

/-- A vport slot with the pointers that it has been left. -/
structure SoftVport (ρ : Type*) where
  slot : XdpSlot ρ
  left : Leftover

/-- What is done to the vport. -/
inductive SoftOp where
  | openVport (r : OpenRun)
  | stop (r : StopRun)
  | reset (cause : SoftCause) (run : SoftRun)

namespace SoftVport

variable {ρ : Type*}

/-- The pointers of the clone, which is made of a vport that has its queues. -/
def clone (s : SoftVport ρ) : List VportPtr :=
  if s.slot.vp.up then .qVectors :: Leftover.queues else s.left.ptrs

/-- `idpf_initiate_soft_reset` for the pointers of a vport with these counts. -/
def resetLeft (s : SoftVport ρ) (user : UserConfig) (v : QueueVport) (cause : SoftCause)
    (run : SoftRun) : Leftover :=
  if !run.mem || decide (cause = .none) then s.left
  else
    let own := if s.slot.vp.up then s.left.stop else s.left
    if cause = .xdpChange && !run.pool then own
    else
      let w := XdpSlot.counts v user cause run
      let c := (s.slot.openRun user w run.reopen).rsrc
      if run.addNew.accepts then
        -- the clone is copied back
        let l := { own with ptrs := s.clone }
        if s.slot.vp.up then l.openVport c run.reopen.fail else l
      else if s.slot.vp.up && run.addOld.accepts then own.openVport c run.reopen.fail
      else own

def step (s : SoftVport ρ) (op : SoftOp) : Option (SoftVport ρ) :=
  match s.slot.ring.use.config, s.slot.ring.use.vport with
  | some user, some v =>
    match op with
    | .openVport r =>
      if s.slot.vp.up then some s
      else
        (s.slot.reopen user v r).map fun o =>
          ⟨o.2, s.left.openVport (s.slot.openRun user v r).rsrc r.fail⟩
    | .stop r =>
      let vp := s.slot.vp.stop r
      if !s.slot.vp.up then some s
      else if vp.stuck then none
      else
        some ⟨{ s.slot with
          vp
          rxqProgs := []
          ring := { s.slot.ring with rings := none } }, s.left.stop⟩
    | .reset cause run =>
      (s.slot.softReset cause run).map fun o => ⟨o.2, s.resetLeft user v cause run⟩
  | _, _ => none

def careful (s : SoftVport ρ) (op : SoftOp) : Bool :=
  match s.slot.ring.use.config, s.slot.ring.use.vport with
  | some user, some v =>
    match op with
    | .openVport r =>
      s.slot.vp.up || s.left.ptrs.isEmpty ||
        !Leftover.hits (s.slot.openRun user v r).rsrc r.fail
    | .stop _ => true
    | .reset cause run =>
      !(run.mem && !decide (cause = .none) && !(decide (cause = .xdpChange) && !run.pool) &&
        s.slot.vp.up && run.addNew.accepts && Leftover.hits
          (s.slot.openRun user (XdpSlot.counts v user cause run) run.reopen).rsrc run.reopen.fail)
  | _, _ => true

def Start (s : SoftVport ρ) : Prop := s.left = ⟨[], false⟩ ∧ ∃ c, s.slot.vp = .start c

end SoftVport

namespace Leftover
open VportSizes

variable {l : Leftover} {c : VportSizes} {fail : Option VportPtr}

@[simp] theorem write_used (l : Leftover) (p : VportPtr) : (l.write p).used = l.used := rfl

@[simp] theorem look_used (l : Leftover) (p : VportPtr) :
    (l.look p).used = (l.used || decide (p ∈ l.ptrs)) := rfl

theorem rel_used (h : l.used = true) (p : VportPtr) : (l.rel p).used = true := by
  simp [rel, h]

theorem queueGrpRelAll_used (h : l.used = true) : l.queueGrpRelAll.used = true :=
  rel_used (rel_used h _) _

theorem queuesRel_used (h : l.used = true) : l.queuesRel.used = true := by
  unfold queuesRel
  exact rel_used (queueGrpRelAll_used (by simp [h])) _

theorem queueGrpAllocAll_used (h : l.used = true) : (l.queueGrpAllocAll c fail).used = true := by
  have tx : (l.txqGroupAlloc c fail).used = true := by
    unfold txqGroupAlloc
    dsimp only
    split
    · exact h
    · exact rel_used (l := l.write _) h _
  unfold queueGrpAllocAll
  dsimp only
  split
  · exact queueGrpRelAll_used tx
  · have rx : ((l.txqGroupAlloc c fail).rxqGroupAlloc c fail).used = true := by
      unfold rxqGroupAlloc
      dsimp only
      split
      · exact tx
      · exact rel_used (l := (l.txqGroupAlloc c fail).write _) tx _
    split
    · exact queueGrpRelAll_used rx
    · exact rx

theorem queueAllocAll_used (h : l.used = true) : (l.queueAllocAll c fail).used = true := by
  have grp : (l.queueGrpAllocAll c fail).used = true := queueGrpAllocAll_used h
  unfold queueAllocAll
  dsimp only
  split
  · exact queuesRel_used grp
  split
  · exact queuesRel_used grp
  split
  · exact queuesRel_used (by simp [grp])
  split
  · exact queuesRel_used grp
  · exact grp

theorem openVport_used (h : l.used = true) : (l.openVport c fail).used = true := by
  have vecs : (l.intrAlloc c fail).used = true := by
    unfold intrAlloc
    dsimp only
    split
    · exact h
    · exact rel_used (l := l.write _) h _
  unfold openVport
  dsimp only
  split
  · exact vecs
  split
  · exact queueAllocAll_used vecs
  · exact rel_used (queueAllocAll_used vecs) _

theorem stop_used (h : l.used = true) : l.stop.used = true := rel_used (queuesRel_used h) _

theorem write_none (u : Bool) (p : VportPtr) : (⟨[], u⟩ : Leftover).write p = ⟨[], u⟩ := rfl

theorem look_none (u : Bool) (p : VportPtr) : (⟨[], u⟩ : Leftover).look p = ⟨[], u⟩ := by
  unfold look
  rw [decide_eq_false List.not_mem_nil, Bool.or_false]

theorem rel_none (u : Bool) (p : VportPtr) : (⟨[], u⟩ : Leftover).rel p = ⟨[], u⟩ := by
  rw [rel, look_none, write_none]

theorem stop_none (u : Bool) : (⟨[], u⟩ : Leftover).stop = ⟨[], u⟩ := by
  simp only [stop, queuesRel, queueGrpRelAll, rel_none, look_none]

theorem openVport_none (c : VportSizes) (fail : Option VportPtr) (u : Bool) :
    (⟨[], u⟩ : Leftover).openVport c fail = ⟨[], u⟩ := by
  simp only [openVport, queueAllocAll, queueGrpAllocAll, intrAlloc, txqGroupAlloc, rxqGroupAlloc,
    queuesRel, queueGrpRelAll, rel_none, look_none, write_none, ite_self]

theorem intrAlloc_clone (c : VportSizes) (fail : Option VportPtr) (l : Leftover)
    (ptrs : l.ptrs = .qVectors :: queues ∨ l.ptrs = queues) (used : l.used = false) :
    l.intrAlloc c fail = ⟨queues, false⟩ := by
  obtain ⟨ps, u⟩ := l
  obtain rfl | rfl := ptrs
  · obtain rfl := used
    unfold intrAlloc
    split <;> rfl
  · obtain rfl := used
    unfold intrAlloc
    split <;> rfl

/-- Where the allocations of the queues fail before the last, pointers that are left are
followed. -/
theorem queueAllocAll_queues (c : VportSizes) (fail : Option VportPtr) :
    ((⟨queues, false⟩ : Leftover).queueAllocAll c fail).used =
        !(spared fail c.txqGroupAllocs && (spared fail c.rxqGroupAllocs &&
          (spared fail c.txDescAllocsAll && spared fail c.rxDescAllocsAll))) ∧
      (((⟨queues, false⟩ : Leftover).queueAllocAll c fail).used = false →
        (⟨queues, false⟩ : Leftover).queueAllocAll c fail = ⟨[], false⟩) := by
  have tx : (⟨queues, false⟩ : Leftover).txqGroupAlloc c fail = ⟨[.rxqGrps, .fastTxqs], false⟩ := by
    unfold txqGroupAlloc
    split <;> rfl
  have rx : (⟨[.rxqGrps, .fastTxqs], false⟩ : Leftover).rxqGroupAlloc c fail =
      ⟨[.fastTxqs], false⟩ := by
    unfold rxqGroupAlloc
    split <;> rfl
  unfold queueAllocAll queueGrpAllocAll
  dsimp only
  rw [tx, rx]
  cases spared fail c.txqGroupAllocs with
  | false => exact ⟨rfl, fun clean => Bool.noConfusion clean⟩
  | true =>
  cases spared fail c.rxqGroupAllocs with
  | false => exact ⟨rfl, fun clean => Bool.noConfusion clean⟩
  | true =>
  cases spared fail c.txDescAllocsAll with
  | false => exact ⟨rfl, fun clean => Bool.noConfusion clean⟩
  | true =>
  cases spared fail c.rxDescAllocsAll with
  | false => exact ⟨rfl, fun clean => Bool.noConfusion clean⟩
  | true =>
      cases spared fail [VportPtr.fastTxqs] with
      | false => exact ⟨rfl, fun _ => rfl⟩
      | true => exact ⟨rfl, fun _ => rfl⟩

/-- An open of a vport whose queues have been left follows a pointer exactly if it fails where it
hits one, and writes them all if it gets its vectors. -/
theorem openVport_queues (c : VportSizes) (fail : Option VportPtr) (l : Leftover)
    (ptrs : l.ptrs = .qVectors :: queues ∨ l.ptrs = queues) (used : l.used = false) :
    (l.openVport c fail).used = hits c fail ∧
      ((l.openVport c fail).used = false →
        l.openVport c fail = ⟨if spared fail c.intrAllocs then [] else queues, false⟩) := by
  obtain ⟨follows, clean⟩ := queueAllocAll_queues c fail
  unfold openVport hits
  dsimp only
  rw [intrAlloc_clone c fail l ptrs used]
  cases spared fail c.intrAllocs with
  | false => exact ⟨rfl, fun _ => rfl⟩
  | true =>
      rw [Bool.not_true, if_neg Bool.false_ne_true, Bool.true_and, ← follows]
      split
      · exact ⟨rfl, clean⟩
      · cases seen : ((⟨queues, false⟩ : Leftover).queueAllocAll c fail).used with
        | true =>
            have after := rel_used seen .qVectors
            exact ⟨after, fun none => absurd (after.symm.trans none) Bool.noConfusion⟩
        | false =>
            rw [clean seen]
            exact ⟨rfl, fun _ => rfl⟩

end Leftover

namespace SoftVport

variable {ρ : Type*} {s s' : SoftVport ρ} {v w : QueueVport} {user : UserConfig}

/-- As long as none has been followed, the pointers that are left are those of the queues of a vport
that is down, or none. -/
structure Sound (s : SoftVport ρ) : Prop where
  calm : s.slot.vp.Calm
  left : s.left.used = false →
    s.left = ⟨[], false⟩ ∨ s.slot.vp.up = false ∧ s.left = ⟨Leftover.queues, false⟩

/-- What a call does to the pointers, if it is `ok` or not. -/
structure Follows (s : SoftVport ρ) (ok : Bool) (s' : SoftVport ρ) : Prop where
  sound : s'.Sound
  used : s'.left.used = (s.left.used || !ok)

theorem Sound.stays (sound : s.Sound) (calm : s'.slot.vp.Calm)
    (up : s'.slot.vp.up = s.slot.vp.up) (left : s'.left = s.left) : s.Follows true s' := by
  refine ⟨⟨calm, ?_⟩, ?_⟩
  · rw [left, up]
    exact sound.left
  · rw [left]
    exact (Bool.or_false _).symm

theorem Follows.of_none {l : Leftover} (calm : s'.slot.vp.Calm) (left : s'.left = l)
    (none : l.used = false → l = ⟨[], false⟩) (used : l.used = s.left.used) :
    s.Follows true s' := by
  refine ⟨⟨calm, fun clean => .inl ?_⟩, ?_⟩
  · rw [left] at clean ⊢
    exact none clean
  · rw [left, used]
    exact (Bool.or_false _).symm

/-- A vport whose queues have been left is opened. -/
theorem Follows.of_queues {c : VportSizes} {fail : Option VportPtr} {l : Leftover}
    (calm : s'.slot.vp.Calm) (left : s'.left = l.openVport c fail)
    (ptrs : l.ptrs = .qVectors :: Leftover.queues ∨ l.ptrs = Leftover.queues)
    (clean : l.used = false) (before : s.left.used = false)
    (down : VportSizes.spared fail c.intrAllocs = false → s'.slot.vp.up = false) :
    s.Follows (!Leftover.hits c fail) s' := by
  obtain ⟨used, after⟩ := Leftover.openVport_queues c fail l ptrs clean
  refine ⟨⟨calm, fun none => ?_⟩, ?_⟩
  · rw [left] at none ⊢
    rw [after none]
    cases vecs : VportSizes.spared fail c.intrAllocs with
    | true => exact .inl rfl
    | false => exact .inr ⟨down vecs, rfl⟩
  · rw [left, used, before, Bool.not_not, Bool.false_or]

theorem succeeds_vecs {r : OpenRun} (none : VportSizes.spared r.fail r.rsrc.intrAllocs = false) :
    r.succeeds = false := by
  unfold OpenRun.succeeds
  rw [OpenVport.failsIn_eq, none, Bool.false_and, Bool.and_false]

theorem Follows.of_used {ok : Bool} (calm : s'.slot.vp.Calm) (before : s.left.used = true)
    (after : s'.left.used = true) : s.Follows ok s' := by
  refine ⟨⟨calm, fun clean => absurd (after.symm.trans clean) Bool.noConfusion⟩, ?_⟩
  rw [after, before]
  rfl

theorem Sound.openVport {r : OpenRun} {b : Bool} {t : XdpSlot ρ} (sound : s.Sound)
    (down : s.slot.vp.up = false) (opened : s.slot.reopen user v r = some (b, t)) :
    s.Follows (s.left.ptrs.isEmpty || !Leftover.hits (s.slot.openRun user v r).rsrc r.fail)
      ⟨t, s.left.openVport (s.slot.openRun user v r).rsrc r.fail⟩ := by
  obtain ⟨-, reopened⟩ :=
    XdpSlot.reopen_ends down (sound.calm.closed down) sound.calm.back opened
  have calm := reopened.calm sound.calm
  cases used : s.left.used with
  | true => exact .of_used calm used (Leftover.openVport_used used)
  | false =>
      obtain none | ⟨-, queues⟩ := sound.left used
      · rw [none]
        exact .of_none calm rfl (fun _ => Leftover.openVport_none _ _ _)
          ((congrArg Leftover.used (Leftover.openVport_none _ _ _)).trans used.symm)
      · have some_ : s.left.ptrs.isEmpty = false := by rw [queues]; rfl
        rw [some_, Bool.false_or]
        refine .of_queues calm rfl (.inr (congrArg Leftover.ptrs queues)) used used fun vecs => ?_
        exact reopened.up.trans (succeeds_vecs (r := s.slot.openRun user v r) vecs)

/-- The pointers that a reset works with when the vport has been taken down. -/
def own (s : SoftVport ρ) : Leftover := if s.slot.vp.up then s.left.stop else s.left

theorem Sound.own_eq (sound : s.Sound) (clean : s.left.used = false) :
    s.own = if s.slot.vp.up then ⟨[], false⟩ else s.left := by
  unfold own
  split
  · next up =>
    obtain none | ⟨down, -⟩ := sound.left clean
    · rw [none, Leftover.stop_none]
    · exact absurd (up.symm.trans down) Bool.noConfusion
  · rfl

theorem own_used (used : s.left.used = true) : s.own.used = true := by
  unfold own
  split
  · exact Leftover.stop_used used
  · exact used

theorem Sound.takenDown {t : XdpSlot ρ} (sound : s.Sound) (calm : t.vp.Calm)
    (down : t.vp.up = false) : s.Follows true ⟨t, s.own⟩ := by
  cases used : s.left.used with
  | true => exact .of_used calm used (own_used used)
  | false =>
      have own := sound.own_eq used
      cases up : s.slot.vp.up with
      | true =>
          rw [up, if_pos rfl] at own
          exact .of_none calm rfl (fun _ => own) ((congrArg Leftover.used own).trans used.symm)
      | false =>
          rw [up, if_neg Bool.false_ne_true] at own
          exact sound.stays calm (down.trans up.symm) own

/-- A reset that comes to ask for queues. -/
theorem Sound.rebuilt {cause : SoftCause} {run : SoftRun} {ret : SoftRet} {t : XdpSlot ρ}
    (sound : s.Sound) (ends : s.slot.SoftEnds v user cause run ret t) :
    s.Follows (!(s.slot.vp.up && run.addNew.accepts && Leftover.hits
        (s.slot.openRun user (XdpSlot.counts v user cause run) run.reopen).rsrc run.reopen.fail))
      ⟨t, if run.addNew.accepts then
          if s.slot.vp.up then { s.own with ptrs := s.clone }.openVport
            (s.slot.openRun user (XdpSlot.counts v user cause run) run.reopen).rsrc run.reopen.fail
          else { s.own with ptrs := s.clone }
        else if s.slot.vp.up && run.addOld.accepts then s.own.openVport
          (s.slot.openRun user (XdpSlot.counts v user cause run) run.reopen).rsrc run.reopen.fail
        else s.own⟩ := by
  have calm := ends.calm sound.calm
  have isUp := ends.up
  cases up : s.slot.vp.up with
  | false =>
      have down : t.vp.up = false := by rw [isUp, up, Bool.false_and]
      have none := sound.takenDown calm down
      have same : ({ s.own with ptrs := s.clone } : Leftover) = s.own := by
        unfold own clone
        rw [up]
        rfl
      rw [same]
      cases run.addNew.accepts with
      | true => exact none
      | false => exact none
  | true =>
  cases used : s.left.used with
  | true =>
      have before : s.own.used = true := own_used used
      have cloned : ({ s.own with ptrs := s.clone } : Leftover).used = true := before
      refine .of_used calm used ?_
      dsimp only
      split
      · exact Leftover.openVport_used cloned
      · split
        · exact Leftover.openVport_used before
        · exact before
  | false =>
      have own := sound.own_eq used
      rw [up, if_pos rfl] at own
      cases added : run.addNew.accepts with
      | true =>
          refine .of_queues calm rfl (.inl ?_) (congrArg Leftover.used own) used fun vecs => ?_
          · unfold clone
            exact if_pos up
          · have fails : s.slot.reopens v user cause run = false := succeeds_vecs vecs
            rw [isUp, XdpSlot.comesUp, fails, Bool.and_false, Bool.and_false]
      | false =>
          refine .of_none calm rfl (fun _ => ?_) ?_
          · rw [own, Leftover.openVport_none]
            exact ite_self _
          · rw [own, Leftover.openVport_none, used]
            exact congrArg Leftover.used (ite_self _)

theorem Sound.reset {cause : SoftCause} {run : SoftRun} {ret : SoftRet} {t : XdpSlot ρ}
    (sound : s.Sound) (config : s.slot.ring.use.config = some user)
    (vport : s.slot.ring.use.vport = some v)
    (result : s.slot.softReset cause run = some (ret, t)) :
    s.Follows (s.careful (.reset cause run)) ⟨t, s.resetLeft user v cause run⟩ := by
  unfold careful resetLeft
  rw [config, vport]
  dsimp only
  cases mem : run.mem with
  | false =>
      rw [s.slot.softReset_call config vport, mem] at result
      obtain ⟨-, rfl⟩ := Prod.mk.inj (Option.some.inj result)
      exact sound.stays sound.calm rfl rfl
  | true =>
  by_cases known : cause = .none
  · rw [s.slot.softReset_call config vport, mem, known] at result
    obtain ⟨-, rfl⟩ := Prod.mk.inj (Option.some.inj result)
    rw [decide_eq_true known]
    exact sound.stays sound.calm rfl rfl
  rw [decide_eq_false known]
  by_cases unmapped : cause = .xdpChange ∧ run.pool = false
  · obtain ⟨rfl, pool⟩ := unmapped
    rw [s.slot.softReset_call config vport, mem, pool] at result
    have taken := s.slot.unasked.takeDown_takenDown run
    by_cases stuck : (s.slot.unasked.takeDown run).vp.stuck = true
    · rw [stuck] at result
      cases result
    · rw [Bool.eq_false_iff.mpr stuck] at result
      obtain ⟨-, rfl⟩ := Prod.mk.inj (Option.some.inj result)
      rw [pool]
      exact sound.takenDown (taken.calm sound.calm (Bool.eq_false_iff.mpr stuck)) taken.down
  · have mapped : (decide (cause = .xdpChange) && !run.pool) = false := by simpa using unmapped
    rw [mapped]
    exact sound.rebuilt (XdpSlot.softReset_ends config vport mem known unmapped result)

theorem Sound.stop {r : StopRun} (sound : s.Sound) (up : s.slot.vp.up = true)
    (returns : ¬(s.slot.vp.stop r).stuck = true) (vp : s'.slot.vp = s.slot.vp.stop r)
    (left : s'.left = s.left.stop) : s.Follows true s' := by
  obtain ⟨down, ret, -⟩ := s.slot.vp.stop_ends r up
  have calm : s'.slot.vp.Calm := by
    rw [vp]
    exact ⟨Bool.eq_false_iff.mpr returns, fun _ => ret.trans_ne OpenRet.noConfusion⟩
  have own : s.own = s.left.stop := if_pos up
  have taken := sound.takenDown calm (vp ▸ down)
  rw [own, ← left] at taken
  exact taken

/-- Each call is careful exactly if it follows no pointer to freed memory. -/
theorem Sound.step (sound : s.Sound) (op : SoftOp) (step : s.step op = some s') :
    s.Follows (s.careful op) s' := by
  unfold SoftVport.step at step
  split at step
  · next user v config vport =>
    cases op with
    | openVport r =>
        have careful : s.careful (.openVport r) = (s.slot.vp.up || s.left.ptrs.isEmpty ||
            !Leftover.hits (s.slot.openRun user v r).rsrc r.fail) := by
          unfold SoftVport.careful
          rw [config, vport]
        rw [careful]
        dsimp only at step
        split at step
        · next up =>
          obtain rfl := Option.some.inj step
          rw [up]
          exact sound.stays sound.calm rfl rfl
        · next off =>
          obtain ⟨o, opened, rfl⟩ := Option.map_eq_some_iff.mp step
          rw [Bool.eq_false_iff.mpr off, Bool.false_or]
          exact sound.openVport (Bool.eq_false_iff.mpr off) opened
    | stop r =>
        have careful : s.careful (.stop r) = true := by
          unfold SoftVport.careful
          rw [config, vport]
        rw [careful]
        dsimp only at step
        split at step
        · obtain rfl := Option.some.inj step
          exact sound.stays sound.calm rfl rfl
        · next on =>
          have up : s.slot.vp.up = true := by simpa using on
          split at step
          · cases step
          · next returns =>
            obtain rfl := Option.some.inj step
            exact sound.stop up returns rfl rfl
    | reset cause run =>
        obtain ⟨o, result, rfl⟩ := Option.map_eq_some_iff.mp step
        exact sound.reset config vport result
  · cases step

/-- Whatever is done to a new vport, no pointer to freed memory is ever followed or freed again
exactly if no open fails on the queues while a reset has left such pointers. -/
theorem clean_iff (start : s.Start) (ops : List SoftOp) (run : exec step s ops = some s') :
    s'.left.used = false ↔ execIf step careful s ops = some s' := by
  obtain ⟨none, c, vp⟩ := start
  have sound : s.Sound :=
    ⟨by rw [vp]; exact ⟨rfl, fun _ => OpenRet.noConfusion⟩, fun _ => .inl none⟩
  have keep (s : SoftVport ρ) (op : SoftOp) (s' : SoftVport ρ) (sound : s.Sound)
      (_ : true = true) (next : step s op = some s') :
      s'.Sound ∧ (s'.left.used = false ↔ s.left.used = false ∧ careful s op = true) := by
    have follows := sound.step op next
    refine ⟨follows.sound, ?_⟩
    rw [follows.used, Bool.or_eq_false_iff, Bool.not_eq_false']
  rw [← execIf_true] at run
  rw [execIf_clear keep sound run, none]
  exact and_iff_right rfl

/-- A vport is opened and reset, and there is no memory for a ring when it is opened again: the
array of its transmit queues is freed once more. -/
theorem clean_iff_freed : ∃ s', exec step ⟨progVport none downVport, ⟨[], false⟩⟩
      [.openVport smoothRun, .reset .rscChange { SoftRun.with true .accepted true with
        reopen := { smoothRun with fail := some (.txRing 0 0) } }] = some s' ∧
    s'.left.used = true ∧ execIf step careful ⟨progVport none downVport, ⟨[], false⟩⟩
      [.openVport smoothRun, .reset .rscChange { SoftRun.with true .accepted true with
        reopen := { smoothRun with fail := some (.txRing 0 0) } }] ≠ some s' := by
  have seen : (exec step ⟨progVport none downVport, ⟨[], false⟩⟩
      [.openVport smoothRun, .reset .rscChange { SoftRun.with true .accepted true with
        reopen := { smoothRun with fail := some (.txRing 0 0) } }]).map
      (fun s => s.left.used) = some true := by decide +kernel
  obtain ⟨s', run, used⟩ := Option.map_eq_some_iff.mp seen
  refine ⟨s', run, used, fun careful => ?_⟩
  have clean := (clean_iff ⟨rfl, _, rfl⟩ _ run).mpr careful
  exact Bool.noConfusion (used.symm.trans clean)

end SoftVport

end Idpf
