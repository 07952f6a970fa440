import Mathlib.Algebra.Order.BigOperators.Group.Finset
import Idpf.General.Slots
import Idpf.General.Transition
import Idpf.Vport.Queues

/-! The queues that vports are granted from what the device advertises: `idpf_vport_alloc_max_qs`,
the task that builds vports, and the release that gives a grant back. -/
namespace Idpf
open General

/-- What the capabilities reply says about queues and vports. The counts have 16 bits. -/
structure QueueCaps where
  maxQ : QueueKind → Nat
  defaultVports : Nat
  maxVports : Nat
  maxQ_lt : ∀ k, maxQ k < 65536
  maxVports_lt : maxVports < 65536

namespace QueueCaps

def share (c : QueueCaps) (k : QueueKind) : Nat := c.maxQ k / c.defaultVports

/-- `max_q->max_rxq` -/
def maxRxq (c : QueueCaps) (dflt : Bool) : Nat :=
  let rxq := if dflt then min (c.share .rx) 64 else 2
  if c.share .buf = 0 then rxq else min rxq (c.share .buf / 2)

/-- `max_q->max_txq` -/
def maxTxq (c : QueueCaps) (dflt : Bool) : Nat :=
  let txq := if dflt then min (c.share .tx) 256 else 2
  if c.share .compl = 0 then txq else min txq (c.share .compl)

/-- `max_q` as `idpf_vport_alloc_max_qs` leaves it: without a share of buffer or completion queues
the field keeps what was on the stack. -/
def maxQs (c : QueueCaps) (dflt : Bool) (junk : QueueKind → Nat) : QueueKind → Nat
  | .rx => c.maxRxq dflt
  | .tx => c.maxTxq dflt
  | .buf => if c.share .buf = 0 then junk .buf else c.maxRxq dflt * 2 % 65536
  | .compl => if c.share .compl = 0 then junk .compl else c.maxTxq dflt

/-- Every default vport has a share of the buffer queues and of the completion queues. -/
def shared (c : QueueCaps) : Bool :=
  c.defaultVports != 0 && c.share .buf != 0 && c.share .compl != 0

end QueueCaps

/-- A vport of the adapter: what it was granted, and whether its netdev is there. -/
structure GrantedVport where
  granted : QueueKind → Nat
  netdev : Bool

/-- Where the driver stops with an oops: dividing by no vports, writing behind the arrays that go
by vport, stopping a vport that has no netdev. -/
inductive PoolFault where
  | divide
  | slot
  | netdev
  deriving DecidableEq, Repr

/-- The adapter as far as it is about queues: `avail_queues`, the vports in their slots and the
`max_q` that their configs keep. -/
structure MaxQPool where
  caps : QueueCaps
  avail : QueueKind → Nat
  numAllocVports : Nat
  vports : Nat → Option GrantedVport
  configMaxQ : Nat → QueueKind → Nat
  nextVport : Option Nat
  hrResetInProg : Bool
  fault : Option PoolFault

/-- How building a vport goes on once it has its queues. `recorded` is whether `idpf_vport_init`
came to copy `max_q`, `netdev` whether the vport has its netdev when `idpf_cfg_netdev` fails. -/
inductive VportEnd where
  | createFailed
  | allocFailed (recorded : Bool)
  | cfgFailed (netdev : Bool)
  | done
  deriving DecidableEq, Repr

namespace MaxQPool

def defaultNext (s : MaxQPool) : Bool := s.numAllocVports < s.caps.defaultVports

/-- `max_q` for the next vport. -/
def nextMaxQs (s : MaxQPool) (junk : QueueKind → Nat) : QueueKind → Nat :=
  s.caps.maxQs s.defaultNext junk

/-- Whether `q` is there to be granted. -/
def covers (s : MaxQPool) (q : QueueKind → Nat) : Bool :=
  q .rx ≤ s.avail .rx && q .tx ≤ s.avail .tx && q .buf ≤ s.avail .buf && q .compl ≤ s.avail .compl

/-- `idpf_vport_alloc_max_qs`: whether it returns 0, with `max_q` and the adapter after it; `none`
where it divides by zero. -/
def allocMaxQs (s : MaxQPool) (junk : QueueKind → Nat) :
    Option (Bool × (QueueKind → Nat) × MaxQPool) :=
  if s.caps.defaultVports = 0 then none
  else
    let q := s.nextMaxQs junk
    if s.covers q then
      some (true, q, { s with avail := fun k => (s.avail k + 65536 - q k) % 65536 })
    else some (false, q, s)

/-- `idpf_vport_dealloc_max_qs` -/
def deallocMaxQs (s : MaxQPool) (q : QueueKind → Nat) : MaxQPool :=
  { s with avail := fun k => (s.avail k + q k) % 65536 }

/-- `idpf_vport_rel`, as far as it is about queues: what goes back is what the config keeps. -/
def vportRel (s : MaxQPool) (i : Nat) : MaxQPool :=
  let s := s.deallocMaxQs (s.configMaxQ i)
  { s with numAllocVports := (s.numAllocVports + 65535) % 65536 }

/-- `idpf_vport_dealloc` on the vport of a slot. `idpf_vport_stop` uses the netdev, and there is
one to stop unless a reset is in progress. -/
def deallocVport (s : MaxQPool) (i : Nat) : MaxQPool :=
  match s.vports i with
  | none => s
  | some v =>
    let s := { s with vports := Function.update s.vports i none }
    if !s.hrResetInProg && !v.netdev then { s with fault := some .netdev }
    else
      let s := s.vportRel i
      { s with nextVport := freeSlot s.caps.maxVports s.vports }

/-- Giving up the vports of some slots, one after the other. -/
def deallocVports (s : MaxQPool) : List Nat → MaxQPool
  | [] => s
  | i :: is =>
    let s := s.deallocVport i
    if s.fault.isSome then s else s.deallocVports is

/-- `unwind_vports` of `idpf_init_task`; `made` is the vport that was built, if it came to that. -/
def unwind (s : MaxQPool) (dflt : Bool) (made : Option Nat) : MaxQPool :=
  let s :=
    if dflt then s.deallocVports (List.range s.caps.maxVports)
    else
      match made with
      | none => s
      | some i => s.deallocVport i
  if s.fault.isSome then s else { s with hrResetInProg := false }

/-- `idpf_vport_alloc` where it succeeds. -/
def vportAlloc (s : MaxQPool) (i : Nat) (q : QueueKind → Nat) (netdev : Bool) : MaxQPool :=
  let s := { s with
    configMaxQ := Function.update s.configMaxQ i q
    vports := Function.update s.vports i (some ⟨q, netdev⟩)
    numAllocVports := (s.numAllocVports + 1) % 65536 }
  { s with nextVport := freeSlot s.caps.maxVports s.vports }

/-- `idpf_init_task` after the queues are granted. `idpf_send_create_vport_msg` uses the next slot
without looking whether there is one. -/
def build (s : MaxQPool) (dflt : Bool) (q : QueueKind → Nat) (e : VportEnd) : MaxQPool :=
  match s.nextVport with
  | none => { s with fault := some .slot }
  | some i =>
    if s.caps.maxVports ≤ i then { s with fault := some .slot }
    else
      match e with
      | .createFailed => (s.deallocMaxQs q).unwind dflt none
      | .allocFailed recorded =>
        let s :=
          if recorded then { s with configMaxQ := Function.update s.configMaxQ i q } else s
        (s.deallocMaxQs q).unwind dflt none
      | .cfgFailed netdev => (s.vportAlloc i q netdev).unwind dflt (some i)
      | .done =>
        let s := s.vportAlloc i q true
        if s.numAllocVports < s.caps.defaultVports then s else { s with hrResetInProg := false }

/-- `idpf_init_task` -/
def initTask (s : MaxQPool) (junk : QueueKind → Nat) (e : VportEnd) : MaxQPool :=
  match s.allocMaxQs junk with
  | none => { s with fault := some .divide }
  | some (false, _, s') => s'.unwind s.defaultNext none
  | some (true, q, s') => s'.build s.defaultNext q e

/-- A hard reset: all vports go, and the capabilities are asked for again. -/
def hardReset (s : MaxQPool) (c : QueueCaps) : MaxQPool :=
  let s := { s with hrResetInProg := true }.deallocVports (List.range s.caps.maxVports)
  if s.fault.isSome then s
  else
    { s with
      caps := c
      avail := c.maxQ }

inductive Op where
  | create (junk : QueueKind → Nat) (e : VportEnd)
  | release (i : Nat)
  | hardReset (c : QueueCaps)

def step (s : MaxQPool) (o : Op) : Option MaxQPool :=
  if s.fault.isSome then none
  else
    match o with
    | .create junk e => some (s.initTask junk e)
    | .release i => some (s.deallocVport i)
    | .hardReset c => some (s.hardReset c)

/-- The adapter as the driver loads: `idpf_init_avail_queues` has run and there is no vport. -/
def start (c : QueueCaps) : MaxQPool where
  caps := c
  avail := c.maxQ
  numAllocVports := 0
  vports := fun _ => none
  configMaxQ := fun _ _ => 0
  nextVport := some 0
  hrResetInProg := true
  fault := none

def held (s : MaxQPool) (k : QueueKind) : Nat :=
  slotSum s.caps.maxVports s.vports fun v => v.granted k

def live (s : MaxQPool) : Nat := slotSum s.caps.maxVports s.vports fun _ => 1

/-- What a state of the pool has to satisfy: an allocation divides by no zero, sets all of
`max_q`, takes no more than there is and leaves everything alone when it refuses, and what is
available and what the live vports hold is what the device advertised. -/
structure Sound (s : MaxQPool) : Prop where
  fault : s.fault ≠ some .divide
  divides : ∀ junk, s.allocMaxQs junk ≠ none
  sets : ∀ junk junk', s.nextMaxQs junk = s.nextMaxQs junk'
  granted : ∀ junk q t, s.allocMaxQs junk = some (true, q, t) →
    ∀ k, q k ≤ s.avail k ∧ t.avail k + q k = s.avail k
  refused : ∀ junk q t, s.allocMaxQs junk = some (false, q, t) → t = s
  conserved : ∀ k, s.avail k + s.held k = s.caps.maxQ k
  counted : s.numAllocVports = s.live

/-- The invariant of a run that has met no oops; `out` is granted and no vport holds it yet. -/
structure Kept (out : QueueKind → Nat) (s : MaxQPool) : Prop where
  fault : s.fault = none
  shared : s.caps.shared = true
  recorded : ∀ i v, s.vports i = some v → s.configMaxQ i = v.granted
  bounded : ∀ i v, s.vports i = some v → i < s.caps.maxVports
  free : ∀ i, s.nextVport = some i → s.vports i = none
  conserved : ∀ k, s.avail k + s.held k + out k = s.caps.maxQ k
  counted : s.numAllocVports = s.live

/-- A vport can be stopped: it has its netdev, or a reset is in progress. -/
def Stoppable (s : MaxQPool) (i : Nat) : Prop :=
  ∀ v, s.vports i = some v → s.hrResetInProg = true ∨ v.netdev = true

def Attached (s : MaxQPool) : Prop := ∀ i v, s.vports i = some v → v.netdev = true

variable {s t : MaxQPool} {i : Nat} {v : GrantedVport} {q junk out : QueueKind → Nat}

theorem deallocVport_none (empty : s.vports i = none) : s.deallocVport i = s := by
  simp only [deallocVport, empty]

theorem deallocVport_some (full : s.vports i = some v) (stop : s.Stoppable i) :
    s.deallocVport i =
      { s with
        vports := Function.update s.vports i none
        avail := fun k => (s.avail k + s.configMaxQ i k) % 65536
        numAllocVports := (s.numAllocVports + 65535) % 65536
        nextVport := freeSlot s.caps.maxVports (Function.update s.vports i none) } := by
  have quiet : (!s.hrResetInProg && !v.netdev) = false := by
    obtain reset | netdev := stop v full
    · rw [reset]
      rfl
    · rw [netdev, Bool.not_true, Bool.and_false]
  simp only [deallocVport, full, quiet, Bool.false_eq_true, if_false, vportRel, deallocMaxQs]

theorem live_le (s : MaxQPool) : s.live ≤ s.caps.maxVports := by
  unfold live slotSum
  calc ∑ j ∈ Finset.range s.caps.maxVports, (s.vports j).elim 0 (fun _ => 1)
      ≤ ∑ _j ∈ Finset.range s.caps.maxVports, 1 := by
        apply Finset.sum_le_sum
        intro j _
        cases s.vports j <;> simp
    _ = s.caps.maxVports := by simp

theorem Kept.deallocVport (kept : s.Kept out) (stop : s.Stoppable i) : (s.deallocVport i).Kept out := by
  cases full : s.vports i with
  | none =>
      rw [deallocVport_none full]
      exact kept
  | some v =>
      have inside := kept.bounded i v full
      have back : ∀ k, v.granted k +
          slotSum s.caps.maxVports (Function.update s.vports i none) (fun v => v.granted k) =
            s.held k := fun k => slotSum_empty inside full fun v => v.granted k
      have fewer : 1 + slotSum s.caps.maxVports (Function.update s.vports i none) (fun _ => 1) =
          s.live := slotSum_empty inside full fun _ => 1
      have others : ∀ j w, Function.update s.vports i none j = some w → s.vports j = some w := by
        intro j w here
        by_cases same : j = i
        · subst same
          rw [Function.update_self] at here
          exact absurd here.symm (Option.some_ne_none w)
        · rwa [Function.update_of_ne same] at here
      rw [deallocVport_some full stop]
      constructor
      · exact kept.fault
      · exact kept.shared
      · exact fun j w here => kept.recorded j w (others j w here)
      · exact fun j w here => kept.bounded j w (others j w here)
      · exact fun j next => (freeSlot_spec next).2
      · intro k
        have sum := kept.conserved k
        have bound := s.caps.maxQ_lt k
        have before := back k
        change (s.avail k + s.configMaxQ i k) % 65536 +
          slotSum s.caps.maxVports (Function.update s.vports i none) (fun v => v.granted k) +
            out k = s.caps.maxQ k
        rw [kept.recorded i v full, Nat.mod_eq_of_lt (by omega)]
        omega
      · have count := kept.counted
        have most := s.live_le
        have bound := s.caps.maxVports_lt
        change (s.numAllocVports + 65535) % 65536 =
          slotSum s.caps.maxVports (Function.update s.vports i none) (fun _ => 1)
        omega

@[simp] theorem deallocVport_caps (s : MaxQPool) (i : Nat) : (s.deallocVport i).caps = s.caps := by
  unfold deallocVport
  split
  · rfl
  · dsimp only
    split <;> rfl

@[simp] theorem deallocVport_hrResetInProg (s : MaxQPool) (i : Nat) :
    (s.deallocVport i).hrResetInProg = s.hrResetInProg := by
  unfold deallocVport
  split
  · rfl
  · dsimp only
    split <;> rfl

theorem deallocVport_vports (s : MaxQPool) (i : Nat) :
    (s.deallocVport i).vports = Function.update s.vports i none := by
  unfold deallocVport
  split
  next empty => rw [← empty, Function.update_eq_self]
  next =>
    dsimp only
    split <;> rfl

theorem Stoppable.deallocVport {j : Nat} (stop : s.Stoppable j) :
    (s.deallocVport i).Stoppable j := by
  intro v full
  rw [deallocVport_vports] at full
  rw [deallocVport_hrResetInProg]
  exact stop v (emptied_ne full).2

theorem Kept.deallocVports {is : List Nat} (kept : s.Kept out) (stop : ∀ i, s.Stoppable i) :
    (s.deallocVports is).Kept out := by
  induction is generalizing s with
  | nil => exact kept
  | cons i is ih =>
      have next := kept.deallocVport (stop i)
      unfold MaxQPool.deallocVports
      simp only [next.fault, Option.isSome_none, Bool.false_eq_true, if_false]
      exact ih next fun j => (stop j).deallocVport

theorem Kept.deallocVports_vports {is : List Nat} (kept : s.Kept out) (stop : ∀ i, s.Stoppable i)
    (j : Nat) : (s.deallocVports is).vports j = if j ∈ is then none else s.vports j := by
  induction is generalizing s with
  | nil => simp [MaxQPool.deallocVports]
  | cons i is ih =>
      have next := kept.deallocVport (stop i)
      unfold MaxQPool.deallocVports
      simp only [next.fault, Option.isSome_none, Bool.false_eq_true, if_false]
      rw [ih next fun j => (stop j).deallocVport, deallocVport_vports]
      by_cases same : j = i
      · simp [same]
      · simp [same]

theorem Kept.deallocAll (kept : s.Kept out) (stop : ∀ i, s.Stoppable i) (j : Nat) :
    (s.deallocVports (List.range s.caps.maxVports)).vports j = none := by
  rw [kept.deallocVports_vports stop]
  simp only [List.mem_range]
  split
  · rfl
  next outside =>
    cases full : s.vports j with
    | none => rfl
    | some v => exact absurd (kept.bounded j v full) outside

theorem Attached.stoppable (attached : s.Attached) (i : Nat) : s.Stoppable i := by
  intro v full
  exact .inr (attached i v full)

theorem Kept.deallocMaxQs (kept : s.Kept out) : (s.deallocMaxQs out).Kept fun _ => 0 := by
  constructor
  · exact kept.fault
  · exact kept.shared
  · exact kept.recorded
  · exact kept.bounded
  · exact kept.free
  · intro k
    have sum := kept.conserved k
    have bound := s.caps.maxQ_lt k
    change (s.avail k + out k) % 65536 + s.held k + 0 = s.caps.maxQ k
    omega
  · exact kept.counted

/-- What `idpf_vport_init` copies into the config of a free slot touches no vport. -/
theorem Kept.record (kept : s.Kept out) (next : s.nextVport = some i) (q : QueueKind → Nat) :
    ({ s with configMaxQ := Function.update s.configMaxQ i q } : MaxQPool).Kept out := by
  constructor
  · exact kept.fault
  · exact kept.shared
  · intro j v full
    have other : j ≠ i := by
      intro same
      subst same
      rw [kept.free j next] at full
      exact absurd full.symm (Option.some_ne_none v)
    change Function.update s.configMaxQ i q j = v.granted
    rw [Function.update_of_ne other]
    exact kept.recorded j v full
  · exact kept.bounded
  · exact kept.free
  · exact kept.conserved
  · exact kept.counted

theorem Kept.vportAlloc (kept : s.Kept q) (next : s.nextVport = some i)
    (inside : i < s.caps.maxVports) (netdev : Bool) :
    (s.vportAlloc i q netdev).Kept fun _ => 0 := by
  have empty := kept.free i next
  have more : ∀ k, slotSum s.caps.maxVports (Function.update s.vports i (some ⟨q, netdev⟩))
      (fun v => v.granted k) = q k + s.held k :=
    fun k => slotSum_fill inside empty _ fun v : GrantedVport => v.granted k
  have count : slotSum s.caps.maxVports (Function.update s.vports i (some ⟨q, netdev⟩))
      (fun _ => 1) = 1 + s.live := slotSum_fill inside empty _ fun _ => 1
  have after : (s.vportAlloc i q netdev).live ≤ s.caps.maxVports := live_le _
  constructor
  · exact kept.fault
  · exact kept.shared
  · intro j v full
    change Function.update s.configMaxQ i q j = v.granted
    obtain ⟨rfl, rfl⟩ | ⟨other, before⟩ := filled_cases full
    · rw [Function.update_self]
    · rw [Function.update_of_ne other]
      exact kept.recorded j v before
  · intro j v full
    obtain ⟨rfl, -⟩ | ⟨-, before⟩ := filled_cases full
    · exact inside
    · exact kept.bounded j v before
  · exact fun j free => (freeSlot_spec free).2
  · intro k
    have sum := kept.conserved k
    change s.avail k + slotSum s.caps.maxVports (Function.update s.vports i (some ⟨q, netdev⟩))
      (fun v => v.granted k) + 0 = s.caps.maxQ k
    rw [more k]
    omega
  · have bound := s.caps.maxVports_lt
    have before := kept.counted
    replace after : slotSum s.caps.maxVports (Function.update s.vports i (some ⟨q, netdev⟩))
      (fun _ => 1) ≤ s.caps.maxVports := after
    change (s.numAllocVports + 1) % 65536 =
      slotSum s.caps.maxVports (Function.update s.vports i (some ⟨q, netdev⟩)) (fun _ => 1)
    omega

theorem Kept.quiet (kept : s.Kept out) : s.fault.isSome = false := by
  rw [kept.fault]
  rfl

theorem Kept.setReset (kept : s.Kept out) (on : Bool) :
    ({ s with hrResetInProg := on } : MaxQPool).Kept out :=
  { kept with }

/-- What a refused or failed creation leaves: the books as they were, and vports that all have
their netdev. -/
theorem Kept.unwind {dflt : Bool} {made : Option Nat} (kept : s.Kept out)
    (stop : ∀ i, s.Stoppable i)
    (others : ∀ j v, made ≠ some j → s.vports j = some v → v.netdev = true) :
    (s.unwind dflt made).Kept out ∧ (s.unwind dflt made).Attached := by
  unfold MaxQPool.unwind
  cases dflt with
  | true =>
      have all : (s.deallocVports (List.range s.caps.maxVports)).Kept out :=
        kept.deallocVports stop
      simp only [if_true, all.quiet, Bool.false_eq_true, if_false]
      constructor
      · exact all.setReset false
      · intro j v full
        exact absurd (full.symm.trans (kept.deallocAll stop j)) (Option.some_ne_none v)
  | false =>
      cases made with
      | none =>
          simp only [Bool.false_eq_true, if_false, kept.quiet]
          constructor
          · exact kept.setReset false
          · exact fun j v full => others j v (Option.some_ne_none j).symm full
      | some i =>
          have one := kept.deallocVport (stop i)
          simp only [Bool.false_eq_true, if_false, one.quiet]
          constructor
          · exact one.setReset false
          · intro j v full
            replace full : (s.deallocVport i).vports j = some v := full
            rw [deallocVport_vports] at full
            obtain ⟨other, before⟩ := emptied_ne full
            exact others j v (fun eq => other (Option.some.inj eq).symm) before

/-- `idpf_vport_alloc_max_qs` where every default vport has its shares. -/
theorem Kept.allocMaxQs (kept : s.Kept fun _ => 0) (junk : QueueKind → Nat) :
    (∃ t, s.allocMaxQs junk = some (true, s.nextMaxQs junk, t) ∧ t.Kept (s.nextMaxQs junk) ∧
      t.vports = s.vports ∧ t.hrResetInProg = s.hrResetInProg ∧ t.nextVport = s.nextVport ∧
      t.caps = s.caps ∧
      ∀ k, s.nextMaxQs junk k ≤ s.avail k ∧ t.avail k + s.nextMaxQs junk k = s.avail k) ∨
    s.allocMaxQs junk = some (false, s.nextMaxQs junk, s) := by
  have split := kept.shared
  simp only [QueueCaps.shared, Bool.and_eq_true, bne_iff_ne, ne_eq] at split
  unfold MaxQPool.allocMaxQs
  rw [if_neg split.1.1]
  dsimp only
  cases enough : s.covers (s.nextMaxQs junk) with
  | false => exact .inr rfl
  | true =>
      left
      simp only [covers, Bool.and_eq_true, decide_eq_true_eq] at enough
      obtain ⟨⟨⟨rx, tx⟩, buf⟩, compl⟩ := enough
      have fits : ∀ k, s.nextMaxQs junk k ≤ s.avail k := by
        intro k
        cases k <;> assumption
      have taken : ∀ k, (s.avail k + 65536 - s.nextMaxQs junk k) % 65536 + s.nextMaxQs junk k =
          s.avail k := by
        intro k
        have enough := fits k
        have sum := kept.conserved k
        have bound := s.caps.maxQ_lt k
        omega
      refine ⟨_, rfl, ?_, rfl, rfl, rfl, rfl, fun k => ⟨fits k, taken k⟩⟩
      constructor
      · exact kept.fault
      · exact kept.shared
      · exact kept.recorded
      · exact kept.bounded
      · exact kept.free
      · intro k
        have sum := kept.conserved k
        have after := taken k
        change (s.avail k + 65536 - s.nextMaxQs junk k) % 65536 + s.held k + s.nextMaxQs junk k =
          s.caps.maxQ k
        omega
      · exact kept.counted

/-- With shares of everything no field of `max_q` is left as it was on the stack. -/
theorem nextMaxQs_eq (shared : s.caps.shared = true) (junk junk' : QueueKind → Nat) :
    s.nextMaxQs junk = s.nextMaxQs junk' := by
  simp only [QueueCaps.shared, Bool.and_eq_true, bne_iff_ne, ne_eq] at shared
  funext k
  cases k with
  | rx => rfl
  | tx => rfl
  | buf => simp only [nextMaxQs, QueueCaps.maxQs, shared.1.2, if_false]
  | compl => simp only [nextMaxQs, QueueCaps.maxQs, shared.2, if_false]

/-- Without them some field is, or the allocation divides by zero. -/
theorem shared_of_sound (sound : s.Sound) : s.caps.shared = true := by
  have nonzero : s.caps.defaultVports ≠ 0 := by
    intro zero
    apply sound.divides fun _ => 0
    simp only [MaxQPool.allocMaxQs, zero, if_true]
  have buf : s.caps.share .buf ≠ 0 := by
    intro zero
    have same := congrFun (sound.sets (fun _ => 0) fun _ => 1) .buf
    simp only [nextMaxQs, QueueCaps.maxQs, zero, if_true] at same
    exact Nat.zero_ne_one same
  have compl : s.caps.share .compl ≠ 0 := by
    intro zero
    have same := congrFun (sound.sets (fun _ => 0) fun _ => 1) .compl
    simp only [nextMaxQs, QueueCaps.maxQs, zero, if_true] at same
    exact Nat.zero_ne_one same
  simp only [QueueCaps.shared, Bool.and_eq_true, bne_iff_ne, ne_eq]
  exact ⟨⟨nonzero, buf⟩, compl⟩

theorem Kept.sound (kept : s.Kept fun _ => 0) : s.Sound := by
  constructor
  · rw [kept.fault]
    exact fun h => absurd h.symm (Option.some_ne_none _)
  · intro junk none
    obtain ⟨t, granted, _⟩ | refused := kept.allocMaxQs junk
    · exact absurd (granted.symm.trans none) (Option.some_ne_none _)
    · exact absurd (refused.symm.trans none) (Option.some_ne_none _)
  · exact nextMaxQs_eq kept.shared
  · intro junk q t alloc
    obtain ⟨u, granted, _, _, _, _, _, fits⟩ | refused := kept.allocMaxQs junk
    · have same := Option.some.inj (granted.symm.trans alloc)
      simp only [Prod.mk.injEq, true_and] at same
      rw [← same.1, ← same.2]
      exact fits
    · have same := Option.some.inj (refused.symm.trans alloc)
      exact Bool.noConfusion (congrArg Prod.fst same)
  · intro junk q t alloc
    obtain ⟨u, granted, _⟩ | refused := kept.allocMaxQs junk
    · have same := Option.some.inj (granted.symm.trans alloc)
      exact Bool.noConfusion (congrArg Prod.fst same)
    · have same := Option.some.inj (refused.symm.trans alloc)
      exact (congrArg (fun r => r.2.2) same).symm
  · exact kept.conserved
  · exact kept.counted

/-- The next vport has a slot among those of the adapter. -/
def slotFree (s : MaxQPool) : Bool :=
  match s.nextVport with
  | none => false
  | some i => i < s.caps.maxVports

/-- The steps that keep the pool: a hard reset finds capabilities with shares of everything, a
vport that is granted queues has a free slot, and `idpf_cfg_netdev` fails before there is a netdev
only while a reset is in progress. -/
def ok (s : MaxQPool) : Op → Bool
  | .create junk e =>
    !s.covers (s.nextMaxQs junk) || (s.slotFree &&
      match e with
      | .cfgFailed netdev => s.hrResetInProg || netdev
      | _ => true)
  | .release _ => true
  | .hardReset c => c.shared

def Inv (s : MaxQPool) : Prop := s.Kept (fun _ => 0) ∧ s.Attached

theorem start_inv {c : QueueCaps} (shared : c.shared = true) : (start c).Inv := by
  constructor
  · constructor
    · rfl
    · exact shared
    · exact fun i v full => absurd full.symm (Option.some_ne_none v)
    · exact fun i v full => absurd full.symm (Option.some_ne_none v)
    · exact fun _ _ => rfl
    · intro k
      simp [start, held]
    · simp [start, live]
  · exact fun i v full => absurd full.symm (Option.some_ne_none v)

theorem Inv.unwind_none {dflt : Bool} (inv : s.Inv) : (s.unwind dflt none).Inv :=
  inv.1.unwind inv.2.stoppable fun j v _ full => inv.2 j v full

/-- Building a vport that was granted `q`, to its end or to a failure. -/
theorem Kept.build {e : VportEnd} {dflt : Bool} (kept : s.Kept q) (attached : s.Attached)
    (free : s.slotFree = true)
    (mild : ∀ netdev, e = .cfgFailed netdev → s.hrResetInProg = true ∨ netdev = true) :
    (s.build dflt q e).Inv := by
  unfold slotFree at free
  unfold MaxQPool.build
  split
  next none =>
    rw [none] at free
    exact Bool.noConfusion free
  next i next =>
    rw [next] at free
    have inside : i < s.caps.maxVports := of_decide_eq_true free
    rw [if_neg (Nat.not_le.mpr inside)]
    have built : ∀ netdev j v, some i ≠ some j →
        (s.vportAlloc i q netdev).vports j = some v → v.netdev = true := by
      intro netdev j v other full
      replace full : Function.update s.vports i (some ⟨q, netdev⟩) j = some v := full
      rw [Function.update_of_ne fun same => other (congrArg some same.symm)] at full
      exact attached j v full
    have own : ∀ netdev v, (s.vportAlloc i q netdev).vports i = some v → v.netdev = netdev := by
      intro netdev v full
      replace full : Function.update s.vports i (some ⟨q, netdev⟩) i = some v := full
      rw [Function.update_self] at full
      exact (congrArg GrantedVport.netdev (Option.some.inj full)).symm
    cases e with
    | createFailed =>
        apply Inv.unwind_none
        exact ⟨kept.deallocMaxQs, attached⟩
    | allocFailed recorded =>
        apply Inv.unwind_none
        cases recorded with
        | false => exact ⟨kept.deallocMaxQs, attached⟩
        | true => exact ⟨(kept.record next q).deallocMaxQs, attached⟩
    | cfgFailed netdev =>
        apply (kept.vportAlloc next inside netdev).unwind
        · intro j v full
          by_cases same : j = i
          · subst same
            obtain reset | there := mild netdev rfl
            · exact .inl reset
            · exact .inr ((own netdev v full).trans there)
          · exact .inr (built netdev j v (fun eq => same (Option.some.inj eq).symm) full)
        · exact built netdev
    | done =>
        have kept := kept.vportAlloc next inside true
        have attached : (s.vportAlloc i q true).Attached := by
          intro j v full
          by_cases same : j = i
          · subst same
            exact own true v full
          · exact built true j v (fun eq => same (Option.some.inj eq).symm) full
        dsimp only
        split
        · exact ⟨kept, attached⟩
        · exact ⟨kept.setReset false, attached⟩

theorem Inv.initTask {e : VportEnd} (inv : s.Inv) (good : s.ok (.create junk e) = true) :
    (s.initTask junk e).Inv := by
  unfold MaxQPool.initTask
  obtain ⟨t, granted, kept, vports, reset, next, caps, fits⟩ | refused := inv.1.allocMaxQs junk
  · rw [granted]
    have enough : s.covers (s.nextMaxQs junk) = true := by
      simp only [covers, Bool.and_eq_true, decide_eq_true_eq]
      exact ⟨⟨⟨(fits .rx).1, (fits .tx).1⟩, (fits .buf).1⟩, (fits .compl).1⟩
    simp only [ok, enough, Bool.not_true, Bool.false_or, Bool.and_eq_true] at good
    apply kept.build
    · intro j v full
      rw [vports] at full
      exact inv.2 j v full
    · unfold slotFree
      rw [next, caps]
      exact good.1
    · intro netdev failed
      subst failed
      rw [reset]
      exact Bool.or_eq_true _ _ |>.mp good.2
  · rw [refused]
    exact inv.unwind_none

theorem Inv.deallocVport (inv : s.Inv) : (s.deallocVport i).Inv := by
  constructor
  · exact inv.1.deallocVport (inv.2.stoppable i)
  · intro j v full
    rw [deallocVport_vports] at full
    exact inv.2 j v (emptied_ne full).2

theorem Inv.hardReset {c : QueueCaps} (inv : s.Inv) (shared : c.shared = true) :
    (s.hardReset c).Inv := by
  have stop : ∀ i, ({ s with hrResetInProg := true } : MaxQPool).Stoppable i :=
    fun i v full => .inl rfl
  have kept : (({ s with hrResetInProg := true } : MaxQPool).deallocVports
      (List.range s.caps.maxVports)).Kept fun _ => 0 := (inv.1.setReset true).deallocVports stop
  have gone := (inv.1.setReset true).deallocAll stop
  unfold MaxQPool.hardReset
  simp only [kept.quiet, Bool.false_eq_true, if_false]
  have count := kept.counted
  simp only [live, slotSum, gone, Option.elim_none, Finset.sum_const_zero] at count
  constructor
  · constructor
    · exact kept.fault
    · exact shared
    · exact fun i v full => absurd (full.symm.trans (gone i)) (Option.some_ne_none v)
    · exact fun i v full => absurd (full.symm.trans (gone i)) (Option.some_ne_none v)
    · exact fun i _ => gone i
    · intro k
      simp [held, slotSum, gone]
    · simpa [live, slotSum, gone] using count
  · exact fun i v full => absurd (full.symm.trans (gone i)) (Option.some_ne_none v)

theorem Inv.step {o : Op} (inv : s.Inv) (good : s.ok o = true) (run : s.step o = some t) :
    t.Inv := by
  unfold MaxQPool.step at run
  simp only [inv.1.quiet, Bool.false_eq_true, if_false] at run
  cases o with
  | create junk e =>
      obtain rfl := Option.some.inj run
      exact inv.initTask good
  | release i =>
      obtain rfl := Option.some.inj run
      exact inv.deallocVport
  | hardReset c =>
      obtain rfl := Option.some.inj run
      exact inv.hardReset good

end MaxQPool

open MaxQPool

/-- The runs of the pool that keep to `ok` are sound, for any number of vports built, failed and
released and any number of hard resets, if and only if the capabilities give every default vport
a share of the buffer queues and of the completion queues. -/
theorem max_qs_sound_iff (c : QueueCaps) :
    (∀ s, Reachable MaxQPool.step (fun s o => s.ok o = true) (· = start c) s → s.Sound) ↔
      c.shared = true := by
  constructor
  · intro sound
    exact shared_of_sound (sound _ (.start rfl))
  · intro shared s reach
    have inv : s.Inv := by
      apply reach.invariant
      · rintro _ rfl
        exact start_inv shared
      · exact fun s o t inv good run => inv.step good run
    exact inv.1.sound

/-- A device in the single queue model, as the driver describes it: no buffer queues and no
completion queues. -/
def singleqMaxQ : QueueKind → Nat
  | .rx => 16
  | .tx => 16
  | .buf => 0
  | .compl => 0

theorem singleqMaxQ_lt (k : QueueKind) : singleqMaxQ k < 65536 := by
  cases k <;> decide

def singleqCaps : QueueCaps := ⟨singleqMaxQ, 1, 1, singleqMaxQ_lt, Nat.lt_of_sub_eq_succ rfl⟩

/-- On the first vport of such a device the stack decides whether there is a grant. -/
theorem stack_decides_grant :
    ¬ (∀ c s, Reachable MaxQPool.step anyStep (· = start c) s → s.Sound) ∧
      ((start singleqCaps).allocMaxQs fun _ => 0).map Prod.fst = some true ∧
      ((start singleqCaps).allocMaxQs fun _ => 1).map Prod.fst = some false := by
  refine ⟨fun sound => ?_, by decide, by decide⟩
  have shared := shared_of_sound (sound singleqCaps _ (.start rfl))
  exact absurd shared (by decide)

end Idpf
