import Idpf.General.Heap
import Idpf.General.Transition
import Mathlib.Tactic.Abel

/-! What a vport has taken when it is there, and what an attempt to make one leaves behind when it
fails. -/
namespace Idpf
open General

/-- What an attempt with a number has taken. `device` is the vport that the device has made,
`vectors` are the indexes in `q_vector_idxs`. -/
inductive VportRes where
  | vportMsg (n : Nat)
  | params (n : Nat)
  | device (n : Nat)
  | vport (n : Nat)
  | config (n : Nat)
  | qCoalesce (n : Nat)
  | affinity (n : Nat)
  | vectorIdxs (n : Nat)
  | queueChunks (n : Nat)
  | portStats (n : Nat)
  | vectors (n : Nat)
  | tstampCaps (n : Nat)
  | latch (n i : Nat)
  | rssKey (n : Nat)
  deriving DecidableEq, Repr

/-- `struct idpf_vport_config`, which outlives the vport. -/
structure VportConfigMem where
  serial : Nat
  affinity : Bool
  queueChunks : Option Nat
  rssKey : Option Nat
  deriving DecidableEq, Repr

/-- `vport_config[idx]`; `freed` is a pointer to a configuration that has been freed. -/
inductive VportConfigPtr where
  | null | freed
  | to (c : VportConfigMem)
  deriving DecidableEq, Repr

/-- `struct idpf_vport`: its statistics, its vectors and its latches for Tx timestamps, where it has
them. -/
structure VportMem where
  serial : Nat
  portStats : Bool
  vectors : Bool
  latches : Option Nat
  deriving DecidableEq, Repr

/-- What comes of asking the device for Tx timestamps. -/
inductive TstampReply where
  | unsupported | failed
  | latches (num : Nat)
  deriving DecidableEq, Repr

/-- What the device says of the vport that it has made. -/
structure VportReply where
  mtuOk : Bool
  uplink : Bool
  tstamps : TstampReply
  deriving DecidableEq, Repr

/-- Which allocations and requests are granted. `affinityConfig` is a kernel without
`HAVE_NETDEV_IRQ_AFFINITY_AND_ARFS`, `uplinkPortStats` is `CONFIG_UPLINK_PORT_STATS`. -/
structure VportMemEnv where
  grants : Grants
  affinityConfig : Bool
  uplinkPortStats : Bool

/-- A slot of the adapter: `vport_params_recvd[idx]`, `vport_config[idx]` and `vports[idx]`. Nothing
points to what is `lost`. -/
structure VportSlotMem where
  heap : Heap VportRes
  next : Nat
  params : Option Nat
  config : VportConfigPtr
  vport : Option VportMem
  lost : Multiset VportRes

/-- What a pointer that may be NULL points to. -/
def pointee (r : Nat → VportRes) (p : Option Nat) : Multiset VportRes := p.elim 0 fun n => {r n}

/-- `kfree` of such a pointer. -/
def kfree (r : Nat → VportRes) (p : Option Nat) (h : Heap VportRes) : Heap VportRes :=
  p.elim h fun n => h.free (r n)

def VportMem.bare (n : Nat) : VportMem := ⟨n, false, false, none⟩

namespace VportMemEnv

variable (e : VportMemEnv) (n : Nat)

/-- The allocations of `idpf_ptp_get_vport_tstamps_caps` that stay. -/
def takeCaps (num : Nat) : Heap VportRes → Heap VportRes × Bool :=
  Heap.andThen (Heap.alloc e.grants (.tstampCaps n))
    (Heap.takeAll (fun i => Heap.alloc e.grants (.latch n i)) (fun i => Heap.free (.latch n i)) num)
    (Heap.free (.tstampCaps n))

/-- `idpf_ptp_get_vport_tstamps_caps`, with the latches that the vport gets. That they are not
supported is no error for `idpf_vport_init`. -/
def getTstampsCaps (r : TstampReply) (h : Heap VportRes) : Heap VportRes × Option Nat × Bool :=
  match r with
  | .unsupported => (h, none, true)
  | .failed => (h, none, false)
  | .latches 0 => (h, none, true)
  | .latches num =>
    let t := e.takeCaps n num h
    (t.1, if t.2 then some num else none, t.2)

/-- `idpf_vport_init` from the queues on. That there are no vectors is no error. -/
def initQueues (stats : Bool) (r : VportReply) (h : Heap VportRes) :
    Heap VportRes × VportMem × Bool :=
  let v := Heap.alloc e.grants (.vectors n) h
  let t := if r.uplink then e.getTstampsCaps n r.tstamps v.1 else (v.1, none, true)
  (t.1, ⟨n, stats, v.2, t.2.1⟩, t.2.2)

/-- `idpf_vport_init` behind the MTU. -/
def initRest (r : VportReply) (h : Heap VportRes) : Heap VportRes × VportMem × Bool :=
  if r.uplink && e.uplinkPortStats then
    let b := Heap.alloc e.grants (.portStats n) h
    if b.2 then e.initQueues n true r b.1 else (b.1, .bare n, false)
  else e.initQueues n false r h

/-- `idpf_vport_init`, with the pointer to the chunks of queues that it leaves. -/
def vportInit (r : VportReply) (chunks : Option Nat) (h : Heap VportRes) :
    Heap VportRes × Option Nat × VportMem × Bool :=
  let a := Heap.alloc e.grants (.queueChunks n) (kfree .queueChunks chunks h)
  if a.2 then
    if r.mtuOk then
      let i := e.initRest n r a.1
      (i.1, some n, i.2)
    else (a.1.free (.queueChunks n), none, .bare n, false)
  else (a.1, none, .bare n, false)

/-- What `idpf_vport_alloc` does when there is no configuration, with the pointer that it leaves. -/
def allocConfig (h : Heap VportRes) : Heap VportRes × VportConfigPtr :=
  let a := Heap.andThen (Heap.alloc e.grants (.config n)) (Heap.alloc e.grants (.qCoalesce n))
    (Heap.free (.config n)) h
  if a.2 then
    if e.affinityConfig then
      let b := Heap.alloc e.grants (.affinity n) a.1
      if b.2 then (b.1, .to ⟨n, true, none, none⟩) else (b.1.free (.config n), .freed)
    else (a.1, .to ⟨n, false, none, none⟩)
  else (a.1, .null)

end VportMemEnv

namespace VportMem

variable (v : VportMem)

def caps : Multiset VportRes :=
  v.latches.elim 0 fun num =>
    Heap.total (fun i => {VportRes.latch v.serial i}) num + {VportRes.tstampCaps v.serial}

/-- What `idpf_vport_init` has taken for a vport. -/
def taken : Multiset VportRes :=
  (if v.portStats then {VportRes.portStats v.serial} else 0) +
    (if v.vectors then {VportRes.vectors v.serial} else 0) + v.caps

def own : Multiset VportRes :=
  {VportRes.vport v.serial} + {VportRes.vectorIdxs v.serial} + v.taken

def mem : Multiset VportRes := v.own + {VportRes.device v.serial}

end VportMem

def VportConfigMem.mem (c : VportConfigMem) : Multiset VportRes :=
  {VportRes.config c.serial} + {VportRes.qCoalesce c.serial} +
    (if c.affinity then {VportRes.affinity c.serial} else 0) +
    (pointee .queueChunks c.queueChunks + pointee .rssKey c.rssKey)

def VportConfigPtr.mem : VportConfigPtr → Multiset VportRes
  | .to c => c.mem
  | _ => 0

namespace VportSlotMem

variable (e : VportMemEnv) (s : VportSlotMem)

/-- `idpf_send_create_vport_msg`. The pointer to the last reply is overwritten. -/
def sendCreateVportMsg : VportSlotMem × Bool :=
  let a := Heap.alloc e.grants (.vportMsg s.next) s.heap
  if a.2 then
    let b := Heap.andThen (Heap.alloc e.grants (.params s.next))
      (Heap.alloc e.grants (.device s.next)) (Heap.free (.params s.next)) a.1
    ({ s with
      heap := b.1.free (.vportMsg s.next)
      params := if b.2 then some s.next else none
      lost := s.lost + pointee .params s.params }, b.2)
  else ({ s with heap := a.1 }, false)

/-- `idpf_vport_alloc` from `q_vector_idxs` on, with the configuration `c`. -/
def allocWith (r : VportReply) (c : VportConfigMem) : VportSlotMem × Bool :=
  let n := s.next
  let d := Heap.alloc e.grants (.vectorIdxs n) s.heap
  if d.2 then
    let i := e.vportInit n r c.queueChunks d.1
    let c := { c with queueChunks := i.2.1 }
    if i.2.2.2 then
      let k := Heap.alloc e.grants (.rssKey n) i.1
      if k.2 then
        ({ s with
          heap := k.1
          config := .to { c with rssKey := some n }
          vport := some i.2.2.1 }, true)
      else
        ({ s with
          heap := ((kfree .queueChunks c.queueChunks k.1).free (.vectorIdxs n)).free (.vport n)
          config := .to { c with queueChunks := none, rssKey := none }
          lost := s.lost + i.2.2.1.taken }, false)
    else
      ({ s with
        heap := (i.1.free (.vectorIdxs n)).free (.vport n)
        config := .to c
        lost := s.lost + i.2.2.1.taken }, false)
  else ({ s with heap := d.1.free (.vport n), config := .to c }, false)

/-- `idpf_vport_alloc`. Once it follows a pointer to a freed configuration nothing more is said. -/
def vportAlloc (r : VportReply) : VportSlotMem × Bool :=
  let n := s.next
  let a := Heap.alloc e.grants (.vport n) s.heap
  if a.2 then
    match s.config with
    | .to c => { s with heap := a.1 }.allocWith e r c
    | .freed => ({ s with heap := { a.1 with bad := true } }, false)
    | .null =>
      let b := e.allocConfig n a.1
      match b.2 with
      | .to c => { s with heap := b.1 }.allocWith e r c
      | .null => ({ s with heap := b.1.free (.vport n) }, false)
      | .freed =>
        -- `q_coalesce` was reached through the configuration.
        ({ s with
          heap := b.1.free (.vport n)
          config := .freed
          lost := s.lost + {VportRes.qCoalesce n} }, false)
  else ({ s with heap := a.1 }, false)

/-- The attempt of `idpf_init_task`. Where there is no vport, nobody knows that of the device. -/
def create (r : VportReply) : VportSlotMem :=
  let a := s.sendCreateVportMsg e
  if a.2 then
    let b := a.1.vportAlloc e r
    if b.2 then { b.1 with next := s.next + 1 }
    else { b.1 with next := s.next + 1, lost := b.1.lost + {VportRes.device s.next} }
  else { a.1 with next := s.next + 1 }

/-- `idpf_vport_rel`; the device may not be reached. -/
def rel (v : VportMem) (c : VportConfigMem) (destroyed : Bool) : VportSlotMem :=
  let n := v.serial
  let h := kfree .rssKey c.rssKey s.heap
  let h := if destroyed then h.free (.device n) else h
  let h := if v.vectors then h.free (.vectors n) else h
  let h := h.free (.vectorIdxs n)
  let h := if v.portStats then h.free (.portStats n) else h
  let h := kfree .queueChunks c.queueChunks h
  let h := kfree .params s.params h
  { s with
    heap := h.free (.vport n)
    params := none
    config := .to { c with queueChunks := none, rssKey := none }
    vport := none
    lost := s.lost + ((if destroyed then 0 else {VportRes.device n}) + v.caps) }

/-- `idpf_ptp_release_vport_tstamp`, where the vport has latches. -/
def ptpRelease (v : VportMem) : VportSlotMem :=
  match v.latches with
  | some num =>
    { s with
      heap := (Heap.dropAll (fun i => Heap.free (.latch v.serial i)) num s.heap).free
        (.tstampCaps v.serial)
      vport := some { v with latches := none } }
  | none => s

/-- `idpf_vport_params_buf_rel` frees the table. -/
def paramsBufRel : VportSlotMem :=
  { s with params := none, lost := s.lost + pointee .params s.params }

/-- `idpf_remove` and `idpf_destroy_sf` free a configuration. -/
def freeConfig : VportSlotMem :=
  match s.config with
  | .null => s
  | .freed => { s with heap := { s.heap with bad := true } }
  | .to c =>
    let h := s.heap.free (.qCoalesce c.serial)
    let h := if c.affinity then h.free (.affinity c.serial) else h
    { s with
      heap := h.free (.config c.serial)
      config := .null
      lost := s.lost + (pointee .queueChunks c.queueChunks + pointee .rssKey c.rssKey) }

end VportSlotMem

/-- What is done with a slot. -/
inductive VportSlotOp where
  | create (r : VportReply)
  | rel (destroyed : Bool)
  | ptpRelease
  | paramsBufRel
  | freeConfig
  deriving DecidableEq, Repr

namespace VportSlotMem

def step (e : VportMemEnv) (s : VportSlotMem) : VportSlotOp → Option VportSlotMem
  | .create r =>
    match s.vport with
    | none => some (s.create e r)
    | some _ => none
  | .rel destroyed =>
    match s.vport, s.config with
    | some v, .to c => some (s.rel v c destroyed)
    | _, _ => none
  | .ptpRelease => s.vport.map s.ptpRelease
  | .paramsBufRel =>
    match s.vport with
    | none => some s.paramsBufRel
    | some _ => none
  | .freeConfig =>
    match s.vport with
    | none => some s.freeConfig
    | some _ => none

def start : VportSlotMem := ⟨.empty, 0, none, .null, none, 0⟩

/-- An attempt does not make a configuration for which there is no memory for the affinity of its
vectors, and nobody asks for the configuration when it has been freed. -/
def ok (e : VportMemEnv) (s : VportSlotMem) : VportSlotOp → Bool
  | .create _ => decide (s.config ≠ .null) || !(e.affinityConfig &&
      ((List.range 6).all fun i => e.grants (s.heap.asked + i)) && !e.grants (s.heap.asked + 6))
  | _ => true

/-- An attempt makes a vport if the device has made one, and when a vport is let go of the device
takes it back and its latches have been released. -/
def careful (e : VportMemEnv) (s : VportSlotMem) : VportSlotOp → Bool
  | .create r => !(s.sendCreateVportMsg e).2 || (s.create e r).vport.isSome
  | .rel destroyed => destroyed && s.vport.all fun v => v.latches.isNone
  | _ => true

def mem (s : VportSlotMem) : Multiset VportRes :=
  pointee .params s.params + s.config.mem + s.vport.elim 0 VportMem.mem

end VportSlotMem

theorem drops_kfree (r : Nat → VportRes) (p : Option Nat) :
    Heap.Drops (pointee r p) (kfree r p) := by
  cases p with
  | none => exact Heap.drops_id
  | some n => exact Heap.drops_free (r n)

theorem drops_if (b : Bool) (p : VportRes) :
    Heap.Drops (if b then {p} else 0) fun h => if b then h.free p else h := by
  cases b with
  | true => exact Heap.drops_free p
  | false => exact Heap.drops_id

theorem bare_taken (n : Nat) : (VportMem.bare n).taken = 0 := rfl

theorem caps_eq_zero_iff (v : VportMem) : v.caps = 0 ↔ v.latches = none := by
  rw [VportMem.caps]
  cases v.latches with
  | none => exact iff_of_true rfl rfl
  | some num => simp

namespace VportMemEnv

variable (e : VportMemEnv) (n : Nat)

theorem takes_takeCaps (num : Nat) :
    Heap.Takes (VportMem.caps ⟨n, false, false, some num⟩) (e.takeCaps n num) :=
  Heap.takes_andThen (Heap.takes_alloc _ _)
    (Heap.takes_takeAll num (fun _ _ => Heap.takes_alloc _ _) fun _ _ => Heap.drops_free _)
    (Heap.drops_free _)

theorem holds_getTstampsCaps (r : TstampReply) (h : Heap VportRes) :
    h.Holds (VportMem.caps ⟨n, false, false, (e.getTstampsCaps n r h).2.1⟩)
      (e.getTstampsCaps n r h).1 := by
  unfold getTstampsCaps
  split
  · exact Heap.Holds.refl h
  · exact Heap.Holds.refl h
  · exact Heap.Holds.refl h
  · next num _ =>
    have taken := e.takes_takeCaps n num h
    dsimp only
    cases granted : (e.takeCaps n num h).2 with
    | true =>
        rw [granted, if_pos rfl] at taken
        exact taken
    | false =>
        rw [granted, if_neg Bool.false_ne_true] at taken
        exact taken

variable {base h : Heap VportRes} {rest : Multiset VportRes}

theorem initQueues_spec (stats : Bool) (r : VportReply)
    (holds : base.Holds ((if stats then {.portStats n} else 0) + rest) h) :
    let i := e.initQueues n stats r h
    i.2.1.serial = n ∧ base.Holds (i.2.1.taken + rest) i.1 := by
  refine ⟨rfl, ?_⟩
  have vectors := holds.trans (Heap.takes_alloc e.grants (.vectors n) h)
  unfold initQueues VportMem.taken
  cases uplink : r.uplink with
  | true =>
      refine (vectors.trans (e.holds_getTstampsCaps n r.tstamps _)).congr ?_
      simp only [if_true, VportMem.caps]
      abel
  | false =>
      refine vectors.congr ?_
      simp only [Bool.false_eq_true, if_false, VportMem.caps, Option.elim_none]
      abel

theorem initRest_spec (r : VportReply) (holds : base.Holds rest h) :
    let i := e.initRest n r h
    i.2.1.serial = n ∧ base.Holds (i.2.1.taken + rest) i.1 := by
  unfold initRest
  split
  · have stats := holds.trans (Heap.takes_alloc e.grants (.portStats n) h)
    dsimp only
    split
    · next granted =>
      rw [if_pos granted] at stats
      exact e.initQueues_spec n true r stats
    · next refused =>
      rw [if_neg refused] at stats
      exact ⟨rfl, stats⟩
  · exact e.initQueues_spec n false r (holds.congr (zero_add rest).symm)

theorem vportInit_spec (r : VportReply) (chunks : Option Nat)
    (holds : base.Holds (pointee .queueChunks chunks + rest) h) :
    let i := e.vportInit n r chunks h
    i.2.2.1.serial = n ∧ base.Holds (pointee .queueChunks i.2.1 + i.2.2.1.taken + rest) i.1 := by
  have dropped := drops_kfree .queueChunks chunks _ _ _ holds
  have taken := dropped.trans
    (Heap.takes_alloc e.grants (.queueChunks n) (kfree .queueChunks chunks h))
  unfold vportInit
  dsimp only
  split
  · next granted =>
    rw [if_pos granted] at taken
    split
    · obtain ⟨serial, all⟩ := e.initRest_spec n r taken
      refine ⟨serial, all.congr ?_⟩
      change _ = {VportRes.queueChunks n} + _ + rest
      abel
    · refine ⟨rfl, (Heap.drops_free _ _ _ _ taken).congr ?_⟩
      rw [bare_taken, add_zero]
      exact (zero_add rest).symm
  · next refused =>
    rw [if_neg refused] at taken
    refine ⟨rfl, taken.congr ?_⟩
    rw [bare_taken, add_zero]
    rfl

/-- Where the configuration has been freed its `q_coalesce` is still there. -/
theorem allocConfig_spec :
    let b := e.allocConfig n h
    h.Holds (b.2.mem + if b.2 = .freed then {.qCoalesce n} else 0) b.1 ∧
      ∀ c, b.2 = .to c → c.queueChunks = none ∧ c.rssKey = none := by
  have both := Heap.takes_andThen (Heap.takes_alloc e.grants (VportRes.config n))
    (Heap.takes_alloc e.grants (VportRes.qCoalesce n)) (Heap.drops_free _) h
  unfold allocConfig
  dsimp only
  split
  · next granted =>
    rw [if_pos granted] at both
    split
    · have all := both.trans (Heap.takes_alloc e.grants (.affinity n) _)
      split
      · next more =>
        rw [if_pos more] at all
        refine ⟨all.congr ?_, ?_⟩
        · simp only [VportConfigPtr.mem, VportConfigMem.mem, pointee, Option.elim_none, if_true,
            reduceCtorEq, if_false]
          abel
        · rintro _ ⟨⟩
          exact ⟨rfl, rfl⟩
      · next refused =>
        rw [if_neg refused, zero_add, add_comm] at all
        refine ⟨(Heap.drops_free _ _ _ _ all).congr ?_, nofun⟩
        simp only [VportConfigPtr.mem, if_true, zero_add]
    · refine ⟨both.congr ?_, ?_⟩
      · simp only [VportConfigPtr.mem, VportConfigMem.mem, pointee, Option.elim_none,
          Bool.false_eq_true, if_false, reduceCtorEq]
        abel
      · rintro _ ⟨⟩
        exact ⟨rfl, rfl⟩
  · next refused =>
    rw [if_neg refused] at both
    exact ⟨both, nofun⟩

end VportMemEnv

namespace VportSlotMem

variable {e : VportMemEnv} {s s' : VportSlotMem}

/-- What an attempt leaves of a slot: the books balance, and what it has is either with the vport or
nobody has it. -/
structure Tried (rest : Multiset VportRes) (s : VportSlotMem) (t : VportSlotMem × Bool) : Prop where
  holds : Heap.empty.Holds
    (t.1.config.mem + t.1.vport.elim 0 VportMem.own + t.1.lost + rest) t.1.heap
  params : t.1.params = s.params
  made : t.2 = true → t.1.lost = s.lost ∧ ∃ v, t.1.vport = some v ∧ v.serial = s.next
  none : t.2 = false → t.1.vport = none ∧ ∀ c, t.1.config = .to c → c.rssKey = none
  config : t.2 = true → ∃ c, t.1.config = .to c

theorem allocWith_tried (rest : Multiset VportRes) (r : VportReply) (c : VportConfigMem)
    (key : c.rssKey = none) (idle : s.vport = none)
    (holds : Heap.empty.Holds ({.vport s.next} + c.mem + s.lost + rest) s.heap) :
    Tried rest s (s.allocWith e r c) := by
  have taken := holds.trans (Heap.takes_alloc e.grants (.vectorIdxs s.next) s.heap)
  unfold allocWith
  dsimp only
  split
  · next granted =>
    rw [if_pos granted] at taken
    have chunks : Heap.empty.Holds (pointee .queueChunks c.queueChunks +
        ({ c with queueChunks := none }.mem + {VportRes.vport s.next} +
          {VportRes.vectorIdxs s.next} + s.lost + rest)) _ := taken.congr (by
      simp only [VportConfigMem.mem, pointee, Option.elim_none]
      abel)
    obtain ⟨serial, inited⟩ := e.vportInit_spec s.next r c.queueChunks chunks
    generalize e.vportInit s.next r c.queueChunks _ = i at serial inited ⊢
    split
    · have keyed := inited.trans (Heap.takes_alloc e.grants (.rssKey s.next) _)
      split
      · next granted =>
        rw [if_pos granted] at keyed
        refine ⟨keyed.congr ?_, rfl, fun _ => ⟨rfl, _, rfl, serial⟩, nofun, fun _ => ⟨_, rfl⟩⟩
        simp only [VportConfigPtr.mem, VportConfigMem.mem, pointee, Option.elim_none, key,
          Option.elim_some, VportMem.own, serial]
        abel
      · next refused =>
        rw [if_neg refused] at keyed
        refine ⟨?_, rfl, nofun, fun _ => ⟨idle, ?_⟩, nofun⟩
        · have drops := ((drops_kfree VportRes.queueChunks i.2.1).comp
            (Heap.drops_free (VportRes.vectorIdxs s.next))).comp
              (Heap.drops_free (VportRes.vport s.next))
          refine drops _ _ _ (keyed.congr ?_)
          simp only [VportConfigPtr.mem, VportConfigMem.mem, pointee, Option.elim_none, key, idle]
          abel
        · rintro _ ⟨⟩
          rfl
    · refine ⟨?_, rfl, nofun, fun _ => ⟨idle, ?_⟩, nofun⟩
      · have drops := (Heap.drops_free (VportRes.vectorIdxs s.next)).comp
          (Heap.drops_free (VportRes.vport s.next))
        refine drops _ _ _ (inited.congr ?_)
        simp only [VportConfigPtr.mem, VportConfigMem.mem, pointee, Option.elim_none, key, idle]
        abel
      · rintro _ ⟨⟩
        exact key
  · next refused =>
    rw [if_neg refused] at taken
    refine ⟨Heap.drops_free (.vport s.next) _ _ _ (taken.congr ?_), rfl, nofun,
      fun _ => ⟨idle, ?_⟩, nofun⟩
    · simp only [VportConfigPtr.mem, idle, Option.elim_none]
      abel
    · rintro _ ⟨⟩
      exact key

theorem vportAlloc_tried (rest : Multiset VportRes) (r : VportReply) (idle : s.vport = none)
    (known : s.config ≠ .freed) (key : ∀ c, s.config = .to c → c.rssKey = none)
    (holds : Heap.empty.Holds (s.config.mem + s.lost + rest) s.heap) :
    Tried rest s (s.vportAlloc e r) := by
  have taken := holds.trans (Heap.takes_alloc e.grants (.vport s.next) s.heap)
  unfold vportAlloc
  dsimp only
  split
  · next granted =>
    rw [if_pos granted] at taken
    split
    · next c config =>
      have tried := allocWith_tried (e := e)
        (s := { s with heap := (Heap.alloc e.grants (.vport s.next) s.heap).1 }) rest r c
        (key c config) idle (taken.congr (by rw [config, VportConfigPtr.mem]; abel))
      exact ⟨tried.holds, tried.params, tried.made, tried.none, tried.config⟩
    · next config => exact absurd config known
    · next config =>
      obtain ⟨all, bare⟩ := e.allocConfig_spec (h := (Heap.alloc e.grants (.vport s.next) s.heap).1)
        s.next
      have both := taken.trans all
      rw [config] at both
      split
      · next c made =>
        rw [made] at both
        have tried := allocWith_tried (e := e) (s := { s with
          heap := (e.allocConfig s.next (Heap.alloc e.grants (.vport s.next) s.heap).1).1 }) rest r
          c (bare c made).2 idle (both.congr (by
            simp only [VportConfigPtr.mem, reduceCtorEq, if_false]
            abel))
        exact ⟨tried.holds, tried.params, tried.made, tried.none, tried.config⟩
      · next made =>
        rw [made] at both
        refine ⟨Heap.drops_free (.vport s.next) _ _ _ (both.congr ?_), rfl, nofun,
          fun _ => ⟨idle, key⟩, nofun⟩
        simp only [VportConfigPtr.mem, config, idle, Option.elim_none, reduceCtorEq, if_false]
        abel
      · next made =>
        rw [made] at both
        refine ⟨Heap.drops_free (.vport s.next) _ _ _ (both.congr ?_), rfl, nofun,
          fun _ => ⟨idle, nofun⟩, nofun⟩
        simp only [VportConfigPtr.mem, idle, Option.elim_none, if_true]
        abel
  · next refused =>
    rw [if_neg refused] at taken
    refine ⟨taken.congr ?_, rfl, nofun, fun _ => ⟨idle, key⟩, nofun⟩
    simp only [idle, Option.elim_none]
    abel

/-- What becomes of a slot when the device is asked for a vport. -/
structure Asked (rest : Multiset VportRes) (s : VportSlotMem) (t : VportSlotMem × Bool) : Prop where
  holds : Heap.empty.Holds
    (pointee .params t.1.params + t.1.lost + ((if t.2 then {.device s.next} else 0) + rest))
    t.1.heap
  same : t.1.config = s.config ∧ t.1.vport = s.vport ∧ t.1.next = s.next
  lost : s.params = none → t.1.lost = s.lost
  more : t.1.lost = 0 → s.lost = 0
  params : t.2 = false → s.params = none → t.1.params = none

theorem sendCreateVportMsg_asked (rest : Multiset VportRes)
    (holds : Heap.empty.Holds (pointee .params s.params + s.lost + rest) s.heap) :
    Asked rest s (s.sendCreateVportMsg e) := by
  have taken := holds.trans (Heap.takes_alloc e.grants (.vportMsg s.next) s.heap)
  unfold sendCreateVportMsg
  dsimp only
  split
  · next granted =>
    rw [if_pos granted] at taken
    have both := taken.trans (Heap.takes_andThen
      (Heap.takes_alloc e.grants (VportRes.params s.next))
      (Heap.takes_alloc e.grants (.device s.next)) (Heap.drops_free (VportRes.params s.next)) _)
    generalize Heap.andThen _ _ _ _ = b at both ⊢
    refine ⟨Heap.drops_free (.vportMsg s.next) _ _ _ (both.congr ?_), ⟨rfl, rfl, rfl⟩, ?_, ?_, ?_⟩
    · cases b.2 with
      | true =>
          simp only [if_true, pointee, Option.elim_some]
          abel
      | false =>
          simp only [Bool.false_eq_true, if_false, pointee, Option.elim_none]
          abel
    · intro none
      rw [none]
      exact add_zero _
    · exact fun clear => (add_eq_zero.mp clear).1
    · intro refused _
      rw [refused]
      rfl
  · next refused =>
    rw [if_neg refused] at taken
    refine ⟨taken.congr ?_, ⟨rfl, rfl, rfl⟩, fun _ => rfl, id, fun _ => id⟩
    simp only [Bool.false_eq_true, if_false]
    abel

/-- The books balance. Nothing is with an idle slot unless an attempt has failed on it. -/
structure Sound (s : VportSlotMem) : Prop where
  holds : Heap.empty.Holds (s.mem + s.lost) s.heap
  config : ∀ v, s.vport = some v → ∃ c, s.config = .to c
  key : s.vport = none → ∀ c, s.config = .to c → c.rssKey = none
  idle : s.vport = none → s.lost = 0 →
    s.params = none ∧ ∀ c, s.config = .to c → c.queueChunks = none

theorem Sound.create (sound : s.Sound) (idle : s.vport = none) (known : s.config ≠ .freed)
    (r : VportReply) :
    (s.create e r).Sound ∧
      ((s.create e r).lost = 0 ↔ s.lost = 0 ∧ s.careful e (.create r) = true) := by
  have asked := sendCreateVportMsg_asked (e := e) (s := s) s.config.mem
    (sound.holds.congr (by rw [mem, idle, Option.elim_none]; abel))
  have careful : s.careful e (.create r) =
      (!(s.sendCreateVportMsg e).2 || (s.create e r).vport.isSome) := rfl
  rw [careful]
  unfold VportSlotMem.create
  generalize s.sendCreateVportMsg e = a at asked ⊢
  obtain ⟨config, vport, next⟩ := asked.same
  dsimp only
  cases made : a.2 with
  | true =>
      have tried := vportAlloc_tried (e := e) (s := a.1)
        (pointee .params a.1.params + {.device s.next}) r (vport.trans idle) (config ▸ known)
        (fun c is => sound.key idle c (config.symm.trans is))
        (asked.holds.congr (by rw [made, if_pos rfl, config]; abel))
      generalize a.1.vportAlloc e r = b at tried ⊢
      simp only [if_true]
      cases done : b.2 with
      | true =>
          obtain ⟨lost, v, has, serial⟩ := tried.made done
          simp only [if_true]
          refine ⟨⟨tried.holds.congr ?_, ?_, ?_, ?_⟩, ?_⟩
          · rw [mem, tried.params, has, Option.elim_some, Option.elim_some, VportMem.mem, serial,
              next]
            abel
          · exact fun _ _ => tried.config done
          · exact fun none => absurd (has.symm.trans none) nofun
          · exact fun none => absurd (has.symm.trans none) nofun
          · rw [lost, has]
            refine ⟨fun clear => ⟨asked.more clear, rfl⟩, fun clear => ?_⟩
            exact (asked.lost (sound.idle idle clear.1).1).trans clear.1
      | false =>
          obtain ⟨none, key⟩ := tried.none done
          have lost : b.1.lost + {VportRes.device s.next} ≠ 0 := by simp
          simp only [Bool.false_eq_true, if_false]
          refine ⟨⟨tried.holds.congr ?_, ?_, fun _ => key, fun _ clear => absurd clear lost⟩, ?_⟩
          · rw [mem, tried.params, none, Option.elim_none, Option.elim_none]
            dsimp only
            abel
          · exact fun v has => absurd (none.symm.trans has) nofun
          · rw [none]
            exact ⟨fun clear => absurd clear lost, fun clear => Bool.noConfusion clear.2⟩
  | false =>
      simp only [Bool.false_eq_true, if_false]
      refine ⟨⟨asked.holds.congr ?_, ?_, ?_, ?_⟩, ?_⟩
      · rw [mem, made, config, vport, idle, Option.elim_none]
        simp only [Bool.false_eq_true, if_false]
        abel
      · exact fun v has => absurd ((vport.trans idle).symm.trans has) nofun
      · exact fun _ c is => sound.key idle c (config.symm.trans is)
      · intro _ clear
        obtain ⟨params, chunks⟩ := sound.idle idle (asked.more clear)
        exact ⟨asked.params made params, fun c is => chunks c (config.symm.trans is)⟩
      · refine ⟨fun clear => ⟨asked.more clear, rfl⟩, fun clear => ?_⟩
        exact (asked.lost (sound.idle idle clear.1).1).trans clear.1

theorem Sound.rel (sound : s.Sound) {v : VportMem} {c : VportConfigMem} (vport : s.vport = some v)
    (config : s.config = .to c) (destroyed : Bool) :
    (s.rel v c destroyed).Sound ∧
      ((s.rel v c destroyed).lost = 0 ↔ s.lost = 0 ∧ s.careful e (.rel destroyed) = true) := by
  have lost : (s.rel v c destroyed).lost = s.lost +
      ((if destroyed then 0 else {VportRes.device v.serial}) + v.caps) := rfl
  refine ⟨⟨?_, nofun, fun _ => ?_, fun _ _ => ⟨rfl, ?_⟩⟩, ?_⟩
  · have drops := ((((((((drops_kfree VportRes.rssKey c.rssKey).comp
      (drops_if destroyed (.device v.serial))).comp (drops_if v.vectors (.vectors v.serial))).comp
      (Heap.drops_free (.vectorIdxs v.serial))).comp
      (drops_if v.portStats (.portStats v.serial))).comp
      (drops_kfree VportRes.queueChunks c.queueChunks)).comp
      (drops_kfree VportRes.params s.params)).comp (Heap.drops_free (.vport v.serial)))
    refine drops _ _ _ (sound.holds.congr ?_)
    rw [lost]
    simp only [mem, config, vport, VportConfigPtr.mem, VportConfigMem.mem, VportMem.mem,
      VportMem.own, VportMem.taken, Option.elim_some, VportSlotMem.rel, pointee, Option.elim_none]
    cases destroyed with
    | true =>
        simp only [if_true]
        abel
    | false =>
        simp only [Bool.false_eq_true, if_false]
        abel
  · rintro _ ⟨⟩
    rfl
  · rintro _ ⟨⟩
    rfl
  · have careful : s.careful e (.rel destroyed) = (destroyed && v.latches.isNone) := by
      rw [VportSlotMem.careful, vport, Option.all_some]
    rw [lost, careful, add_eq_zero, add_eq_zero, caps_eq_zero_iff, Bool.and_eq_true,
      Option.isNone_iff_eq_none]
    cases destroyed with
    | true => simp
    | false => simp

theorem Sound.ptpRelease (sound : s.Sound) {v : VportMem} (vport : s.vport = some v) :
    (s.ptpRelease v).Sound := by
  unfold VportSlotMem.ptpRelease
  split
  · next num latches =>
    refine ⟨?_, fun _ _ => sound.config v vport, nofun, nofun⟩
    have latch (i : Nat) (_ : i < num) := Heap.drops_free (VportRes.latch v.serial i)
    have drops := (Heap.drops_dropAll num latch).comp (Heap.drops_free (.tstampCaps v.serial))
    refine drops _ _ _ (sound.holds.congr ?_)
    simp only [mem, vport, VportMem.mem, VportMem.own, VportMem.taken, VportMem.caps, latches,
      Option.elim_some, Option.elim_none]
    abel
  · exact sound

theorem Sound.paramsBufRel (sound : s.Sound) (idle : s.vport = none) :
    s.paramsBufRel.Sound ∧ (s.paramsBufRel.lost = 0 ↔ s.lost = 0) := by
  refine ⟨⟨sound.holds.congr ?_, sound.config, sound.key, fun idle clear => ⟨rfl, ?_⟩⟩, ?_⟩
  · simp only [mem, VportSlotMem.paramsBufRel, pointee, Option.elim_none]
    abel
  · exact (sound.idle idle (add_eq_zero.mp clear).1).2
  · refine ⟨fun clear => (add_eq_zero.mp clear).1, fun clear => ?_⟩
    rw [VportSlotMem.paramsBufRel, clear, (sound.idle idle clear).1]
    rfl

theorem Sound.freeConfig (sound : s.Sound) (idle : s.vport = none) (known : s.config ≠ .freed) :
    s.freeConfig.Sound ∧ (s.freeConfig.lost = 0 ↔ s.lost = 0) ∧ s.freeConfig.config ≠ .freed := by
  unfold VportSlotMem.freeConfig
  split
  · exact ⟨sound, Iff.rfl, known⟩
  · next config => exact absurd config known
  · next c config =>
    refine ⟨⟨?_, fun v has => absurd (idle.symm.trans has) nofun, fun _ => nofun, ?_⟩, ?_, nofun⟩
    · have drops := ((Heap.drops_free (VportRes.qCoalesce c.serial)).comp
        (drops_if c.affinity (.affinity c.serial))).comp (Heap.drops_free (.config c.serial))
      refine drops _ _ _ (sound.holds.congr ?_)
      simp only [mem, config, idle, VportConfigPtr.mem, VportConfigMem.mem, Option.elim_none]
      abel
    · exact fun _ clear => ⟨(sound.idle idle (add_eq_zero.mp clear).1).1, nofun⟩
    · refine ⟨fun clear => (add_eq_zero.mp clear).1, fun clear => ?_⟩
      rw [clear, (sound.idle idle clear).2 c config, sound.key idle c config]
      rfl

theorem start_sound : start.Sound :=
  ⟨⟨rfl, rfl⟩, nofun, fun _ => nofun, fun _ _ => ⟨rfl, nofun⟩⟩

theorem sendCreateVportMsg_snd : let t := s.sendCreateVportMsg e
    t.2 = (e.grants s.heap.asked && e.grants (s.heap.asked + 1) && e.grants (s.heap.asked + 2)) ∧
      (t.2 = true → t.1.heap.asked = s.heap.asked + 3) := by
  unfold sendCreateVportMsg
  dsimp only
  rw [Heap.alloc_snd]
  cases first : e.grants s.heap.asked with
  | false => exact ⟨rfl, nofun⟩
  | true =>
      have both := Heap.andThen_alloc e.grants (VportRes.params s.next) (.device s.next)
        (.params s.next) (Heap.alloc e.grants (.vportMsg s.next) s.heap).1
      rw [Heap.alloc_asked] at both
      exact ⟨both.1, fun made => (Heap.free_asked _ _).trans (both.2 made)⟩

theorem allocWith_known (r : VportReply) (c : VportConfigMem) :
    (s.allocWith e r c).1.config ≠ .freed := by
  unfold allocWith
  dsimp only
  split
  · split
    · split
      · nofun
      · nofun
    · nofun
  · nofun

theorem allocConfig_freed_iff (n : Nat) (h : Heap VportRes) :
    (e.allocConfig n h).2 = .freed ↔ (e.affinityConfig && (e.grants h.asked &&
      e.grants (h.asked + 1)) && !e.grants (h.asked + 2)) = true := by
  have both := Heap.andThen_alloc e.grants (VportRes.config n) (.qCoalesce n) (.config n) h
  unfold VportMemEnv.allocConfig
  dsimp only at both ⊢
  rw [← both.1]
  split
  · next granted =>
    rw [granted, Bool.and_true]
    cases e.affinityConfig with
    | true =>
        rw [if_pos rfl, Heap.alloc_snd, both.2 granted]
        cases e.grants (h.asked + 2) with
        | true => exact iff_of_false nofun nofun
        | false => exact iff_of_true rfl rfl
    | false => exact iff_of_false nofun nofun
  · next refused =>
    rw [Bool.eq_false_iff.mpr refused, Bool.and_false, Bool.false_and]
    exact iff_of_false nofun nofun

theorem vportAlloc_freed_iff (r : VportReply) (known : s.config ≠ .freed) :
    (s.vportAlloc e r).1.config = .freed ↔ (decide (s.config = .null) && (e.affinityConfig &&
      (e.grants s.heap.asked && e.grants (s.heap.asked + 1) && e.grants (s.heap.asked + 2)) &&
        !e.grants (s.heap.asked + 3))) = true := by
  have config := allocConfig_freed_iff (e := e) s.next
    (Heap.alloc e.grants (.vport s.next) s.heap).1
  rw [Heap.alloc_asked] at config
  unfold vportAlloc
  dsimp only
  rw [Heap.alloc_snd]
  cases first : e.grants s.heap.asked with
  | false =>
      simp only [Bool.false_eq_true, if_false, Bool.false_and, Bool.and_false, iff_false]
      exact known
  | true =>
      rw [if_pos rfl, Bool.true_and]
      split
      · next c has =>
        rw [has]
        exact iff_of_false (allocWith_known r c) nofun
      · next has => exact absurd has known
      · next has =>
        rw [has, decide_eq_true rfl, Bool.true_and, ← config]
        split
        · next c made =>
          rw [made]
          exact iff_of_false (allocWith_known r c) nofun
        · next made => rw [made]
        · next made => exact iff_of_true rfl made

theorem create_config (r : VportReply) : (s.create e r).config =
    if (s.sendCreateVportMsg e).2 then ((s.sendCreateVportMsg e).1.vportAlloc e r).1.config
    else (s.sendCreateVportMsg e).1.config := by
  unfold VportSlotMem.create
  dsimp only
  split
  · split
    · rfl
    · rfl
  · rfl

theorem create_known_iff (r : VportReply) (known : s.config ≠ .freed) (sound : s.Sound)
    (idle : s.vport = none) :
    (s.create e r).config ≠ .freed ↔ s.ok e (.create r) = true := by
  obtain ⟨made, asked⟩ := sendCreateVportMsg_snd (e := e) (s := s)
  obtain ⟨config, -, -⟩ := (sendCreateVportMsg_asked (e := e) (s := s) s.config.mem
    (sound.holds.congr (by rw [mem, idle, Option.elim_none]; abel))).same
  have ok : s.ok e (.create r) = !(decide (s.config = .null) && (e.affinityConfig &&
      ((e.grants s.heap.asked && e.grants (s.heap.asked + 1) && e.grants (s.heap.asked + 2)) &&
        (e.grants (s.heap.asked + 3) && e.grants (s.heap.asked + 4) &&
          e.grants (s.heap.asked + 5))) && !e.grants (s.heap.asked + 6))) := by
    have six : List.range 6 = [0, 1, 2, 3, 4, 5] := rfl
    simp only [VportSlotMem.ok, six, List.all_cons, List.all_nil, decide_not, add_zero,
      Bool.not_and, Bool.and_true, Bool.and_assoc]
  rw [ok, ← made, create_config]
  split
  · next device =>
    have alloc := vportAlloc_freed_iff (e := e) r (config ▸ known)
    rw [config, asked device] at alloc
    rw [device, Bool.true_and]
    rw [Ne, alloc, Bool.not_eq_true', Bool.not_eq_true]
  · next refused =>
    rw [Bool.eq_false_iff.mpr refused]
    simp only [Bool.false_and, Bool.and_false, Bool.not_false, iff_true]
    exact config ▸ known

theorem Sound.step (sound : s.Sound) (known : s.config ≠ .freed) {op : VportSlotOp}
    (step : s.step e op = some s') :
    s'.Sound ∧ (s'.lost = 0 ↔ s.lost = 0 ∧ s.careful e op = true) ∧
      (s'.config ≠ .freed ↔ s.ok e op = true) := by
  unfold VportSlotMem.step at step
  cases op with
  | create r =>
      dsimp only at step
      split at step
      · next idle =>
        obtain rfl := Option.some.inj step
        obtain ⟨sound', lost⟩ := sound.create idle known r
        exact ⟨sound', lost, create_known_iff r known sound idle⟩
      · cases step
  | rel destroyed =>
      dsimp only at step
      split at step
      · next v c vport config =>
        obtain rfl := Option.some.inj step
        obtain ⟨sound', lost⟩ := sound.rel (e := e) vport config destroyed
        exact ⟨sound', lost, iff_of_true nofun rfl⟩
      · cases step
  | ptpRelease =>
      obtain ⟨v, vport, rfl⟩ := Option.map_eq_some_iff.mp step
      refine ⟨sound.ptpRelease vport, ?_⟩
      unfold VportSlotMem.ptpRelease
      split
      · exact ⟨(and_iff_left rfl).symm, iff_of_true known rfl⟩
      · exact ⟨(and_iff_left rfl).symm, iff_of_true known rfl⟩
  | paramsBufRel =>
      dsimp only at step
      split at step
      · next idle =>
        obtain rfl := Option.some.inj step
        obtain ⟨sound', lost⟩ := sound.paramsBufRel idle
        exact ⟨sound', lost.trans (and_iff_left rfl).symm, iff_of_true known rfl⟩
      · cases step
  | freeConfig =>
      dsimp only at step
      split at step
      · next idle =>
        obtain rfl := Option.some.inj step
        obtain ⟨sound', lost, known'⟩ := sound.freeConfig idle known
        exact ⟨sound', lost.trans (and_iff_left rfl).symm, iff_of_true known' rfl⟩
      · cases step

/-- At no moment of a run has anything been freed that was not there, and at none does the pointer
to the configuration lead nowhere, exactly if no attempt lacks memory for the affinity of its
vectors. -/
theorem never_dangles_iff {ops : List VportSlotOp} (run : exec (VportSlotMem.step e) start ops = some s) :
    (∀ front u, front <+: ops → exec (VportSlotMem.step e) start front = some u →
      u.heap.bad = false ∧ u.config ≠ .freed) ↔
      execIf (VportSlotMem.step e) (ok e) start ops = some s := by
  have keep (s : VportSlotMem) (op : VportSlotOp) (s' : VportSlotMem)
      (inv : s.Sound ∧ s.config ≠ .freed) (step : s.step e op = some s') :
      ((s'.heap.bad = false ∧ s'.config ≠ .freed) ↔ s.ok e op = true) ∧
        (s'.heap.bad = false ∧ s'.config ≠ .freed → s'.Sound ∧ s'.config ≠ .freed) := by
    obtain ⟨sound, -, known⟩ := inv.1.step inv.2 step
    exact ⟨(and_iff_right sound.holds.bad).trans known, fun good => ⟨sound, good.2⟩⟩
  exact execIf_always keep ⟨start_sound, nofun⟩ ⟨rfl, nofun⟩ run

/-- The seventh allocation of an attempt is refused, and `idpf_remove` follows the pointer. -/
theorem never_dangles_iff_refused : ∃ s,
    exec (VportSlotMem.step ⟨(· ≠ 6), true, true⟩) start
      [.create ⟨true, true, .latches 2⟩, .freeConfig] = some s ∧ s.heap.bad = true ∧
    execIf (VportSlotMem.step ⟨(· ≠ 6), true, true⟩) (ok ⟨(· ≠ 6), true, true⟩) start
      [.create ⟨true, true, .latches 2⟩, .freeConfig] ≠ some s := by
  have seen : (exec (VportSlotMem.step ⟨(· ≠ 6), true, true⟩) start
      [.create ⟨true, true, .latches 2⟩, .freeConfig]).map (fun s => s.heap.bad) = some true := by
    decide +kernel
  obtain ⟨s, run, bad⟩ := Option.map_eq_some_iff.mp seen
  refine ⟨s, run, bad, fun fine => ?_⟩
  obtain ⟨good, -⟩ := (never_dangles_iff run).mpr fine _ _ List.prefix_rfl run
  exact Bool.noConfusion (bad.symm.trans good)

theorem sound_of_run {ops : List VportSlotOp}
    (run : execIf (VportSlotMem.step e) (ok e) start ops = some s) :
    (s.Sound ∧ s.config ≠ .freed) ∧ (s.lost = 0 ↔ start.lost = 0 ∧
      execIf (VportSlotMem.step e) (fun s op => s.ok e op && s.careful e op) start ops =
        some s) := by
  have keep (s : VportSlotMem) (op : VportSlotOp) (s' : VportSlotMem)
      (inv : s.Sound ∧ s.config ≠ .freed) (ok : s.ok e op = true) (step : s.step e op = some s') :
      (s'.Sound ∧ s'.config ≠ .freed) ∧ (s'.lost = 0 ↔ s.lost = 0 ∧ s.careful e op = true) := by
    obtain ⟨sound, lost, known⟩ := inv.1.step inv.2 step
    exact ⟨⟨sound, known.mpr ok⟩, lost⟩
  refine ⟨?_, execIf_clear keep ⟨start_sound, nofun⟩ run⟩
  have reached : Reachable (VportSlotMem.step e) (fun s op => s.ok e op = true) (· = start) s :=
    Reachable.execIf (.start rfl) run
  exact reached.invariant (fun s is => is ▸ ⟨start_sound, nofun⟩)
    fun s op s' inv ok step => (keep s op s' inv ok step).1

/-- What has been taken for a slot is what its pointers lead to and what is lost. -/
theorem books_of_run {ops : List VportSlotOp}
    (run : execIf (VportSlotMem.step e) (ok e) start ops = some s) :
    s.heap.live = s.mem + s.lost ∧ s.heap.bad = false := by
  obtain ⟨⟨sound, -⟩, -⟩ := sound_of_run run
  exact ⟨sound.holds.live.trans (add_zero _), sound.holds.bad⟩

/-- A vport cannot be made for want of a key, and is made when it is tried again. -/
theorem books_of_run_again : ∃ s,
    execIf (VportSlotMem.step ⟨(· ≠ 14), true, true⟩) (ok ⟨(· ≠ 14), true, true⟩) start
      [.create ⟨true, true, .latches 2⟩, .create ⟨true, false, .unsupported⟩] = some s ∧
    s.vport = some ⟨1, false, true, none⟩ ∧ s.heap.live = s.mem + s.lost ∧ s.lost ≠ 0 := by
  have seen : (execIf (VportSlotMem.step ⟨(· ≠ 14), true, true⟩) (ok ⟨(· ≠ 14), true, true⟩) start
      [.create ⟨true, true, .latches 2⟩, .create ⟨true, false, .unsupported⟩]).map
      (fun s => (s.vport, decide (s.lost = 0))) = some (some ⟨1, false, true, none⟩, false) := by
    decide +kernel
  obtain ⟨s, run, ends⟩ := Option.map_eq_some_iff.mp seen
  obtain ⟨vport, lost⟩ := Prod.mk.inj ends
  exact ⟨s, run, vport, (books_of_run run).1, of_decide_eq_false lost⟩

/-- Once the driver has let go of a slot nothing is left of its vports exactly if each attempt made
one where the device had, and each vport was let go of with the device's answer and without
latches. -/
theorem nothing_left_iff {ops : List VportSlotOp}
    (run : execIf (VportSlotMem.step e) (ok e) start ops = some s) (params : s.params = none)
    (config : s.config = .null) (vport : s.vport = none) :
    s.heap.live = 0 ↔
      execIf (VportSlotMem.step e) (fun s op => s.ok e op && s.careful e op) start ops =
        some s := by
  obtain ⟨⟨sound, -⟩, clear⟩ := sound_of_run run
  have live : s.heap.live = s.lost := by
    have all := sound.holds.live.trans (add_zero _)
    rw [mem, params, config, vport] at all
    exact all.trans ((congrArg (· + s.lost) (add_zero _)).trans (zero_add _))
  rw [live, clear]
  exact and_iff_right rfl

/-- `idpf_init_task` unwinds: the vport is let go of before `idpf_ptp_release`. -/
theorem nothing_left_iff_unwound : ∃ s,
    execIf (VportSlotMem.step ⟨fun _ => true, true, true⟩) (ok ⟨fun _ => true, true, true⟩) start
      [.create ⟨true, true, .latches 2⟩, .rel true, .paramsBufRel, .freeConfig] = some s ∧
    s.params = none ∧ s.config = .null ∧ s.vport = none ∧ s.heap.live ≠ 0 := by
  have seen : (execIf (VportSlotMem.step ⟨fun _ => true, true, true⟩)
      (ok ⟨fun _ => true, true, true⟩) start
      [.create ⟨true, true, .latches 2⟩, .rel true, .paramsBufRel, .freeConfig]).map
      (fun s => (s.params, s.config, s.vport)) = some (none, .null, none) := by decide +kernel
  have careless : (execIf (VportSlotMem.step ⟨fun _ => true, true, true⟩)
      (fun s op => s.ok ⟨fun _ => true, true, true⟩ op && s.careful ⟨fun _ => true, true, true⟩ op)
      start [.create ⟨true, true, .latches 2⟩, .rel true, .paramsBufRel, .freeConfig]).isNone =
        true := by decide +kernel
  obtain ⟨s, run, ends⟩ := Option.map_eq_some_iff.mp seen
  simp only [Prod.mk.injEq] at ends
  obtain ⟨params, config, vport⟩ := ends
  refine ⟨s, run, params, config, vport, fun left => ?_⟩
  rw [(nothing_left_iff run params config vport).mp left] at careless
  exact Bool.noConfusion careless

end VportSlotMem

end Idpf
