import Idpf.Ctlq.RecvBuffers
import Idpf.Ctlq.SendFifo
import Idpf.General.Heap

/-! The memory of the control queues, from `idpf_ctlq_init` to `idpf_ctlq_deinit`. -/
namespace Idpf
open General

/-- `enum idpf_ctlq_type`; the other types cannot be added. -/
inductive CtlqType where
  | mailboxTx | mailboxRx | other
  deriving DecidableEq, Repr

/-- What `idpf_ctlq_add` reads of `struct idpf_ctlq_create_info`, less the registers. -/
structure CtlqCreateInfo where
  type : CtlqType
  id : Int
  len : Nat
  deriving DecidableEq, Repr

/-- The memory of the queue with a number: `struct idpf_ctlq_info`, the ring, the array of buffers
or of messages, and for a buffer its `struct idpf_dma_mem` and what that points to. -/
inductive CtlqMem where
  | info (k : Nat)
  | ring (k : Nat)
  | rxBuff (k : Nat)
  | txMsg (k : Nat)
  | head (k : Nat) (b : DmaMem)
  | dma (k : Nat) (b : DmaMem)
  deriving DecidableEq, Repr

/-- The DMA memory that is given for a buffer of a queue. -/
structure DmaPool where
  buff : Nat → Nat → DmaMem
  distinct : ∀ k, Function.Injective (buff k)

/-- A queue in use, with what its users have. -/
inductive CtlqRing where
  | send (s : SendSystem)
  | recv (s : RecvSystem)

/-- `struct idpf_ctlq_info`. -/
structure CtlqInfo where
  serial : Nat
  type : CtlqType
  qId : Int
  len : Nat
  ring : CtlqRing

/-- The queues of `hw->cq_list_head` and all memory. `next` numbers the queues. -/
structure CtlqHw where
  heap : Heap CtlqMem
  next : Nat
  cqs : List CtlqInfo

/-- What the model of the control queues is given: which allocations are granted, the DMA memory,
and whether the device is Simics. -/
structure CtlqEnv where
  grants : Grants
  pool : DmaPool
  simics : Bool

namespace CtlqEnv

variable (e : CtlqEnv) (k : Nat)

/-- One turn of the loop in `idpf_ctlq_alloc_bufs`. -/
def allocBuf (i : Nat) : Heap CtlqMem → Heap CtlqMem × Bool :=
  Heap.andThen (Heap.alloc e.grants (.head k (e.pool.buff k i)))
    (Heap.alloc e.grants (.dma k (e.pool.buff k i))) (Heap.free (.head k (e.pool.buff k i)))

def freeBuf (b : DmaMem) (h : Heap CtlqMem) : Heap CtlqMem := (h.free (.dma k b)).free (.head k b)

/-- `idpf_ctlq_alloc_bufs` for a receive queue: no buffer for the last slot. -/
def allocBufs (len : Nat) : Heap CtlqMem → Heap CtlqMem × Bool :=
  Heap.andThen (Heap.alloc e.grants (.rxBuff k))
    (Heap.takeAll (e.allocBuf k) (fun i => freeBuf k (e.pool.buff k i)) (len - 1))
    (Heap.free (.rxBuff k))

/-- `idpf_ctlq_alloc_ring_res`, with the array of messages of a send queue. -/
def allocRingRes (type : CtlqType) (len : Nat) : Heap CtlqMem → Heap CtlqMem × Bool :=
  match type with
  | .mailboxRx =>
    Heap.andThen (Heap.alloc e.grants (.ring k)) (e.allocBufs k len) (Heap.free (.ring k))
  | .mailboxTx =>
    Heap.andThen (Heap.alloc e.grants (.ring k)) (Heap.alloc e.grants (.txMsg k))
      (Heap.free (.ring k))
  | .other => fun h => (h, false)

def newRing (q : CtlqCreateInfo) : CtlqRing :=
  match q.type with
  | .mailboxRx => .recv ⟨recvQueueAdd q.len (e.pool.buff k), [], none, []⟩
  | _ => .send ⟨sendQueueAdd q.len e.simics, []⟩

/-- `idpf_ctlq_add`, with whether it returns 0. -/
def add (q : CtlqCreateInfo) (hw : CtlqHw) : CtlqHw × Bool :=
  let r := Heap.andThen (Heap.alloc e.grants (.info hw.next))
    (e.allocRingRes hw.next q.type q.len) (Heap.free (.info hw.next)) hw.heap
  if r.2 then
    (⟨r.1, hw.next + 1, ⟨hw.next, q.type, q.id, q.len, e.newRing hw.next q⟩ :: hw.cqs⟩, true)
  else ({ hw with heap := r.1, next := hw.next + 1 }, false)

end CtlqEnv

namespace CtlqInfo

/-- `idpf_ctlq_free_bufs`. -/
def freeBufs (c : CtlqInfo) (h : Heap CtlqMem) : Heap CtlqMem :=
  match c.ring with
  | .send _ => h.free (.txMsg c.serial)
  | .recv s =>
    (s.q.buffers.foldl (fun h b => CtlqEnv.freeBuf c.serial b h) h).free (.rxBuff c.serial)

/-- `idpf_ctlq_remove`: `idpf_ctlq_dealloc_ring_res`, and the queue itself. -/
def remove (c : CtlqInfo) (h : Heap CtlqMem) : Heap CtlqMem :=
  ((c.freeBufs h).free (.ring c.serial)).free (.info c.serial)

end CtlqInfo

/-- `idpf_ctlq_deinit`. -/
def CtlqHw.deinit (hw : CtlqHw) : CtlqHw :=
  { hw with
    heap := hw.cqs.foldl (fun h c => c.remove h) hw.heap
    cqs := [] }

namespace CtlqEnv

variable (e : CtlqEnv)

/-- The loop of `idpf_ctlq_init`. -/
def initAll : List CtlqCreateInfo → CtlqHw → CtlqHw × Bool
  | [], hw => (hw, true)
  | q :: qs, hw =>
    let r := e.add q hw
    if r.2 then initAll qs r.1 else (r.1.deinit, false)

/-- `idpf_ctlq_init`, which empties the list first. -/
def init (qs : List CtlqCreateInfo) (hw : CtlqHw) : CtlqHw × Bool :=
  e.initAll qs { hw with cqs := [] }

end CtlqEnv

/-- What is done with the queues; `i` is the place on the list. -/
inductive CtlqOp where
  | init (qs : List CtlqCreateInfo)
  | send (i : Nat) (op : SendOp)
  | recv (i : Nat) (op : RecvOp)
  | deinit

namespace CtlqHw

variable (hw : CtlqHw)

def ringAt (i : Nat) : Option CtlqRing := hw.cqs[i]?.map CtlqInfo.ring

def setRing (i : Nat) (r : CtlqRing) : CtlqHw :=
  { hw with cqs := hw.cqs.modify i fun c => { c with ring := r } }

def step (e : CtlqEnv) (hw : CtlqHw) : CtlqOp → Option CtlqHw
  | .init qs => some (e.init qs hw).1
  | .send i op =>
    match hw.ringAt i with
    | some (.send s) => (s.step op).map fun s' => hw.setRing i (.send s')
    | _ => none
  | .recv i op =>
    match hw.ringAt i with
    | some (.recv s) => (s.step op).map fun s' => hw.setRing i (.recv s')
    | _ => none
  | .deinit => some hw.deinit

end CtlqHw

def CtlqRing.idle : CtlqRing → Bool
  | .send _ => true
  | .recv s => s.held.isEmpty && s.hand.isNone && s.repost.isEmpty

def CtlqCreateInfo.fits (q : CtlqCreateInfo) : Bool := decide (1 < q.len) && decide (q.len < 65536)

/-- Queues are added to an empty list and removed when no buffer is with a user, and the receive
queues are used without losing buffers. -/
def CtlqHw.ok (hw : CtlqHw) : CtlqOp → Bool
  | .init qs => hw.cqs.isEmpty && qs.all CtlqCreateInfo.fits
  | .send _ _ => true
  | .recv i op =>
    match hw.ringAt i with
    | some (.recv s) => s.recvOk op
    | _ => true
  | .deinit => hw.cqs.all fun c => c.ring.idle

def CtlqHw.start : CtlqHw := ⟨.empty, 0, []⟩

def bufMem (k : Nat) (b : DmaMem) : Multiset CtlqMem := {CtlqMem.dma k b} + {CtlqMem.head k b}

namespace CtlqEnv

variable (e : CtlqEnv) (k : Nat)

def buffers (len : Nat) : List DmaMem := (List.range (len - 1)).map (e.pool.buff k)

/-- The memory of a queue, less its `struct idpf_ctlq_info`. -/
def ringMem (type : CtlqType) (len : Nat) : Multiset CtlqMem :=
  match type with
  | .mailboxRx =>
    ((e.buffers k len).map (bufMem k)).sum + {CtlqMem.rxBuff k} + {CtlqMem.ring k}
  | .mailboxTx => {CtlqMem.txMsg k} + {CtlqMem.ring k}
  | .other => 0

def owns (c : CtlqInfo) : Multiset CtlqMem :=
  e.ringMem c.serial c.type c.len + {CtlqMem.info c.serial}

theorem drops_freeBuf (b : DmaMem) : Heap.Drops (bufMem k b) (freeBuf k b) :=
  (Heap.drops_free _).comp (Heap.drops_free _)

theorem takes_allocBuf (i : Nat) :
    Heap.Takes (bufMem k (e.pool.buff k i)) (e.allocBuf k i) :=
  Heap.takes_andThen (Heap.takes_alloc _ _) (Heap.takes_alloc _ _) (Heap.drops_free _)

theorem takes_allocBufs (len : Nat) :
    Heap.Takes (((e.buffers k len).map (bufMem k)).sum + {CtlqMem.rxBuff k})
      (e.allocBufs k len) := by
  have loop := Heap.takes_takeAll (len - 1) (fun i _ => e.takes_allocBuf k i)
    fun i _ => drops_freeBuf k (e.pool.buff k i)
  have same : Heap.total (fun i => bufMem k (e.pool.buff k i)) (len - 1) =
      ((e.buffers k len).map (bufMem k)).sum := by
    rw [buffers, List.map_map]
    rfl
  rw [same] at loop
  exact Heap.takes_andThen (Heap.takes_alloc _ _) loop (Heap.drops_free _)

theorem takes_allocRingRes (type : CtlqType) (len : Nat) :
    Heap.Takes (e.ringMem k type len) (e.allocRingRes k type len) := by
  cases type with
  | mailboxTx =>
      exact Heap.takes_andThen (Heap.takes_alloc _ _) (Heap.takes_alloc _ _) (Heap.drops_free _)
  | mailboxRx =>
      exact Heap.takes_andThen (Heap.takes_alloc _ _) (e.takes_allocBufs k len)
        (Heap.drops_free _)
  | other => exact Heap.Holds.refl

end CtlqEnv

/-- The queue is of its type, and a receive queue has lost no buffer. -/
def CtlqInfo.Kept (e : CtlqEnv) (c : CtlqInfo) : Prop :=
  match c.ring with
  | .send _ => c.type = .mailboxTx
  | .recv s => c.type = .mailboxRx ∧ RecvInv (e.buffers c.serial c.len) s

/-- The memory of the queues on the list is there on top of `h`. -/
structure CtlqHw.Sound (e : CtlqEnv) (h : Heap CtlqMem) (hw : CtlqHw) : Prop where
  holds : h.Holds (hw.cqs.map e.owns).sum hw.heap
  kept : ∀ c ∈ hw.cqs, c.Kept e

def CtlqCreateInfo.key (q : CtlqCreateInfo) : CtlqType × Int × Nat := (q.type, q.id, q.len)

def CtlqInfo.key (c : CtlqInfo) : CtlqType × Int × Nat := (c.type, c.qId, c.len)

variable {e : CtlqEnv} {h : Heap CtlqMem} {hw : CtlqHw} {c : CtlqInfo}

theorem CtlqInfo.Kept.drops (kept : c.Kept e) (idle : c.ring.idle = true) :
    Heap.Drops (e.owns c) c.remove := by
  suffices bufs : Heap.Drops (e.ringMem c.serial c.type c.len) fun h =>
      (c.freeBufs h).free (.ring c.serial) from bufs.comp (Heap.drops_free _)
  unfold CtlqInfo.Kept at kept
  unfold CtlqRing.idle at idle
  cases ring : c.ring with
  | send s =>
      rw [ring] at kept
      simp only [CtlqInfo.freeBufs, ring]
      rw [show c.type = .mailboxTx from kept]
      exact (Heap.drops_free _).comp (Heap.drops_free _)
  | recv s =>
      rw [ring] at kept idle
      obtain ⟨type, inv⟩ := kept
      simp only [Bool.and_eq_true, List.isEmpty_iff, Option.isNone_iff_eq_none] at idle
      obtain ⟨⟨held, hand⟩, repost⟩ := idle
      have slots : s.q.buffers.Perm (e.buffers c.serial c.len) := by
        have all := inv.conserved
        rw [RecvSystem.places, held, hand, repost] at all
        simpa only [List.filterMap_nil, Option.toList_none, List.append_nil] using all
      simp only [CtlqInfo.freeBufs, ring]
      rw [type]
      have loop := Heap.drops_foldl s.q.buffers fun b _ => CtlqEnv.drops_freeBuf c.serial b
      rw [(slots.map (bufMem c.serial)).sum_eq] at loop
      exact (loop.comp (Heap.drops_free _)).comp (Heap.drops_free _)

theorem CtlqHw.Sound.deinit (sound : hw.Sound e h)
    (idle : ∀ c ∈ hw.cqs, c.ring.idle = true) : hw.deinit.Sound e h := by
  have drops := Heap.drops_foldl hw.cqs fun c member =>
    (sound.kept c member).drops (idle c member)
  refine ⟨drops h 0 hw.heap ?_, nofun⟩
  rw [add_zero]
  exact sound.holds

theorem CtlqEnv.newRing_kept {q : CtlqCreateInfo} (fits : q.fits = true) (k : Nat)
    (added : q.type ≠ .other) :
    CtlqInfo.Kept e ⟨k, q.type, q.id, q.len, e.newRing k q⟩ ∧ (e.newRing k q).idle = true := by
  unfold CtlqInfo.Kept CtlqEnv.newRing
  cases type : q.type with
  | mailboxTx => exact ⟨rfl, rfl⟩
  | mailboxRx =>
      obtain ⟨large, small⟩ := Bool.and_eq_true_iff.mp fits
      have nodup : ((List.range (q.len - 1)).map (e.pool.buff k)).Nodup :=
        List.nodup_range.map (e.pool.distinct k)
      exact ⟨⟨rfl, RecvInv.start ⟨of_decide_eq_true large, of_decide_eq_true small, nodup, rfl⟩⟩,
        rfl⟩
  | other => exact absurd type added

/-- What `idpf_ctlq_add` does: one more queue on the list, or nothing. -/
theorem CtlqHw.Sound.add (sound : hw.Sound e h) {q : CtlqCreateInfo} (fits : q.fits = true) :
    (e.add q hw).1.Sound e h ∧
      ((e.add q hw).2 = true → ∃ c, (e.add q hw).1.cqs = c :: hw.cqs ∧ c.key = q.key ∧
        c.ring.idle = true) ∧
      ((e.add q hw).2 = false → (e.add q hw).1.cqs = hw.cqs) := by
  have taken := Heap.takes_andThen (Heap.takes_alloc e.grants (CtlqMem.info hw.next))
    (e.takes_allocRingRes hw.next q.type q.len) (Heap.drops_free (CtlqMem.info hw.next)) hw.heap
  unfold CtlqEnv.add
  dsimp only
  split
  · next done =>
    have added : q.type ≠ .other := by
      intro other
      have second := (Heap.andThen_done done).2
      rw [other] at second
      exact Bool.false_ne_true second
    obtain ⟨kept, idle⟩ := CtlqEnv.newRing_kept (e := e) fits hw.next added
    rw [if_pos done] at taken
    refine ⟨⟨?_, ?_⟩, fun _ => ⟨_, rfl, rfl, idle⟩, nofun⟩
    · have both := sound.holds.trans taken
      rw [List.map_cons, List.sum_cons]
      exact both
    · exact List.forall_mem_cons.mpr ⟨kept, sound.kept⟩
  · next refused =>
    rw [if_neg refused] at taken
    refine ⟨⟨?_, sound.kept⟩, nofun, fun _ => rfl⟩
    have both := sound.holds.trans taken
    rwa [zero_add] at both

theorem CtlqHw.Sound.initAll (sound : hw.Sound e h) (idle : ∀ c ∈ hw.cqs, c.ring.idle = true)
    {qs : List CtlqCreateInfo} (fits : ∀ q ∈ qs, q.fits = true) :
    (e.initAll qs hw).1.Sound e h ∧ (∀ c ∈ (e.initAll qs hw).1.cqs, c.ring.idle = true) ∧
      (e.initAll qs hw).1.cqs.map CtlqInfo.key =
        if (e.initAll qs hw).2 then (qs.map CtlqCreateInfo.key).reverse ++ hw.cqs.map CtlqInfo.key
        else [] := by
  induction qs generalizing hw with
  | nil => exact ⟨sound, idle, rfl⟩
  | cons q qs ih =>
      obtain ⟨first, rest⟩ := List.forall_mem_cons.mp fits
      obtain ⟨next, done, refused⟩ := sound.add first
      have step : e.initAll (q :: qs) hw = if (e.add q hw).2 then e.initAll qs (e.add q hw).1
          else ((e.add q hw).1.deinit, false) := rfl
      rw [step]
      cases result : (e.add q hw).2 with
      | true =>
          obtain ⟨c, list, key, still⟩ := done result
          have idle' : ∀ c ∈ (e.add q hw).1.cqs, c.ring.idle = true := by
            rw [list]
            exact List.forall_mem_cons.mpr ⟨still, idle⟩
          obtain ⟨sound', idle'', keys⟩ := ih next idle' rest
          rw [list, List.map_cons, key] at keys
          rw [if_pos rfl]
          refine ⟨sound', idle'', keys.trans ?_⟩
          rw [List.map_cons, List.reverse_cons, List.append_assoc]
          rfl
      | false =>
          have idle' : ∀ c ∈ (e.add q hw).1.cqs, c.ring.idle = true := by
            rw [refused result]
            exact idle
          rw [if_neg Bool.false_ne_true]
          exact ⟨next.deinit idle', fun c member => absurd member List.not_mem_nil, rfl⟩

/-- A list that is thrown away: what its queues had is there for good. -/
theorem CtlqHw.sound_emptied (hw : CtlqHw) : { hw with cqs := [] }.Sound e hw.heap :=
  ⟨Heap.Holds.refl _, nofun⟩

/-- The queues of the list are all those asked for, or none; the memory is theirs, on top of what
there was, and all of it is freed with them. -/
theorem CtlqEnv.init_all_or_nothing (e : CtlqEnv) (hw : CtlqHw) (qs : List CtlqCreateInfo)
    (fits : ∀ q ∈ qs, q.fits = true) :
    ((e.init qs hw).1.cqs.map CtlqInfo.key =
        if (e.init qs hw).2 then (qs.map CtlqCreateInfo.key).reverse else []) ∧
      (e.init qs hw).1.heap.live =
        ((e.init qs hw).1.cqs.map e.owns).sum + hw.heap.live ∧
      (e.init qs hw).1.heap.bad = hw.heap.bad ∧
      (e.init qs hw).1.deinit.heap.live = hw.heap.live ∧
      (e.init qs hw).1.deinit.heap.bad = hw.heap.bad := by
  obtain ⟨sound, idle, keys⟩ := (hw.sound_emptied (e := e)).initAll nofun fits
  obtain ⟨live, bad⟩ := (sound.deinit idle).holds.same
  refine ⟨?_, sound.holds.live, sound.holds.bad, live, bad⟩
  rw [List.map_nil, List.append_nil] at keys
  exact keys

def pagePool : DmaPool where
  buff k i := ⟨4096 * (i + 1) + k, 4096⟩
  distinct k i j same := by
    have address := congrArg DmaMem.pa same
    dsimp only at address
    omega

/-- The twelfth allocation, a buffer of the receive queue, fails. -/
theorem CtlqEnv.init_all_or_nothing_refused :
    let e : CtlqEnv := ⟨fun n => n != 11, pagePool, false⟩
    let qs : List CtlqCreateInfo := [⟨.mailboxTx, -1, 8⟩, ⟨.mailboxRx, -1, 8⟩]
    (e.init qs .start).2 = false ∧ (e.init qs .start).1.heap.asked = 12 ∧
      (e.init qs .start).1.deinit.heap.live = CtlqHw.start.heap.live := by
  intro e qs
  obtain ⟨-, -, -, live, -⟩ := e.init_all_or_nothing .start qs (by decide)
  exact ⟨by decide +kernel, by decide +kernel, live⟩

namespace CtlqHw

theorem Sound.setRing (sound : hw.Sound e h) {i : Nat} {r' : CtlqRing}
    (keep : ∀ c, hw.cqs[i]? = some c → { c with ring := r' }.Kept e) :
    (hw.setRing i r').Sound e h := by
  have owned : ((hw.setRing i r').cqs.map e.owns) = hw.cqs.map e.owns := by
    apply List.ext_getElem?
    intro j
    unfold CtlqHw.setRing
    simp only [List.getElem?_map, List.getElem?_modify]
    cases hw.cqs[j]? with
    | none => rfl
    | some c => split <;> rfl
  refine ⟨?_, fun c member => ?_⟩
  · rw [owned]
    exact sound.holds
  · obtain ⟨j, at_⟩ := List.mem_iff_getElem?.mp member
    unfold CtlqHw.setRing at at_
    rw [List.getElem?_modify] at at_
    split at at_
    · next same =>
      obtain ⟨d, there, rfl⟩ := Option.map_eq_some_iff.mp at_
      exact keep d (same ▸ there)
    · obtain ⟨d, there, rfl⟩ := Option.map_eq_some_iff.mp at_
      exact sound.kept d (List.mem_iff_getElem?.mpr ⟨j, there⟩)

theorem ringAt_eq {i : Nat} {r : CtlqRing} (at_ : hw.ringAt i = some r) :
    ∃ c, hw.cqs[i]? = some c ∧ c.ring = r :=
  Option.map_eq_some_iff.mp at_

theorem Sound.step {hw' : CtlqHw} (sound : hw.Sound e .empty) (op : CtlqOp)
    (ok : hw.ok op = true) (step : hw.step e op = some hw') : hw'.Sound e .empty := by
  cases op with
  | init qs =>
      obtain rfl := Option.some.inj step
      obtain ⟨none, fits⟩ := Bool.and_eq_true_iff.mp ok
      have same : { hw with cqs := [] } = hw := by
        rw [← List.isEmpty_iff.mp none]
      have emptied : { hw with cqs := [] }.Sound e .empty := same ▸ sound
      exact (emptied.initAll nofun fun q member => List.all_eq_true.mp fits q member).1
  | send i op =>
      unfold CtlqHw.step at step
      dsimp only at step
      split at step
      · next s at_ =>
        obtain ⟨s', -, rfl⟩ := Option.map_eq_some_iff.mp step
        refine sound.setRing fun c there => ?_
        obtain ⟨d, there', ring⟩ := ringAt_eq at_
        obtain rfl := Option.some.inj (there'.symm.trans there)
        have kept := sound.kept d (List.mem_iff_getElem?.mpr ⟨i, there⟩)
        rw [CtlqInfo.Kept, ring] at kept
        exact kept
      · cases step
  | recv i op =>
      unfold CtlqHw.step at step
      dsimp only at step
      split at step
      · next s at_ =>
        obtain ⟨s', used, rfl⟩ := Option.map_eq_some_iff.mp step
        have fine : s.recvOk op = true := by
          rw [CtlqHw.ok, at_] at ok
          exact ok
        refine sound.setRing fun c there => ?_
        obtain ⟨d, there', ring⟩ := ringAt_eq at_
        obtain rfl := Option.some.inj (there'.symm.trans there)
        have kept := sound.kept d (List.mem_iff_getElem?.mpr ⟨i, there⟩)
        rw [CtlqInfo.Kept, ring] at kept
        exact ⟨kept.1, kept.2.step fine used⟩
      · cases step
  | deinit =>
      obtain rfl := Option.some.inj step
      exact sound.deinit fun c member => List.all_eq_true.mp ok c member

theorem start_sound (e : CtlqEnv) : CtlqHw.start.Sound e .empty := ⟨Heap.Holds.refl _, nofun⟩

/-- Through any number of set-ups, uses and removals of control queues all memory is that of the
queues on the list, and nothing is freed twice. -/
theorem memory_of_reachable (e : CtlqEnv)
    (h : Reachable (CtlqHw.step e) (fun hw op => hw.ok op = true) (· = CtlqHw.start) hw) :
    hw.heap.live = (hw.cqs.map e.owns).sum ∧ hw.heap.bad = false := by
  have sound : hw.Sound e .empty := by
    refine h.invariant (I := CtlqHw.Sound e .empty) ?_ fun hw op hw' sound ok step =>
      sound.step op ok step
    rintro _ rfl
    exact start_sound e
  exact ⟨sound.holds.live.trans (add_zero _), sound.holds.bad⟩

end CtlqHw

/-- A message is received and its buffer posted again before the queues are removed. -/
theorem CtlqHw.memory_of_reachable_mailbox :
    ∃ hw, execIf (CtlqHw.step ⟨fun _ => true, pagePool, false⟩) CtlqHw.ok CtlqHw.start
        [.init [⟨.mailboxTx, -1, 4⟩, ⟨.mailboxRx, -1, 4⟩], .recv 0 (.write 0 { datalen := 8 }),
          .recv 0 .mbRecv, .recv 0 .mbPost, .deinit] = some hw ∧
      hw.heap.live = 0 ∧ hw.heap.bad = false := by
  have seen : (execIf (CtlqHw.step ⟨fun _ => true, pagePool, false⟩) CtlqHw.ok CtlqHw.start
      [.init [⟨.mailboxTx, -1, 4⟩, ⟨.mailboxRx, -1, 4⟩], .recv 0 (.write 0 { datalen := 8 }),
        .recv 0 .mbRecv, .recv 0 .mbPost, .deinit]).map (fun hw => hw.cqs.isEmpty) =
          some true := by decide +kernel
  obtain ⟨hw, run, none⟩ := Option.map_eq_some_iff.mp seen
  obtain ⟨live, bad⟩ := memory_of_reachable _
    (Reachable.execIf (s := CtlqHw.start) (.start rfl) run)
  rw [List.isEmpty_iff.mp none] at live
  exact ⟨hw, run, live, bad⟩

def dfltMbxInfo : List CtlqCreateInfo := [⟨.mailboxTx, -1, 64⟩, ⟨.mailboxRx, -1, 64⟩]

/-- `idpf_find_ctlq` -/
def CtlqHw.findCtlq (hw : CtlqHw) (type : CtlqType) (id : Int) : Option CtlqInfo :=
  hw.cqs.find? fun c => c.qId == id && c.type == type

/-- `idpf_init_dflt_mbx`, with `asq` and `arq`; the error is that of `idpf_ctlq_init`, or one of the
queues not being found. -/
def CtlqEnv.initDfltMbx (e : CtlqEnv) (hw : CtlqHw) :
    CtlqHw × Except Bool (CtlqInfo × CtlqInfo) :=
  let r := e.init dfltMbxInfo hw
  if r.2 then
    match r.1.findCtlq .mailboxTx (-1), r.1.findCtlq .mailboxRx (-1) with
    | some asq, some arq => (r.1, .ok (asq, arq))
    | _, _ => (r.1.deinit, .error true)
  else (r.1, .error false)

/-- Both queues are found wherever they have been added, so that the mailbox is there as a whole or
not at all. -/
theorem CtlqEnv.initDfltMbx_found (e : CtlqEnv) (hw : CtlqHw) :
    (∃ asq arq, (e.initDfltMbx hw).2 = .ok (asq, arq) ∧ (e.initDfltMbx hw).1.cqs = [arq, asq] ∧
        asq.type = .mailboxTx ∧ arq.type = .mailboxRx) ∨
      (e.initDfltMbx hw).2 = .error false ∧ (e.initDfltMbx hw).1.cqs = [] ∧
        (e.initDfltMbx hw).1.heap.live = hw.heap.live ∧
        (e.initDfltMbx hw).1.heap.bad = hw.heap.bad := by
  obtain ⟨sound, idle, keys⟩ := (hw.sound_emptied (e := e)).initAll nofun
    (show ∀ q ∈ dfltMbxInfo, q.fits = true by decide)
  have call : e.initDfltMbx hw =
      if (e.init dfltMbxInfo hw).2 then
        match (e.init dfltMbxInfo hw).1.findCtlq .mailboxTx (-1),
          (e.init dfltMbxInfo hw).1.findCtlq .mailboxRx (-1) with
        | some asq, some arq => ((e.init dfltMbxInfo hw).1, .ok (asq, arq))
        | _, _ => ((e.init dfltMbxInfo hw).1.deinit, .error true)
      else ((e.init dfltMbxInfo hw).1, .error false) := rfl
  change (e.init dfltMbxInfo hw).1.Sound e hw.heap at sound
  change (e.init dfltMbxInfo hw).1.cqs.map CtlqInfo.key =
    if (e.init dfltMbxInfo hw).2 then _ else _ at keys
  rw [call]
  cases done : (e.init dfltMbxInfo hw).2 with
  | true =>
      rw [done, if_pos rfl] at keys
      have both : (e.init dfltMbxInfo hw).1.cqs.map CtlqInfo.key =
        [(.mailboxRx, -1, 64), (.mailboxTx, -1, 64)] := keys
      obtain ⟨arq, others, list, rx, rest⟩ := List.map_eq_cons_iff.mp both
      obtain ⟨asq, others', list', tx, none⟩ := List.map_eq_cons_iff.mp rest
      rw [list', List.map_eq_nil_iff.mp none] at list
      obtain ⟨rxType, rxRest⟩ := Prod.mk.inj rx
      obtain ⟨txType, txRest⟩ := Prod.mk.inj tx
      have rxId := (Prod.mk.inj rxRest).1
      have txId := (Prod.mk.inj txRest).1
      refine .inl ⟨asq, arq, ?_, ?_, txType, rxType⟩
      · simp [CtlqHw.findCtlq, list, rxType, txType, rxId, txId]
      · simp [CtlqHw.findCtlq, list, rxType, txType, rxId, txId]
  | false =>
      rw [done, if_neg Bool.false_ne_true] at keys
      have none : (e.init dfltMbxInfo hw).1.cqs = [] := List.map_eq_nil_iff.mp keys
      have holds := sound.holds
      rw [none] at holds
      obtain ⟨live, bad⟩ := holds.same
      rw [if_neg Bool.false_ne_true]
      exact .inr ⟨rfl, none, live, bad⟩

end Idpf
