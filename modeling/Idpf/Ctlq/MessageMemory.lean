import Idpf.Ctlq.SendAtomic
import Idpf.General.Heap
import Idpf.General.Transition
import Mathlib.Tactic.Abel

/-! The memory of the messages that go out over the mailbox, from `idpf_send_mb_msg` to the cleaning
that gives them back, with any number of senders at once. The ring is shared under its lock; between
two accesses of one sender the others may have theirs. -/
namespace Idpf
open General

/-- The memory of a message with a number, its `struct idpf_dma_mem` and what that points to, and
the array that a sender, or `idpf_deinit_dflt_mbx`, has for a cleaning. -/
inductive MbMem where
  | qMsg (t : Option Nat)
  | msg (k : Nat)
  | head (k : Nat) (b : DmaMem)
  | dma (k : Nat) (b : DmaMem)
  deriving DecidableEq, Repr

/-- What `idpf_send_mb_msg` is asked to send. -/
structure MbRequest where
  op : Nat
  msgSize : Nat
  cookie : Nat
  deriving DecidableEq, Repr

/-- What the senders are given: which allocations are granted, where the buffer of a message is for
the device and its `struct idpf_dma_mem` for the driver, the queue and the ID of the peer behind the
secondary mailbox, if that is valid, and whether the device is Simics. -/
structure MbEnv where
  grants : Grants
  pa : Nat → Nat
  payload : Nat → Nat
  secondaryMbx : Option (Nat × Nat)
  simics : Bool

/-- A sender between two accesses to the ring: cleaned messages are to be freed before its own is
built, or that is to be put on the ring. -/
inductive MbCall where
  | idle
  | cleaned (r : MbRequest) (msgs : List CtlqMsg)
  | built (msg : CtlqMsg)
  deriving DecidableEq, Repr

/-- The mailbox, if there is one, and its senders. `next` numbers the messages, and `lost` has those
that were on a ring that is no more. -/
structure MbSystem where
  heap : Heap MbMem
  next : Nat
  asq : Option SendQueue
  calls : Nat → MbCall
  lost : List CtlqMsg

/-- `IDPF_DFLT_MBX_Q_LEN` -/
def dfltMbxQLen : Nat := 64

/-- `IDPF_CTLQ_MAX_BUF_LEN` -/
def ctlqMaxBufLen : Nat := 4096

/-- `idpf_mbq_opc_send_msg_to_peer_drv` -/
def mbqOpcSendMsgToPeerDrv : Nat := 0x804

/-- `idpf_ptp_is_mb_msg` -/
def ptpIsMbMsg (op : Nat) : Bool := [542, 543, 544, 545, 546, 547, 548].contains op

namespace MbEnv

variable (e : MbEnv)

/-- `idpf_prepare_ptp_mb_msg` -/
def preparePtp (op : Nat) (msg : CtlqMsg) : CtlqMsg :=
  match e.secondaryMbx with
  | some (queue, peer) =>
    if ptpIsMbMsg op then
      { msg with opcode := mbqOpcSendMsgToPeerDrv, status := queue, hostId := peer }
    else msg
  | none => msg

def buffer (k : Nat) : DmaMem := ⟨e.pa k, ctlqMaxBufLen⟩

/-- The message that `idpf_send_mb_msg` builds. The context is the cookie and the pointer to the
payload. -/
def message (k : Nat) (r : MbRequest) : CtlqMsg :=
  { e.preparePtp r.op { ptr := k, opcode := mbqOpcSendMsgToPf } with
    dataLen := r.msgSize
    chnlOpcode := r.op
    chnlRetval := 0
    direct := (0, r.cookie, e.payload k % 2 ^ 32, e.payload k / 2 ^ 32)
    payload := some (e.buffer k) }

/-- The allocations of `idpf_send_mb_msg`. -/
def takeMsg (k : Nat) : Heap MbMem → Heap MbMem × Bool :=
  Heap.andThen (Heap.alloc e.grants (.msg k))
    (Heap.andThen (Heap.alloc e.grants (.head k (e.buffer k)))
      (Heap.alloc e.grants (.dma k (e.buffer k))) (Heap.free (.head k (e.buffer k))))
    (Heap.free (.msg k))

end MbEnv

/-- A message is freed, with its buffer if it has one. -/
def CtlqMsg.free (msg : CtlqMsg) (h : Heap MbMem) : Heap MbMem :=
  match msg.payload with
  | some b => ((h.free (.dma msg.ptr b)).free (.msg msg.ptr)).free (.head msg.ptr b)
  | none => h.free (.msg msg.ptr)

/-- `idpf_mb_clean` up to what its array holds after the cleaning, or the error. -/
def mbCleanSq (e : MbEnv) (t : Option Nat) (deinit : Bool) (q : SendQueue) (h : Heap MbMem) :
    SendQueue × Heap MbMem × Except Int (List CtlqMsg) :=
  let r := Heap.alloc e.grants (.qMsg t) h
  if r.2 then
    let c := q.cleanSq dfltMbxQLen deinit
    if c.2.1 = 0 then (c.1, r.1, .ok (c.2.2.map Cleaned.msg))
    else (c.1, r.1.free (.qMsg t), .error c.2.1)
  else (q, r.1, .error (-12))

/-- The rest of `idpf_mb_clean`. -/
def mbCleanFree (t : Option Nat) (msgs : List CtlqMsg) (h : Heap MbMem) : Heap MbMem :=
  (msgs.foldl (fun h msg => msg.free h) h).free (.qMsg t)

/-- Senders, the device, and the mailbox being set up and taken down. -/
inductive MbOp where
  | enter (t : Nat) (r : MbRequest) (reset : Bool)
  | build (t : Nat)
  | send (t : Nat)
  | done (slot : Nat) (d : CtlqDesc)
  | init
  | deinit
  deriving DecidableEq, Repr

namespace MbSystem

variable (e : MbEnv) (s : MbSystem)

def setCall (t : Nat) (c : MbCall) : MbSystem := { s with calls := Function.update s.calls t c }

/-- `idpf_send_mb_msg` as far as the cleaning of the ring. Without a mailbox a reset is detected. -/
def enter (t : Nat) (r : MbRequest) (reset : Bool) : MbSystem × Int :=
  match s.asq with
  | none => (s, 0)
  | some q =>
    if reset then (s, 0)
    else
      match mbCleanSq e (some t) false q s.heap with
      | (q, h, .ok msgs) => ({ s with asq := some q, heap := h }.setCall t (.cleaned r msgs), 0)
      | (q, h, .error err) => ({ s with asq := some q, heap := h }, err)

/-- The cleaned messages are freed and the new one is built. -/
def build (t : Nat) (r : MbRequest) (msgs : List CtlqMsg) : MbSystem × Int :=
  let m := e.takeMsg s.next (mbCleanFree (some t) msgs s.heap)
  let s := { s with heap := m.1, next := s.next + 1 }
  if m.2 then (s.setCall t (.built (e.message (s.next - 1) r)), 0) else (s.setCall t .idle, -12)

/-- The message is put on the ring `q`, or freed. -/
def send (t : Nat) (q : SendQueue) (msg : CtlqMsg) : MbSystem × Int :=
  let r := q.send [msg]
  let s := { s with asq := some r.1 }.setCall t .idle
  if r.2 = 0 then (s, 0)
  else
    match msg.payload with
    | some b =>
      ({ s with
        heap := ((s.heap.free (.dma msg.ptr b)).free (.head msg.ptr b)).free (.msg msg.ptr) }, r.2)
    | none => ({ s with heap := s.heap.free (.msg msg.ptr) }, r.2)

/-- `idpf_deinit_dflt_mbx`. -/
def deinit : MbSystem :=
  match s.asq with
  | none => s
  | some q =>
    match mbCleanSq e none true q s.heap with
    | (q, h, .ok msgs) =>
      { s with asq := none, heap := mbCleanFree none msgs h, lost := s.lost ++ q.queued }
    | (q, h, .error _) => { s with asq := none, heap := h, lost := s.lost ++ q.queued }

/-- The descriptors that the device marks done, it writes back as well. -/
def step (e : MbEnv) (s : MbSystem) : MbOp → Option MbSystem
  | .enter t r reset =>
    match s.calls t with
    | .idle => some (s.enter e t r reset).1
    | _ => none
  | .build t =>
    match s.calls t with
    | .cleaned r msgs => some (s.build e t r msgs).1
    | _ => none
  | .send t =>
    match s.calls t, s.asq with
    | .built msg, some q => some (s.send t q msg).1
    | _, _ => none
  | .done slot d => some { s with asq := s.asq.map fun q => (q.react (.done slot d)).1 }
  | .init =>
    match s.asq with
    | none => some { s with asq := some (sendQueueAdd dfltMbxQLen e.simics) }
    | some _ => none
  | .deinit => some (s.deinit e)

def start : MbSystem := ⟨.empty, 0, none, fun _ => .idle, []⟩

/-- There are `n` senders, and none is at work while the mailbox is taken down. -/
def ok (n : Nat) (s : MbSystem) : MbOp → Bool
  | .enter t _ _ => decide (t < n)
  | .build t => decide (t < n)
  | .send t => decide (t < n)
  | .deinit => (List.range n).all fun t => decide (s.calls t = .idle)
  | _ => true

def queued : List CtlqMsg :=
  match s.asq with
  | some q => q.queued
  | none => []

end MbSystem

def CtlqMsg.mem (msg : CtlqMsg) : Multiset MbMem :=
  match msg.payload with
  | some b => {MbMem.dma msg.ptr b} + {MbMem.msg msg.ptr} + {MbMem.head msg.ptr b}
  | none => {MbMem.msg msg.ptr}

def MbCall.mem (t : Nat) : MbCall → Multiset MbMem
  | .idle => 0
  | .cleaned _ msgs => (msgs.map CtlqMsg.mem).sum + {MbMem.qMsg (some t)}
  | .built msg => msg.mem

namespace SendQueue

variable {q : SendQueue} {c : Nat} {l : List CtlqMsg}

/-- Cleaning gives the first messages of the ring, and by force all that it is let. -/
theorem Holding.popAll_msgs (h : q.Holding c l) (force : Bool) (n : Nat) :
    ∃ c' l', (SendQueue.popAll force n q).1.Holding c' l' ∧
      (SendQueue.popAll force n q).1.ringSize = q.ringSize ∧
      l = (SendQueue.popAll force n q).2.map Cleaned.msg ++ l' ∧
      (force = true → l.length ≤ n → l' = []) := by
  induction n generalizing q c l with
  | zero =>
      refine ⟨c, l, h, rfl, rfl, fun _ short => ?_⟩
      exact List.length_eq_zero_iff.mp (Nat.le_zero.mp short)
  | succ n ih =>
      rw [SendQueue.popAll]
      dsimp only
      split
      · cases l with
        | nil =>
            rw [h.empty]
            exact ⟨c, [], h, rfl, rfl, fun _ _ => rfl⟩
        | cons msg l =>
            rw [h.head]
            obtain ⟨c', l', held, size, split, all⟩ := ih h.pop
            refine ⟨c', l', held, size, congrArg (msg :: ·) split, fun by_ short => all by_ ?_⟩
            exact Nat.le_of_succ_le_succ short
      · next undone =>
        refine ⟨c, l, h, rfl, rfl, fun by_ => ?_⟩
        exact absurd (Or.inl by_) undone

/-- A cleaning of the mailbox succeeds. -/
theorem Holding.cleanMbx (h : q.Holding c l) (size : q.ringSize = dfltMbxQLen) (force : Bool) :
    (q.cleanSq dfltMbxQLen force).2.1 = 0 ∧
      ∃ c' l', (q.cleanSq dfltMbxQLen force).1.Holding c' l' ∧
        (q.cleanSq dfltMbxQLen force).1.ringSize = dfltMbxQLen ∧
        l = (q.cleanSq dfltMbxQLen force).2.2.map Cleaned.msg ++ l' ∧ (force = true → l' = []) := by
  have run : q.cleanSq dfltMbxQLen force = ((SendQueue.popAll force dfltMbxQLen q).1, 0,
      (SendQueue.popAll force dfltMbxQLen q).2) := by
    unfold SendQueue.cleanSq
    rw [if_neg (by decide), if_neg (by rw [size]; exact Nat.lt_irrefl _)]
  obtain ⟨c', l', held, kept, split, all⟩ := h.popAll_msgs force dfltMbxQLen
  rw [run]
  refine ⟨rfl, c', l', held, kept.trans size, split, fun by_ => all by_ ?_⟩
  rw [← size]
  exact Nat.le_of_lt h.room

/-- One message with a payload is put on the ring, or the ring is as it was. -/
theorem Holding.sendOne (h : q.Holding c l) (size : q.ringSize = dfltMbxQLen) {msg : CtlqMsg}
    (good : msg.sendable = true) :
    (∃ q', q.send [msg] = (q', 0) ∧ q'.ringSize = dfltMbxQLen ∧ q'.Holding c (l ++ [msg])) ∨
      q.send [msg] = (q, -28) := by
  have room := h.unused (by rw [size]; decide)
  by_cases full : q.unused = 0 ∨ q.unused < [msg].length
  · exact .inr (if_pos full)
  · obtain ⟨held, kept, done⟩ := h.putAll [msg] (by
      rw [List.length_singleton] at full ⊢
      omega)
    rw [List.all_cons, good, List.all_nil, Bool.and_true] at done
    rw [List.takeWhile_cons_of_pos good, List.takeWhile_nil] at held
    refine .inl ⟨_, (if_neg full).trans (if_pos done), kept.trans size, held.rewrite _ _⟩

end SendQueue

theorem CtlqMsg.drops_free (msg : CtlqMsg) : Heap.Drops msg.mem msg.free := by
  unfold CtlqMsg.mem CtlqMsg.free
  cases msg.payload with
  | none => exact Heap.drops_free _
  | some b => exact ((Heap.drops_free _).comp (Heap.drops_free _)).comp (Heap.drops_free _)

theorem CtlqMsg.mem_self (msg : CtlqMsg) : MbMem.msg msg.ptr ∈ msg.mem := by
  unfold CtlqMsg.mem
  cases msg.payload with
  | none => exact Multiset.mem_singleton_self _
  | some b => exact Multiset.mem_add.mpr (.inl (Multiset.mem_add.mpr
      (.inr (Multiset.mem_singleton_self _))))

theorem mem_eq_zero_iff (msgs : List CtlqMsg) : (msgs.map CtlqMsg.mem).sum = 0 ↔ msgs = [] := by
  cases msgs with
  | nil => exact iff_of_true rfl rfl
  | cons msg msgs =>
      refine iff_of_false (fun zero => ?_) (List.cons_ne_nil msg msgs)
      rw [List.map_cons, List.sum_cons] at zero
      have member : MbMem.msg msg.ptr ∈ (0 : Multiset MbMem) :=
        zero ▸ Multiset.mem_add.mpr (.inl msg.mem_self)
      exact Multiset.notMem_zero _ member

theorem drops_mbCleanFree (t : Option Nat) (msgs : List CtlqMsg) :
    Heap.Drops ((msgs.map CtlqMsg.mem).sum + {MbMem.qMsg t}) (mbCleanFree t msgs) :=
  (Heap.drops_foldl msgs fun msg _ => msg.drops_free).comp (Heap.drops_free _)

namespace MbEnv

variable (e : MbEnv) (k : Nat) (r : MbRequest)

theorem message_mem : (e.message k r).mem =
    {MbMem.dma k (e.buffer k)} + {MbMem.msg k} + {MbMem.head k (e.buffer k)} := by
  have ptr : (e.message k r).ptr = k := by
    unfold message preparePtp
    split
    · split <;> rfl
    · rfl
  rw [CtlqMsg.mem, ptr]
  rfl

theorem takes_takeMsg : Heap.Takes (e.message k r).mem (e.takeMsg k) := by
  rw [message_mem, add_right_comm]
  exact Heap.takes_andThen (Heap.takes_alloc _ _)
    (Heap.takes_andThen (Heap.takes_alloc _ _) (Heap.takes_alloc _ _) (Heap.drops_free _))
    (Heap.drops_free _)

end MbEnv

def mbEnv (grants : Grants) : MbEnv := ⟨grants, fun k => k * 4096, fun k => k * 32, none, false⟩

namespace MbSystem

variable {e : MbEnv} {n : Nat} {s s' : MbSystem}

def mem (n : Nat) (s : MbSystem) : Multiset MbMem :=
  (s.queued.map CtlqMsg.mem).sum + Heap.total (fun t => (s.calls t).mem t) n +
    (s.lost.map CtlqMsg.mem).sum

/-- The memory is accounted for, the ring holds messages, that of a sender has a payload, and
without a mailbox nobody sends. -/
structure Sound (n : Nat) (s : MbSystem) : Prop where
  holds : Heap.empty.Holds (s.mem n) s.heap
  ring : ∀ q, s.asq = some q → q.ringSize = dfltMbxQLen ∧ ∃ c l, q.Holding c l
  built : ∀ t msg, s.calls t = .built msg → msg.payload.isSome
  down : s.asq = none → ∀ t < n, s.calls t = .idle

/-- A step of one sender. -/
theorem Sound.move (sound : s.Sound n) {t : Nat} (inside : t < n) {call : MbCall}
    (ring : Option SendQueue) (heap : Heap MbMem) (next : Nat)
    (ringOk : ∀ q, ring = some q → q.ringSize = dfltMbxQLen ∧ ∃ c l, q.Holding c l)
    (builtOk : ∀ msg, call = .built msg → msg.payload.isSome) (up : ring ≠ none)
    (holds : ∀ rest, Heap.empty.Holds ((s.queued.map CtlqMsg.mem).sum + (s.calls t).mem t + rest)
      s.heap → Heap.empty.Holds ((({ s with asq := ring } : MbSystem).queued.map CtlqMsg.mem).sum +
        call.mem t + rest) heap) :
    ({ s with heap, next, asq := ring }.setCall t call).Sound n := by
  obtain ⟨rest, before, after⟩ := Heap.total_replace (fun t => (s.calls t).mem t) inside
  have changed : (fun u => (Function.update s.calls t call u).mem u) =
      Function.update (fun u => (s.calls u).mem u) t (call.mem t) := by
    funext u
    by_cases same : u = t
    · rw [same, Function.update_self, Function.update_self]
    · rw [Function.update_of_ne same, Function.update_of_ne same]
  refine ⟨?_, ringOk, fun u msg built => ?_, fun down => absurd down up⟩
  · have held := sound.holds
    unfold mem at held ⊢
    change Heap.empty.Holds (_ + Heap.total (fun u => (Function.update s.calls t call u).mem u) n +
      _) heap
    rw [changed, after, ← add_assoc, add_assoc (_ + _)]
    rw [before, ← add_assoc, add_assoc (_ + _)] at held
    exact holds _ held
  · change Function.update s.calls t call u = _ at built
    by_cases same : u = t
    · rw [same, Function.update_self] at built
      exact builtOk msg built
    · rw [Function.update_of_ne same] at built
      exact sound.built u msg built

theorem Sound.same (sound : s.Sound n) {heap : Heap MbMem} (holds : s.heap.Holds 0 heap) :
    { s with heap }.Sound n := by
  refine ⟨?_, sound.ring, sound.built, sound.down⟩
  have both := sound.holds.trans holds
  rwa [zero_add] at both

theorem queued_eq {q : SendQueue} {c : Nat} {l : List CtlqMsg} (ring : s.asq = some q)
    (held : q.Holding c l) : s.queued = l := by
  rw [queued, ring]
  exact held.queued

theorem Sound.enter (sound : s.Sound n) {t : Nat} (inside : t < n) (idle : s.calls t = .idle)
    (r : MbRequest) (reset : Bool) : (s.enter e t r reset).1.Sound n := by
  unfold MbSystem.enter
  cases ring : s.asq with
  | none => exact sound
  | some q =>
  cases reset with
  | true => exact sound
  | false =>
      obtain ⟨size, c, l, held⟩ := sound.ring q ring
      obtain ⟨fine, c', l', held', size', split, -⟩ := held.cleanMbx size false
      have taken := Heap.takes_alloc e.grants (MbMem.qMsg (some t)) s.heap
      unfold mbCleanSq
      cases granted : (Heap.alloc e.grants (.qMsg (some t)) s.heap).2 with
      | true =>
          simp only [granted, fine, if_true, Bool.false_eq_true, if_false]
          rw [granted, if_pos rfl] at taken
          refine sound.move inside _ _ s.next ?_ nofun nofun fun rest before => ?_
          · rintro _ ⟨⟩
            exact ⟨size', c', l', held'⟩
          · refine (before.trans taken).congr ?_
            rw [queued_eq ring held, split, idle, List.map_append, List.sum_append,
              queued_eq rfl held', MbCall.mem, MbCall.mem]
            abel
      | false =>
          simp only [granted, Bool.false_eq_true, if_false]
          rw [granted, if_neg Bool.false_ne_true] at taken
          rw [← ring]
          exact sound.same taken

theorem Sound.build (sound : s.Sound n) {t : Nat} (inside : t < n) {r : MbRequest}
    {msgs : List CtlqMsg} (call : s.calls t = .cleaned r msgs) :
    (s.build e t r msgs).1.Sound n := by
  unfold MbSystem.build
  have freed (rest : Multiset MbMem) (before : Heap.empty.Holds
      ((s.queued.map CtlqMsg.mem).sum + (s.calls t).mem t + rest) s.heap) :
      Heap.empty.Holds ((s.queued.map CtlqMsg.mem).sum + rest)
        (mbCleanFree (some t) msgs s.heap) := by
    refine drops_mbCleanFree (some t) msgs _ _ _ (before.congr ?_)
    rw [call, MbCall.mem]
    abel
  have up : s.asq ≠ none := by
    intro down
    exact MbCall.noConfusion ((sound.down down t inside).symm.trans call)
  have taken := e.takes_takeMsg s.next r (mbCleanFree (some t) msgs s.heap)
  cases granted : (e.takeMsg s.next (mbCleanFree (some t) msgs s.heap)).2 with
  | true =>
      rw [granted, if_pos rfl] at taken
      simp only [granted, if_true]
      refine sound.move inside s.asq _ _ sound.ring ?_ up fun rest before => ?_
      · rintro _ ⟨⟩
        rfl
      · refine ((freed rest before).trans taken).congr ?_
        change _ = (s.queued.map CtlqMsg.mem).sum + (e.message s.next r).mem + rest
        abel
  | false =>
      rw [granted, if_neg Bool.false_ne_true] at taken
      simp only [granted, Bool.false_eq_true, if_false]
      refine sound.move inside s.asq _ _ sound.ring nofun up fun rest before => ?_
      refine ((freed rest before).trans taken).congr ?_
      change _ = (s.queued.map CtlqMsg.mem).sum + 0 + rest
      abel

theorem Sound.send (sound : s.Sound n) {t : Nat} (inside : t < n) {q : SendQueue} {msg : CtlqMsg}
    (call : s.calls t = .built msg) (ring : s.asq = some q) : (s.send t q msg).1.Sound n := by
  obtain ⟨size, c, l, held⟩ := sound.ring q ring
  have payload := sound.built t msg call
  obtain ⟨b, has⟩ := Option.isSome_iff_exists.mp payload
  have good : msg.sendable = true := by
    rw [CtlqMsg.sendable, payload, Bool.or_true]
  unfold MbSystem.send
  obtain ⟨q', sent, size', held'⟩ | full := held.sendOne size good
  · rw [sent, if_pos rfl]
    refine sound.move inside _ s.heap s.next ?_ nofun nofun fun rest before => ?_
    · rintro _ ⟨⟩
      exact ⟨size', c, _, held'⟩
    · refine before.congr ?_
      rw [queued_eq ring held, queued_eq rfl held', call, List.map_append, List.sum_append,
        MbCall.mem, MbCall.mem, List.map_singleton, List.sum_singleton]
      abel
  · rw [full]
    dsimp only
    rw [if_neg (by decide), has]
    refine sound.move inside _ _ s.next ?_ nofun nofun fun rest before => ?_
    · rintro _ ⟨⟩
      exact ⟨size, c, l, held⟩
    · have drops := ((Heap.drops_free (MbMem.dma msg.ptr b)).comp
        (Heap.drops_free (MbMem.head msg.ptr b))).comp (Heap.drops_free (MbMem.msg msg.ptr))
      refine drops _ _ _ (before.congr ?_)
      rw [queued_eq ring held, queued_eq rfl held, call, MbCall.mem, MbCall.mem, CtlqMsg.mem, has]
      dsimp only
      abel

/-- The mailbox is taken down: by force all messages of its ring are freed, if there is an array for
them. -/
theorem Sound.deinit (sound : s.Sound n) (idle : ∀ t < n, s.calls t = .idle) :
    (s.deinit e).Sound n ∧
      ((s.deinit e).lost = [] ↔ s.lost = [] ∧ (s.queued = [] ∨ e.grants s.heap.asked = true)) := by
  unfold MbSystem.deinit
  cases ring : s.asq with
  | none =>
      have empty : s.queued = [] := by rw [queued, ring]
      exact ⟨sound, (and_iff_left (.inl empty)).symm⟩
  | some q =>
      obtain ⟨size, c, l, held⟩ := sound.ring q ring
      obtain ⟨fine, c', l', held', -, split, all⟩ := held.cleanMbx size true
      obtain rfl := all rfl
      rw [List.append_nil] at split
      have none_queued : (q.cleanSq dfltMbxQLen true).1.queued = [] := held'.queued
      have owned : s.mem n = (l.map CtlqMsg.mem).sum +
          Heap.total (fun t => (s.calls t).mem t) n + (s.lost.map CtlqMsg.mem).sum := by
        rw [mem, queued_eq ring held]
      have taken := sound.holds.trans
        (Heap.takes_alloc e.grants (MbMem.qMsg none) s.heap)
      rw [owned] at taken
      rw [queued_eq ring held]
      unfold mbCleanSq
      rw [← Heap.alloc_snd e.grants (MbMem.qMsg none) s.heap]
      cases granted : (Heap.alloc e.grants (.qMsg none) s.heap).2 with
      | true =>
          simp only [granted, fine, if_true, none_queued, List.append_nil]
          rw [granted, if_pos rfl] at taken
          refine ⟨⟨?_, nofun, sound.built, fun _ => idle⟩, (and_iff_left (.inr trivial)).symm⟩
          refine drops_mbCleanFree none _ _ _ _ (taken.congr ?_)
          rw [split, mem]
          change _ = _ + (0 + Heap.total (fun t => (s.calls t).mem t) n + _)
          abel
      | false =>
          simp only [granted, Bool.false_eq_true, if_false, or_false]
          rw [granted, if_neg Bool.false_ne_true] at taken
          refine ⟨⟨taken.congr ?_, nofun, sound.built, fun _ => idle⟩, ?_⟩
          · change _ = 0 + Heap.total (fun t => (s.calls t).mem t) n +
              ((s.lost ++ q.queued).map CtlqMsg.mem).sum
            rw [held.queued, List.map_append, List.sum_append]
            abel
          · rw [held.queued, List.append_eq_nil_iff]

/-- The mailbox is taken down with its array, or with no message on the ring. -/
def careful (e : MbEnv) (s : MbSystem) : MbOp → Bool
  | .deinit => s.queued.isEmpty || e.grants s.heap.asked
  | _ => true

theorem enter_lost (t : Nat) (r : MbRequest) (reset : Bool) :
    (s.enter e t r reset).1.lost = s.lost := by
  unfold MbSystem.enter
  split
  · rfl
  · split
    · rfl
    · split <;> rfl

theorem build_lost (t : Nat) (r : MbRequest) (msgs : List CtlqMsg) :
    (s.build e t r msgs).1.lost = s.lost := by
  unfold MbSystem.build
  dsimp only
  split <;> rfl

theorem send_lost (t : Nat) (q : SendQueue) (msg : CtlqMsg) :
    (s.send t q msg).1.lost = s.lost := by
  unfold MbSystem.send
  dsimp only
  split
  · rfl
  · split <;> rfl

theorem Sound.done (sound : s.Sound n) (slot : Nat) (d : CtlqDesc) :
    ({ s with asq := s.asq.map fun q => (q.react (.done slot d)).1 } : MbSystem).Sound n := by
  have same : ({ s with asq := s.asq.map fun q => (q.react (.done slot d)).1 } : MbSystem).mem n =
      s.mem n := by
    unfold mem queued
    cases s.asq with
    | none => rfl
    | some q => rfl
  refine ⟨same ▸ sound.holds, fun q' ring => ?_, sound.built, fun down => ?_⟩
  · obtain ⟨q, was, rfl⟩ := Option.map_eq_some_iff.mp ring
    obtain ⟨size, c, l, held⟩ := sound.ring q was
    exact ⟨size, c, l, held.rewrite _ _⟩
  · exact sound.down (Option.map_eq_none_iff.mp down)

theorem Sound.init (sound : s.Sound n) (down : s.asq = none) :
    ({ s with asq := some (sendQueueAdd dfltMbxQLen e.simics) } : MbSystem).Sound n := by
  obtain ⟨c, l, inv⟩ := sendInv_start (s := ⟨sendQueueAdd dfltMbxQLen e.simics, []⟩)
    ⟨_, _, by decide, by decide, rfl⟩
  have same : ({ s with asq := some (sendQueueAdd dfltMbxQLen e.simics) } : MbSystem).mem n =
      s.mem n := by
    rw [mem, mem, queued, queued, down]
    rfl
  refine ⟨same ▸ sound.holds, ?_, sound.built, nofun⟩
  rintro _ ⟨⟩
  exact ⟨rfl, c, l, inv.holding⟩

theorem Sound.step (sound : s.Sound n) {op : MbOp} (ok : s.ok n op = true)
    (step : s.step e op = some s') :
    s'.Sound n ∧ (s'.lost = [] ↔ s.lost = [] ∧ s.careful e op = true) := by
  have kept {s' : MbSystem} (same : s'.lost = s.lost) :
      s'.lost = [] ↔ s.lost = [] ∧ true = true := by
    rw [same, and_iff_left rfl]
  unfold MbSystem.step at step
  cases op with
  | enter t r reset =>
      dsimp only at step
      split at step
      · next idle =>
        obtain rfl := Option.some.inj step
        exact ⟨sound.enter (of_decide_eq_true ok) idle r reset, kept (enter_lost t r reset)⟩
      · cases step
  | build t =>
      dsimp only at step
      split at step
      · next r msgs call =>
        obtain rfl := Option.some.inj step
        exact ⟨sound.build (of_decide_eq_true ok) call, kept (build_lost t r msgs)⟩
      · cases step
  | send t =>
      dsimp only at step
      split at step
      · next msg q call ring =>
        obtain rfl := Option.some.inj step
        exact ⟨sound.send (of_decide_eq_true ok) call ring, kept (send_lost t q msg)⟩
      · cases step
  | done slot d =>
      obtain rfl := Option.some.inj step
      exact ⟨sound.done slot d, kept rfl⟩
  | init =>
      dsimp only at step
      split at step
      · next down =>
        obtain rfl := Option.some.inj step
        exact ⟨sound.init down, kept rfl⟩
      · cases step
  | deinit =>
      obtain rfl := Option.some.inj step
      have idle (t : Nat) (inside : t < n) : s.calls t = .idle :=
        of_decide_eq_true (List.all_eq_true.mp ok t (List.mem_range.mpr inside))
      obtain ⟨sound', lost⟩ := sound.deinit (e := e) idle
      rw [careful, Bool.or_eq_true, List.isEmpty_iff]
      exact ⟨sound', lost⟩

theorem start_sound (n : Nat) : start.Sound n := by
  refine ⟨?_, nofun, nofun, fun _ _ _ => rfl⟩
  have none : Heap.total (fun t => (start.calls t).mem t) n = 0 := Heap.total_zero fun _ _ => rfl
  rw [mem, none]
  exact Heap.Holds.refl _

theorem sound_of_reachable
    (h : Reachable (MbSystem.step e) (fun s op => s.ok n op = true) (· = start) s) : s.Sound n := by
  refine h.invariant (I := Sound n) ?_ fun s op s' sound ok step => (sound.step ok step).1
  rintro _ rfl
  exact start_sound n

/-- However many senders there are and wherever an allocation fails, all memory is that of the
messages on the ring, of the senders, and of messages whose mailbox was taken down around them;
nothing is freed twice, and the ring never holds more than it has room for. -/
theorem messages_of_reachable
    (h : Reachable (MbSystem.step e) (fun s op => s.ok n op = true) (· = start) s) :
    s.heap.live = (s.queued.map CtlqMsg.mem).sum + Heap.total (fun t => (s.calls t).mem t) n +
        (s.lost.map CtlqMsg.mem).sum ∧
      s.heap.bad = false ∧ s.queued.length < dfltMbxQLen := by
  have sound := sound_of_reachable h
  refine ⟨sound.holds.live.trans (add_zero _), sound.holds.bad, ?_⟩
  cases ring : s.asq with
  | none =>
      rw [queued, ring]
      decide
  | some q =>
      obtain ⟨size, c, l, held⟩ := sound.ring q ring
      rw [queued_eq ring held, ← size]
      exact held.room

/-- Two senders take turns; the second message on the ring is of the first of them. -/
theorem messages_of_reachable_turns : ∃ s,
    execIf (MbSystem.step (mbEnv fun _ => true)) (MbSystem.ok 2) start
      [.init, .enter 0 ⟨1, 8, 0⟩ false, .enter 1 ⟨2, 8, 256⟩ false, .build 0, .build 1, .send 1,
        .send 0, .done 0 {}, .enter 1 ⟨3, 8, 257⟩ false, .build 1, .send 1] = some s ∧
      s.queued.map CtlqMsg.ptr = [0, 2] ∧ s.lost = [] ∧
      s.heap.live = (s.queued.map CtlqMsg.mem).sum + 0 + 0 ∧ s.heap.bad = false := by
  have seen : (execIf (MbSystem.step (mbEnv fun _ => true)) (MbSystem.ok 2) start
      [.init, .enter 0 ⟨1, 8, 0⟩ false, .enter 1 ⟨2, 8, 256⟩ false, .build 0, .build 1, .send 1,
        .send 0, .done 0 {}, .enter 1 ⟨3, 8, 257⟩ false, .build 1, .send 1]).map
      (fun s => (s.queued.map CtlqMsg.ptr, s.lost, s.calls 0, s.calls 1)) =
        some ([0, 2], [], .idle, .idle) := by decide +kernel
  obtain ⟨s, run, ends⟩ := Option.map_eq_some_iff.mp seen
  simp only [Prod.mk.injEq] at ends
  obtain ⟨ring, lost, first, second⟩ := ends
  obtain ⟨live, good, -⟩ := messages_of_reachable (n := 2) (Reachable.execIf (.start rfl) run)
  have idle : Heap.total (fun t => (s.calls t).mem t) 2 = 0 := by
    refine Heap.total_zero fun t inside => ?_
    obtain rfl | rfl : t = 0 ∨ t = 1 := by omega
    · rw [first, MbCall.mem]
    · rw [second, MbCall.mem]
  rw [idle, lost] at live
  exact ⟨s, run, ring, lost, live, good⟩

/-- Once the mailbox is gone no memory of its messages is left exactly if each time it was taken
down there was memory for the array or nothing on the ring. -/
theorem forgotten_iff {ops : List MbOp}
    (run : execIf (MbSystem.step e) (MbSystem.ok n) start ops = some s) (down : s.asq = none) :
    s.heap.live = 0 ↔
      execIf (MbSystem.step e) (fun s op => s.ok n op && s.careful e op) start ops = some s := by
  have keep (s : MbSystem) (op : MbOp) (s' : MbSystem) (sound : s.Sound n)
      (ok : s.ok n op = true) (step : s.step e op = some s') :
      s'.Sound n ∧ (s'.lost = [] ↔ s.lost = [] ∧ s.careful e op = true) := sound.step ok step
  have clear := execIf_clear keep (start_sound n) run
  have sound := sound_of_reachable (Reachable.execIf (.start rfl) run)
  have idle : Heap.total (fun t => (s.calls t).mem t) n = 0 :=
    Heap.total_zero fun t inside => by rw [sound.down down t inside, MbCall.mem]
  have live : s.heap.live = (s.lost.map CtlqMsg.mem).sum := by
    have all := sound.holds.live.trans (add_zero _)
    rwa [mem, queued, down, idle, List.map_nil, List.sum_nil, zero_add, zero_add] at all
  rw [live, mem_eq_zero_iff, clear]
  exact and_iff_right rfl

/-- A message is on the ring when the mailbox is taken down with no memory for the array. -/
theorem forgotten_iff_refused : ∃ s,
    execIf (MbSystem.step (mbEnv (· ≠ 4))) (MbSystem.ok 1) start
      [.init, .enter 0 ⟨1, 8, 0⟩ false, .build 0, .send 0, .deinit] = some s ∧
      s.asq.isNone = true ∧ s.heap.live ≠ 0 := by
  have seen : (execIf (MbSystem.step (mbEnv (· ≠ 4))) (MbSystem.ok 1) start
      [.init, .enter 0 ⟨1, 8, 0⟩ false, .build 0, .send 0, .deinit]).map
      (fun s => s.asq.isNone) = some true := by decide +kernel
  obtain ⟨s, run, down⟩ := Option.map_eq_some_iff.mp seen
  refine ⟨s, run, down, fun none => ?_⟩
  have all := (forgotten_iff run (Option.isNone_iff_eq_none.mp down)).mp none
  have refused : execIf (MbSystem.step (mbEnv (· ≠ 4)))
      (fun s op => s.ok 1 op && s.careful (mbEnv (· ≠ 4)) op) start
      [.init, .enter 0 ⟨1, 8, 0⟩ false, .build 0, .send 0, .deinit] = Option.none := by
    rw [← Option.isNone_iff_eq_none]
    decide +kernel
  rw [refused] at all
  cases all

end MbSystem

end Idpf
