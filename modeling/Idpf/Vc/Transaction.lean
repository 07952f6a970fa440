import Mathlib.Logic.Function.Basic
import Idpf.General.Transition

/-! Virtchnl transactions: the manager and its slots, callers of `idpf_vc_xn_exec` that run side by
side, the mailbox task that hands replies on, and the shutdown and initialisation of the manager. -/
namespace Idpf
open General

/-- `IDPF_VC_XN_RING_LEN`. -/
def vcXnRingLen : Nat := 255

/-- `enum idpf_vc_xn_state`, with the value a zeroed manager starts with. -/
inductive VcXnState where
  | unset | idle | waiting | completedSuccess | completedFailed | shutdown | async
  deriving DecidableEq, Repr

/-- What the code looks at of a mailbox message: the cookie, the opcode and status its sender put
in, and its length. `answers` is the call whose request it replies to. -/
structure VcMsg where
  cookie : Nat
  chnlOpcode : Nat
  chnlRetval : Nat
  dataLen : Nat
  answers : Option Nat
  deriving DecidableEq, Repr

/-- `struct completion`: the signals nobody has waited for yet, or one signalled for good. -/
inductive Completion where
  | signals (l : List VcMsg)
  | all
  deriving DecidableEq, Repr

namespace Completion

/-- `init_completion` and `reinit_completion`. -/
def reinit : Completion := .signals []

/-- `complete`. -/
def complete (m : VcMsg) : Completion → Completion
  | .signals l => .signals (l ++ [m])
  | .all => .all

def done : Completion → Bool
  | .signals l => !l.isEmpty
  | .all => true

def pending : Completion → List VcMsg
  | .signals l => l
  | .all => []

def consume : Completion → Completion
  | .signals l => .signals l.tail
  | .all => .all

end Completion

/-- The buffer of a call, as `xn->reply` refers to it. -/
structure VcReply where
  call : Nat
  len : Nat
  deriving DecidableEq, Repr

/-- `struct idpf_vc_xn`; its `idx` is its place in the ring. `holder` is the call that has set it up
last. -/
structure VcXn where
  completed : Completion := .reinit
  state : VcXnState := .unset
  replySz : Nat := 0
  reply : Option VcReply := none
  asyncHandler : Bool := false
  vcOp : Nat := 0
  salt : Nat := 0
  holder : Nat := 0
  deriving DecidableEq, Repr

/-- `struct idpf_vc_xn_manager`. -/
structure VcXnManager where
  ring : Nat → VcXn
  freeXnBm : Nat → Bool
  salt : Nat
  active : Bool

/-- `struct idpf_vc_xn_params`, less the buffer to send and the length of the timeout. -/
structure VcXnParams where
  recvBuf : Option Nat := none
  async : Bool := false
  asyncHandler : Bool := false
  vcOp : Nat := 0
  deriving DecidableEq, Repr

/-- What `idpf_vc_xn_exec` returns: a length, one of its own errors, or that of the send. -/
inductive VcRet where
  | size (n : Nat)
  | enospc | enxio | etime | eio
  | send (e : Nat)
  deriving DecidableEq, Repr

def VcRet.isErr : VcRet → Bool
  | .size _ => false
  | _ => true

def vcCookie (salt idx : Nat) : Nat := salt * 256 + idx

def vcCookieIdx (cookie : Nat) : Nat := cookie % 256

def vcCookieSalt (cookie : Nat) : Nat := cookie / 256 % 256

namespace VcXn

/-- `idpf_vc_xn_release_bufs`. -/
def releaseBufs (xn : VcXn) : VcXn :=
  { xn with reply := none, state := if xn.state ≠ .shutdown then .idle else xn.state }

/-- What `idpf_vc_xn_exec` writes under the lock before it sends. -/
def setUp (xn : VcXn) (t : Nat) (params : VcXnParams) : VcXn :=
  { xn with
    reply := params.recvBuf.map fun len => ⟨t, len⟩
    replySz := 0
    state := if params.async then .async else .waiting
    vcOp := params.vcOp
    asyncHandler := params.asyncHandler
    holder := t }

end VcXn

namespace VcXnManager

def setXn (m : VcXnManager) (i : Nat) (xn : VcXn) : VcXnManager :=
  { m with ring := Function.update m.ring i xn }

def setFree (m : VcXnManager) (i : Nat) (b : Bool) : VcXnManager :=
  { m with freeXnBm := Function.update m.freeXnBm i b }

/-- `idpf_vc_xn_pop_free`. -/
def popFree (m : VcXnManager) : Option (Nat × VcXnManager) :=
  ((List.range vcXnRingLen).find? m.freeXnBm).map fun i =>
    (i, { (m.setFree i false).setXn i { m.ring i with salt := m.salt } with
      salt := (m.salt + 1) % 256 })

/-- `idpf_vc_xn_push_free`. -/
def pushFree (m : VcXnManager) (i : Nat) : VcXnManager :=
  (m.setXn i (m.ring i).releaseBufs).setFree i true

/-- The end of `idpf_vc_xn_exec` for a waiter that has woken up. -/
def finish (m : VcXnManager) (i : Nat) : VcXnManager × VcRet :=
  match (m.ring i).state with
  | .shutdown => (m, .enxio)
  | .waiting => (m.pushFree i, .etime)
  | .completedSuccess => (m.pushFree i, .size (m.ring i).replySz)
  | .completedFailed => (m.pushFree i, .eio)
  | _ => (m.pushFree i, .eio)

end VcXnManager

/-- What a reply does: the manager it leaves, the error the receive loop sees, the slot whose waiter
is signalled once the lock is dropped, and the buffer written. -/
structure VcForward where
  mngr : VcXnManager
  err : Int := 0
  signal : Option Nat := none
  wrote : Option VcReply := none

namespace VcXnManager

/-- `idpf_vc_xn_forward_async`; the handler, if there is one, returns `handlerErr`. -/
def forwardAsync (m : VcXnManager) (i : Nat) (msg : VcMsg) (handlerErr : Int) : VcForward :=
  let xn := m.ring i
  if msg.chnlOpcode ≠ xn.vcOp then
    { mngr := (m.setXn i { xn with replySz := 0 }).pushFree i, err := -22 }
  else if xn.asyncHandler then
    { mngr := (m.setXn i { xn with replySz := msg.dataLen }).pushFree i, err := handlerErr }
  else if msg.chnlRetval ≠ 0 then
    { mngr := (m.setXn i { xn with replySz := 0 }).pushFree i, err := -22 }
  else { mngr := (m.setXn i { xn with replySz := msg.dataLen }).pushFree i }

/-- `idpf_vc_xn_forward_reply`. -/
def forwardReply (m : VcXnManager) (msg : VcMsg) (handlerErr : Int) : VcForward :=
  let i := vcCookieIdx msg.cookie
  let xn := m.ring i
  if vcXnRingLen ≤ i then { mngr := m, err := -22 }
  else if xn.salt ≠ vcCookieSalt msg.cookie then { mngr := m, err := -22 }
  else
    match xn.state with
    | .waiting =>
      if msg.chnlOpcode ≠ xn.vcOp ∨ msg.chnlRetval ≠ 0 then
        { mngr := m.setXn i { xn with replySz := 0, state := .completedFailed }
          err := -22
          signal := some i }
      else
        { mngr := m.setXn i { xn with replySz := msg.dataLen, state := .completedSuccess }
          signal := some i
          wrote := xn.reply.filter fun b => b.len ≠ 0 ∧ msg.dataLen ≠ 0 }
    | .idle => { mngr := m, err := -22, signal := some i }
    | .shutdown => { mngr := m, err := -6, signal := some i }
    | .async => m.forwardAsync i msg handlerErr
    | _ => { mngr := m, err := -16, signal := some i }

/-- What `idpf_vc_xn_shutdown` does to a slot under its lock. -/
def shutSlot (m : VcXnManager) (i : Nat) : VcXnManager :=
  m.setXn i { m.ring i with state := .shutdown }.releaseBufs

/-- What `idpf_vc_xn_init` does to a slot. -/
def initSlot (m : VcXnManager) (i : Nat) : VcXnManager :=
  m.setXn i { { m.ring i with state := .idle }.releaseBufs with completed := .reinit }

/-- `bitmap_fill` and `bitmap_zero`. -/
def fill (m : VcXnManager) : VcXnManager :=
  { m with active := true, freeXnBm := fun i => decide (i < vcXnRingLen) }

def zero (m : VcXnManager) : VcXnManager := { m with freeXnBm := fun _ => false }

end VcXnManager

/-- Where a call of `idpf_vc_xn_exec` is, and the slot it has. `entered` is between the unlock and
`reinit_completion`, `failing` between a failed send and the lock; a `pending` call has returned
and awaits an asynchronous reply. -/
inductive VcPhase where
  | popped (i : Nat)
  | entered (i : Nat)
  | armed (i : Nat)
  | cookied (i cookie : Nat)
  | waiting (i : Nat)
  | woken (i : Nat)
  | failing (i e : Nat)
  | pending (i : Nat)
  | returned (r : VcRet)
  deriving DecidableEq, Repr

namespace VcPhase

def slot : VcPhase → Option Nat
  | .popped i | .entered i | .armed i | .cookied i _ | .waiting i | .woken i | .failing i _
  | .pending i => some i
  | .returned _ => none

/-- The call has set its slot up and has not returned. -/
def begun : VcPhase → Bool
  | .entered _ | .armed _ | .cookied _ _ | .waiting _ | .woken _ | .failing _ _ => true
  | _ => false

end VcPhase

/-- A call: its parameters, where it is, the salt it has been given, and the cookie of its request
once the mailbox has it. -/
structure VcCall where
  params : VcXnParams := {}
  phase : VcPhase := .returned .enospc
  salt : Nat := 0
  handed : Option Nat := none
  deriving DecidableEq, Repr

def VcCall.active (c : VcCall) : Option (Nat × Nat) :=
  match c.phase with
  | .pending _ | .returned _ => none
  | phase => phase.slot.map fun i => (i, c.salt)

inductive VcEvent where
  | began (t idx salt : Nat)
  | handed (t cookie : Nat)
  | completed (t : Nat) (m : VcMsg)
  | wrote (t : Nat) (m : VcMsg) (active : Option (Nat × Nat))
  | woken (t : Nat) (l : List VcMsg)
  | elapsed (t : Nat)
  | returned (t : Nat) (r : VcRet)
  deriving DecidableEq, Repr

/-- Where `idpf_vc_xn_shutdown` or `idpf_vc_xn_init` is: about to lock a slot, about to signal one,
or about to initialise one. -/
inductive VcCtl where
  | idle
  | sweep (i : Nat)
  | wakeAll (i : Nat)
  | init (i : Nat)
  deriving DecidableEq, Repr

/-- The manager, the calls begun so far, the mailbox task, which may have a slot to signal, and the
thread that shuts down and initialises. `down` says that a shutdown has ended and no
initialisation has begun since. -/
structure VcSystem where
  mngr : VcXnManager
  calls : Nat → VcCall
  started : Nat
  signalling : Option (Nat × VcMsg)
  ctl : VcCtl
  down : Bool
  log : List VcEvent

/-- How `idpf_send_mb_msg` ends; with a reset detected it returns 0 and sends nothing. -/
inductive VcSend where
  | handed | dropped
  | failed (e : Nat)
  deriving DecidableEq, Repr

inductive VcOp where
  | exec (params : VcXnParams)
  | enter (t : Nat)
  | arm (t : Nat)
  | cookie (t : Nat)
  | send (t : Nat) (res : VcSend)
  | fail (t : Nat)
  | wake (t : Nat)
  | elapse (t : Nat)
  | finish (t : Nat)
  | recv (m : VcMsg) (handlerErr : Int)
  | signal
  | shutdown | sweep | wakeAll | shutEnd
  | init | initSlot | initEnd
  deriving DecidableEq, Repr

namespace VcSystem

def setCall (s : VcSystem) (t : Nat) (c : VcCall) : VcSystem :=
  { s with calls := Function.update s.calls t c }

def goTo (s : VcSystem) (t : Nat) (phase : VcPhase) : VcSystem :=
  s.setCall t { s.calls t with phase }

def note (s : VcSystem) (e : VcEvent) : VcSystem := { s with log := s.log ++ [e] }

def ret (s : VcSystem) (t : Nat) (r : VcRet) : VcSystem :=
  (s.goTo t (.returned r)).note (.returned t r)

/-- The start of `idpf_vc_xn_exec`. -/
def exec (s : VcSystem) (params : VcXnParams) : VcSystem :=
  let t := s.started
  match s.mngr.popFree with
  | none => { s.setCall t { params } with started := t + 1 }.ret t .enospc
  | some (i, mngr) =>
    { s.setCall t { params, phase := .popped i, salt := s.mngr.salt } with
      mngr, started := t + 1 }.note (.began t i s.mngr.salt)

/-- The slot is set up under its lock, unless it is shut down. -/
def enter (s : VcSystem) (t i : Nat) : VcSystem :=
  if (s.mngr.ring i).state = .shutdown then s.ret t .enxio
  else
    { s with mngr := s.mngr.setXn i ((s.mngr.ring i).setUp t (s.calls t).params) }.goTo t
      (.entered i)

/-- `reinit_completion`, which an asynchronous call passes by. -/
def arm (s : VcSystem) (t i : Nat) : VcSystem :=
  (if (s.calls t).params.async then s
    else { s with mngr := s.mngr.setXn i { s.mngr.ring i with completed := .reinit } }).goTo t
    (.armed i)

/-- `idpf_send_mb_msg`. -/
def send (s : VcSystem) (t i cookie : Nat) : VcSend → VcSystem
  | .failed e => s.goTo t (.failing i e)
  | res =>
    let s := if res = .handed then
        (s.setCall t { s.calls t with handed := some cookie }).note (.handed t cookie)
      else s
    if (s.calls t).params.async then
      (s.goTo t (if (s.mngr.ring i).state = .async then .pending i
        else .returned (.size 0))).note (.returned t (.size 0))
    else s.goTo t (.waiting i)

/-- The calls that await an asynchronous reply in slot `i` are over. -/
def endPending (s : VcSystem) (i : Nat) : VcSystem :=
  { s with calls := fun t =>
      if (s.calls t).phase = .pending i then { s.calls t with phase := .returned (.size 0) }
      else s.calls t }

def recv (s : VcSystem) (msg : VcMsg) (handlerErr : Int) : VcSystem :=
  let i := vcCookieIdx msg.cookie
  let xn := s.mngr.ring i
  let r := s.mngr.forwardReply msg handlerErr
  let s' := { s with
    mngr := r.mngr
    signalling := r.signal.map fun i => (i, msg)
    log := s.log ++
      (if xn.state = .waiting ∧ r.signal.isSome then [.completed xn.holder msg] else []) ++
      match r.wrote with
      | some b => [.wrote b.call msg (s.calls b.call).active]
      | none => [] }
  if xn.state = .async ∧ (r.mngr.ring i).state = .idle then s'.endPending i else s'

/-- `idpf_vc_xn_shutdown` locks slot `i`. -/
def sweepSlot (s : VcSystem) (i : Nat) : VcSystem :=
  { s with mngr := s.mngr.shutSlot i, ctl := .wakeAll i }.endPending i

/-- A message that answers a call has the cookie of its request. -/
def genuine (s : VcSystem) (m : VcMsg) : Bool :=
  match m.answers with
  | none => true
  | some t => decide ((s.calls t).handed = some m.cookie)

def step (s : VcSystem) : VcOp → Option VcSystem
  | .exec params => some (s.exec params)
  | .enter t =>
    match (s.calls t).phase with
    | .popped i => some (s.enter t i)
    | _ => none
  | .arm t =>
    match (s.calls t).phase with
    | .entered i => some (s.arm t i)
    | _ => none
  | .cookie t =>
    match (s.calls t).phase with
    | .armed i => some (s.goTo t (.cookied i (vcCookie (s.mngr.ring i).salt i)))
    | _ => none
  | .send t res =>
    match (s.calls t).phase with
    | .cookied i cookie => some (s.send t i cookie res)
    | _ => none
  | .fail t =>
    match (s.calls t).phase with
    | .failing i e => some ({ s with mngr := s.mngr.pushFree i }.ret t (.send e))
    | _ => none
  | .wake t =>
    match (s.calls t).phase with
    | .waiting i =>
      let xn := s.mngr.ring i
      if xn.completed.done then
        some (({ s with
          mngr := s.mngr.setXn i { xn with completed := xn.completed.consume } }.goTo t
          (.woken i)).note (.woken t xn.completed.pending))
      else none
    | _ => none
  | .elapse t =>
    match (s.calls t).phase with
    | .waiting i =>
      if (s.mngr.ring i).completed.done then none
      else some ((s.goTo t (.woken i)).note (.elapsed t))
    | _ => none
  | .finish t =>
    match (s.calls t).phase with
    | .woken i =>
      some ({ s with mngr := (s.mngr.finish i).1 }.ret t (s.mngr.finish i).2)
    | _ => none
  | .recv m handlerErr =>
    if s.signalling.isNone && s.genuine m then some (s.recv m handlerErr) else none
  | .signal =>
    match s.signalling with
    | some (i, m) =>
      let xn := s.mngr.ring i
      some { s with
        mngr := s.mngr.setXn i { xn with completed := xn.completed.complete m }
        signalling := none }
    | none => none
  | .shutdown =>
    if s.ctl = .idle ∧ s.mngr.active = true then
      some { s with mngr := s.mngr.zero, ctl := .sweep 0 }
    else none
  | .sweep =>
    match s.ctl with
    | .sweep i => if i < vcXnRingLen then some (s.sweepSlot i) else none
    | _ => none
  | .wakeAll =>
    match s.ctl with
    | .wakeAll i =>
      some { s with
        mngr := s.mngr.setXn i { s.mngr.ring i with completed := .all }
        ctl := .sweep (i + 1) }
    | _ => none
  | .shutEnd =>
    if s.ctl = .sweep vcXnRingLen then
      some { s with mngr := { s.mngr with active := false }, ctl := .idle, down := true }
    else none
  | .init =>
    if s.ctl = .idle ∧ s.mngr.active = false then
      some { s with ctl := .init 0, down := false }
    else none
  | .initSlot =>
    match s.ctl with
    | .init i =>
      if i < vcXnRingLen then some { s with mngr := s.mngr.initSlot i, ctl := .init (i + 1) }
      else none
    | _ => none
  | .initEnd =>
    if s.ctl = .init vcXnRingLen then some { s with mngr := s.mngr.fill, ctl := .idle } else none

end VcSystem

def vcInit : VcSystem where
  mngr := ⟨fun _ => {}, fun _ => false, 0, false⟩
  calls _ := {}
  started := 0
  signalling := none
  ctl := .idle
  down := false
  log := []

/-- The steps of `idpf_vc_xn_init`, and of `idpf_vc_xn_shutdown`. -/
def vcXnInit : List VcOp := .init :: List.replicate vcXnRingLen .initSlot ++ [.initEnd]

def vcXnShutdown : List VcOp :=
  .shutdown :: (List.replicate vcXnRingLen [.sweep, .wakeAll]).flatten ++ [.shutEnd]

end Idpf
