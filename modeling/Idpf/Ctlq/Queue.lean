import Mathlib.Logic.Function.Basic
import Idpf.General.Segment

/-! The control queues of the mailbox: descriptors and messages, the send queue with its cleaning,
and the receive queue with the posting of its buffers. -/
namespace Idpf
open General

/-- `struct idpf_dma_mem`, less its virtual address. -/
structure DmaMem where
  pa : Nat
  size : Nat
  deriving DecidableEq, Repr

structure CtlqFlags where
  dd : Bool := false
  err : Bool := false
  ftype : Nat := 0
  rd : Bool := false
  buf : Bool := false
  hostId : Nat := 0
  deriving DecidableEq, Repr

/-- `struct idpf_ctlq_desc`. `retVal` is `pfid_vfid` as well, and the addresses are the last two
parameters of a direct command. -/
structure CtlqDesc where
  flags : CtlqFlags := {}
  opcode : Nat := 0
  datalen : Nat := 0
  retVal : Nat := 0
  cookieHigh : Nat := 0
  cookieLow : Nat := 0
  param0 : Nat := 0
  param1 : Nat := 0
  addrHigh : Nat := 0
  addrLow : Nat := 0
  deriving DecidableEq, Repr

/-- `struct idpf_ctlq_msg` at address `ptr`: `status` is `func_id` on sending, and the context is
read as four words or as two and a payload. -/
structure CtlqMsg where
  ptr : Nat := 0
  vmvfType : Nat := 0
  hostId : Nat := 0
  opcode : Nat := 0
  dataLen : Nat := 0
  status : Nat := 0
  chnlOpcode : Nat := 0
  chnlRetval : Nat := 0
  direct : Nat × Nat × Nat × Nat := (0, 0, 0, 0)
  payload : Option DmaMem := none
  deriving DecidableEq, Repr

/-- `idpf_mbq_opc_send_msg_to_pf`. -/
def mbqOpcSendMsgToPf : Nat := 0x801

/-- A send queue. `txMsg` has the messages that wait for their completion, `tail` is the
register. -/
structure SendQueue where
  ringSize : Nat
  nextToUse : Nat
  nextToClean : Nat
  desc : Nat → CtlqDesc
  txMsg : Nat → Option CtlqMsg
  tail : Nat
  simics : Bool

namespace SendQueue

/-- `IDPF_CTLQ_DESC_UNUSED`. -/
def unused (q : SendQueue) : Nat :=
  ((if q.nextToClean > q.nextToUse then 0 else q.ringSize) + q.nextToClean - q.nextToUse - 1) %
    65536

end SendQueue

/-- A message put into a descriptor, as `idpf_ctlq_send` does it; the second part is false where the
message has a length and no payload. -/
def CtlqDesc.fill (d : CtlqDesc) (simics : Bool) (msg : CtlqMsg) : CtlqDesc × Bool :=
  let d := { d with
    opcode := msg.opcode
    retVal := msg.status
    cookieHigh := msg.chnlOpcode
    cookieLow := msg.chnlRetval
    flags := { hostId := msg.hostId % 8 } }
  let param0 := if simics ∧ msg.opcode = mbqOpcSendMsgToPf then msg.status else msg.direct.1
  if msg.dataLen ≠ 0 then
    match msg.payload with
    | none => (d, false)
    | some buff =>
      ({ d with
        datalen := d.datalen ||| msg.dataLen
        flags := { d.flags with buf := true, rd := true }
        addrHigh := buff.pa / 2 ^ 32 % 2 ^ 32
        addrLow := buff.pa % 2 ^ 32
        param0
        param1 := msg.direct.2.1 }, true)
  else
    ({ d with
      param0
      param1 := msg.direct.2.1
      addrHigh := msg.direct.2.2.1
      addrLow := msg.direct.2.2.2 }, true)

/-- A message of a batch that `idpf_ctlq_send` does not refuse. -/
def CtlqMsg.sendable (msg : CtlqMsg) : Bool := msg.dataLen == 0 || msg.payload.isSome

namespace SendQueue

/-- One turn of the loop of `idpf_ctlq_send`, for a message that is not refused. -/
def put (q : SendQueue) (msg : CtlqMsg) : SendQueue :=
  { q with
    desc := Function.update q.desc q.nextToUse ((q.desc q.nextToUse).fill q.simics msg).1
    txMsg := Function.update q.txMsg q.nextToUse (some msg)
    nextToUse := bump q.ringSize q.nextToUse }

/-- The loop of `idpf_ctlq_send`. A refused message ends it, with those before it on the ring. -/
def putAll (q : SendQueue) : List CtlqMsg → SendQueue × Bool
  | [] => (q, true)
  | msg :: msgs =>
    if ((q.desc q.nextToUse).fill q.simics msg).2 then (q.put msg).putAll msgs
    else
      ({ q with
        desc := Function.update q.desc q.nextToUse
          ((q.desc q.nextToUse).fill q.simics msg).1 }, false)

/-- `idpf_ctlq_send`. -/
def send (q : SendQueue) (msgs : List CtlqMsg) : SendQueue × Int :=
  if q.unused = 0 ∨ q.unused < msgs.length then (q, -28)
  else
    let r := q.putAll msgs
    if r.2 then ({ r.1 with tail := r.1.nextToUse }, 0) else (r.1, -74)

end SendQueue

/-- A message that cleaning gives back, with the slot it was in and its status. -/
structure Cleaned where
  slot : Nat
  msg : CtlqMsg
  status : Nat
  deriving DecidableEq, Repr

namespace SendQueue

def pop (q : SendQueue) : SendQueue :=
  { q with
    desc := Function.update q.desc q.nextToClean {}
    txMsg := Function.update q.txMsg q.nextToClean none
    nextToClean := bump q.ringSize q.nextToClean }

/-- The loop of `__idpf_ctlq_clean_sq`. -/
def popAll (force : Bool) : Nat → SendQueue → SendQueue × List Cleaned
  | 0, q => (q, [])
  | n + 1, q =>
    let d := q.desc q.nextToClean
    if force ∨ d.flags.dd then
      match q.txMsg q.nextToClean with
      | none => (q, [])
      | some msg =>
        let r := popAll force n q.pop
        (r.1, ⟨q.nextToClean, msg, d.retVal % 256⟩ :: r.2)
    else (q, [])

/-- `__idpf_ctlq_clean_sq`. -/
def cleanSq (q : SendQueue) (cleanCount : Nat) (force : Bool) : SendQueue × Int × List Cleaned :=
  if cleanCount = 0 then (q, 0, [])
  else if q.ringSize < cleanCount then (q, -53, [])
  else
    let r := popAll force cleanCount q
    (r.1, 0, r.2)

end SendQueue

/-- `idpf_ctlq_add` for a send queue. -/
def sendQueueAdd (ringSize : Nat) (simics : Bool) : SendQueue :=
  ⟨ringSize, 0, 0, fun _ => {}, fun _ => none, 0, simics⟩

/-- A receive queue. `rxBuff` has the buffers in its slots, `tail` is the register. -/
structure RecvQueue where
  ringSize : Nat
  nextToClean : Nat
  nextToPost : Nat
  desc : Nat → CtlqDesc
  rxBuff : Nat → Option DmaMem
  tail : Nat

/-- The message in a written-back descriptor, with the buffer of its slot if it has a length. -/
def CtlqDesc.message (d : CtlqDesc) (buff : Option DmaMem) : CtlqMsg where
  vmvfType := d.flags.ftype
  opcode := d.opcode
  dataLen := d.datalen
  status := d.retVal
  chnlOpcode := d.cookieHigh
  chnlRetval := d.cookieLow
  direct := if d.datalen ≠ 0 then (d.param0, d.param1, 0, 0)
    else (d.param0, d.param1, d.addrHigh, d.addrLow)
  payload := if d.datalen ≠ 0 then buff else none

/-- A descriptor with a buffer for the device, as the end of the loop of `idpf_ctlq_post_rx_buffs`
writes it. -/
def CtlqDesc.post (d : CtlqDesc) (buff : DmaMem) : CtlqDesc :=
  { d with
    flags := { buf := true, rd := true }
    datalen := buff.size
    addrHigh := buff.pa / 2 ^ 32 % 2 ^ 32
    addrLow := buff.pa % 2 ^ 32 }

namespace RecvQueue

def take (q : RecvQueue) : RecvQueue :=
  let d := q.desc q.nextToClean
  { q with
    desc := Function.update q.desc q.nextToClean {}
    rxBuff := if d.datalen ≠ 0 then Function.update q.rxBuff q.nextToClean none else q.rxBuff
    nextToClean := bump q.ringSize q.nextToClean }

/-- The loop of `idpf_ctlq_recv`, with whether an error flag was seen. -/
def takeAll : Nat → RecvQueue → RecvQueue × List CtlqMsg × Bool
  | 0, q => (q, [], false)
  | n + 1, q =>
    let d := q.desc q.nextToClean
    if d.flags.dd then
      let r := takeAll n q.take
      (r.1, d.message (q.rxBuff q.nextToClean) :: r.2.1, d.flags.err || r.2.2)
    else (q, [], false)

/-- `idpf_ctlq_recv`. -/
def recv (q : RecvQueue) (numMsg : Nat) : RecvQueue × Int × List CtlqMsg :=
  if q.ringSize = 0 then (q, -105, [])
  else if numMsg = 0 then (q, 0, [])
  else if q.ringSize < numMsg then (q, -53, [])
  else
    let r := takeAll numMsg q
    (r.1, if r.2.1 = [] then -42 else if r.2.2 then -74 else 0, r.2.1)

/-- The search of `idpf_ctlq_post_rx_buffs` for a buffer in a later slot, from `tbp` on. -/
def search (q : RecvQueue) : Nat → Nat → Option Nat
  | 0, _ => none
  | fuel + 1, tbp =>
    if tbp = q.nextToClean then none
    else if (q.rxBuff tbp).isSome then some tbp
    else q.search fuel (bump q.ringSize tbp)

/-- A buffer is put into slot `ntp`, and posted. -/
def fillDesc (q : RecvQueue) (ntp : Nat) (buff : DmaMem) : RecvQueue :=
  { q with
    rxBuff := Function.update q.rxBuff ntp (some buff)
    desc := Function.update q.desc ntp ((q.desc ntp).post buff) }

/-- The loop of `idpf_ctlq_post_rx_buffs` from `ntp` on: the queue, where it ends, and the buffers
not posted. The fuel is the size of the ring. -/
def postAll : Nat → RecvQueue → Nat → List DmaMem → RecvQueue × Nat × List DmaMem
  | 0, q, ntp, buffs => (q, ntp, buffs)
  | fuel + 1, q, ntp, buffs =>
    if ntp = q.nextToClean then (q, ntp, buffs)
    else
      match q.rxBuff ntp, buffs with
      | some buff, _ => postAll fuel (q.fillDesc ntp buff) (bump q.ringSize ntp) buffs
      | none, buff :: rest => postAll fuel (q.fillDesc ntp buff) (bump q.ringSize ntp) rest
      | none, [] =>
        match q.search q.ringSize (bump q.ringSize ntp) with
        | none => (q, ntp, [])
        | some tbp =>
          match q.rxBuff tbp with
          | none => (q, ntp, [])
          | some buff =>
            postAll fuel ({ q with rxBuff := Function.update q.rxBuff tbp none }.fillDesc ntp buff)
              (bump q.ringSize ntp) []

/-- `idpf_ctlq_post_rx_buffs`, with the buffers that were not posted. -/
def postRxBuffs (q : RecvQueue) (buffs : List DmaMem) : RecvQueue × Int × List DmaMem :=
  if q.ringSize < buffs.length then (q, -53, buffs)
  else if bump q.ringSize q.nextToPost = q.nextToClean then (q, 0, buffs)
  else
    let r := postAll q.ringSize q q.nextToPost buffs
    if q.nextToPost = r.2.1 then (r.1, 0, r.2.2)
    else
      let next := if r.2.1 = 0 then q.ringSize - 1 else r.2.1 - 1
      ({ r.1 with nextToPost := next, tail := next }, 0, r.2.2)

end RecvQueue

/-- `idpf_ctlq_add` for a receive queue whose buffers are `buffs`: all slots but the last have
one. -/
def recvQueueAdd (ringSize : Nat) (buffs : Nat → DmaMem) : RecvQueue where
  ringSize := ringSize
  nextToClean := 0
  nextToPost := ringSize - 1
  desc i := if i + 1 < ringSize then CtlqDesc.post {} (buffs i) else {}
  rxBuff i := if i + 1 < ringSize then some (buffs i) else none
  tail := ringSize - 1

end Idpf
