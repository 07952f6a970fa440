import Idpf.General.Transition
import Idpf.Vport.Memory

/-! Opening and stopping a vport: memory, NAPI, interrupts, and what the device has been told. Each
step of an open can fail; the labels of `idpf_vport_open` are functions here, each going on to the
next one. -/
namespace Idpf
open General

/-- A NAPI instance: not there, added (and so disabled), or enabled. -/
inductive NapiState where
  | none
  | disabled
  | enabled
  deriving DecidableEq, Repr

/-- How a request that is sent in several messages goes: the message that fails, if one does, and
whether the device has acted on it all the same (its reply is lost). -/
structure Served where
  fails : Option Nat
  done : Bool

namespace Served

/-- Item `q` of `total` is in message `q / per`; no message is sent after one that fails. -/
def acts (m : Served) (per total q : Nat) : Bool :=
  q < total &&
    match m.fails with
    | none => true
    | some k => q / per < k || (m.done && q / per = k)

def okay (m : Served) (per total : Nat) : Bool :=
  match m.fails with
  | none => true
  | some k => (total + per - 1) / per ≤ k

end Served

/-- The end of a request of one message. -/
inductive MsgEnd where
  | accepted
  | failed (done : Bool)

/-- What `idpf_vport_open` has last returned, if it was called last. -/
inductive OpenRet where
  | none
  | opened
  | failed
  | busy
  deriving DecidableEq, Repr

/-- The requests that undo an open: whether the device acts on them. -/
structure UndoMsgs where
  disableVport : Bool
  disableQueues : Bool
  unmap : Served

/-- How an open goes: its sizes, and how each of its steps ends. `fail` is the allocation that
fails, `irqFails` the vector whose `request_irq` does, `xdpFails` the receive queue whose XDP set up
does. -/
structure OpenRun where
  rsrc : VportSizes
  fail : Option VportPtr
  ids : Bool
  vecIdx : Bool
  intrRegs : Bool
  irqFails : Option Nat
  queueRegs : Bool
  bufs : Bool
  xdpProg : Bool
  xdpFails : Option Nat
  configTx : Bool
  configRx : Bool
  map : Served
  enableQueues : MsgEnd
  enableVport : MsgEnd
  macFilter : Bool
  numMacs : Nat
  addMacs : Served
  rss : Bool
  linkUp : Bool
  undo : UndoMsgs

/-- How a stop goes. After a core reset the device has lost what it was told. -/
structure StopRun where
  corer : Bool
  undo : UndoMsgs
  delMacs : Served

/-- A vport. `mapped`, `enabled`, `vportOn` and `filters` are the device's: the queues with a
vector, and the MAC filters of the list, by their number. `stuck` says that a call does not come
back, and `badFree` that an interrupt was freed that had not been requested. -/
structure OpenVport where
  rsrc : VportSizes
  held : List VportPtr
  napi : Nat → NapiState
  irq : Nat → Bool
  irqOn : Nat → Bool
  xdpReady : Nat
  pools : Bool
  macFilter : Bool
  numMacs : Nat
  mapped : Nat → Bool
  enabled : Bool
  vportOn : Bool
  filters : Nat → Bool
  carrier : Bool
  up : Bool
  stuck : Bool
  badFree : Bool
  ret : OpenRet

namespace VportSizes

def numTxqs (c : VportSizes) : Nat := c.numTxqGrp * c.numTxq

def numRxqs (c : VportSizes) : Nat := c.numRxqGrp * c.numRxq

def numComplq (c : VportSizes) : Nat := if c.txqSplit then c.numTxqGrp else 0

def numBufq (c : VportSizes) : Nat := if c.rxqSplit then c.numRxqGrp * c.numBufqsPerQgrp else 0

def numMapped (c : VportSizes) : Nat := c.numTxqs + c.numRxqs

/-- How many of `n` queues come to vector `v`: `idpf_vport_intr_map_vector_to_qs` deals them out in
turn. -/
def dealt (c : VportSizes) (n v : Nat) : Nat :=
  ((List.range n).filter fun q => q % c.numQVectors = v).length

/-- The vector has queues: in the split model the completion queues instead of the transmit ones. -/
def used (c : VportSizes) (v : Nat) : Bool :=
  0 < c.dealt c.numRxqs v || 0 < c.dealt (if c.txqSplit then c.numTxqGrp else c.numTxqs) v

end VportSizes

/-- `IDPF_NUM_CHUNKS_PER_MSG` for the mapping of queues. -/
def mapsPerMsg : Nat := (4096 - 16) / 24

/-- `IDPF_NUM_FILTERS_PER_MSG` -/
def filtersPerMsg : Nat := 20

namespace OpenVport

def failed (s : OpenVport) : OpenVport := { s with ret := .failed }

def hang (s : OpenVport) : OpenVport := { s with stuck := true }

/-- `free_irq` for the first `n` vectors. -/
def freeIrqs (s : OpenVport) (n : Nat) : OpenVport :=
  { s with
    irq := fun v => if v < n then false else s.irq v
    badFree := s.badFree || (List.range n).any fun v => !s.irq v }

/-- `request_irq` for those of the first `n` vectors that have queues. -/
def requestIrqs (s : OpenVport) (n : Nat) : OpenVport :=
  { s with irq := fun v => if v < n then s.irq v || s.rsrc.used v else s.irq v }

/-- `idpf_vport_intr_req_irq` -/
def intrReqIrq (s : OpenVport) (fails : Option Nat) : OpenVport × Bool :=
  match fails with
  | none => (s.requestIrqs s.rsrc.numQVectors, true)
  | some v =>
    if v < s.rsrc.numQVectors && s.rsrc.used v then ((s.requestIrqs v).freeIrqs v, false)
    else (s.requestIrqs s.rsrc.numQVectors, true)

/-- The NAPI instances of all vectors. -/
def setNapi (s : OpenVport) (state : NapiState) : OpenVport :=
  { s with napi := fun v => if v < s.rsrc.numQVectors then state else s.napi v }

/-- `idpf_vport_intr_init` -/
def intrInit (s : OpenVport) (r : OpenRun) : OpenVport × Bool :=
  if !r.vecIdx then (s, false)
  else
    let s := s.setNapi .disabled
    if !r.intrRegs then (s.setNapi .none, false)
    else
      let irqs := s.intrReqIrq r.irqFails
      if irqs.2 then irqs else (irqs.1.setNapi .none, false)

/-- `idpf_vport_intr_ena` -/
def intrEna (s : OpenVport) : OpenVport :=
  let s := s.setNapi .enabled
  { s with
    irqOn := fun v => if v < s.rsrc.numQVectors then s.irqOn v || s.rsrc.used v else s.irqOn v }

/-- `idpf_vport_intr_deinit`. `napi_disable` waits for ever for an instance that is not enabled. -/
def intrDeinit (s : OpenVport) : OpenVport :=
  let s := { s with irqOn := fun v => if v < s.rsrc.numQVectors then false else s.irqOn v }
  if (List.range s.rsrc.numQVectors).any fun v => s.napi v ≠ .enabled then s.hang
  else (s.setNapi .none).freeIrqs s.rsrc.numQVectors

/-- `idpf_vport_xdp_init`, whose result is not looked at. -/
def xdpInit (s : OpenVport) (r : OpenRun) : OpenVport :=
  match r.xdpFails with
  | none =>
    { s with
      xdpReady := s.rsrc.numRxqs
      pools := r.xdpProg }
  | some k =>
    if k < s.rsrc.numRxqs then { s with xdpReady := k }
    else
      { s with
        xdpReady := s.rsrc.numRxqs
        pools := r.xdpProg }

/-- `idpf_send_map_unmap_queue_vector_msg` for an unmap. -/
def unmap (s : OpenVport) (m : Served) : OpenVport :=
  { s with mapped := fun q => s.mapped q && !m.acts mapsPerMsg s.rsrc.numMapped q }

/-- The label `intr_rel`. -/
def toIntrRel (s : OpenVport) : OpenVport := { s with held := s.rsrc.intrRel s.held }.failed

/-- The label `queues_rel`. -/
def toQueuesRel (s : OpenVport) : OpenVport :=
  { s with held := s.rsrc.queuesRel s.pools s.held }.toIntrRel

/-- The label `intr_deinit`. -/
def toIntrDeinit (s : OpenVport) : OpenVport :=
  let s := s.intrDeinit
  if s.stuck then s else s.toQueuesRel

/-- The label `unmap_queue_vectors`. -/
def toUnmap (s : OpenVport) (u : UndoMsgs) : OpenVport := (s.unmap u.unmap).toIntrDeinit

/-- The label `disable_queues`. -/
def toDisableQueues (s : OpenVport) (u : UndoMsgs) : OpenVport :=
  { s with enabled := s.enabled && !u.disableQueues }.toUnmap u

/-- The label `disable_vport`. What `idpf_restore_features` did stays. -/
def toDisableVport (s : OpenVport) (u : UndoMsgs) : OpenVport :=
  { s with vportOn := s.vportOn && !u.disableVport }.toDisableQueues u

/-- `idpf_restore_features`, RSS, and `idpf_up_complete`, which never fails. -/
def openFinish (s : OpenVport) (r : OpenRun) : OpenVport :=
  let s :=
    { s with
      filters := fun i =>
        s.filters i || (r.macFilter && r.addMacs.acts filtersPerMsg r.numMacs i) }
  if !r.rss then s.toDisableVport r.undo
  else
    { s with
      carrier := r.linkUp
      up := true
      ret := .opened }

/-- From `idpf_send_enable_queues_msg` to `idpf_send_enable_vport_msg`. -/
def openEnable (s : OpenVport) (r : OpenRun) : OpenVport :=
  match r.enableQueues with
  | .failed done => { s with enabled := s.enabled || done }.toUnmap r.undo
  | .accepted =>
    let s := { s with enabled := true }
    match r.enableVport with
    | .failed done => { s with vportOn := s.vportOn || done }.toDisableQueues r.undo
    | .accepted => { s with vportOn := true }.openFinish r

/-- `idpf_send_config_queues_msg` and the mapping. The number of messages is a quotient by the
queues that there are. -/
def openMap (s : OpenVport) (r : OpenRun) : OpenVport :=
  let c := s.rsrc
  if c.numTxqs + c.numComplq = 0 then s.hang
  else if !r.configTx then s.toIntrDeinit
  else if c.numRxqs + c.numBufq = 0 then s.hang
  else if !r.configRx then s.toIntrDeinit
  else if c.numMapped = 0 then s.hang
  else
    let s := { s with mapped := fun q => s.mapped q || r.map.acts mapsPerMsg c.numMapped q }
    if r.map.okay mapsPerMsg c.numMapped then s.openEnable r else s.toIntrDeinit

/-- From `idpf_vport_queue_ids_init` to `idpf_vport_intr_ena`. -/
def openInit (s : OpenVport) (r : OpenRun) : OpenVport :=
  if !r.ids then s.toQueuesRel
  else
    let intr := s.intrInit r
    if !intr.2 then intr.1.toQueuesRel
    else if !r.queueRegs then intr.1.toIntrDeinit
    else
      let bufs := VportSizes.alloc s.rsrc.rxBufsAllocs r.fail intr.1.held
      let s := { intr.1 with held := bufs.1 }
      if !(bufs.2 && r.bufs) then s.toIntrDeinit else ((s.xdpInit r).intrEna).openMap r

/-- `idpf_vport_open`. `idpf_vport_intr_alloc` divides by the number of vectors; a failure that the
release functions do not survive ends the call. -/
def openVport (s : OpenVport) (r : OpenRun) : OpenVport :=
  if s.up then { s with ret := .busy }
  else
    let s :=
      { s with
        rsrc := r.rsrc
        pools := false
        macFilter := r.macFilter
        numMacs := r.numMacs
        carrier := false }
    let vecs := s.rsrc.intrAlloc r.fail s.held
    if r.fail ≠ some .qVectors ∧ s.rsrc.numQVectors = 0 then s.hang
    else if !vecs.2 then { s with held := vecs.1 }.failed
    else if r.fail.any s.rsrc.traps then s.hang
    else
      let queues := s.rsrc.queueAllocAll r.fail vecs.1
      let s := { s with held := queues.1 }
      if !queues.2 then s.toIntrRel else s.openInit r

/-- `idpf_vport_stop` -/
def stop (s : OpenVport) (r : StopRun) : OpenVport :=
  let s := { s with ret := .none }
  if !s.up then s
  else
    let s :=
      { s with
        up := false
        carrier := false }
    let s :=
      if r.corer then
        { s with
          vportOn := false
          enabled := false
          mapped := fun _ => false
          filters := fun _ => false }
      else
        { s with
          vportOn := s.vportOn && !r.undo.disableVport
          enabled := s.enabled && !r.undo.disableQueues }
    let s := s.unmap r.undo.unmap
    let s :=
      { s with
        filters := fun i =>
          s.filters i && !(s.macFilter && r.delMacs.acts filtersPerMsg s.numMacs i) }
    let s := s.intrDeinit
    if s.stuck then s
    else
      let s := { s with held := s.rsrc.queuesRel s.pools s.held }
      { s with held := s.rsrc.intrRel s.held }

end OpenVport

inductive OpenOp where
  | openVport (run : OpenRun)
  | stop (run : StopRun)

namespace OpenVport

/-- One call; none comes after one that does not come back. -/
def step (s : OpenVport) (op : OpenOp) : Option OpenVport :=
  if s.stuck then none
  else
    match op with
    | .openVport r => some (s.openVport r)
    | .stop r => some (s.stop r)

def start (c : VportSizes) : OpenVport where
  rsrc := c
  held := []
  napi := fun _ => .none
  irq := fun _ => false
  irqOn := fun _ => false
  xdpReady := 0
  pools := false
  macFilter := false
  numMacs := 0
  mapped := fun _ => false
  enabled := false
  vportOn := false
  filters := fun _ => false
  carrier := false
  up := false
  stuck := false
  badFree := false
  ret := .none

/-- What a stop leaves: nothing is held, nothing is added, requested or enabled, and the device has
been told that nothing is. -/
structure Down (s : OpenVport) : Prop where
  held : s.held = []
  napi : ∀ v, s.napi v = .none
  irq : ∀ v, s.irq v = false
  irqOn : ∀ v, s.irqOn v = false
  mapped : ∀ q, s.mapped q = false
  enabled : s.enabled = false
  vportOn : s.vportOn = false
  filters : ∀ i, s.filters i = false
  carrier : s.carrier = false

/-- What a successful open leaves: all of the memory, all vectors ready, all queues set up and on
the device. -/
structure Ready (s : OpenVport) : Prop where
  held : s.held = s.rsrc.intrAllocs ++ s.rsrc.queueAllocs ++ s.rsrc.rxBufsAllocs
  napi : ∀ v, s.napi v = if v < s.rsrc.numQVectors then .enabled else .none
  irq : ∀ v, s.irq v = (v < s.rsrc.numQVectors && s.rsrc.used v)
  irqOn : ∀ v, s.irqOn v = (v < s.rsrc.numQVectors && s.rsrc.used v)
  xdp : s.xdpReady = s.rsrc.numRxqs
  mapped : ∀ q, s.mapped q = decide (q < s.rsrc.numMapped)
  enabled : s.enabled = true
  vportOn : s.vportOn = true

/-- What has to hold: each call has come back, nothing was released that was not there, the vport is
as after a stop unless it is up, is ready if it is, and an open reports which. -/
structure Kept (s : OpenVport) : Prop where
  returned : s.stuck = false
  released : s.badFree = false
  down : s.up = false → s.Down
  ready : s.up = true → s.Ready
  failed : s.ret = .failed → s.up = false
  opened : s.ret = .opened ∨ s.ret = .busy → s.up = true

end OpenVport

namespace OpenRun

def failsIn (r : OpenRun) (ps : List VportPtr) : Bool := r.fail.any fun p => p ∈ ps

/-- The receive queues are all set up for XDP. -/
def xdpDone (r : OpenRun) : Bool := r.xdpFails.all fun k => r.rsrc.numRxqs ≤ k

/-- The vectors and queues of the open can be released: each vector has a queue, and no queue that
has got its pool keeps its buffers. -/
def releasable (r : OpenRun) : Bool :=
  (List.range r.rsrc.numQVectors).all r.rsrc.used && !(r.xdpDone && r.xdpProg && r.rsrc.pooled)

def unmaps (r : OpenRun) : Bool :=
  (List.range r.rsrc.numMapped).all (r.undo.unmap.acts mapsPerMsg r.rsrc.numMapped)

def enableOk (r : OpenRun) : Bool :=
  match r.enableQueues with
  | .failed done => r.releasable && r.unmaps && !done
  | .accepted =>
    match r.enableVport with
    | .failed done => r.releasable && r.unmaps && r.undo.disableQueues && !done
    | .accepted =>
      if r.rss then r.xdpDone
      else
        r.releasable && r.unmaps && r.undo.disableQueues && r.undo.disableVport &&
          !(r.macFilter && (List.range r.numMacs).any (r.addMacs.acts filtersPerMsg r.numMacs))

def mapOk (r : OpenRun) : Bool :=
  let c := r.rsrc
  if c.numTxqs + c.numComplq = 0 then false
  else if !r.configTx then r.releasable
  else if c.numRxqs + c.numBufq = 0 then false
  else if !r.configRx then r.releasable
  else if c.numMapped = 0 then false
  else if r.map.okay mapsPerMsg c.numMapped then r.enableOk
  else r.releasable && (List.range c.numMapped).all fun q => !r.map.acts mapsPerMsg c.numMapped q

/-- The interrupt that is refused, if one is, has no vector without queues before it. -/
def irqOk (r : OpenRun) : Bool :=
  r.irqFails.all fun v =>
    !(v < r.rsrc.numQVectors && r.rsrc.used v) || (List.range v).all r.rsrc.used

def irqsGranted (r : OpenRun) : Bool :=
  r.irqFails.all fun v => !(v < r.rsrc.numQVectors && r.rsrc.used v)

/-- The open succeeds with all of its steps, or fails at one whose error path undoes the rest. -/
def ok (r : OpenRun) : Bool :=
  if r.fail = some .qVectors then true
  else if r.rsrc.numQVectors = 0 then false
  else if r.failsIn r.rsrc.intrAllocs then true
  else if r.fail.any r.rsrc.traps then false
  else if r.failsIn r.rsrc.queueAllocs then true
  else if !r.ids then true
  else if !r.vecIdx then true
  else if !r.intrRegs then true
  else if !r.irqsGranted then r.irqOk
  else r.queueRegs && !r.failsIn r.rsrc.rxBufsAllocs && r.bufs && r.mapOk

end OpenRun

namespace OpenVport

/-- The stop can release the vectors and queues, and the device follows its requests. -/
def stopOk (s : OpenVport) (r : StopRun) : Bool :=
  (List.range s.rsrc.numQVectors).all s.rsrc.used && !(s.pools && s.rsrc.pooled) &&
    (r.corer ||
      (r.undo.disableVport && r.undo.disableQueues &&
        (List.range s.rsrc.numMapped).all (r.undo.unmap.acts mapsPerMsg s.rsrc.numMapped) &&
        (List.range s.numMacs).all fun i =>
          !s.filters i || (s.macFilter && r.delMacs.acts filtersPerMsg s.numMacs i)))

/-- The steps that leave the vport up with everything, or down with nothing. -/
def ok (s : OpenVport) : OpenOp → Bool
  | .openVport r => s.up || r.ok
  | .stop r => !s.up || s.stopOk r

end OpenVport

end Idpf
