import Idpf.General.Transition
import Idpf.Tx.Complete
import Idpf.Tx.Xdp

/-! The Tx queues of one completion queue together with the device. The driver
side is the translated code; the device side is what the hardware holds: the
packets it was given and the completions it still owes, the positions of
descriptors that ask for an RE completion, and how far it has fetched. -/
namespace Idpf
open General

/-- `struct idpf_txq_group` with its completion queue's counter. -/
structure TxqGroup where
  numTxq : Nat
  txqs : Nat → TxQueue
  numCompletionsPending : Nat
  complqDescCount : Nat
  numCompletions : Nat

namespace TxqGroup

def pendingDiff (g : TxqGroup) : Nat := txComplqPending g.numCompletionsPending g.numCompletions
def thresh (g : TxqGroup) : Nat := txComplqOverflowThresh g.complqDescCount

def setQueue (g : TxqGroup) (t : Nat) (q : TxQueue) : TxqGroup :=
  { g with txqs := Function.update g.txqs t q }

end TxqGroup

/-- The loop body of `idpf_tx_clean_complq` for one descriptor. Descriptors of
an unknown queue or of an unknown type are skipped and not counted. -/
def txCleanDesc (g : TxqGroup) (d : ComplDesc) (env : TimerEnv) : TxqGroup :=
  if d.qid ≥ g.numTxq then g
  else if ComplType.counted d.ctype then
    { g.setQueue d.qid (addCleaned (txHandleCompl (g.txqs d.qid) d.ctype d.tag env)) with
      numCompletions := u32 (g.numCompletions + 1) }
  else g

/-- The restart test of one queue at the end of `idpf_tx_clean_complq`. -/
def txWakeQueue (complqOk carrier : Bool) (q : TxQueue) : TxQueue :=
  if q.xdp then { q with cleanedBytes := 0, cleanedPkts := 0 }
  else if q.cleanedBytes = 0 then q
  else
    { q with
      cleanedBytes := 0
      cleanedPkts := 0
      stopped := q.stopped && !(complqOk && carrier && q.descUnused ≥ txWakeThresh) }

/-- The loop over the group's queues after the descriptors of a pass. -/
def txFinishPass (g : TxqGroup) (carrier : Bool) : TxqGroup :=
  { g with txqs := fun t => txWakeQueue (!(g.pendingDiff > g.thresh)) carrier (g.txqs t) }

/-- What the device still has to report about a packet. It decides by itself
which packets take the exception path. -/
inductive Rem where
  | fresh | exception | awaitMiss | awaitReinject | done
  deriving DecidableEq, Repr

def Rem.owed : Rem → Nat
  | .exception => 2
  | .fresh | .awaitMiss | .awaitReinject => 1
  | .done => 0

/-- A packet in the device's hands. Its buffers are listed in chain order with
their mappings; `last` is the ring position of its last descriptor. -/
structure Pkt where
  skb : Nat
  bufs : List (Nat × DmaMap)
  last : Nat
  rem : Rem

/-- The completion tag of a packet: the ID of its first buffer. -/
def Pkt.tag (p : Pkt) : Nat := (p.bufs.map Prod.fst).headD 0

/-- Device side of one queue. Ring positions count descriptors since the queue
was set up and are not reduced; `reported` is the head the last RE completion
told, and heads are told in order. -/
structure Dev where
  pkts : List Pkt := []
  reqs : List Nat := []
  markers : Nat := 0
  tail : Nat := 0
  head : Nat := 0
  reported : Nat := 0

inductive ComplKind where
  | rs | miss | reinject
  deriving DecidableEq, Repr

def ComplKind.ctype : ComplKind → ComplType
  | .rs => .rs
  | .miss => .ruleMiss
  | .reinject => .reinjected

/-- A packet gets an RS completion, or on the exception path a miss and a
reinject completion in either order. -/
def Rem.deliver : Rem → ComplKind → Option Rem
  | .fresh, .rs => some .done
  | .exception, .miss => some .awaitReinject
  | .exception, .reinject => some .awaitMiss
  | .awaitMiss, .miss => some .done
  | .awaitReinject, .reinject => some .done
  | _, _ => none

/-- The group and the device. `refused` is what the packet that stopped a queue
needs, and `inPass` tells that a cleaning pass has started and not yet run its
final loop. -/
structure TxSystem where
  grp : TxqGroup
  dev : Nat → Dev
  refused : Nat → Option (Nat × Nat)
  carrier : Bool
  inPass : Bool
  nextSkb : Nat

inductive Event where
  | send (t : Nat) (skb : Skb) (env : SendEnv)
  | xdp (t size : Nat) (dma : Option Nat)
  | fetch (t n : Nat)
  | re (t head : Nat)
  | divert (t i : Nat)
  | compl (t i : Nat) (kind : ComplKind) (env : TimerEnv)
  | expire (t timer : Nat)
  | flush
  | marker (t : Nat)
  | passEnd
  | link (up : Bool)

/-- The device takes over the packet a transmission has put on the ring. -/
def Dev.accept (d : Dev) (skb : Nat) (bufs : List (Nat × DmaMap)) (n : Nat) (re : Bool) : Dev :=
  { d with
    pkts := d.pkts ++ [⟨skb, bufs, d.tail + n - 1, .fresh⟩]
    reqs := if re then d.reqs ++ [d.tail + n - 1] else d.reqs
    tail := d.tail + n }

def TxSystem.setDev (s : TxSystem) (t : Nat) (d : Dev) : TxSystem :=
  { s with dev := Function.update s.dev t d }

/-- A transmission on queue `t`; the stack offers packets only to a queue that
is not stopped. -/
def TxSystem.send (s : TxSystem) (t : Nat) (skb : Skb) (env : SendEnv) : TxSystem :=
  let q := s.grp.txqs t
  let r := txSplitqFrame q s.grp.pendingDiff s.grp.thresh s.nextSkb skb env
  { s with
    grp := { s.grp.setQueue t r.q with
      numCompletionsPending := u32 (s.grp.numCompletionsPending + r.charged) }
    dev := Function.update s.dev t
      (if r.verdict = .sent then (s.dev t).accept s.nextSkb r.mapped r.slots.length r.re
       else s.dev t)
    refused := Function.update s.refused t
      (if r.verdict = .busy then some (txNeeds q skb env) else none)
    nextSkb := s.nextSkb + 1 }

def TxSystem.xdp (s : TxSystem) (t size : Nat) (dma : Option Nat) : TxSystem :=
  let r := txXmitXdpq (s.grp.txqs t) s.nextSkb size dma
  { s with
    grp := { s.grp.setQueue t r.q with
      numCompletionsPending := u32 (s.grp.numCompletionsPending + r.charged) }
    dev := Function.update s.dev t
      (if r.sent then (s.dev t).accept s.nextSkb r.mapped 1 false else s.dev t)
    nextSkb := s.nextSkb + 1 }

def TxSystem.clean (s : TxSystem) (t : Nat) (ctype : ComplType) (tag : Nat) (env : TimerEnv) :
    TxSystem :=
  { s with grp := txCleanDesc s.grp ⟨t, some ctype, tag⟩ env, inPass := true }

def TxSystem.step (s : TxSystem) : Event → Option TxSystem
  | .send t skb env =>
    if t < s.grp.numTxq ∧ (s.grp.txqs t).stopped = false then some (s.send t skb env) else none
  | .xdp t size dma =>
    if t < s.grp.numTxq ∧ (s.grp.txqs t).xdp = true then some (s.xdp t size dma) else none
  | .fetch t n =>
    let d := s.dev t
    if t < s.grp.numTxq ∧ d.head + n ≤ d.tail then some (s.setDev t { d with head := d.head + n })
    else none
  | .re t head =>
    let d := s.dev t
    match d.reqs with
    | [] => none
    | pos :: rest =>
      if t < s.grp.numTxq ∧ pos < head ∧ d.reported ≤ head ∧ head ≤ d.head then
        some ((s.clean t .re (head % (s.grp.txqs t).descCount) {}).setDev t
          { d with reqs := rest, reported := head })
      else none
  | .divert t i =>
    let d := s.dev t
    match d.pkts[i]? with
    | none => none
    | some p =>
      if t < s.grp.numTxq ∧ p.rem = .fresh ∧ p.last < d.head then
        some (s.setDev t { d with pkts := d.pkts.set i { p with rem := .exception } })
      else none
  | .compl t i kind env =>
    let d := s.dev t
    match d.pkts[i]? with
    | none => none
    | some p =>
      match p.rem.deliver kind with
      | none => none
      | some rem =>
        if t < s.grp.numTxq ∧ p.last < d.head then
          some ((s.clean t kind.ctype p.tag env).setDev t
            { d with pkts := d.pkts.set i { p with rem } })
        else none
  | .expire t timer =>
    if t < s.grp.numTxq ∧ ((s.grp.txqs t).mem.timers timer).pending = true then
      some { s with grp := s.grp.setQueue t (txHandleReinjectExpire (s.grp.txqs t) timer) }
    else none
  | .flush =>
    some { s with dev := fun t => { s.dev t with markers := (s.dev t).markers + 1 } }
  | .marker t =>
    let d := s.dev t
    if t < s.grp.numTxq ∧ 0 < d.markers then
      some ((s.clean t .swMarker 0 {}).setDev t { d with markers := d.markers - 1 })
    else none
  | .passEnd => some { s with grp := txFinishPass s.grp s.carrier, inPass := false }
  | .link up =>
    some { s with
      carrier := up
      grp := { s.grp with txqs := fun t => { s.grp.txqs t with stopped := !up } }
      refused := fun _ => none }

/-- A queue as `idpf_txq_group_alloc` and `idpf_tx_desc_alloc` leave it in flow
scheduling mode. -/
def txQueueAlloc (descCount poolSize txMaxBufs : Nat) (xdp : Bool) : TxQueue where
  descCount := descCount
  nextToUse := 0
  nextToClean := 0
  lastRe := descCount - txSplitqReMinGap
  flowSchEn := true
  missTagEn := false
  xdp := xdp
  txMaxBufs := txMaxBufs
  bufPoolSize := poolSize
  bufs := fun _ => {}
  refillq := rflAlloc poolSize
  ring := fun _ => .blank
  reinjectTimers := fun _ => none
  cleanedBytes := 0
  cleanedPkts := 0
  stopped := false
  mem := {}

/-- Parameters of a group at its setup. The pool size is `U16_MAX` or half of
it, depending on the miss completion capability. -/
structure TxConfig where
  numTxq : Nat
  descCount : Nat
  complqDescCount : Nat
  txMaxBufs : Nat
  missCap : Bool
  xdp : Nat → Bool
  descMin : minTxqDesc ≤ descCount
  descMax : descCount ≤ maxDescs
  complqMin : minTxqComplqDesc ≤ complqDescCount
  complqMax : complqDescCount ≤ maxDescs

/-! Rings of 128 and of 512 descriptors are within the bounds. -/

theorem minTxqDesc_le : minTxqDesc ≤ 128 := by decide

theorem le_maxDescs : 128 ≤ maxDescs := by decide

theorem minTxqComplqDesc_le : minTxqComplqDesc ≤ 256 := by decide

theorem twice_le_maxDescs : 256 ≤ maxDescs := by decide

theorem minTxqDesc_le_dflt : minTxqDesc ≤ 512 := by decide

theorem minTxqComplqDesc_le_dflt : minTxqComplqDesc ≤ 512 := by decide

theorem dflt_le_maxDescs : 512 ≤ maxDescs := by decide

def TxConfig.poolSize (c : TxConfig) : Nat := if c.missCap then 32767 else 65535

def TxConfig.init (c : TxConfig) : TxSystem where
  grp :=
    { numTxq := c.numTxq
      txqs := fun t => txQueueAlloc c.descCount c.poolSize c.txMaxBufs (c.xdp t)
      numCompletionsPending := 0
      complqDescCount := c.complqDescCount
      numCompletions := 0 }
  dev := fun _ => {}
  refused := fun _ => none
  carrier := true
  inPass := false
  nextSkb := 1

def TxStart (s : TxSystem) : Prop := ∃ c : TxConfig, s = c.init

end Idpf
