import Idpf.Tx.Buffer

/-! Completion handling of one Tx queue: RS, miss, reinject and RE completions
and the timers that bound how long a packet may stay on the exception path. -/
namespace Idpf
open General

/-- Outcome of the two allocations a miss completion makes. -/
structure TimerEnv where
  kzalloc : Bool := true
  xaStore : Bool := true
  deriving DecidableEq, Repr

/-- `idpf_post_buf_refill(txq->tx.refillq, buf_id)`; the parameter is a `u16`. -/
def TxQueue.postBuf (q : TxQueue) (bufId : Nat) : TxQueue :=
  ({ q with refillq := postBufRefill q.refillq (u16 bufId) }).record
    (.postBuf (q.bufs bufId).dma bufId)

/-- The buffer IDs a queue has posted to its refill queue. -/
def TxQueue.postedIds (q : TxQueue) : List Nat :=
  q.mem.log.filterMap fun e => match e with
    | .postBuf _ b => some b
    | _ => none

/-- Complete one buffer and post its ID, the body of `idpf_tx_clean_bufs`. -/
def completeAndPost (s : Cleaning) (b : Nat) : Cleaning :=
  let s := libethTxComplete s b
  { s with q := s.q.postBuf b }

/-- The tests at the head of `idpf_tx_clean_bufs`: `none` for its early return.
Timestamp reports to the stack are not modelled. -/
def txCleanable (q : TxQueue) (bufId : Nat) : Option TxQueue :=
  match (q.bufs bufId).type with
  | .skb | .xdpTx => some q
  | .skbTstamp => some (q.modBuf bufId fun e => { e with type := .skb })
  | _ => none

/-- `idpf_tx_clean_bufs`. -/
def txCleanBufs (q : TxQueue) (bufId : Nat) : Cleaning :=
  match txCleanable q bufId with
  | some q => walkChain completeAndPost q.bufPoolSize ⟨q, {}⟩ bufId
  | none => ⟨q, {}⟩

/-- `kfree` of a timer object; freeing it twice is a fault of its own. -/
def freeTimer (m : Mem) (t : Nat) : Mem :=
  { m with
    timers := Function.update m.timers t { m.timers t with freed := true }
    useAfterFree := m.useAfterFree || (m.timers t).freed }

/-- `idpf_tx_start_reinject_timer`; `false` for a negative return. When the
table insertion fails the object is freed although `mod_timer` armed it. -/
def txStartReinjectTimer (q : TxQueue) (bufId : Nat) (env : TimerEnv) : TxQueue × Bool :=
  if !env.kzalloc then (q, false)
  else
    let e := q.bufs bufId
    let t := q.mem.nextTimer
    let mem := { q.mem with
      nextTimer := t + 1
      timers := Function.update q.mem.timers t ⟨e.skb, e.bytes, e.packets, true, false⟩ }
    if env.xaStore then
      ({ q with mem, reinjectTimers := Function.update q.reinjectTimers bufId (some t) }, true)
    else ({ q with mem := freeTimer mem t }, false)

/-- `idpf_tx_handle_reinject_expire`. The entry in `reinject_timers` stays. -/
def txHandleReinjectExpire (q : TxQueue) (t : Nat) : TxQueue :=
  let q := q.record (.consumeSkb (q.mem.timers t).skb)
  let mem := { q.mem with
    timers := Function.update q.mem.timers t { q.mem.timers t with pending := false } }
  { q with mem := freeTimer mem t }

/-- `idpf_tx_handle_miss_completion`. -/
def txHandleMissCompletion (q : TxQueue) (complTag : Nat) (env : TimerEnv) : Cleaning :=
  if (q.bufs complTag).type = .reinject then
    txCleanBufs (q.modBuf complTag fun e => { e with type := .skb }) complTag
  else
    let r := txStartReinjectTimer q complTag env
    if r.2 then txCleanBufs (r.1.modBuf complTag fun e => { e with type := .miss }) complTag
    else txCleanBufs r.1 complTag

/-- `idpf_tx_handle_reinject_completion`. -/
def txHandleReinjectCompletion (q : TxQueue) (complTag : Nat) : Cleaning :=
  let e := q.bufs complTag
  if e.type = .miss then
    match q.reinjectTimers complTag with
    | none => ⟨q, {}⟩
    | some t =>
      let mem := { q.mem with
        timers := Function.update q.mem.timers t { q.mem.timers t with pending := false }
        useAfterFree := q.mem.useAfterFree || (q.mem.timers t).freed }
      let q := { q with
        reinjectTimers := Function.update q.reinjectTimers complTag none
        mem := freeTimer mem t }
      libethTxComplete ⟨q.modBuf complTag fun e => { e with type := .reinject }, {}⟩ complTag
  else if e.type = .skb then
    let q := q.modBuf complTag fun e => { e with type := .reinject }
    let next := e.rsIdx + 1
    ⟨{ q with nextToClean := if next ≥ q.descCount then 0 else next }, {}⟩
  else ⟨q, {}⟩

/-- `idpf_tx_splitq_clean` with `descs_only` set. -/
def txSplitqCleanDescs (q : TxQueue) (end_ : Nat) : Cleaning :=
  ⟨{ q with nextToClean := end_ }, {}⟩

/-- `idpf_tx_handle_rs_completion` of a flow-scheduled queue without an AF_XDP
pool. A tag with the miss bit set is a miss completion in disguise. -/
def txHandleRsCompletion (q : TxQueue) (complTag : Nat) (env : TimerEnv) : Cleaning :=
  if q.missTagEn && complTag / txSplitqMissComplTag % 2 == 1 then
    txHandleMissCompletion q (complTag % txSplitqMissComplTag) env
  else txCleanBufs q complTag

/-- Completion types of a Tx completion descriptor, by their wire value. -/
inductive ComplType where
  | itrFlush | ruleMiss | rs | reinjected | re | swMarker
  deriving DecidableEq, Repr

/-- A completion descriptor without its generation bit. `tag` is the field that
holds a queue head for RE and a completion tag otherwise. -/
structure ComplDesc where
  qid : Nat
  ctype : Option ComplType
  tag : Nat
  deriving DecidableEq, Repr

/-- Whether the completion type is one the cleaning loop knows and counts. -/
def ComplType.counted : Option ComplType → Bool
  | some .itrFlush | none => false
  | some _ => true

/-- The `switch` on the completion type in `idpf_tx_clean_complq`. The queue's
part in a software marker is the drain handshake, modelled by itself. -/
def txHandleCompl (q : TxQueue) (ctype : Option ComplType) (tag : Nat) (env : TimerEnv) :
    Cleaning :=
  match ctype with
  | some .re => txSplitqCleanDescs q tag
  | some .rs => txHandleRsCompletion q tag env
  | some .ruleMiss => txHandleMissCompletion q tag env
  | some .reinjected => txHandleReinjectCompletion q tag
  | some .swMarker | some .itrFlush | none => ⟨q, {}⟩

def addCleaned (s : Cleaning) : TxQueue :=
  { s.q with
    cleanedPkts := u16 (s.q.cleanedPkts + s.ss.packets)
    cleanedBytes := u32 (s.q.cleanedBytes + s.ss.bytes) }

end Idpf
