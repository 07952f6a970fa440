import Idpf.General.Segment
import Idpf.Rx.Clean
import Idpf.Rx.Refill

/-! A receive queue group: completion queues, the buffer queues they share, a refill
queue for each pair of the two, and the device. NAPI contexts interleave at the
turns of their loops. -/
namespace Idpf
open General

structure RxGroupCfg where
  numRxq : Nat
  numBufq : Nat
  rxqDesc : Nat
  bufqDesc : Nat → Nat
  rxq : Nat → RxCfg
  bufqPos : ∀ k < numBufq, 0 < bufqDesc k
  bufqMax : ∀ k < numBufq, bufqDesc k ≤ 65536
  rxqPos : 0 < rxqDesc

/-- There are no more buffers than a completion queue has descriptors, as
`IDPF_RX_BUFQ_DESC_COUNT` divides them. -/
def RxGroupCfg.Fits (c : RxGroupCfg) : Prop :=
  ∑ k ∈ Finset.range c.numBufq, c.bufqDesc k ≤ c.rxqDesc

/-- The group. `poll j` is the NAPI of queue `j` inside `idpf_rx_splitq_clean`, and
`pass k` that of buffer queue `k` inside `idpf_rx_clean_refillq` of a refill queue.
The device keeps its own indices and the buffers it has fetched, and `tail k` is what
was last written to the tail of buffer queue `k`. The rest records
what went through: the buffers of the completions consumed and those returned, the
completions of the expected format, and the skbs handed to the stack. -/
structure RxGroup where
  rxq : Nat → Rxq
  poll : Nat → Option RxPoll
  refillq : Nat → Nat → SwQueue
  bufq : Nat → RxBufq
  pass : Nat → Option (Nat × RefillPass)
  tail : Nat → Nat
  devHead : Nat → Nat
  held : Nat → List Nat
  devTail : Nat → Nat
  devGen : Nat → Bool
  consumed : Nat → List (Nat × Nat)
  returned : Nat → List (Nat × Nat)
  stream : Nat → List RxCompl
  delivered : Nat → List RxSkb

def RxCompl.buf (c : RxCompl) : Nat × Nat := (c.desc.bufqId, c.desc.bufId)

/-- `idpf_rx_post_init_bufs` on a fresh buffer queue. -/
def rxPostInitBufs (descCount : Nat) : RxBufq where
  descCount := descCount
  nextToUse := (descCount - 1) / 32 * 32
  nextToAlloc := descCount - 1
  ring i := i

/-- The group when the vport is opened: `idpf_rx_init_buf_tail` has written `next_to_alloc` to
each tail, over the multiple of the stride written before. -/
def RxGroupCfg.init (c : RxGroupCfg) : RxGroup where
  rxq _ := ⟨c.rxqDesc, fun _ => .blank, 0, true, none⟩
  poll _ := none
  refillq k _ := rxRflAlloc (c.bufqDesc k)
  bufq k := rxPostInitBufs (c.bufqDesc k)
  pass _ := none
  tail k := (rxPostInitBufs (c.bufqDesc k)).nextToAlloc
  devHead _ := 0
  held _ := []
  devTail _ := 0
  devGen _ := true
  consumed _ := []
  returned _ := []
  stream _ := []
  delivered _ := []

inductive RxOp where
  | fetch (k : Nat)
  | complete (j : Nat) (compl : RxCompl)
  | pollBegin (j budget : Nat)
  | turn (j : Nat) (env : RxTurnEnv)
  | refillBegin (k j : Nat)
  | refillTurn (k : Nat) (ok : Bool)

/-- A refill queue of queue `j` under a pass that may be over another one. -/
def passView (pass : Option (Nat × RefillPass)) (j : Nat) (r : SwQueue) : SwQueue :=
  match pass with
  | some (j', p) => if j' = j then p.view r else r
  | none => r

namespace RxGroup

/-- `idpf_post_buf_refill(refillq, buf_id)` by queue `j`. -/
def postRefill (s : RxGroup) (j k bufId : Nat) : RxGroup :=
  { s with
    refillq := Function.update s.refillq k
      (Function.update (s.refillq k) j (postBufRefill (s.refillq k j) (u16 bufId)))
    returned := Function.update s.returned j (s.returned j ++ [(k, bufId)]) }

/-- A turn of queue `j` in its poll `p`. -/
def stepTurn (c : RxGroupCfg) (s : RxGroup) (j : Nat) (p : RxPoll) (env : RxTurnEnv) : RxGroup :=
  match rxTurn (c.rxq j) (s.rxq j) p env with
  | .stop skb =>
    { s with
      rxq := Function.update s.rxq j (rxPollEnd (s.rxq j) p skb)
      poll := Function.update s.poll j none }
  | .next p' genChk post deliver =>
    let compl := (s.rxq j).ring p.ntc
    let s' := { s with
      rxq := Function.update s.rxq j { s.rxq j with genChk }
      poll := Function.update s.poll j (some p')
      consumed := Function.update s.consumed j (s.consumed j ++ [compl.buf])
      stream := Function.update s.stream j
        (s.stream j ++ if compl.desc.rxdid = rxdid2FlexSplitq then [compl] else [])
      delivered := Function.update s.delivered j (s.delivered j ++ deliver.toList) }
    match post with
    | some b => s'.postRefill j b.1 b.2
    | none => s'

/-- A turn of buffer queue `k` in its pass `p` over the refill queue of queue `j`. -/
def stepRefill (s : RxGroup) (k j : Nat) (p : RefillPass) (ok : Bool) : RxGroup :=
  match rxRefillTurn (s.refillq k j) (s.bufq k) p ok with
  | some (r, bufq, p') =>
    { s with
      refillq := Function.update s.refillq k (Function.update (s.refillq k) j r)
      bufq := Function.update s.bufq k bufq
      pass := Function.update s.pass k (some (j, p')) }
  | none =>
    let left := rxRefillEnd (s.refillq k j) (s.bufq k) p
    { s with
      refillq := Function.update s.refillq k (Function.update (s.refillq k) j left.1)
      bufq := Function.update s.bufq k left.2
      tail := if p.cleaned ≠ 0 ∧ rxRefillFilled (s.bufq k) p.bufqNta ≥ rxBufPostStride then
        Function.update s.tail k left.2.nextToUse else s.tail
      pass := Function.update s.pass k none }

def stepFetch (s : RxGroup) (k : Nat) : RxGroup :=
  { s with
    held := Function.update s.held k (s.held k ++ [(s.bufq k).ring (s.devHead k)])
    devHead := Function.update s.devHead k (bump (s.bufq k).descCount (s.devHead k)) }

/-- The device completes a buffer it has fetched, stamped with its generation. -/
def stepComplete (s : RxGroup) (j : Nat) (compl : RxCompl) : RxGroup :=
  let n := (s.rxq j).descCount
  { s with
    rxq := Function.update s.rxq j
      { s.rxq j with ring := Function.update (s.rxq j).ring (s.devTail j) compl }
    held := Function.update s.held compl.buf.1 ((s.held compl.buf.1).erase compl.buf.2)
    devTail := Function.update s.devTail j (bump n (s.devTail j))
    devGen := Function.update s.devGen j (General.turn n (s.devTail j) (s.devGen j)) }

def step (c : RxGroupCfg) (s : RxGroup) : RxOp → Option RxGroup
  | .fetch k =>
    if k < c.numBufq ∧ s.devHead k ≠ s.tail k then some (s.stepFetch k) else none
  | .complete j compl =>
    if j < c.numRxq ∧ compl.buf.1 < c.numBufq ∧ compl.buf.2 ∈ s.held compl.buf.1 ∧
        compl.desc.gen = s.devGen j then
      some (s.stepComplete j compl)
    else none
  | .pollBegin j budget =>
    if j < c.numRxq ∧ (s.poll j).isNone then
      some { s with poll := Function.update s.poll j (some (rxPollBegin (s.rxq j) budget)) }
    else none
  | .turn j env =>
    if j < c.numRxq then (s.poll j).map fun p => s.stepTurn c j p env else none
  | .refillBegin k j =>
    if k < c.numBufq ∧ j < c.numRxq ∧ (s.pass k).isNone then
      some { s with
        pass := Function.update s.pass k (some (j, rxRefillBegin (s.refillq k j) (s.bufq k))) }
    else none
  | .refillTurn k ok =>
    if k < c.numBufq then (s.pass k).map fun jp => s.stepRefill k jp.1 jp.2 ok else none

/-- The index the next turn of queue `j` looks at. -/
def ntc (s : RxGroup) (j : Nat) : Nat :=
  match s.poll j with
  | some p => p.ntc
  | none => (s.rxq j).nextToClean

/-- The index of the next descriptor of buffer queue `k` to be written. -/
def nta (s : RxGroup) (k : Nat) : Nat :=
  match s.pass k with
  | some (_, p) => p.bufqNta
  | none => (s.bufq k).nextToAlloc

/-- The refill queue of buffer queue `k` for queue `j` as its consumer sees it. -/
def refillView (s : RxGroup) (k j : Nat) : SwQueue := passView (s.pass k) j (s.refillq k j)

/-- Buffer IDs posted to the device: in the ring or fetched from it. -/
def posted (s : RxGroup) (k : Nat) : List Nat :=
  ringSeg (s.bufq k).descCount (s.bufq k).ring (s.devHead k) (s.nta k) ++ s.held k

/-- The buffers named by completions of queue `j` the driver has not consumed. -/
def named (s : RxGroup) (j : Nat) : List (Nat × Nat) :=
  (ringSeg (s.rxq j).descCount (s.rxq j).ring (s.ntc j) (s.devTail j)).map RxCompl.buf

def waiting (s : RxGroup) (k j : Nat) : List Nat :=
  rflValid (s.refillq k j).descCount (s.refillView k j)

end RxGroup

/-- Every run starts from a group that has just been set up. -/
def RxStart (c : RxGroupCfg) (s : RxGroup) : Prop := s = c.init

end Idpf
