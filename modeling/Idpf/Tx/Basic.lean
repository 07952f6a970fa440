import Idpf.General.Circular
import Mathlib.Logic.Function.Basic

/-! Data model of a split Tx queue: the software queue elements, the refill
queue of buffer IDs, the descriptor ring and the fields of `idpf_queue` that
the Tx path reads. Index fields stay below their ring size, so they are plain
naturals; the wrapping 32-bit counters are reduced where they are written. -/
namespace Idpf

/-- `MAX_SKB_FRAGS` as the kernel configures it by default. -/
def maxSkbFrags : Nat := 17

/-- `IDPF_TX_WAKE_THRESH`, twice `IDPF_MIN_TX_DESC_NEEDED`. -/
def txWakeThresh : Nat := (maxSkbFrags + 6) * 2

def txSplitqReMinGap : Nat := 64
def txMaxReadReqSize : Nat := 4096
def txMaxDescData : Nat := 16383
def txMaxDescDataAligned : Nat := 12288
def txSplitqMissComplTag : Nat := 32768
def minTxqDesc : Nat := 128
def minTxqComplqDesc : Nat := 256
def maxDescs : Nat := 8160

def u16 (x : Nat) : Nat := x % 65536
def u32 (x : Nat) : Nat := x % 4294967296

def u32Sub (a b : Nat) : Nat := u32 (a + (4294967296 - u32 b))

theorem u32_lt (x : Nat) : u32 x < 4294967296 := Nat.mod_lt x (by decide)

/-- `enum libeth_sqe_type` together with the driver's `libeth_sqe_type_ext`. -/
inductive SqeType where
  | empty | ctx | slab | frag | skb
  | xdpTx | xdpXmit | xdpXmitFrag | xskTx | xskTxFrag
  | skbTstamp | miss | reinject
  deriving DecidableEq, Repr

/-- A DMA mapping. Addresses may repeat; the serial number, which the driver
never sees, tells mappings apart. -/
structure DmaMap where
  addr : Nat
  serial : Nat
  deriving DecidableEq, Repr

/-- `struct libeth_sqe`. The pointer union is an object identity and
`idpf_tx_buf_next` is `none` for `IDPF_TXBUF_NULL`. -/
structure TxBuf where
  type : SqeType := .empty
  rsIdx : Nat := 0
  skb : Nat := 0
  dma : DmaMap := ⟨0, 0⟩
  len : Nat := 0
  packets : Nat := 0
  bytes : Nat := 0
  next : Option Nat := some 0
  deriving DecidableEq, Repr

/-- `struct idpf_sw_queue`. -/
structure SwQueue where
  ring : Nat → Nat
  descCount : Nat
  nextToUse : Nat
  nextToClean : Nat
  genChk : Bool
  rflGenChk : Bool

inductive CtxDesc where
  | tso | l2tag1 | tsyn (latch : Nat)
  deriving DecidableEq, Repr

/-- A slot of the Tx descriptor ring. -/
inductive TxDesc where
  | blank
  | ctx (kind : CtxDesc)
  | data (addr size tag : Nat) (eop re : Bool)
  deriving DecidableEq, Repr

def TxDesc.carriesRe : TxDesc → Bool
  | .data _ _ _ _ re => re
  | _ => false

/-- `struct idpf_reinject_timer`, with the kernel's view of the object: armed by
`mod_timer` and not yet expired or deleted, and returned to the allocator. -/
structure ReinjectTimer where
  skb : Nat
  bytes : Nat
  gsoSegs : Nat
  pending : Bool
  freed : Bool
  deriving DecidableEq, Repr

/-- What the driver does with memory it was handed. -/
inductive Effect where
  | unmap (m : DmaMap)
  | consumeSkb (skb : Nat)
  | kfree (raw : Nat)
  | postBuf (m : DmaMap) (buf : Nat)
  deriving DecidableEq, Repr

/-- Kernel side of a queue's allocations: mapping serials, timer objects, and
the record of what happened to them. -/
structure Mem where
  nextMap : Nat := 0
  timers : Nat → ReinjectTimer := fun _ => ⟨0, 0, 0, false, false⟩
  nextTimer : Nat := 0
  log : List Effect := []
  useAfterFree : Bool := false

/-- The part of `struct idpf_queue` the Tx path works on. `stopped` is the
driver stop bit of the queue's netdev queue. -/
structure TxQueue where
  descCount : Nat
  nextToUse : Nat
  nextToClean : Nat
  lastRe : Nat
  flowSchEn : Bool
  missTagEn : Bool
  xdp : Bool
  txMaxBufs : Nat
  bufPoolSize : Nat
  bufs : Nat → TxBuf
  refillq : SwQueue
  ring : Nat → TxDesc
  reinjectTimers : Nat → Option Nat
  cleanedBytes : Nat
  cleanedPkts : Nat
  stopped : Bool
  mem : Mem

namespace TxQueue

def modBuf (q : TxQueue) (b : Nat) (f : TxBuf → TxBuf) : TxQueue :=
  { q with bufs := Function.update q.bufs b (f (q.bufs b)) }

def setNext (q : TxQueue) (b : Nat) (next : Option Nat) : TxQueue :=
  q.modBuf b fun e => { e with next }

def record (q : TxQueue) (e : Effect) : TxQueue :=
  { q with mem := { q.mem with log := q.mem.log ++ [e] } }

/-- `IDPF_DESC_UNUSED`. -/
def descUnused (q : TxQueue) : Nat :=
  (if q.nextToClean > q.nextToUse then 0 else q.descCount) + q.nextToClean - q.nextToUse - 1

end TxQueue

theorem descUnused_dist (q : TxQueue) (hc : q.nextToClean < q.descCount)
    (hu : q.nextToUse < q.descCount) :
    q.descUnused + General.ringDist q.descCount q.nextToClean q.nextToUse + 1 = q.descCount := by
  unfold TxQueue.descUnused General.ringDist
  split <;> split <;> omega

end Idpf
