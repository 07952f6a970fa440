import Idpf.Tx.Frame

/-! A Tx queue of the single queue model: `idpf_tx_singleq_frame` with its map
function and its unwinding, and `idpf_tx_singleq_clean`. Buffers belong to the slots of the
descriptor ring, and what a slot held in an earlier lap stays in it. -/
namespace Idpf
open General

/-- `IDPF_TX_DESCS_PER_CACHE_LINE` for cache lines of 64 bytes. -/
def txDescsPerCacheLine : Nat := 4
def txDescsForCtx : Nat := 1
def ethZlen : Nat := 60

/-- A slot of a base mode ring. `done` is the type field the device writes back. -/
inductive BaseTxDesc where
  | blank
  | ctx
  | data (addr size : Nat) (eop done : Bool)
  deriving DecidableEq, Repr

/-- The test for `IDPF_TX_DESC_DTYPE_DESC_DONE`, which any bit of the type field passes. -/
def BaseTxDesc.done : BaseTxDesc → Bool
  | .data _ _ _ done => done
  | .ctx => true
  | .blank => false

/-- What is given back: a mapping with the length it is undone with, or an object. -/
inductive SqEffect where
  | unmap (dma : DmaMap) (len : Nat)
  | freeSkb (skb : Nat)
  | kfree (raw : Nat)
  deriving DecidableEq, Repr

/-- The part of `struct idpf_queue` the single queue Tx path works on, with the kernel's
count of mappings and the record of what was given back. -/
structure SingleqTxq where
  descCount : Nat
  nextToUse : Nat
  nextToClean : Nat
  txMaxBufs : Nat
  bufs : Nat → TxBuf
  ring : Nat → BaseTxDesc
  stopped : Bool
  nextMap : Nat
  log : List SqEffect

namespace SingleqTxq

def modBuf (q : SingleqTxq) (i : Nat) (f : TxBuf → TxBuf) : SingleqTxq :=
  { q with bufs := Function.update q.bufs i (f (q.bufs i)) }

def putDesc (q : SingleqTxq) (i : Nat) (d : BaseTxDesc) : SingleqTxq :=
  { q with ring := Function.update q.ring i d }

/-- `IDPF_DESC_UNUSED`. -/
def descUnused (q : SingleqTxq) : Nat :=
  (if q.nextToClean > q.nextToUse then 0 else q.descCount) + q.nextToClean - q.nextToUse - 1

end SingleqTxq

/-- What `libeth_tx_complete` gives back. -/
def sqeEffects (e : TxBuf) : List SqEffect :=
  match e.type with
  | .skb => [.unmap e.dma e.len, .freeSkb e.skb]
  | .slab => [.unmap e.dma e.len, .kfree e.skb]
  | .frag => [.unmap e.dma e.len]
  | _ => []

/-- `libeth_tx_complete`. -/
def SingleqTxq.complete (q : SingleqTxq) (i : Nat) : SingleqTxq :=
  { q.modBuf i fun e => { e with type := .empty } with log := q.log ++ sqeEffects (q.bufs i) }

structure SqMapping where
  dma : DmaMap
  len : Nat
  deriving DecidableEq, Repr

/-- Local state of `idpf_tx_singleq_map`. `slots` tells for each slot from the first on
which mapping was recorded in it; a further descriptor of a large part has none. -/
structure SqMapState where
  q : SingleqTxq
  i : Nat
  slots : List (Option SqMapping)

inductive SqMapResult where
  | failed (st : SqMapState)
  | mapped (st : SqMapState) (last : Nat × Nat)

/-- The `while (size > IDPF_TX_MAX_DESC_DATA)` loop, over the descriptors it fills. -/
def singleqPutChunks : List (Nat × Nat) → SqMapState → SqMapState
  | [], st => st
  | c :: cs, st =>
    let j := bump st.q.descCount st.i
    singleqPutChunks cs
      { q := (st.q.putDesc st.i (.data c.1 c.2 false false)).modBuf j fun e =>
          { e with type := .empty }
        i := j
        slots := st.slots ++ [none] }

/-- A part is recorded and all its descriptors but the last are filled. -/
def singleqMapPart (addr size : Nat) (st : SqMapState) : SqMapState × (Nat × Nat) :=
  let m : DmaMap := ⟨addr, st.q.nextMap⟩
  let q := st.q.modBuf st.i fun e => { e with type := .frag, dma := m, len := size }
  let chunks := bufChunks size (firstMaxData addr) addr size
  (singleqPutChunks chunks.1
    ⟨{ q with nextMap := q.nextMap + 1 }, st.i, st.slots ++ [some ⟨m, size⟩]⟩, chunks.2)

/-- The fragment loop of `idpf_tx_singleq_map`. `data_len` is the sum of the fragments
still to map. -/
def txSingleqMapLoop (dma : Nat → Option Nat) :
    List Nat → Nat → Nat → SqMapState → SqMapResult
  | frags, k, size, st =>
    match dma k with
    | none => .failed st
    | some addr =>
      let r := singleqMapPart addr size st
      match frags with
      | [] => .mapped r.1 r.2
      | f :: fs =>
        if (f :: fs).sum = 0 then .mapped r.1 r.2
        else
          txSingleqMapLoop dma fs (k + 1) f
            { r.1 with
              q := r.1.q.putDesc r.1.i (.data r.2.1 r.2.2 false false)
              i := bump r.1.q.descCount r.1.i }

/-- The index before `i` as the unwinding computes it. -/
def ringPrev (n i : Nat) : Nat := (if i = 0 then n else i) - 1

/-- The loop of `idpf_tx_singleq_dma_map_error`. The fuel is the ring size. -/
def singleqUnwind (first : Nat) : Nat → SingleqTxq → Nat → SingleqTxq × Nat
  | 0, q, i => (q, i)
  | fuel + 1, q, i =>
    let q := q.complete i
    if i = first then (q, i) else singleqUnwind first fuel q (ringPrev q.descCount i)

/-- `idpf_tx_singleq_dma_map_error`. It clears the descriptor behind the context
descriptor, and the context slot keeps its type. -/
def txSingleqDmaMapError (q : SingleqTxq) (skb : Nat) (gso : Bool) (first i : Nat) : SingleqTxq :=
  let r := singleqUnwind first q.descCount q i
  let q := if gso then r.1.putDesc r.2 .blank else r.1
  let idx := if gso then ringPrev q.descCount r.2 else r.2
  { q.modBuf first fun e => { e with skb := 0 } with
    log := q.log ++ [.freeSkb skb], nextToUse := idx }

/-- How `idpf_tx_singleq_frame` ends for its skb; `slots` are those of the map function. -/
inductive SqVerdict where
  | busy
  | dropped
  | failed (slots : List (Option SqMapping))
  | sent (slots : List (Option SqMapping))
  deriving DecidableEq, Repr

structure SqSend where
  q : SingleqTxq
  verdict : SqVerdict

/-- `idpf_tx_singleq_map`. -/
def txSingleqMap (q : SingleqTxq) (id : Nat) (skb : Skb) (dma : Nat → Option Nat) (first : Nat) :
    SqSend :=
  match txSingleqMapLoop dma skb.frags 0 skb.headlen ⟨q, q.nextToUse, []⟩ with
  | .failed st => ⟨txSingleqDmaMapError st.q id skb.gso.isSome first st.i, .failed st.slots⟩
  | .mapped st last =>
    ⟨{ (st.q.putDesc st.i (.data last.1 last.2 true false)).modBuf first fun e =>
          { e with type := .skb, rsIdx := st.i } with
        nextToUse := bump st.q.descCount st.i },
      .sent st.slots⟩

/-- `idpf_tx_singleq_get_ctx_desc`. -/
def txSingleqGetCtxDesc (q : SingleqTxq) : SingleqTxq :=
  { (q.putDesc q.nextToUse .ctx).modBuf q.nextToUse fun e => { e with type := .ctx } with
    nextToUse := bump q.descCount q.nextToUse }

/-- Results of the calls a transmission makes; `csum` is false where
`idpf_tx_singleq_csum` returns an error. -/
structure SqEnv where
  linearize : Bool := true
  cowHead : Bool := true
  csum : Bool := true
  dma : Nat → Option Nat := fun _ => some 0

/-- `idpf_tx_drop_skb`. -/
def SingleqTxq.drop (q : SingleqTxq) (id : Nat) : SqSend :=
  ⟨{ q with log := q.log ++ [.freeSkb id] }, .dropped⟩

/-- `idpf_tx_singleq_frame` from the context descriptor on. -/
def txSingleqPut (q : SingleqTxq) (id : Nat) (skb : Skb) (tso : Tso) (dma : Nat → Option Nat) :
    SqSend :=
  let q := match tso with
    | .on _ => txSingleqGetCtxDesc q
    | _ => q
  let first := q.nextToUse
  let q := q.modBuf first fun e => match tso with
    | .on g => { e with skb := id, packets := g.segs, bytes := u32 (skb.len + (g.segs - 1) * g.hdrLen) }
    | _ => { e with skb := id, packets := 1, bytes := max skb.len ethZlen }
  txSingleqMap q id skb dma first

/-- `idpf_tx_singleq_frame`; a queue without room is stopped. -/
def txSingleqFrame (q : SingleqTxq) (id : Nat) (skb : Skb) (env : SqEnv) : SqSend :=
  let c := txResCountRequired q.txMaxBufs env.linearize skb
  if c.count = 0 then q.drop id
  else if q.descUnused < c.count + txDescsPerCacheLine + txDescsForCtx then
    ⟨{ q with stopped := true }, .busy⟩
  else
    match txTso env.cowHead c.skb with
    | .error => q.drop id
    | tso => if env.csum then txSingleqPut q id c.skb tso env.dma else q.drop id

/-- The inner loop of `idpf_tx_singleq_clean`, up to the last descriptor of a packet. A
slot with no length is not unmapped. -/
def singleqCleanRest (eop : Nat) : Nat → SingleqTxq → Nat → SingleqTxq × Nat
  | 0, q, i => (q, i)
  | fuel + 1, q, i =>
    if i = eop then (q, i)
    else
      let i := bump q.descCount i
      let e := q.bufs i
      let log := if e.len ≠ 0 then q.log ++ [.unmap e.dma e.len] else q.log
      singleqCleanRest eop fuel
        { q.modBuf i fun e => { e with type := .empty, len := 0 } with log } i

/-- The state of `idpf_tx_singleq_clean`. -/
structure SqCleaning where
  q : SingleqTxq
  ntc : Nat
  budget : Nat
  pkts : Nat
  bytes : Nat

/-- The outer loop of `idpf_tx_singleq_clean`, entered with a budget. -/
def singleqCleanTurns : Nat → SqCleaning → SqCleaning
  | 0, s => s
  | fuel + 1, s =>
    let e := s.q.bufs s.ntc
    match e.type with
    | .ctx =>
      singleqCleanTurns fuel { s with
        q := s.q.modBuf s.ntc fun e => { e with type := .empty }
        ntc := bump s.q.descCount s.ntc }
    | .skb =>
      if (s.q.ring e.rsIdx).done then
        let q := { s.q.modBuf s.ntc fun e => { e with type := .empty } with
          log := s.q.log ++ [.freeSkb e.skb, .unmap e.dma e.len] }
        let r := singleqCleanRest e.rsIdx q.descCount q s.ntc
        let s := ⟨r.1, bump r.1.descCount r.2, s.budget - 1, u32 (s.pkts + e.packets),
          u32 (s.bytes + e.bytes)⟩
        if s.budget = 0 then s else singleqCleanTurns fuel s
      else s
    | _ => s

/-- `idpf_tx_singleq_clean`. A turn leaves its slot empty, so that the fuel is never used up. -/
def txSingleqClean (q : SingleqTxq) (budget : Nat) (carrier : Bool) : SingleqTxq :=
  let r := singleqCleanTurns (q.descCount + 1) ⟨q, q.nextToClean, budget, 0, 0⟩
  let q := { r.q with nextToClean := r.ntc }
  if r.pkts ≠ 0 ∧ carrier = true ∧ txWakeThresh ≤ q.descUnused then { q with stopped := false }
  else q

end Idpf
