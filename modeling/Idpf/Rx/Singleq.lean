import Idpf.General.Circular
import Idpf.Rx.Page

/-! The receive ring of a single queue: one turn of `idpf_rx_singleq_clean`, and
`idpf_rx_singleq_buf_hw_alloc_all`, which posts as many slots as a poll has taken. -/
namespace Idpf
open General

/-- The words of a ring slot the driver looks at: the packet and the header address
of a posted descriptor, the fields of the base or the flex format once it is written back. -/
structure SqRxDesc where
  qword0 : Nat
  qword1 : Nat
  deriving DecidableEq, Repr

def SqRxDesc.blank : SqRxDesc := ⟨0, 0⟩

/-- The queue and the build. `base` is `VIRTCHNL2_RXDID_1_32B_BASE_M`, `bulk` is
`HAVE_PAGE_COUNT_BULK_UPDATE`, and `dma` is where a page is mapped. -/
structure SqRxCfg where
  descCount : Nat
  pageSize : Nat := 4096
  cacheBytes : Nat := 64
  bulk : Bool := true
  base : Bool := true
  xdp : Bool := false
  dma : Nat → Nat
  ring : 1 < descCount
  count : descCount < 65536

def rxBuf2048 : Nat := 2048

/-- `IDPF_RXD_DD`, `IDPF_RXD_EOF_SINGLEQ` and `IDPF_RXD_ERR_S`. -/
def rxdDd : Nat := 2 ^ 0

def rxdEofSingleq : Nat := 2 ^ 1

def rxdErr : Nat := 2 ^ 19

/-- `idpf_rx_singleq_test_staterr`. -/
def rxSingleqTestStaterr (d : SqRxDesc) (bits : Nat) : Bool := d.qword1 &&& bits != 0

/-- The size `idpf_rx_singleq_extract_fields` finds. The packet type it also finds is used only
for fields of the skb that is passed up. -/
def rxSingleqExtractSize (base : Bool) (d : SqRxDesc) : Nat :=
  if base then d.qword1 / 2 ^ 38 % 2 ^ 14 else d.qword0 / 2 ^ 32 % 2 ^ 14

/-- `struct idpf_page_info`, without the `default_offset` nothing sets here. -/
structure SqPageInfo where
  page : Option Nat := none
  dma : Nat := 0
  pageOffset : Nat := 0
  pagecntBias : Nat := 0
  reuseBias : Nat := 0

/-- A packet being put together: the octets copied and the frags. -/
structure SqRxSkb where
  id : Nat
  linear : Nat
  frags : List PageRef
  deriving DecidableEq, Repr

/-- `struct idpf_rx_buf`. `idpf_rx_bufs_init_singleq` takes it zeroed and sets no `buf_size`. -/
structure SqRxBuf where
  info : Bool → SqPageInfo := fun _ => {}
  indx : Bool := false
  bufSize : Nat := 0
  skb : Option SqRxSkb := none

namespace SqRxBuf

/-- `&rx_buf->page_info[rx_buf->page_indx]`. -/
def cur (b : SqRxBuf) : SqPageInfo := b.info b.indx

def setCur (b : SqRxBuf) (pinfo : SqPageInfo) : SqRxBuf :=
  { b with info := Function.update b.info b.indx pinfo }

/-- `idpf_rx_buf_adjust_pg`. -/
def adjustPg (c : SqRxCfg) (b : SqRxBuf) (size : Nat) : SqRxBuf :=
  if c.pageSize < 8192 then
    if b.bufSize > rxBuf2048 then { b with indx := !b.indx }
    else b.setCur { b.cur with pageOffset := b.cur.pageOffset ^^^ size }
  else b.setCur { b.cur with pageOffset := b.cur.pageOffset + size }

/-- `idpf_rx_frame_truesize`. -/
def frameTruesize (c : SqRxCfg) (b : SqRxBuf) (size : Nat) : Nat :=
  if c.pageSize ≥ 8192 then (size + (c.cacheBytes - 1)) / c.cacheBytes * c.cacheBytes
  else b.bufSize

end SqRxBuf

/-- What polls work on besides the descriptors: the buffers, `next_to_use`, the reference
counts of pages and the references the stack holds, and the skbs passed up and freed. -/
structure SqRxMem where
  bufs : Nat → SqRxBuf
  nextToUse : Nat
  count : Nat → Nat
  fresh : Nat
  refs : List PageRef
  nextSkb : Nat
  delivered : List SqRxSkb
  freed : List SqRxSkb

/-- The answers a turn gets: whether there is an skb, the octets `eth_get_headlen` finds, the
verdict of the XDP program, and `dev_page_is_reusable`. -/
structure SqRxEnv where
  skb : Bool := true
  headlen : Nat := 14
  xdp : XdpRes := .pass
  reusable : Bool := true

namespace SqRxMem

def setBuf (m : SqRxMem) (i : Nat) (b : SqRxBuf) : SqRxMem :=
  { m with bufs := Function.update m.bufs i b }

def setPinfo (m : SqRxMem) (i : Nat) (pinfo : SqPageInfo) : SqRxMem :=
  m.setBuf i ((m.bufs i).setCur pinfo)

def setCount (m : SqRxMem) (p n : Nat) : SqRxMem := { m with count := Function.update m.count p n }

/-- The bias taken down by `idpf_rx_get_buf_page`. -/
def getBufPage (m : SqRxMem) (i : Nat) : SqRxMem :=
  let pinfo := (m.bufs i).cur
  m.setPinfo i { pinfo with pagecntBias := (pinfo.pagecntBias + 65535) % 65536 }

/-- `pagecnt_bias++`. -/
def putBufPage (m : SqRxMem) (i : Nat) : SqRxMem :=
  let pinfo := (m.bufs i).cur
  m.setPinfo i { pinfo with pagecntBias := (pinfo.pagecntBias + 1) % 65536 }

/-- The references a frag of `len` octets from `start` on makes. -/
def fragOf (m : SqRxMem) (i start len : Nat) : List PageRef :=
  match (m.bufs i).cur.page with
  | some p => [⟨p, start, len⟩]
  | none => []

/-- `idpf_rx_add_frag`. -/
def addFrag (c : SqRxCfg) (m : SqRxMem) (i : Nat) (skb : SqRxSkb) (size : Nat) :
    SqRxMem × SqRxSkb :=
  let b := m.bufs i
  (m.setBuf i (b.adjustPg c (b.frameTruesize c size)),
    { skb with frags := skb.frags ++ m.fragOf i b.cur.pageOffset size })

/-- `idpf_rx_construct_skb`, given memory. -/
def constructSkb (c : SqRxCfg) (m : SqRxMem) (i size headlen : Nat) : SqRxMem × SqRxSkb :=
  let headlen := if size > rxHdrSize then min headlen rxHdrSize else size
  let skb : SqRxSkb := ⟨m.nextSkb, headlen, []⟩
  let m := { m with nextSkb := m.nextSkb + 1 }
  let b := m.bufs i
  if size - headlen = 0 then (m.putBufPage i, skb)
  else
    (m.setBuf i (b.adjustPg c (b.frameTruesize c (size - headlen))),
      { skb with frags := m.fragOf i (b.cur.pageOffset + headlen) (size - headlen) })

/-- The tests of `idpf_rx_can_reuse_page`, in unsigned arithmetic. -/
def canReusePage (c : SqRxCfg) (m : SqRxMem) (i : Nat) (reusable : Bool) : Bool :=
  let b := m.bufs i
  match b.cur.page with
  | none => false
  | some p =>
    reusable &&
      if c.pageSize < 8192 then
        decide (b.cur.pagecntBias ≤ m.count p ∧ m.count p - b.cur.pagecntBias ≤ b.cur.reuseBias)
      else decide (b.cur.pageOffset ≤ c.pageSize - b.bufSize)

/-- The references `idpf_rx_can_reuse_page` buys for a page it lets pass. -/
def topUp (c : SqRxCfg) (m : SqRxMem) (i : Nat) : SqRxMem :=
  let pinfo := (m.bufs i).cur
  match pinfo.page with
  | none => m
  | some p =>
    if c.bulk then
      if pinfo.pagecntBias = 1 then
        (m.setPinfo i { pinfo with pagecntBias := 65535 }).setCount p (m.count p + 65534)
      else m
    else if pinfo.pagecntBias = 0 then
      (m.setPinfo i { pinfo with pagecntBias := 1 }).setCount p (m.count p + 1)
    else m

/-- `idpf_rx_reuse_page`: the page moves to the slot at `next_to_use`. -/
def reusePage (c : SqRxCfg) (m : SqRxMem) (i : Nat) : SqRxMem :=
  let ntu := m.nextToUse
  let old := (m.bufs i).cur
  { m.setPinfo ntu { old with reuseBias := (m.bufs ntu).cur.reuseBias } with
    nextToUse := bump c.descCount ntu }

/-- `__page_frag_cache_drain`. -/
def drainPage (m : SqRxMem) (i : Nat) : SqRxMem :=
  match (m.bufs i).cur.page with
  | some p => m.setCount p (m.count p - (m.bufs i).cur.pagecntBias)
  | none => m

/-- The end of `idpf_rx_singleq_recycle_buf`: the slot keeps neither page nor skb. -/
def clearBuf (m : SqRxMem) (i : Nat) : SqRxMem :=
  let b := m.bufs i
  m.setBuf i { b.setCur { b.cur with page := none } with skb := none }

/-- `idpf_rx_singleq_recycle_buf`. -/
def recycleBuf (c : SqRxCfg) (m : SqRxMem) (i : Nat) (reusable : Bool) : SqRxMem :=
  (if m.canReusePage c i reusable then (m.topUp c i).reusePage c i else m.drainPage i).clearBuf i

/-- The part of a turn that `idpf_rx_xdp` decides when it lets nothing pass. A frame it has sent
on holds a reference. -/
def xdpTaken (c : SqRxCfg) (m : SqRxMem) (i size : Nat) (res : XdpRes) : SqRxMem :=
  let b := m.bufs i
  match res with
  | .pass => m
  | .consumed => m.putBufPage i
  | .tx | .redir =>
    { m.setBuf i (b.adjustPg c rxBuf2048) with
      refs := m.fragOf i b.cur.pageOffset size ++ m.refs }

/-- `dev_kfree_skb_any`: the references of its frags are dropped. -/
def freeSkb (m : SqRxMem) (skb : SqRxSkb) : SqRxMem :=
  { m with
    count := fun p => m.count p - skb.frags.countP fun r => r.page = p
    freed := m.freed ++ [skb] }

/-- `napi_gro_receive`. -/
def deliver (m : SqRxMem) (skb : SqRxSkb) : SqRxMem :=
  { m with refs := skb.frags ++ m.refs, delivered := m.delivered ++ [skb] }

/-- The skb of a packet that goes on in the next slot. -/
def keepSkb (m : SqRxMem) (i : Nat) (skb : SqRxSkb) : SqRxMem :=
  m.setBuf i { m.bufs i with skb := some skb }

/-- `idpf_alloc_page`: the page of a failed mapping is freed, but stays in `pinfo`, whose address
is `DMA_MAPPING_ERROR`. -/
def allocPage (c : SqRxCfg) (m : SqRxMem) (i : Nat) : PageAlloc → SqRxMem
  | .noMem => m.setPinfo i { (m.bufs i).cur with page := none }
  | .mapFail =>
    { m.setPinfo i { (m.bufs i).cur with page := some m.fresh, dma := 2 ^ 64 - 1 } with
      fresh := m.fresh + 1 }
  | .ok =>
    let bias := if c.bulk then 65535 else 1
    { (m.setPinfo i { (m.bufs i).cur with
          page := some m.fresh
          dma := c.dma m.fresh
          pageOffset := 0
          pagecntBias := bias }).setCount m.fresh bias with
      fresh := m.fresh + 1 }

/-- A slot about to be posted gets a page when it has none. -/
def fillBuf (c : SqRxCfg) (m : SqRxMem) (i : Nat) (alloc : PageAlloc) : SqRxMem × Bool :=
  if (m.bufs i).cur.page.isSome then (m, true)
  else
    let m := m.allocPage c i alloc
    if alloc = .ok then (m.setPinfo i { (m.bufs i).cur with reuseBias := 1 }, true) else (m, false)

/-- The descriptor of slot `i`. -/
def bufDesc (m : SqRxMem) (i : Nat) : SqRxDesc :=
  ⟨((m.bufs i).cur.dma + (m.bufs i).cur.pageOffset) % 2 ^ 64, 0⟩

end SqRxMem

structure SqRxq where
  ring : Nat → SqRxDesc
  nextToClean : Nat
  nextToAlloc : Nat
  tail : Nat
  mem : SqRxMem

/-- The local variables of `idpf_rx_singleq_clean`, and whether its loop still runs. -/
structure SqRxPoll where
  budget : Nat
  ntc : Nat
  totalRxPkts : Nat
  cleanedCount : Nat
  looping : Bool

def rxSingleqBegin (q : SqRxq) (budget : Nat) : SqRxPoll := ⟨budget, q.nextToClean, 0, 0, true⟩

/-- The loop of `idpf_rx_singleq_clean` takes the descriptor it has come to for a packet. -/
def rxSingleqFinds (c : SqRxCfg) (ring : Nat → SqRxDesc) (p : SqRxPoll) : Bool :=
  decide (p.totalRxPkts < p.budget) && rxSingleqTestStaterr (ring p.ntc) rxdDd &&
    rxSingleqExtractSize c.base (ring p.ntc) != 0

namespace SqRxPoll

def next (c : SqRxCfg) (p : SqRxPoll) : SqRxPoll :=
  { p with ntc := bump c.descCount p.ntc, cleanedCount := (p.cleanedCount + 1) % 65536 }

def stop (p : SqRxPoll) : SqRxPoll := { p with looping := false }

def packet (p : SqRxPoll) : SqRxPoll := { p with totalRxPkts := p.totalRxPkts + 1 }

end SqRxPoll

/-- The skb of the buffer at hand, added to the one the slot keeps or a new one. -/
def rxSingleqBuild (c : SqRxCfg) (m : SqRxMem) (i size : Nat) (env : SqRxEnv) :
    Option (SqRxMem × SqRxSkb) :=
  match (m.bufs i).skb with
  | some skb => some (m.addFrag c i skb size)
  | none => if env.skb then some (m.constructSkb c i size env.headlen) else none

/-- What follows once a buffer is part of `skb`. `idpf_rx_singleq_process_skb_fields` sets only
fields of the skb that is passed up. -/
def rxSingleqFinish (c : SqRxCfg) (d : SqRxDesc) (m : SqRxMem) (p : SqRxPoll) (skb : SqRxSkb)
    (reusable : Bool) : SqRxMem × SqRxPoll :=
  let m := m.recycleBuf c p.ntc reusable
  let p := p.next c
  if !rxSingleqTestStaterr d rxdEofSingleq then (m.keepSkb p.ntc skb, p)
  else if rxSingleqTestStaterr d rxdErr then (m.freeSkb skb, p)
  else (m.deliver skb, p.packet)

/-- One turn of the loop in `idpf_rx_singleq_clean`. -/
def rxSingleqTurn (c : SqRxCfg) (ring : Nat → SqRxDesc) (m : SqRxMem) (p : SqRxPoll)
    (env : SqRxEnv) : SqRxMem × SqRxPoll :=
  let d := ring p.ntc
  let size := rxSingleqExtractSize c.base d
  if !rxSingleqFinds c ring p then (m, p.stop)
  else
    let m := m.getBufPage p.ntc
    if c.xdp && env.xdp != .pass then
      (((m.xdpTaken c p.ntc size env.xdp).putBufPage p.ntc).recycleBuf c p.ntc env.reusable,
        (p.next c).packet)
    else
      match rxSingleqBuild c m p.ntc size env with
      | none => (m.putBufPage p.ntc, p.stop)
      | some (m, skb) => rxSingleqFinish c d m p skb env.reusable

/-- The loop of `idpf_rx_singleq_buf_hw_alloc_all`, with `k` buffers to replace. The last
component is the number it leaves. -/
def rxSingleqAllocLoop (c : SqRxCfg) (alloc : Nat → PageAlloc) :
    Nat → (Nat → SqRxDesc) → SqRxMem → Nat → (Nat → SqRxDesc) × SqRxMem × Nat × Nat
  | 0, ring, m, nta => (ring, m, nta, 0)
  | k + 1, ring, m, nta =>
    let r := m.fillBuf c nta (alloc nta)
    if r.2 then
      rxSingleqAllocLoop c alloc k (Function.update ring nta (r.1.bufDesc nta)) r.1
        (bump c.descCount nta)
    else (ring, r.1, nta, k + 1)

/-- `idpf_rx_singleq_buf_hw_alloc_all`; `alloc` answers for the slot it is asked for. -/
def rxSingleqBufHwAllocAll (c : SqRxCfg) (q : SqRxq) (cleanedCount : Nat)
    (alloc : Nat → PageAlloc) : SqRxq × Bool :=
  let r := rxSingleqAllocLoop c alloc cleanedCount q.ring q.mem q.nextToAlloc
  let q := { q with ring := r.1, mem := r.2.1 }
  let nta := r.2.2.1
  (if q.nextToAlloc ≠ nta then
      { q with nextToAlloc := nta, tail := nta, mem := { q.mem with nextToUse := nta } }
    else q, r.2.2.2 != 0)

/-- The end of `idpf_rx_singleq_clean`, with the work it reports. -/
def rxSingleqEnd (c : SqRxCfg) (q : SqRxq) (p : SqRxPoll) (alloc : Nat → PageAlloc) :
    SqRxq × Nat :=
  let q := { q with nextToClean := p.ntc }
  if p.cleanedCount = 0 then (q, p.totalRxPkts)
  else
    let r := rxSingleqBufHwAllocAll c q p.cleanedCount alloc
    (r.1, if r.2 then p.budget else p.totalRxPkts)

def SqRxq.blank : SqRxq where
  ring _ := .blank
  nextToClean := 0
  nextToAlloc := 0
  tail := 0
  mem := ⟨fun _ => {}, 0, fun _ => 0, 0, [], 0, [], []⟩

end Idpf
