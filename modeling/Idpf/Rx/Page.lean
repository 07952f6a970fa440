import Idpf.General.Transition
import Idpf.Rx.Clean

/-! The pages behind one receive buffer: posting, completion, the references the
stack holds, and the decision to reuse a page or to replace it. -/
namespace Idpf
open General

/-- The build and the queue a buffer belongs to. `default_offset` and `reuse_bias`
of its pages are set once and kept here; `bulk` is `HAVE_PAGE_COUNT_BULK_UPDATE`. -/
structure PageCfg where
  pageSize : Nat
  bufSize : Nat
  defaultOffset : Nat
  cacheBytes : Nat
  bulk : Bool
  page : pageSize = 4096 ∨ 8192 ≤ pageSize
  buf : bufSize = 2048 ∨ bufSize = 4096
  headroom : defaultOffset = 0 ∨ defaultOffset = 256
  cache : 0 < cacheBytes

namespace PageCfg

/-- `SKB_DATA_ALIGN`. -/
def skbDataAlign (c : PageCfg) (x : Nat) : Nat := (x + (c.cacheBytes - 1)) / c.cacheBytes * c.cacheBytes

def twoPages (c : PageCfg) : Bool := decide (c.pageSize < 8192 ∧ c.bufSize > 2048)

def reuseBias (c : PageCfg) : Nat := if c.pageSize < 8192 ∧ c.bufSize ≤ 2048 then 1 else 0

/-- The bias of a page just taken, and the one at which it is topped up. -/
def fullBias (c : PageCfg) : Nat := if c.bulk then 65535 else 1

def drainedBias (c : PageCfg) : Nat := if c.bulk then 1 else 0

/-- `idpf_rx_frame_truesize`. -/
def truesize (c : PageCfg) (size : Nat) : Nat :=
  if c.pageSize ≥ 8192 then c.skbDataAlign size else c.bufSize

end PageCfg

/-- `struct idpf_page_info`. -/
structure PageInfo where
  page : Option Nat
  pageOffset : Nat
  pagecntBias : Nat
  deriving DecidableEq, Repr

/-- A reference held outside the driver, and the octets of the page it covers. -/
structure PageRef where
  page : Nat
  start : Nat
  len : Nat
  deriving DecidableEq, Repr

/-- Where a buffer is: with the driver, with the device, or back from the device
with `size` octets. -/
inductive BufOwner where
  | driver | device | written (size : Nat)
  deriving DecidableEq, Repr

/-- One `struct idpf_rx_buf`, the reference counts of all pages, the references of
the stack, and the number of pages ever allocated, which numbers the next one. -/
structure RxPage where
  info : Bool → PageInfo
  indx : Bool
  owner : BufOwner
  count : Nat → Nat
  fresh : Nat
  refs : List PageRef

/-- How `alloc_page` and the DMA mapping of its page end. -/
inductive PageAlloc where
  | ok | noMem | mapFail
  deriving DecidableEq, Repr

/-- What a completion is used for: a frag of an skb at hand, a new skb of which
`eth_get_headlen` finds `headlen` octets to copy, nothing for want of an skb, or an
XDP verdict that takes the buffer (`XDP_TX`, `XDP_REDIRECT`) or drops it. -/
inductive PageUse where
  | addFrag | construct (headlen : Nat) | noSkb | xdpTaken | xdpConsumed
  deriving DecidableEq, Repr

namespace RxPage

/-- `&rx_buf->page_info[rx_buf->page_indx]`. -/
def cur (s : RxPage) : PageInfo := s.info s.indx

def setCur (s : RxPage) (pinfo : PageInfo) : RxPage :=
  { s with info := Function.update s.info s.indx pinfo }

def setBias (s : RxPage) (bias : Nat) : RxPage := s.setCur { s.cur with pagecntBias := bias }

def setOffset (s : RxPage) (offset : Nat) : RxPage := s.setCur { s.cur with pageOffset := offset }

def setPage (s : RxPage) (page : Option Nat) : RxPage := s.setCur { s.cur with page }

/-- `page_count(p)` becomes `n`. -/
def setCount (s : RxPage) (p n : Nat) : RxPage := { s with count := Function.update s.count p n }

/-- `idpf_alloc_page(dev, pinfo)`: the page of a failed mapping is freed, but
stays in `pinfo`. -/
def allocPage (c : PageCfg) (s : RxPage) : PageAlloc → RxPage
  | .noMem => s.setPage none
  | .mapFail => { s.setPage (some s.fresh) with fresh := s.fresh + 1 }
  | .ok =>
    { (s.setCur ⟨some s.fresh, c.defaultOffset, c.fullBias⟩).setCount s.fresh c.fullBias with
      fresh := s.fresh + 1 }

/-- The bias taken down by `idpf_rx_get_buf_page`. -/
def getBufPage (s : RxPage) : RxPage := s.setBias ((s.cur.pagecntBias + 65535) % 65536)

/-- `pagecnt_bias++`. -/
def putBufPage (s : RxPage) : RxPage := s.setBias ((s.cur.pagecntBias + 1) % 65536)

def pushRef (s : RxPage) (r : PageRef) : RxPage := { s with refs := r :: s.refs }

/-- The reference of a frag or a frame, which comes out of the bias. -/
def addRef (s : RxPage) (start len : Nat) : RxPage :=
  match s.cur.page with
  | some p => s.pushRef ⟨p, start, len⟩
  | none => s

/-- `idpf_rx_buf_adjust_pg`. -/
def bufAdjustPg (c : PageCfg) (s : RxPage) (size : Nat) : RxPage :=
  if c.pageSize < 8192 then
    if c.bufSize > 2048 then { s with indx := !s.indx }
    else s.setOffset (s.cur.pageOffset ^^^ size)
  else s.setOffset (s.cur.pageOffset + size)

/-- The tests of `idpf_rx_can_reuse_page`; the difference of count and bias is one
of unsigned numbers. `reusable` is `dev_page_is_reusable`. -/
def canReusePage (c : PageCfg) (s : RxPage) (reusable : Bool) : Bool :=
  match s.cur.page with
  | none => false
  | some p =>
    reusable &&
      if c.pageSize < 8192 then
        decide (s.cur.pagecntBias ≤ s.count p ∧ s.count p - s.cur.pagecntBias ≤ c.reuseBias)
      else decide (s.cur.pageOffset ≤ c.pageSize - c.bufSize)

/-- The references `idpf_rx_can_reuse_page` buys for a page it lets pass. -/
def topUp (c : PageCfg) (s : RxPage) : RxPage :=
  match s.cur.page with
  | some p =>
    if s.cur.pagecntBias = c.drainedBias then
      (s.setBias c.fullBias).setCount p (s.count p + (c.fullBias - c.drainedBias))
    else s
  | none => s

/-- `__page_frag_cache_drain` and the cleared `pinfo->page`. -/
def drain (s : RxPage) : RxPage :=
  match s.cur.page with
  | some p => (s.setPage none).setCount p (s.count p - s.cur.pagecntBias)
  | none => s

/-- `idpf_rx_splitq_recycle_buf`. -/
def recycleBuf (c : PageCfg) (s : RxPage) (reusable : Bool) (alloc : PageAlloc) : RxPage :=
  if s.canReusePage c reusable then s.topUp c else s.drain.allocPage c alloc

/-- The frag of `idpf_rx_add_frag`, or the frame of an XDP verdict. -/
def frag (c : PageCfg) (s : RxPage) (headlen size : Nat) : RxPage :=
  bufAdjustPg c (s.addRef (s.cur.pageOffset + headlen) size) (c.truesize size)

/-- `idpf_rx_construct_skb`. -/
def constructSkb (c : PageCfg) (s : RxPage) (size headlen : Nat) : RxPage :=
  let headlen := if size > rxHdrSize then min headlen rxHdrSize else size
  if size - headlen = 0 then s.putBufPage else s.frag c headlen (size - headlen)

/-- The buffer of a completion with octets, until it is recycled or left as it was. -/
def useBuf (c : PageCfg) (s : RxPage) (size : Nat) : PageUse → RxPage
  | .addFrag | .xdpTaken => s.getBufPage.frag c 0 size
  | .construct headlen => s.getBufPage.constructSkb c size headlen
  | .noSkb | .xdpConsumed => s.getBufPage.putBufPage

/-- What a turn of `idpf_rx_splitq_clean` does with the buffer of a completion of
`size` octets: nothing to its page when there are none, and without an skb the
completion is left for the next poll. -/
def clean (c : PageCfg) (s : RxPage) (size : Nat) (use : PageUse) (reusable : Bool)
    (alloc : PageAlloc) : RxPage :=
  let used := if size = 0 then s else s.useBuf c size use
  if use = .noSkb then used
  else
    { (if size = 0 then used else used.recycleBuf c reusable alloc) with owner := .driver }

/-- `idpf_rx_update_bufq_desc`: a hole is filled before the buffer is posted. -/
def updateBufqDesc (c : PageCfg) (s : RxPage) (alloc : PageAlloc) : RxPage :=
  if s.cur.page.isSome then { s with owner := .device }
  else
    let s' := s.allocPage c alloc
    if alloc = .ok then { s' with owner := .device } else s'

/-- The stack drops the reference `r`. -/
def putRef (s : RxPage) (r : PageRef) : RxPage :=
  { s.setCount r.page (s.count r.page - 1) with refs := s.refs.erase r }

/-- The stack takes another reference on the octets of `r` or some of them. -/
def getRef (s : RxPage) (r : PageRef) (skip len : Nat) : RxPage :=
  (s.pushRef ⟨r.page, r.start + skip, len⟩).setCount r.page (s.count r.page + 1)

end RxPage

inductive PageOp where
  | post (alloc : PageAlloc)
  | write (size : Nat)
  | clean (use : PageUse) (reusable : Bool) (alloc : PageAlloc)
  | put (r : PageRef)
  | get (r : PageRef) (skip len : Nat)

/-- The pages `idpf_rx_buf_alloc_all` gives a buffer. -/
def PageCfg.init (c : PageCfg) : RxPage :=
  let s : RxPage := ⟨fun _ => ⟨none, 0, 0⟩, false, .driver, fun _ => 0, 0, []⟩
  let s := s.allocPage c .ok
  if c.twoPages then { RxPage.allocPage c { s with indx := true } .ok with indx := false } else s

/-- One step. The device writes no more than the buffer takes. -/
def RxPage.step (c : PageCfg) (s : RxPage) : PageOp → Option RxPage
  | .post alloc => if s.owner = .driver then some (s.updateBufqDesc c alloc) else none
  | .write size =>
    if s.owner = .device ∧ size ≤ c.bufSize then some { s with owner := .written size } else none
  | .clean use reusable alloc =>
    match s.owner with
    | .written size => some (s.clean c size use reusable alloc)
    | _ => none
  | .put r => if r ∈ s.refs then some (s.putRef r) else none
  | .get r skip len => if r ∈ s.refs ∧ skip + len ≤ r.len then some (s.getRef r skip len) else none

/-- The references a page info holds on page `p`. -/
def PageInfo.biasOn (pinfo : PageInfo) (p : Nat) : Nat :=
  if pinfo.page = some p then pinfo.pagecntBias else 0

namespace RxPage

def other (s : RxPage) : PageInfo := s.info (!s.indx)

def held (s : RxPage) (p : Nat) : Nat := s.cur.biasOn p + s.other.biasOn p

/-- The references of the stack on page `p`. -/
def refsOn (s : RxPage) (p : Nat) : Nat := s.refs.countP (fun r => r.page = p)

@[simp] theorem cur_setCur (s : RxPage) (pinfo : PageInfo) : (s.setCur pinfo).cur = pinfo :=
  Function.update_self ..

@[simp] theorem other_setCur (s : RxPage) (pinfo : PageInfo) : (s.setCur pinfo).other = s.other :=
  Function.update_of_ne (Bool.not_ne_self _) ..

@[simp] theorem cur_setBias (s : RxPage) (bias : Nat) :
    (s.setBias bias).cur = { s.cur with pagecntBias := bias } := cur_setCur ..

@[simp] theorem cur_setOffset (s : RxPage) (offset : Nat) :
    (s.setOffset offset).cur = { s.cur with pageOffset := offset } := cur_setCur ..

@[simp] theorem cur_setPage (s : RxPage) (page : Option Nat) :
    (s.setPage page).cur = { s.cur with page } := cur_setCur ..

@[simp] theorem cur_setCount (s : RxPage) (p n : Nat) : (s.setCount p n).cur = s.cur := rfl

@[simp] theorem cur_pushRef (s : RxPage) (r : PageRef) : (s.pushRef r).cur = s.cur := rfl

theorem setBias_setBias (s : RxPage) (a b : Nat) : (s.setBias a).setBias b = s.setBias b := by
  rw [setBias, cur_setBias]
  simp only [setBias, setCur, Function.update_idem]

theorem setBias_cur (s : RxPage) : s.setBias s.cur.pagecntBias = s := by
  rw [setBias, setCur, cur, Function.update_eq_self]

theorem refsOn_pushRef (s : RxPage) (r : PageRef) (p : Nat) :
    (s.pushRef r).refsOn p = s.refsOn p + if r.page = p then 1 else 0 := by
  rw [refsOn, pushRef, List.countP_cons, refsOn]
  simp only [decide_eq_true_eq]

theorem refsOn_putRef {s : RxPage} {r : PageRef} (member : r ∈ s.refs) (p : Nat) :
    s.refsOn p = (s.putRef r).refsOn p + if r.page = p then 1 else 0 := by
  rw [refsOn, (List.perm_cons_erase member).countP_eq, List.countP_cons, refsOn]
  simp only [decide_eq_true_eq]
  rfl

theorem addRef_some {s : RxPage} {p : Nat} (page : s.cur.page = some p) (start len : Nat) :
    s.addRef start len = s.pushRef ⟨p, start, len⟩ := by
  rw [addRef, page]

/-- Pages are accounted for: what counts a page's references are the biases of the
buffer and the references of the stack, and no two page infos share a page. -/
structure Acct (c : PageCfg) (s : RxPage) : Prop where
  count : ∀ p, s.count p = s.held p + s.refsOn p
  apart : ∀ p, s.cur.page = some p → s.other.page ≠ some p
  curBelow : ∀ p, s.cur.page = some p → p < s.fresh
  otherBelow : ∀ p, s.other.page = some p → p < s.fresh
  refsBelow : ∀ r ∈ s.refs, r.page < s.fresh
  curBias : s.cur.page ≠ none → c.drainedBias ≤ s.cur.pagecntBias ∧ s.cur.pagecntBias ≤ c.fullBias
  otherBias : s.other.page ≠ none →
    c.drainedBias ≤ s.other.pagecntBias ∧ s.other.pagecntBias ≤ c.fullBias

end RxPage

theorem PageCfg.bias_lt (c : PageCfg) : c.drainedBias < c.fullBias ∧ c.fullBias ≤ 65535 := by
  unfold drainedBias fullBias
  cases c.bulk <;> decide

namespace RxPage.Acct

variable {c : PageCfg} {s : RxPage}

theorem count_fresh (v : Acct c s) : s.count s.fresh = 0 := by
  have unknown : s.refsOn s.fresh = 0 :=
    List.countP_eq_zero.mpr fun r member => by
      rw [decide_eq_true_eq]
      exact (v.refsBelow r member).ne
  rw [v.count, unknown, held, PageInfo.biasOn, PageInfo.biasOn, if_neg fun h => (v.curBelow _ h).false,
    if_neg fun h => (v.otherBelow _ h).false]

theorem count_cur (v : Acct c s) {p : Nat} (page : s.cur.page = some p) :
    s.count p = s.cur.pagecntBias + s.refsOn p := by
  rw [v.count, held, PageInfo.biasOn, PageInfo.biasOn, if_pos page, if_neg (v.apart p page),
    Nat.add_zero]

/-- A step that leaves the other page info alone and moves counts, biases and
references by the same amounts. -/
theorem next (v : Acct c s) {t : RxPage} (other : t.other = s.other) (fresh : s.fresh ≤ t.fresh)
    (page : ∀ p, t.cur.page = some p → p < t.fresh ∧ s.other.page ≠ some p)
    (bias : t.cur.page ≠ none →
      c.drainedBias ≤ t.cur.pagecntBias ∧ t.cur.pagecntBias ≤ c.fullBias)
    (refs : ∀ r ∈ t.refs, r.page < t.fresh)
    (balance : ∀ p, t.count p + (s.cur.biasOn p + s.refsOn p) =
      s.count p + (t.cur.biasOn p + t.refsOn p)) : Acct c t := by
  refine ⟨fun p => ?_, fun p h => ?_, fun p h => (page p h).1, fun p h => ?_, refs, bias, ?_⟩
  · have before := v.count p
    have moved := balance p
    rw [held] at before ⊢
    rw [other]
    omega
  · rw [other]
    exact (page p h).2
  · rw [other] at h
    exact (v.otherBelow p h).trans_le fresh
  · rw [other]
    exact v.otherBias

/-- The page in use stays, with another bias; its count moves with it. -/
theorem setBias (v : Acct c s) {p : Nat} (page : s.cur.page = some p) {bias count : Nat}
    (low : c.drainedBias ≤ bias) (high : bias ≤ c.fullBias)
    (balance : count + s.cur.pagecntBias = s.count p + bias) :
    Acct c ((s.setBias bias).setCount p count) := by
  refine v.next (other_setCur s _) le_rfl ?_ ?_ v.refsBelow fun q => ?_
  · rw [cur_setCount, cur_setBias]
    exact fun q h => ⟨v.curBelow q h, v.apart q h⟩
  · rw [cur_setCount, cur_setBias]
    exact fun _ => ⟨low, high⟩
  · rw [cur_setCount, cur_setBias]
    change Function.update s.count p count q + _ = s.count q + (_ + s.refsOn q)
    by_cases same : p = q
    · subst same
      rw [Function.update_self, PageInfo.biasOn, PageInfo.biasOn, if_pos page, if_pos page]
      dsimp only
      omega
    · have differs : s.cur.page ≠ some q := by
        rw [page]
        exact fun h => same (Option.some.inj h)
      rw [Function.update_of_ne (Ne.symm same), PageInfo.biasOn, PageInfo.biasOn, if_neg differs,
        if_neg differs]

theorem setOffset (v : Acct c s) (offset : Nat) : Acct c (s.setOffset offset) := by
  refine v.next (other_setCur ..) le_rfl ?_ ?_ v.refsBelow fun p => ?_
  · rw [cur_setOffset]
    exact fun p h => ⟨v.curBelow p h, v.apart p h⟩
  · rw [cur_setOffset]
    exact v.curBias
  · rw [cur_setOffset]
    rfl

theorem flip (v : Acct c s) : Acct c { s with indx := !s.indx } := by
  have cur : ({ s with indx := !s.indx } : RxPage).cur = s.other := rfl
  have other : ({ s with indx := !s.indx } : RxPage).other = s.cur := by
    rw [RxPage.other, RxPage.cur, Bool.not_not]
  refine ⟨fun p => ?_, fun p h same => ?_, ?_, ?_, v.refsBelow, ?_, ?_⟩
  · rw [held, cur, other, Nat.add_comm (s.other.biasOn p)]
    exact v.count p
  · rw [cur] at h
    rw [other] at same
    exact v.apart p same h
  · rw [cur]
    exact v.otherBelow
  · rw [other]
    exact v.curBelow
  · rw [cur]
    exact v.otherBias
  · rw [other]
    exact v.curBias

theorem pushRef (v : Acct c s) {r : PageRef} (known : r.page < s.fresh) :
    Acct c ((s.pushRef r).setCount r.page (s.count r.page + 1)) := by
  refine v.next rfl le_rfl (fun p h => ⟨v.curBelow p h, v.apart p h⟩) v.curBias
    (fun r' h => ?_) fun q => ?_
  · rcases List.mem_cons.mp h with rfl | h
    · exact known
    · exact v.refsBelow r' h
  · change Function.update s.count r.page (s.count r.page + 1) q + _ =
      s.count q + (s.cur.biasOn q + (s.pushRef r).refsOn q)
    rw [refsOn_pushRef]
    by_cases same : r.page = q
    · rw [if_pos same, same, Function.update_self]
      omega
    · rw [if_neg same, Function.update_of_ne (Ne.symm same), Nat.add_zero]

theorem putRef (v : Acct c s) {r : PageRef} (member : r ∈ s.refs) : Acct c (s.putRef r) := by
  refine v.next rfl le_rfl (fun p h => ⟨v.curBelow p h, v.apart p h⟩) v.curBias
    (fun r h => v.refsBelow r (List.mem_of_mem_erase h)) fun q => ?_
  show Function.update s.count r.page (s.count r.page - 1) q + _ = s.count q + (s.cur.biasOn q + _)
  have counted := v.count q
  rw [refsOn_putRef member q] at counted ⊢
  by_cases same : r.page = q
  · rw [if_pos same] at counted ⊢
    rw [same, Function.update_self]
    omega
  · rw [if_neg same, Function.update_of_ne (Ne.symm same), Nat.add_zero]

/-- A reference for the stack comes out of the bias: one reference more and a count
that stays. -/
theorem use (v : Acct c s) {p : Nat} (page : s.cur.page = some p)
    (stocked : c.drainedBias < s.cur.pagecntBias) (start len : Nat) :
    Acct c (s.getBufPage.addRef start len) := by
  have range := v.curBias (by rw [page]; nofun)
  have full := c.bias_lt.2
  have dec : (s.cur.pagecntBias + 65535) % 65536 = s.cur.pagecntBias - 1 := by omega
  have lent := v.pushRef (r := ⟨p, start, len⟩) (v.curBelow p page)
  have paid := @setBias _ _ lent p page (s.cur.pagecntBias - 1) (s.count p)
    (by omega) (by omega) (by
      change s.count p + s.cur.pagecntBias =
        Function.update s.count p (s.count p + 1) p + (s.cur.pagecntBias - 1)
      rw [Function.update_self]
      omega)
  rw [addRef_some (by rw [getBufPage, cur_setBias, page]), getBufPage, dec]
  refine cast (congrArg (Acct c) ?_) paid
  rw [RxPage.setCount, RxPage.setBias, RxPage.setBias, RxPage.setCur, RxPage.setCur]
  simp only [RxPage.setCount, RxPage.pushRef, RxPage.cur, Function.update_idem,
    Function.update_eq_self]

theorem topUp (v : Acct c s) : Acct c (s.topUp c) := by
  unfold RxPage.topUp
  split
  · next p page =>
    split
    · next drained =>
      have full := c.bias_lt.1
      refine v.setBias page full.le le_rfl ?_
      omega
    · exact v
  · exact v

theorem drain (v : Acct c s) : Acct c s.drain ∧ s.drain.cur.page = none := by
  unfold RxPage.drain
  split
  · next p page =>
    refine ⟨v.next (other_setCur s _) le_rfl ?_ ?_ v.refsBelow fun q => ?_, ?_⟩
    · rw [cur_setCount, cur_setPage]
      exact nofun
    · rw [cur_setCount, cur_setPage]
      exact fun h => absurd rfl h
    · rw [cur_setCount, cur_setPage]
      change Function.update s.count p (s.count p - s.cur.pagecntBias) q + _ =
        s.count q + (0 + s.refsOn q)
      by_cases same : p = q
      · subst same
        have counted := v.count_cur page
        rw [Function.update_self, PageInfo.biasOn, if_pos page]
        omega
      · have differs : s.cur.page ≠ some q := by
          rw [page]
          exact fun h => same (Option.some.inj h)
        rw [Function.update_of_ne (Ne.symm same), PageInfo.biasOn, if_neg differs]
    · rw [cur_setCount, cur_setPage]
  · next hole => exact ⟨v, hole⟩

theorem allocPage (v : Acct c s) (hole : s.cur.page = none) {alloc : PageAlloc}
    (mapped : alloc ≠ .mapFail) : Acct c (s.allocPage c alloc) := by
  cases alloc with
  | mapFail => exact absurd rfl mapped
  | noMem =>
      have same : s.allocPage c .noMem = s := by
        rw [RxPage.allocPage, setPage, ← hole, setCur, cur, Function.update_eq_self]
      rwa [same]
  | ok =>
      have cur : (s.allocPage c .ok).cur = ⟨some s.fresh, c.defaultOffset, c.fullBias⟩ :=
        cur_setCur s ⟨some s.fresh, c.defaultOffset, c.fullBias⟩
      refine v.next (other_setCur s _) (Nat.le_succ _) ?_ ?_ (fun r h => (v.refsBelow r h).trans
        (Nat.lt_succ_self _)) fun q => ?_
      · rw [cur]
        rintro _ ⟨⟩
        exact ⟨Nat.lt_succ_self _, fun h => (v.otherBelow _ h).false⟩
      · rw [cur]
        exact fun _ => ⟨c.bias_lt.1.le, le_rfl⟩
      · rw [cur]
        change Function.update s.count s.fresh c.fullBias q + (_ + s.refsOn q) =
          s.count q + (_ + s.refsOn q)
        rw [PageInfo.biasOn, PageInfo.biasOn, hole, if_neg (by nofun)]
        by_cases same : s.fresh = q
        · rw [← same, Function.update_self, if_pos rfl, v.count_fresh, Nat.zero_add, Nat.zero_add]
        · rw [Function.update_of_ne (Ne.symm same),
            if_neg fun h => same (Option.some.inj h)]

end RxPage.Acct

/-- No octet of the reference lies where a buffer at `offset` would be written:
behind it on large pages, in the other half of a page of two halves; a page that
takes turns with another one has no references at all. -/
def PageCfg.Clear (c : PageCfg) (offset : Nat) (r : PageRef) : Prop :=
  if c.pageSize < 8192 then
    c.bufSize ≤ 2048 ∧ (r.start + r.len ≤ offset ∨ offset + 2048 ≤ r.start)
  else r.start + r.len ≤ offset

/-- Where buffers start on small pages: at one place, or at two for those of half a page. -/
def PageCfg.OffsetOk (c : PageCfg) (offset : Nat) : Prop :=
  c.pageSize < 8192 →
    offset = c.defaultOffset ∨ c.bufSize ≤ 2048 ∧ offset = c.defaultOffset ^^^ 2048

theorem PageCfg.offset_flip (c : PageCfg) {offset : Nat}
    (half : offset = c.defaultOffset ∨ offset = c.defaultOffset ^^^ 2048) :
    (offset ^^^ 2048 = c.defaultOffset ∨ offset ^^^ 2048 = c.defaultOffset ^^^ 2048) ∧
      (offset + 2048 ≤ offset ^^^ 2048 ∨ (offset ^^^ 2048) + 2048 ≤ offset) := by
  rcases c.headroom with h | h <;> rw [h] at half ⊢ <;> rcases half with rfl | rfl <;> decide

theorem PageCfg.default_fits (c : PageCfg) (large : 8192 ≤ c.pageSize) :
    c.defaultOffset ≤ c.pageSize - c.bufSize := by
  have headroom := c.headroom
  have buf := c.buf
  omega

theorem PageCfg.le_skbDataAlign (c : PageCfg) (x : Nat) : x ≤ c.skbDataAlign x := by
  have pos := c.cache
  have whole := Nat.div_add_mod (x + (c.cacheBytes - 1)) c.cacheBytes
  have rest := Nat.mod_lt (x + (c.cacheBytes - 1)) pos
  rw [skbDataAlign, Nat.mul_comm]
  omega

namespace RxPage

structure PageInv (c : PageCfg) (s : RxPage) : Prop where
  acct : Acct c s
  stocked : s.cur.page ≠ none → c.drainedBias < s.cur.pagecntBias
  clear : ∀ p, s.cur.page = some p → ∀ r ∈ s.refs, r.page = p → c.Clear s.cur.pageOffset r
  offset : c.OffsetOk s.cur.pageOffset
  posted : s.owner ≠ .driver → s.cur.page ≠ none
  inside : ∀ size, s.owner = .written size → size ≤ c.bufSize
  pair : c.twoPages = true → s.other.page ≠ none ∧ s.other.pageOffset = c.defaultOffset
  fits : 8192 ≤ c.pageSize → s.cur.page ≠ none → s.cur.pageOffset ≤ c.pageSize - c.bufSize

variable {c : PageCfg} {s : RxPage}

/-- What the tests for reuse say about the references of the stack. -/
theorem Acct.canReusePage (v : Acct c s) {reusable : Bool} {p : Nat} (page : s.cur.page = some p)
    (passed : s.canReusePage c reusable = true) :
    reusable = true ∧ (c.pageSize < 8192 → s.refsOn p ≤ c.reuseBias) ∧
      (8192 ≤ c.pageSize → s.cur.pageOffset ≤ c.pageSize - c.bufSize) := by
  have counted := v.count_cur page
  simp only [RxPage.canReusePage, page, Bool.and_eq_true] at passed
  obtain ⟨node, passed⟩ := passed
  refine ⟨node, fun small => ?_, fun large => ?_⟩
  · rw [if_pos small, decide_eq_true_eq] at passed
    omega
  · rw [if_neg (Nat.not_lt.mpr large), decide_eq_true_eq] at passed
    exact passed

/-- Topping up changes the bias alone, and leaves references in stock. -/
theorem topUp_cur (c : PageCfg) (s : RxPage) :
    (s.topUp c).cur.page = s.cur.page ∧ (s.topUp c).cur.pageOffset = s.cur.pageOffset ∧
      (s.topUp c).other = s.other ∧ (s.topUp c).refs = s.refs ∧
      (s.cur.page ≠ none → c.drainedBias ≤ s.cur.pagecntBias →
        c.drainedBias < (s.topUp c).cur.pagecntBias) := by
  unfold topUp
  split
  · split
    · rw [cur_setCount, cur_setBias]
      exact ⟨rfl, rfl, other_setCur s _, rfl, fun _ _ => c.bias_lt.1⟩
    · next stocked => exact ⟨rfl, rfl, rfl, rfl, fun _ low => lt_of_le_of_ne low (Ne.symm stocked)⟩
  · next hole => exact ⟨rfl, rfl, rfl, rfl, fun some => absurd hole some⟩

/-- A page just allocated has no references to keep clear of. -/
theorem PageInv.allocPage (v : Acct c s) (hole : s.cur.page = none)
    (offset : c.OffsetOk s.cur.pageOffset)
    (pair : c.twoPages = true → s.other.page ≠ none ∧ s.other.pageOffset = c.defaultOffset)
    {alloc : PageAlloc} (mapped : alloc ≠ .mapFail)
    {owner : BufOwner} (posted : owner ≠ .driver → alloc = .ok)
    (inside : ∀ size, owner = .written size → size ≤ c.bufSize) :
    PageInv c { s.allocPage c alloc with owner } := by
  have acct : Acct c { s.allocPage c alloc with owner } := by
    have w := v.allocPage hole mapped
    exact ⟨w.count, w.apart, w.curBelow, w.otherBelow, w.refsBelow, w.curBias, w.otherBias⟩
  cases alloc with
  | mapFail => exact absurd rfl mapped
  | noMem =>
      have cur : (s.allocPage c .noMem).cur = { s.cur with page := none } := cur_setPage s none
      have other : (s.allocPage c .noMem).other = s.other := other_setCur s _
      have hole : (s.allocPage c .noMem).cur.page = none := by rw [cur]
      refine ⟨acct, fun some => absurd hole some, fun p page => ?_, ?_, fun away => ?_, inside, ?_,
        fun _ some => absurd hole some⟩
      · exact nomatch hole.symm.trans page
      · change c.OffsetOk (s.allocPage c .noMem).cur.pageOffset
        rw [cur]
        exact offset
      · exact nomatch posted away
      · change c.twoPages = true → (s.allocPage c .noMem).other.page ≠ none ∧
          (s.allocPage c .noMem).other.pageOffset = _
        rw [other]
        exact pair
  | ok =>
      have cur : (s.allocPage c .ok).cur = ⟨some s.fresh, c.defaultOffset, c.fullBias⟩ :=
        cur_setCur s ⟨some s.fresh, c.defaultOffset, c.fullBias⟩
      have other : (s.allocPage c .ok).other = s.other :=
        other_setCur s ⟨some s.fresh, c.defaultOffset, c.fullBias⟩
      refine ⟨acct, fun _ => ?_, fun p page r member on => ?_, ?_, fun _ => ?_, inside, ?_,
        fun large _ => ?_⟩
      · change c.drainedBias < (s.allocPage c .ok).cur.pagecntBias
        rw [cur]
        exact c.bias_lt.1
      · change (s.allocPage c .ok).cur.page = some p at page
        rw [cur] at page
        exact absurd (on.trans (Option.some.inj page).symm) (v.refsBelow r member).ne
      · change c.OffsetOk (s.allocPage c .ok).cur.pageOffset
        rw [cur]
        exact fun _ => Or.inl rfl
      · change (s.allocPage c .ok).cur.page ≠ none
        rw [cur]
        exact nofun
      · change c.twoPages = true → (s.allocPage c .ok).other.page ≠ none ∧
          (s.allocPage c .ok).other.pageOffset = _
        rw [other]
        exact pair
      · change (s.allocPage c .ok).cur.pageOffset ≤ _
        rw [cur]
        exact c.default_fits large

/-- The decision to reuse a page or to replace it, where a page that passes the tests
is clear of the references on it. -/
theorem PageInv.recycleBuf (v : Acct c s) (offset : c.OffsetOk s.cur.pageOffset)
    (pair : c.twoPages = true → s.other.page ≠ none ∧ s.other.pageOffset = c.defaultOffset)
    {reusable : Bool} {alloc : PageAlloc}
    (clear : s.canReusePage c reusable = true → ∀ p, s.cur.page = some p → ∀ r ∈ s.refs,
      r.page = p → c.Clear s.cur.pageOffset r) (mapped : alloc ≠ .mapFail) :
    PageInv c { s.recycleBuf c reusable alloc with owner := .driver } := by
  unfold RxPage.recycleBuf
  split
  · next passed =>
    have w := v.topUp
    obtain ⟨page, same, other, refs, stocked⟩ := topUp_cur c s
    refine ⟨⟨w.count, w.apart, w.curBelow, w.otherBelow, w.refsBelow, w.curBias, w.otherBias⟩,
      fun some => ?_, fun p holds r member on => ?_, ?_, fun away => absurd rfl away, nofun, ?_,
      fun large some => ?_⟩
    · change (s.topUp c).cur.page ≠ none at some
      rw [page] at some
      exact stocked some (v.curBias some).1
    · change (s.topUp c).cur.page = _ at holds
      change r ∈ (s.topUp c).refs at member
      change c.Clear (s.topUp c).cur.pageOffset r
      rw [page] at holds
      rw [refs] at member
      rw [same]
      exact clear passed p holds r member on
    · change c.OffsetOk (s.topUp c).cur.pageOffset
      rw [same]
      exact offset
    · change c.twoPages = true → (s.topUp c).other.page ≠ none ∧ (s.topUp c).other.pageOffset = _
      rw [other]
      exact pair
    · change (s.topUp c).cur.page ≠ none at some
      change (s.topUp c).cur.pageOffset ≤ _
      rw [page] at some
      rw [same]
      obtain ⟨p, holds⟩ := Option.ne_none_iff_exists'.mp some
      exact (v.canReusePage holds passed).2.2 large
  · have kept : s.drain.cur.pageOffset = s.cur.pageOffset ∧ s.drain.other = s.other := by
      unfold RxPage.drain
      split
      · rw [cur_setCount, cur_setPage]
        exact ⟨rfl, other_setCur s _⟩
      · exact ⟨rfl, rfl⟩
    obtain ⟨acct, hole⟩ := v.drain
    refine PageInv.allocPage acct hole ?_ ?_ mapped (fun away => absurd rfl away) nofun
    · rw [kept.1]
      exact offset
    · rw [kept.2]
      exact pair

/-- `u` is `s` once the `len` octets from `off` on of the page at hand have been given away. -/
structure Gave (c : PageCfg) (s : RxPage) (p off len : Nat) (u : RxPage) : Prop where
  acct : Acct c u
  held : s.cur.page = some p
  page : u.cur.page = some p
  offset : u.cur.pageOffset = s.cur.pageOffset
  other : u.other = s.other
  refs : u.refs = ⟨p, off, len⟩ :: s.refs
  count : u.refsOn p = s.refsOn p + 1

theorem PageInv.gave (v : PageInv c s) {p : Nat} (page : s.cur.page = some p) (off len : Nat) :
    s.Gave c p off len (s.getBufPage.addRef off len) := by
  have some : s.cur.page ≠ none := by rw [page]; nofun
  have acct := v.acct.use page (v.stocked some) off len
  have lent : s.getBufPage.addRef off len = s.getBufPage.pushRef ⟨p, off, len⟩ :=
    addRef_some (by rw [getBufPage, cur_setBias, page]) ..
  rw [lent] at acct ⊢
  refine ⟨acct, page, ?_, ?_, other_setCur s _, rfl, ?_⟩
  · rw [cur_pushRef, getBufPage, cur_setBias]
    exact page
  · rw [cur_pushRef, getBufPage, cur_setBias]
  · rw [refsOn_pushRef, if_pos rfl]
    rfl

namespace Gave

variable {u : RxPage} {p off len : Nat} {reusable : Bool} {alloc : PageAlloc}

/-- With a buffer on each of two pages the other page comes next, at the start. -/
theorem twoPages (g : s.Gave c p off len u) (v : PageInv c s) (small : c.pageSize < 8192)
    (wide : c.bufSize > 2048) (mapped : alloc ≠ .mapFail) :
    PageInv c { (u.bufAdjustPg c (c.truesize len)).recycleBuf c reusable alloc with
      owner := .driver } := by
  have moved : u.bufAdjustPg c (c.truesize len) = { u with indx := !u.indx } := by
    rw [bufAdjustPg, if_pos small, if_pos wide]
  have twoPages : c.twoPages = true := by
    rw [PageCfg.twoPages, decide_eq_true_eq]
    exact ⟨small, wide⟩
  rw [moved]
  refine PageInv.recycleBuf g.acct.flip (fun _ => Or.inl ?_) (fun _ => ?_)
    (fun passed q holds r member on => ?_) mapped
  · exact (congrArg PageInfo.pageOffset g.other).trans (v.pair twoPages).2
  · change (u.info (!!u.indx)).page ≠ none ∧ (u.info (!!u.indx)).pageOffset = _
    rw [Bool.not_not]
    change u.cur.page ≠ none ∧ u.cur.pageOffset = _
    rw [g.page, g.offset]
    exact ⟨nofun, (v.offset small).resolve_right fun h => absurd wide (Nat.not_lt.mpr h.1)⟩
  · have idle := (g.acct.flip.canReusePage holds passed).2.1 small
    rw [PageCfg.reuseBias, if_neg (fun h => absurd wide (Nat.not_lt.mpr h.2))] at idle
    have none := List.countP_eq_zero.mp (Nat.le_zero.mp idle) r member
    rw [decide_eq_true_eq] at none
    exact absurd on none

/-- With two buffers on one page the other half comes next. It is reused only if the reference that
has just been given away is the one left on the page. -/
theorem halves (g : s.Gave c p off len u) (v : PageInv c s) (small : c.pageSize < 8192)
    (narrow : c.bufSize = 2048) (low : s.cur.pageOffset ≤ off)
    (high : off + len ≤ s.cur.pageOffset + 2048) (mapped : alloc ≠ .mapFail) :
    PageInv c { (u.bufAdjustPg c (c.truesize len)).recycleBuf c reusable alloc with
      owner := .driver } := by
  have wide : ¬ c.bufSize > 2048 := by omega
  have moved : u.bufAdjustPg c (c.truesize len) = u.setOffset (s.cur.pageOffset ^^^ 2048) := by
    rw [bufAdjustPg, if_pos small, if_neg wide, PageCfg.truesize, if_neg (by omega), narrow,
      g.offset]
  obtain ⟨half, apart⟩ := c.offset_flip ((v.offset small).imp_right And.right)
  rw [moved]
  refine PageInv.recycleBuf (g.acct.setOffset _) ?_ (fun two => ?_)
    (fun passed q holds r member on => ?_) mapped
  · rw [cur_setOffset]
    exact fun _ => half.imp_right fun second => ⟨narrow.le, second⟩
  · rw [PageCfg.twoPages, decide_eq_true_eq] at two
    exact absurd two.2 wide
  · have idle := ((g.acct.setOffset _).canReusePage holds passed).2.1 small
    rw [cur_setOffset] at holds ⊢
    have same := Option.some.inj (g.page.symm.trans holds)
    subst same
    rw [PageCfg.reuseBias, if_pos ⟨small, by omega⟩] at idle
    change u.refsOn p ≤ 1 at idle
    change r ∈ u.refs at member
    have none : s.refsOn p = 0 := by
      have more := g.count
      omega
    rw [g.refs] at member
    change c.Clear (s.cur.pageOffset ^^^ 2048) r
    rw [PageCfg.Clear, if_pos small]
    rcases List.mem_cons.mp member with rfl | old
    · refine ⟨by omega, ?_⟩
      dsimp only
      omega
    · have gone := List.countP_eq_zero.mp none r old
      rw [decide_eq_true_eq] at gone
      exact absurd on gone

/-- On a large page the next buffer starts behind the frag, unless the page is given up. -/
theorem large (g : s.Gave c p off len u) (v : PageInv c s) (large : 8192 ≤ c.pageSize)
    (behind : off + len ≤ s.cur.pageOffset + c.skbDataAlign len ∨
      c.pageSize - c.bufSize < s.cur.pageOffset + c.skbDataAlign len ∨ reusable = false)
    (mapped : alloc ≠ .mapFail) :
    PageInv c { (u.bufAdjustPg c (c.truesize len)).recycleBuf c reusable alloc with
      owner := .driver } := by
  have small : ¬ c.pageSize < 8192 := Nat.not_lt.mpr large
  have moved : u.bufAdjustPg c (c.truesize len) =
      u.setOffset (s.cur.pageOffset + c.skbDataAlign len) := by
    rw [bufAdjustPg, if_neg small, PageCfg.truesize, if_pos large, g.offset]
  rw [moved]
  refine PageInv.recycleBuf (g.acct.setOffset _) (fun h => absurd h small) (fun two => ?_)
    (fun passed q holds r member on => ?_) mapped
  · rw [PageCfg.twoPages, decide_eq_true_eq] at two
    exact absurd two.1 small
  · obtain ⟨node, -, fits⟩ := (g.acct.setOffset _).canReusePage holds passed
    have fits := fits large
    rw [cur_setOffset] at holds fits ⊢
    change s.cur.pageOffset + c.skbDataAlign len ≤ _ at fits
    have same := Option.some.inj (g.page.symm.trans holds)
    subst same
    change r ∈ u.refs at member
    change c.Clear (s.cur.pageOffset + c.skbDataAlign len) r
    rw [PageCfg.Clear, if_neg small]
    rw [g.refs] at member
    rcases List.mem_cons.mp member with rfl | old
    · rcases behind with covers | last | remote
      · exact covers
      · omega
      · exact nomatch node.symm.trans remote
    · have clear := v.clear p g.held r old on
      rw [PageCfg.Clear, if_neg small] at clear
      omega

end Gave

/-- A frag of `len` octets that starts `headlen` octets into the buffer. On a large
page the next buffer starts behind it, unless the page is given up. -/
theorem PageInv.frag (v : PageInv c s) {p : Nat} (page : s.cur.page = some p) {headlen len : Nat}
    (inside : headlen + len ≤ c.bufSize) {reusable : Bool} {alloc : PageAlloc}
    (behind : 8192 ≤ c.pageSize → headlen + len ≤ c.skbDataAlign len ∨
      c.pageSize - c.bufSize < s.cur.pageOffset + c.skbDataAlign len ∨ reusable = false)
    (mapped : alloc ≠ .mapFail) :
    PageInv c { (s.getBufPage.frag c headlen len).recycleBuf c reusable alloc with
      owner := .driver } := by
  have start : s.getBufPage.cur.pageOffset = s.cur.pageOffset := by rw [getBufPage, cur_setBias]
  have gave := v.gave page (s.cur.pageOffset + headlen) len
  rw [RxPage.frag, start]
  by_cases small : c.pageSize < 8192
  · by_cases wide : c.bufSize > 2048
    · exact gave.twoPages v small wide mapped
    · have narrow : c.bufSize = 2048 := by
        rcases c.buf with h | h
        · exact h
        · omega
      exact gave.halves v small narrow (by omega) (by omega) mapped
  · have large : 8192 ≤ c.pageSize := Nat.not_lt.mp small
    refine gave.large v large ?_ mapped
    rcases behind large with covers | rest
    · exact Or.inl (by omega)
    · exact Or.inr rest

theorem getBufPage_putBufPage {s : RxPage} (small : s.cur.pagecntBias ≤ 65535) :
    s.getBufPage.putBufPage = s := by
  have back : ((s.cur.pagecntBias + 65535) % 65536 + 1) % 65536 = s.cur.pagecntBias := by omega
  rw [putBufPage, getBufPage, cur_setBias]
  dsimp only
  rw [back, setBias_setBias, setBias_cur]

/-- The header of a packet too large to be copied ends the frag where the next buffer
starts, the page is given up, or there is no such frag. -/
def constructOk (c : PageCfg) (s : RxPage) (size headlen : Nat) (reusable : Bool) : Bool :=
  let room := c.skbDataAlign (size - min headlen rxHdrSize)
  decide (c.pageSize < 8192 ∨ size ≤ rxHdrSize ∨ size ≤ room ∨
    c.pageSize - c.bufSize < s.cur.pageOffset + room) || !reusable

/-- The buffer of a completion, recycled. -/
theorem PageInv.useBuf (v : PageInv c s) {size : Nat} (owner : s.owner = .written size)
    {use : PageUse} {reusable : Bool} {alloc : PageAlloc}
    (fits : ∀ headlen, use = .construct headlen → constructOk c s size headlen reusable = true)
    (mapped : alloc ≠ .mapFail) :
    PageInv c { (s.useBuf c size use).recycleBuf c reusable alloc with owner := .driver } := by
  have inside := v.inside size owner
  have some : s.cur.page ≠ none := v.posted (by rw [owner]; nofun)
  obtain ⟨p, page⟩ := Option.ne_none_iff_exists'.mp some
  have back := getBufPage_putBufPage ((v.acct.curBias some).2.trans c.bias_lt.2)
  have asIs : PageInv c { s.getBufPage.putBufPage.recycleBuf c reusable alloc with
      owner := .driver } := by
    rw [back]
    exact .recycleBuf v.acct v.offset v.pair (fun _ => v.clear) mapped
  have whole : PageInv c { (s.getBufPage.frag c 0 size).recycleBuf c reusable alloc with
      owner := .driver } :=
    v.frag page (by omega) (fun _ => Or.inl (by
      have := c.le_skbDataAlign size
      omega)) mapped
  cases use with
  | addFrag => exact whole
  | xdpTaken => exact whole
  | noSkb => exact asIs
  | xdpConsumed => exact asIs
  | construct headlen =>
      have fits := fits headlen rfl
      rw [RxPage.useBuf, constructSkb]
      generalize length : (if size > rxHdrSize then min headlen rxHdrSize else size) = h
      dsimp only
      split
      · exact asIs
      · next rest =>
        have long : size > rxHdrSize := by
          by_contra short
          rw [if_neg short] at length
          omega
        rw [if_pos long] at length
        rw [constructOk, length] at fits
        simp only [Bool.or_eq_true, decide_eq_true_eq, Bool.not_eq_true'] at fits
        refine v.frag page (by omega) (fun large => ?_) mapped
        rcases fits with (small | short | covers | last) | remote
        · exact absurd large (Nat.not_le.mpr small)
        · exact absurd long (Nat.not_lt.mpr short)
        · exact Or.inl (by omega)
        · exact Or.inr (Or.inl last)
        · exact Or.inr (Or.inr remote)

end RxPage

/-- Steps in which no DMA mapping fails and no frag reaches into the next buffer. -/
def pageOk (c : PageCfg) (s : RxPage) : PageOp → Bool
  | .post alloc => alloc != .mapFail
  | .clean use reusable alloc =>
    alloc != .mapFail &&
      match s.owner, use with
      | .written size, .construct headlen => s.constructOk c size headlen reusable
      | _, _ => true
  | _ => true

namespace RxPage.PageInv

variable {c : PageCfg} {s s' : RxPage}

theorem start (c : PageCfg) : PageInv c c.init := by
  have empty : Acct c ⟨fun _ => ⟨none, 0, 0⟩, false, .driver, fun _ => 0, 0, []⟩ :=
    ⟨fun _ => rfl, nofun, nofun, nofun, nofun, fun h => absurd rfl h, fun h => absurd rfl h⟩
  have one := @Acct.allocPage _ _ empty rfl .ok nofun
  have fresh := c.default_fits
  by_cases two : c.twoPages = true
  · have acct := (@Acct.allocPage _ _ one.flip rfl .ok nofun).flip
    rw [PageCfg.init]
    dsimp only
    rw [if_pos two]
    exact ⟨acct, fun _ => c.bias_lt.1, fun _ _ => nofun, fun _ => Or.inl rfl,
      fun away => absurd rfl away, nofun, fun _ => ⟨nofun, rfl⟩, fun large _ => fresh large⟩
  · rw [PageCfg.init]
    dsimp only
    rw [if_neg two]
    exact ⟨one, fun _ => c.bias_lt.1, fun _ _ => nofun, fun _ => Or.inl rfl,
      fun away => absurd rfl away, nofun, fun h => absurd h two, fun large _ => fresh large⟩

theorem setOwner (v : PageInv c s) {owner : BufOwner} (posted : s.cur.page ≠ none)
    (inside : ∀ size, owner = .written size → size ≤ c.bufSize) : PageInv c { s with owner } :=
  ⟨⟨v.acct.count, v.acct.apart, v.acct.curBelow, v.acct.otherBelow, v.acct.refsBelow,
    v.acct.curBias, v.acct.otherBias⟩, v.stocked, v.clear, v.offset, fun _ => posted, inside,
    v.pair, v.fits⟩

theorem updateBufqDesc (v : PageInv c s) (idle : s.owner = .driver) {alloc : PageAlloc}
    (mapped : alloc ≠ .mapFail) : PageInv c (s.updateBufqDesc c alloc) := by
  unfold RxPage.updateBufqDesc
  split
  · next some => exact v.setOwner (Option.isSome_iff_ne_none.mp some) nofun
  · next hole =>
    have hole : s.cur.page = none := by simpa using hole
    dsimp only
    split
    · next filled => exact .allocPage v.acct hole v.offset v.pair mapped (fun _ => filled) nofun
    · have still : s.allocPage c alloc = { s.allocPage c alloc with owner := .driver } := by
        rw [← idle]
        cases alloc <;> rfl
      rw [still]
      exact .allocPage v.acct hole v.offset v.pair mapped (fun away => absurd rfl away) nofun

theorem clean (v : PageInv c s) {size : Nat} (owner : s.owner = .written size) {use : PageUse}
    {reusable : Bool} {alloc : PageAlloc}
    (fits : ∀ headlen, use = .construct headlen → constructOk c s size headlen reusable = true)
    (mapped : alloc ≠ .mapFail) : PageInv c (s.clean c size use reusable alloc) := by
  have some : s.cur.page ≠ none := v.posted (by rw [owner]; nofun)
  unfold RxPage.clean
  dsimp only
  split
  · next no =>
    rw [no]
    split
    · exact v
    · change PageInv c s.getBufPage.putBufPage
      rwa [getBufPage_putBufPage ((v.acct.curBias some).2.trans c.bias_lt.2)]
  · split
    · exact v.setOwner some nofun
    · exact v.useBuf owner fits mapped

theorem getRef (v : PageInv c s) {r : PageRef} (member : r ∈ s.refs) {skip len : Nat}
    (part : skip + len ≤ r.len) : PageInv c (s.getRef r skip len) := by
  refine ⟨v.acct.pushRef (r := ⟨r.page, r.start + skip, len⟩) (v.acct.refsBelow r member),
    v.stocked, fun p page r' h on => ?_, v.offset, v.posted, v.inside, v.pair, v.fits⟩
  rcases List.mem_cons.mp h with rfl | h
  · have clear := v.clear p page r member on
    change c.Clear s.cur.pageOffset _
    rw [PageCfg.Clear] at clear ⊢
    by_cases small : c.pageSize < 8192
    · rw [if_pos small] at clear ⊢
      dsimp only
      omega
    · rw [if_neg small] at clear ⊢
      dsimp only
      omega
  · exact v.clear p page r' h on

theorem step (v : PageInv c s) {op : PageOp} (ok : pageOk c s op = true)
    (taken : s.step c op = some s') : PageInv c s' := by
  cases op with
  | post alloc =>
      simp only [RxPage.step, Option.ite_none_right_eq_some, Option.some.injEq] at taken
      obtain ⟨idle, rfl⟩ := taken
      exact v.updateBufqDesc idle (by simpa only [pageOk, bne_iff_ne] using ok)
  | write size =>
      simp only [RxPage.step, Option.ite_none_right_eq_some, Option.some.injEq] at taken
      obtain ⟨⟨owner, fits⟩, rfl⟩ := taken
      refine v.setOwner (v.posted (by rw [owner]; nofun)) fun size' eq => ?_
      rwa [← BufOwner.written.inj eq]
  | clean use reusable alloc =>
      simp only [RxPage.step] at taken
      split at taken
      · next size owner =>
        obtain rfl := Option.some.inj taken
        simp only [pageOk, Bool.and_eq_true, bne_iff_ne] at ok
        refine v.clean owner (fun headlen use => ?_) ok.1
        have fits := ok.2
        rwa [owner, use] at fits
      · exact nomatch taken
  | put r =>
      simp only [RxPage.step, Option.ite_none_right_eq_some, Option.some.injEq] at taken
      obtain ⟨member, rfl⟩ := taken
      exact ⟨v.acct.putRef member, v.stocked,
        fun p page r' h => v.clear p page r' (List.mem_of_mem_erase h), v.offset, v.posted, v.inside,
        v.pair, v.fits⟩
  | get r skip len =>
      simp only [RxPage.step, Option.ite_none_right_eq_some, Option.some.injEq] at taken
      obtain ⟨⟨member, part⟩, rfl⟩ := taken
      exact v.getRef member part

end RxPage.PageInv

def PageRef.Overlaps (r : PageRef) (page offset size : Nat) : Prop :=
  r.page = page ∧ r.start < offset + size ∧ offset < r.start + r.len

/-- What recycling promises: counts that are accounted for, and while the device has the
buffer a bias of at least one, a buffer within its page and no reference to it. -/
structure PageSafe (c : PageCfg) (s : RxPage) : Prop where
  count : ∀ i p, (s.info i).page = some p → s.count p = (s.info i).pagecntBias + s.refsOn p
  left : ∀ p, (∀ i, (s.info i).page ≠ some p) → s.count p = s.refsOn p
  bias : s.owner = .device → 1 ≤ s.cur.pagecntBias
  inside : s.owner = .device → s.cur.pageOffset + c.bufSize ≤ c.pageSize
  apart : s.owner = .device → ∃ p, s.cur.page = some p ∧
    ∀ r ∈ s.refs, ¬ r.Overlaps p s.cur.pageOffset c.bufSize

/-- On pages with room for the headroom, in every run in which no DMA mapping fails and
no frag built by `idpf_rx_construct_skb` reaches into the next buffer of its page, recycling
is safe after every step. -/
theorem rx_page_never_aliases {c : PageCfg} {s : RxPage}
    (room : c.defaultOffset = 0 ∨ 8192 ≤ c.pageSize)
    (run : Reachable (RxPage.step c) (fun s op => pageOk c s op = true) (fun s => s = c.init) s) :
    PageSafe c s := by
  have v : RxPage.PageInv c s := run.invariant
    (fun s (start : s = c.init) => start ▸ RxPage.PageInv.start c)
    (fun _ _ _ v ok taken => v.step ok taken)
  have either : ∀ i, s.info i = s.cur ∨ s.info i = s.other := by
    intro i
    rcases Bool.eq_or_eq_not i s.indx with rfl | rfl
    · exact Or.inl rfl
    · exact Or.inr rfl
  refine ⟨fun i p page => ?_, fun p gone => ?_, fun away => ?_, fun away => ?_, fun away => ?_⟩
  · rcases either i with h | h
    · rw [h] at page ⊢
      exact v.acct.count_cur page
    · rw [h] at page ⊢
      have differs : s.cur.page ≠ some p := fun same => v.acct.apart p same page
      rw [v.acct.count, RxPage.held, PageInfo.biasOn, PageInfo.biasOn, if_neg differs, if_pos page,
        Nat.zero_add]
  · have here : s.cur.page ≠ some p := gone s.indx
    have there : s.other.page ≠ some p := gone (!s.indx)
    rw [v.acct.count, RxPage.held, PageInfo.biasOn, PageInfo.biasOn, if_neg here, if_neg there,
      Nat.zero_add]
  · have stocked := v.stocked (v.posted (by rw [away]; nofun))
    omega
  · have buf := c.buf
    have size := c.page
    by_cases small : c.pageSize < 8192
    · have zero := room.resolve_right (Nat.not_le.mpr small)
      rcases v.offset small with first | ⟨narrow, second⟩
      · omega
      · rw [zero] at second
        have half : s.cur.pageOffset = 2048 := second.trans (by decide)
        omega
    · have fits := v.fits (Nat.not_lt.mp small) (v.posted (by rw [away]; nofun))
      omega
  · obtain ⟨p, page⟩ := Option.ne_none_iff_exists'.mp (v.posted (by rw [away]; nofun))
    refine ⟨p, page, fun r member covers => ?_⟩
    obtain ⟨on, before, behind⟩ := covers
    have clear := v.clear p page r member on
    have buf := c.buf
    rw [PageCfg.Clear] at clear
    split at clear <;> omega

/-- Buffers of 2K on pages of `pageSize`. -/
def narrowPages (pageSize : Nat) (page : pageSize = 4096 ∨ 8192 ≤ pageSize) : PageCfg :=
  ⟨pageSize, 2048, 0, 64, true, page, by decide, by decide, by decide⟩

/-- Buffers of 4K behind the headroom of an XDP program, on pages of 4K. -/
def xdpPages : PageCfg :=
  ⟨4096, 4096, 256, 64, true, by decide, by decide, by decide, by decide⟩

/-- On a large page a frame of 1500 octets with a header of 54 is followed by a buffer
that starts at octet 1472 of the page; a buffer whose new page cannot be mapped is
posted with a page that has no reference left; and with an XDP program the first buffer
posted already runs 256 octets over the end of its page. -/
theorem rx_page_aliased :
    let large := narrowPages 65536 (by decide)
    let small := narrowPages 4096 (by decide)
    (∃ s, exec (RxPage.step large) large.init
        [.post .ok, .write 1500, .clean (.construct 54) true .ok, .post .ok] = some s ∧
      s.owner = .device ∧ (⟨0, 54, 1446⟩ : PageRef) ∈ s.refs ∧
      PageRef.Overlaps ⟨0, 54, 1446⟩ 0 s.cur.pageOffset large.bufSize ∧ ¬ PageSafe large s) ∧
    (∃ s, exec (RxPage.step small) small.init
        [.post .ok, .write 60, .clean (.construct 14) false .mapFail, .post .ok] = some s ∧
      s.owner = .device ∧ s.cur.page = some 1 ∧ s.count 1 = 0 ∧ ¬ PageSafe small s) ∧
    ∃ s, exec (RxPage.step xdpPages) xdpPages.init [.post .ok] = some s ∧ s.owner = .device ∧
      s.cur.pageOffset + xdpPages.bufSize = 4352 ∧ ¬ PageSafe xdpPages s := by
  intro large small
  refine ⟨?_, ?_, ?_⟩
  · have seen : (exec (RxPage.step large) large.init
        [.post .ok, .write 1500, .clean (.construct 54) true .ok, .post .ok]).map
        (fun s => (s.owner, s.cur.page, s.cur.pageOffset, s.refs)) =
        some (.device, some 0, 1472, [⟨0, 54, 1446⟩]) := by decide +kernel
    obtain ⟨s, reached, eq⟩ := Option.map_eq_some_iff.mp seen
    simp only [Prod.mk.injEq] at eq
    obtain ⟨owner, page, offset, refs⟩ := eq
    have member : (⟨0, 54, 1446⟩ : PageRef) ∈ s.refs := by
      rw [refs]
      exact List.mem_cons_self
    have overlap : PageRef.Overlaps ⟨0, 54, 1446⟩ 0 s.cur.pageOffset large.bufSize := by
      rw [offset]
      exact ⟨rfl, by decide, by decide⟩
    refine ⟨s, reached, owner, member, overlap, fun safe => ?_⟩
    obtain ⟨p, holds, apart⟩ := safe.apart owner
    rw [page] at holds
    rw [← Option.some.inj holds] at apart
    exact apart _ member overlap
  · have seen : (exec (RxPage.step small) small.init
        [.post .ok, .write 60, .clean (.construct 14) false .mapFail, .post .ok]).map
        (fun s => (s.owner, s.cur.page, s.count 1, s.cur.pagecntBias)) =
        some (.device, some 1, 0, 65535) := by decide +kernel
    obtain ⟨s, reached, eq⟩ := Option.map_eq_some_iff.mp seen
    simp only [Prod.mk.injEq] at eq
    obtain ⟨owner, page, count, bias⟩ := eq
    refine ⟨s, reached, owner, page, count, fun safe => ?_⟩
    have counted := safe.count s.indx 1 page
    change s.count 1 = s.cur.pagecntBias + s.refsOn 1 at counted
    rw [count, bias] at counted
    omega
  · have seen : (exec (RxPage.step xdpPages) xdpPages.init [.post .ok]).map
        (fun s => (s.owner, s.cur.pageOffset)) = some (.device, 256) := by decide +kernel
    obtain ⟨s, reached, eq⟩ := Option.map_eq_some_iff.mp seen
    obtain ⟨owner, offset⟩ := Prod.mk.inj eq
    refine ⟨s, reached, owner, by rw [offset]; rfl, fun safe => ?_⟩
    have inside := safe.inside owner
    rw [offset] at inside
    exact absurd inside (by decide)

/-- Two frames fill both halves of a page, the stack drops the first, and the page
goes on with its first half. -/
theorem rx_page_never_aliases_halves :
    let small := narrowPages 4096 (by decide)
    ∃ s, execIf (RxPage.step small) (pageOk small) small.init
        [.post .ok, .write 1500, .clean (.construct 54) true .ok, .put ⟨0, 54, 1446⟩, .post .ok,
          .write 2048, .clean .addFrag true .ok, .post .ok] = some s ∧
      s.cur = ⟨some 0, 0, 65533⟩ ∧ s.refs = [⟨0, 2048, 2048⟩] ∧ PageSafe small s := by
  intro small
  have seen : (execIf (RxPage.step small) (pageOk small) small.init
      [.post .ok, .write 1500, .clean (.construct 54) true .ok, .put ⟨0, 54, 1446⟩, .post .ok,
        .write 2048, .clean .addFrag true .ok, .post .ok]).map (fun s => (s.cur, s.refs)) =
      some (⟨some 0, 0, 65533⟩, [⟨0, 2048, 2048⟩]) := by decide +kernel
  obtain ⟨s, reached, eq⟩ := Option.map_eq_some_iff.mp seen
  simp only [Prod.mk.injEq] at eq
  exact ⟨s, reached, eq.1, eq.2, rx_page_never_aliases (.inl rfl) (Reachable.execIf (.start rfl) reached)⟩

end Idpf
