import Idpf.Rx.Page

/-! The pages of a whole buffer queue, from its first fill to its release, where any page may be
refused and any mapping may fail. -/
namespace Idpf
open General

/-- What is done to a page: it is mapped, a descriptor with its address is posted, it is unmapped,
and the driver's references to it are given up. -/
inductive PageEvent where
  | map | post | unmap | free
  deriving DecidableEq, Repr

inductive PageLife where
  | taken | mapped | unmapped | freed
  deriving DecidableEq, Repr

def PageLife.next : PageLife → PageEvent → Option PageLife
  | .taken, .map => some .mapped
  | .taken, .free => some .freed
  | .mapped, .post => some .mapped
  | .mapped, .unmap => some .unmapped
  | .unmapped, .free => some .freed
  | _, _ => none

/-- A buffer with the lives of its pages: `none` once a page has been used out of turn. Pages are
numbered buffer by buffer, for none ever moves from one buffer to another. -/
structure RxSlot extends RxPage where
  life : Nat → Option PageLife

namespace RxSlot

def see (s : RxSlot) (e : PageEvent) (p : Nat) : RxSlot :=
  { s with life := Function.update s.life p ((s.life p).bind (·.next e)) }

/-- `idpf_alloc_page`. -/
def allocPage (c : PageCfg) (s : RxSlot) (alloc : PageAlloc) : RxSlot :=
  let t : RxSlot := { s with toRxPage := s.toRxPage.allocPage c alloc }
  match alloc with
  | .noMem => t
  | .mapFail => t.see .free s.fresh
  | .ok => t.see .map s.fresh

def dropPage (s : RxSlot) : RxSlot :=
  match s.cur.page with
  | some p => (({ s with toRxPage := s.drain } : RxSlot).see .unmap p).see .free p
  | none => s

/-- `idpf_rx_splitq_recycle_buf`. -/
def recycleBuf (c : PageCfg) (s : RxSlot) (reusable : Bool) (alloc : PageAlloc) : RxSlot :=
  if s.canReusePage c reusable then { s with toRxPage := s.topUp c }
  else s.dropPage.allocPage c alloc

/-- A turn of `idpf_rx_splitq_clean`. -/
def clean (c : PageCfg) (s : RxSlot) (size : Nat) (use : PageUse) (reusable : Bool)
    (alloc : PageAlloc) : RxSlot :=
  let used : RxSlot := if size = 0 then s else { s with toRxPage := s.useBuf c size use }
  if use = .noSkb then used
  else { (if size = 0 then used else used.recycleBuf c reusable alloc) with owner := .driver }

def postDesc (s : RxSlot) : RxSlot :=
  match s.cur.page with
  | some p => { s.see .post p with owner := .device }
  | none => { s with owner := .device }

/-- `idpf_rx_update_bufq_desc`. -/
def updateBufqDesc (c : PageCfg) (s : RxSlot) (alloc : PageAlloc) : RxSlot :=
  if s.cur.page.isSome then s.postDesc
  else if alloc = .ok then (s.allocPage c alloc).postDesc
  else s.allocPage c alloc

/-- `idpf_rx_page_rel(q, &rx_buf->page_info[k])`. -/
def pageRel (s : RxSlot) (k : Bool) : RxSlot :=
  let t : RxSlot := { s with indx := k }
  if t.cur.page.isSome then
    let t := t.dropPage
    { t with toRxPage := { t.setOffset 0 with indx := s.indx } }
  else s

/-- `idpf_rx_buf_rel`. A buffer that has not got its `buf_size` yet has no second page. -/
def bufRel (c : PageCfg) (s : RxSlot) : RxSlot :=
  let t := s.pageRel false
  if c.twoPages then t.pageRel true else t

def calloc (s : RxSlot) : RxSlot :=
  { s with info := fun _ => ⟨none, 0, 0⟩, indx := false, owner := .driver }

/-- The pages one turn of `idpf_rx_buf_alloc_all` takes, and whether the loop goes on. -/
def allocBuf (c : PageCfg) (s : RxSlot) (allocs : Bool → PageAlloc) : RxSlot × Bool :=
  let t := s.allocPage c (allocs false)
  if allocs false ≠ .ok then (t, false)
  else if c.twoPages then
    ({ ({ t with indx := true } : RxSlot).allocPage c (allocs true) with indx := false },
      allocs true == .ok)
  else (t, true)

/-- One step of a buffer, as `RxPage.step` has it. -/
def step (c : PageCfg) (s : RxSlot) : PageOp → Option RxSlot
  | .post alloc => if s.owner = .driver then some (s.updateBufqDesc c alloc) else none
  | .write size =>
    if s.owner = .device ∧ size ≤ c.bufSize then some { s with owner := .written size } else none
  | .clean use reusable alloc =>
    match s.owner with
    | .written size => some (s.clean c size use reusable alloc)
    | _ => none
  | .put r => if r ∈ s.refs then some { s with toRxPage := s.putRef r } else none
  | .get r skip len =>
    if r ∈ s.refs ∧ skip + len ≤ r.len then some { s with toRxPage := s.getRef r skip len }
    else none

end RxSlot

/-- A queue without buffers, one whose first fill has failed, and one in use. -/
inductive RxPageqPhase where
  | released | failed | posted
  deriving DecidableEq, Repr

structure RxPageqCfg extends PageCfg where
  descCount : Nat

structure RxPageq where
  bufs : Nat → RxSlot
  phase : RxPageqPhase

/-- The first fill, with the outcome of each `idpf_alloc_page`; a step of one buffer; the release.
-/
inductive RxPageqOp where
  | fill (allocs : Nat → Bool → PageAlloc)
  | buf (i : Nat) (op : PageOp)
  | release

namespace RxPageq

/-- The loop of `idpf_rx_buf_alloc_all` over `k` more buffers, from `i` on. -/
def allocAll (c : PageCfg) (allocs : Nat → Bool → PageAlloc) :
    Nat → Nat → (Nat → RxSlot) → (Nat → RxSlot) × Bool
  | 0, _, bufs => (bufs, true)
  | k + 1, i, bufs =>
    let slot := (bufs i).allocBuf c (allocs i)
    let bufs := Function.update bufs i slot.1
    if slot.2 then allocAll c allocs k (i + 1) bufs else (bufs, false)

/-- `idpf_rx_post_init_bufs`. -/
def postInitBufs (workingSet : Nat) (bufs : Nat → RxSlot) (i : Nat) : RxSlot :=
  if i < workingSet then (bufs i).postDesc else bufs i

/-- `idpf_rx_bufs_init`. -/
def bufsInit (c : RxPageqCfg) (s : RxPageq) (allocs : Nat → Bool → PageAlloc) : RxPageq :=
  let all := allocAll c.toPageCfg allocs (c.descCount - 1) 0 fun i => (s.bufs i).calloc
  if all.2 then ⟨postInitBufs (c.descCount - 1) all.1, .posted⟩ else ⟨all.1, .failed⟩

/-- `idpf_rx_buf_rel_all`, once the device has stopped. -/
def bufRelAll (c : RxPageqCfg) (s : RxPageq) : RxPageq :=
  ⟨fun i =>
    if i < c.descCount then { (s.bufs i).bufRel c.toPageCfg with owner := .driver } else s.bufs i,
    .released⟩

/-- The step `op` of buffer `i` may be taken: the stack goes on with its references in any case. -/
def takes (c : RxPageqCfg) (s : RxPageq) (i : Nat) : PageOp → Bool
  | .put _ | .get .. => true
  | _ => decide (s.phase = .posted ∧ i < c.descCount - 1)

def step (c : RxPageqCfg) (s : RxPageq) : RxPageqOp → Option RxPageq
  | .fill allocs => if s.phase = .released then some (s.bufsInit c allocs) else none
  | .buf i op =>
    if s.takes c i op then
      ((s.bufs i).step c.toPageCfg op).map fun b => { s with bufs := Function.update s.bufs i b }
    else none
  | .release => if s.phase = .released then none else some (s.bufRelAll c)

end RxPageq

def rxPageqInit : RxPageq :=
  ⟨fun _ => ⟨⟨fun _ => ⟨none, 0, 0⟩, false, .driver, fun _ => 0, 0, []⟩, fun _ => some .taken⟩,
    .released⟩

/-- No page has been used out of turn, and a buffer that points to a page has it mapped and with
references left. -/
structure PagesOwned (s : RxPageq) : Prop where
  inTurn : ∀ i p, (s.bufs i).life p ≠ none
  owned : ∀ i k p, ((s.bufs i).info k).page = some p →
    (s.bufs i).life p = some .mapped ∧ 0 < (s.bufs i).count p

/-- Steps in which no mapping fails and, where the driver may be left with no reference to a page
put aside, the stack does not drop the last one. -/
def rxPageqOk (c : RxPageqCfg) (s : RxPageq) : RxPageqOp → Bool
  | .fill allocs =>
    (List.range (c.descCount - 1)).all fun i =>
      allocs i false != .mapFail && allocs i true != .mapFail
  | .buf _ (.post alloc) => alloc != .mapFail
  | .buf _ (.clean _ _ alloc) => alloc != .mapFail
  | .buf i (.put r) =>
    c.bulk || !c.twoPages || [false, true].all fun k =>
      ((s.bufs i).info k).page != some r.page || decide (1 < (s.bufs i).count r.page)
  | _ => true

namespace RxPage

variable {c : PageCfg} {s : RxPage}

theorem info_cases (s : RxPage) (k : Bool) : s.info k = s.cur ∨ s.info k = s.other := by
  rcases Bool.eq_or_eq_not k s.indx with rfl | rfl
  · exact Or.inl rfl
  · exact Or.inr rfl

theorem Acct.setOwner (v : Acct c s) (owner : BufOwner) : Acct c { s with owner } :=
  ⟨v.count, v.apart, v.curBelow, v.otherBelow, v.refsBelow, v.curBias, v.otherBias⟩

theorem Acct.point (v : Acct c s) (k : Bool) : Acct c { s with indx := k } := by
  rcases Bool.eq_or_eq_not k s.indx with same | flipped
  · rw [same]
    exact v
  · rw [flipped]
    exact v.flip

/-- What stays the same while a buffer is used: which pages it has and how often each is counted. -/
structure SamePages (s t : RxPage) : Prop where
  page : ∀ k, (t.info k).page = (s.info k).page
  count : t.count = s.count
  fresh : t.fresh = s.fresh

theorem SamePages.refl (s : RxPage) : SamePages s s := ⟨fun _ => rfl, rfl, rfl⟩

theorem SamePages.trans {s t u : RxPage} (x : SamePages s t) (y : SamePages t u) : SamePages s u :=
  ⟨fun k => (y.page k).trans (x.page k), y.count.trans x.count, y.fresh.trans x.fresh⟩

theorem SamePages.setCur {pinfo : PageInfo} (same : pinfo.page = s.cur.page) :
    SamePages s (s.setCur pinfo) := by
  refine ⟨fun k => ?_, rfl, rfl⟩
  change (Function.update s.info s.indx pinfo k).page = (s.info k).page
  by_cases here : k = s.indx
  · rw [here, Function.update_self]
    exact same
  · rw [Function.update_of_ne here]

theorem SamePages.addRef (s : RxPage) (start len : Nat) : SamePages s (s.addRef start len) := by
  unfold RxPage.addRef
  split
  · exact ⟨fun _ => rfl, rfl, rfl⟩
  · exact .refl s

theorem SamePages.bufAdjustPg (c : PageCfg) (s : RxPage) (size : Nat) :
    SamePages s (s.bufAdjustPg c size) := by
  unfold RxPage.bufAdjustPg
  split
  · split
    · exact ⟨fun _ => rfl, rfl, rfl⟩
    · exact .setCur rfl
  · exact .setCur rfl

theorem SamePages.frag (c : PageCfg) (s : RxPage) (headlen size : Nat) :
    SamePages s (s.frag c headlen size) :=
  (SamePages.addRef s _ _).trans (.bufAdjustPg c _ _)

theorem useBuf_cases (c : PageCfg) (s : RxPage) (size : Nat) (use : PageUse) :
    s.useBuf c size use = s.getBufPage.putBufPage ∨
      ∃ headlen len, s.useBuf c size use = s.getBufPage.frag c headlen len := by
  cases use with
  | addFrag => exact Or.inr ⟨0, size, rfl⟩
  | xdpTaken => exact Or.inr ⟨0, size, rfl⟩
  | noSkb => exact Or.inl rfl
  | xdpConsumed => exact Or.inl rfl
  | construct headlen =>
      rw [RxPage.useBuf, constructSkb]
      generalize (if size > rxHdrSize then min headlen rxHdrSize else size) = h
      by_cases whole : size - h = 0
      · exact Or.inl (if_pos whole)
      · exact Or.inr ⟨h, size - h, if_neg whole⟩

theorem SamePages.useBuf (c : PageCfg) (s : RxPage) (size : Nat) (use : PageUse) :
    SamePages s (s.useBuf c size use) := by
  have got : SamePages s s.getBufPage := .setCur rfl
  rcases useBuf_cases c s size use with put | ⟨headlen, len, lent⟩
  · rw [put]
    exact got.trans (.setCur rfl)
  · rw [lent]
    exact got.trans (.frag c _ headlen len)

theorem useBuf_indx (single : c.twoPages = false) (s : RxPage) (size : Nat) (use : PageUse) :
    (s.useBuf c size use).indx = s.indx := by
  have narrow : ¬ (c.pageSize < 8192 ∧ c.bufSize > 2048) := by
    rwa [PageCfg.twoPages, decide_eq_false_iff_not] at single
  rcases useBuf_cases c s size use with put | ⟨headlen, len, lent⟩
  · rw [put]
    rfl
  · have kept :
        (s.getBufPage.addRef (s.getBufPage.cur.pageOffset + headlen) len).indx = s.indx := by
      unfold RxPage.addRef
      split <;> rfl
    rw [lent, RxPage.frag, RxPage.bufAdjustPg]
    split
    · next small =>
      rw [if_neg fun wide => narrow ⟨small, wide⟩]
      exact kept
    · exact kept

theorem Acct.useBuf (v : Acct c s) (page : s.cur.page ≠ none)
    (stocked : c.drainedBias < s.cur.pagecntBias) (size : Nat) (use : PageUse) :
    Acct c (s.useBuf c size use) := by
  obtain ⟨p, holds⟩ := Option.ne_none_iff_exists'.mp page
  rcases useBuf_cases c s size use with put | ⟨headlen, len, lent⟩
  · rw [put, getBufPage_putBufPage ((v.curBias page).2.trans c.bias_lt.2)]
    exact v
  · have shared := v.use holds stocked (s.getBufPage.cur.pageOffset + headlen) len
    rw [lent, RxPage.frag, RxPage.bufAdjustPg]
    split
    · split
      · exact shared.flip
      · exact shared.setOffset _
    · exact shared.setOffset _

end RxPage

namespace RxSlot

/-- What holds of a buffer at all times: its books, and that each page it points to is mapped and
has references left. A buffer of one page has its second page info to no use. -/
structure Lent (c : PageCfg) (s : RxSlot) : Prop where
  acct : RxPage.Acct c s.toRxPage
  alive : ∀ k p, (s.info k).page = some p → 0 < s.count p
  inTurn : ∀ p, s.life p ≠ none
  mapped : ∀ k p, (s.info k).page = some p → s.life p = some .mapped
  unused : ∀ p, s.fresh ≤ p → s.life p = some .taken
  single : c.twoPages = false → s.indx = false ∧ (s.info true).page = none

/-- What holds between steps: the page in use has references to spare, and there is one where the
device or a completion has the buffer. -/
structure Kept (c : PageCfg) (s : RxSlot) : Prop extends Lent c s where
  stocked : s.cur.page ≠ none → c.drainedBias < s.cur.pagecntBias
  posted : s.owner ≠ .driver → s.cur.page ≠ none

variable {c : PageCfg} {s t : RxSlot}

theorem Lent.setOwner (v : Lent c s) (owner : BufOwner) : Lent c { s with owner } :=
  ⟨v.acct.setOwner owner, v.alive, v.inTurn, v.mapped, v.unused, v.single⟩

theorem Kept.setOwner (v : Kept c s) {owner : BufOwner} (page : s.cur.page ≠ none) :
    Kept c { s with owner } :=
  ⟨v.toLent.setOwner owner, v.stocked, fun _ => page⟩

theorem Lent.same (v : Lent c s) {t : RxPage} (acct : RxPage.Acct c t)
    (same : RxPage.SamePages s.toRxPage t) (indx : c.twoPages = false → t.indx = s.indx) :
    Lent c { s with toRxPage := t } := by
  refine ⟨acct, fun k p page => ?_, v.inTurn, fun k p page => ?_, fun p free => ?_, fun one => ?_⟩
  · rw [same.page] at page
    change 0 < t.count p
    rw [same.count]
    exact v.alive k p page
  · rw [same.page] at page
    exact v.mapped k p page
  · rw [same.fresh] at free
    exact v.unused p free
  · rw [indx one, same.page]
    exact v.single one

theorem Lent.point (v : Lent c s) (k : Bool) (two : c.twoPages = false → k = false) :
    Lent c { s with indx := k } :=
  ⟨v.acct.point k, v.alive, v.inTurn, v.mapped, v.unused, fun one => ⟨two one, (v.single one).2⟩⟩

theorem Lent.setCur_single (v : Lent c s) (one : c.twoPages = false) (pinfo : PageInfo) :
    (s.setCur pinfo).indx = false ∧ ((s.setCur pinfo).info true).page = none := by
  obtain ⟨first, second⟩ := v.single one
  refine ⟨first, ?_⟩
  change (Function.update s.info s.indx pinfo true).page = none
  rw [first, Function.update_of_ne Bool.false_ne_true.symm]
  exact second

/-- A buffer without a page in use. -/
structure Hole (c : PageCfg) (s : RxSlot) : Prop extends Lent c s where
  hole : s.cur.page = none

theorem see_self (s : RxSlot) (e : PageEvent) (p : Nat) :
    (s.see e p).life p = (s.life p).bind (·.next e) := Function.update_self ..

theorem see_of_ne (s : RxSlot) (e : PageEvent) {p q : Nat} (ne : q ≠ p) :
    (s.see e p).life q = s.life q := Function.update_of_ne ne ..

/-- What giving up page `p` does. -/
theorem dropPage_some {p : Nat} (page : s.cur.page = some p) :
    s.dropPage.toRxPage = (s.setPage none).setCount p (s.count p - s.cur.pagecntBias) ∧
      s.dropPage.life p = ((s.life p).bind (·.next .unmap)).bind (·.next .free) ∧
      ∀ q, q ≠ p → s.dropPage.life q = s.life q := by
  have given : s.drain = (s.setPage none).setCount p (s.count p - s.cur.pagecntBias) := by
    rw [RxPage.drain, page]
  have eq : s.dropPage = (({ s with toRxPage := s.drain } : RxSlot).see .unmap p).see .free p := by
    rw [RxSlot.dropPage, page]
  rw [eq]
  refine ⟨given, ?_, fun q ne => ?_⟩
  · rw [see_self, see_self]
  · rw [see_of_ne _ _ ne, see_of_ne _ _ ne]

theorem Lent.dropPage (v : Lent c s) : Hole c s.dropPage ∧ s.dropPage.other = s.other ∧
    s.dropPage.indx = s.indx ∧ s.dropPage.owner = s.owner := by
  rcases holds : s.cur.page with _ | p
  · have eq : s.dropPage = s := by rw [RxSlot.dropPage, holds]
    rw [eq]
    exact ⟨⟨v, holds⟩, rfl, rfl, rfl⟩
  · obtain ⟨given, freed, life⟩ := dropPage_some holds
    have acct : RxPage.Acct c s.dropPage.toRxPage ∧ s.dropPage.cur.page = none := by
      have w := v.acct.drain
      have drained : s.drain = s.dropPage.toRxPage := by
        rw [given, RxPage.drain, holds]
      rwa [drained] at w
    have other : s.dropPage.other = s.other := by
      rw [given]
      exact RxPage.other_setCur s.toRxPage _
    have apart : ∀ k q, (s.dropPage.info k).page = some q → s.other.page = some q ∧ q ≠ p := by
      intro k q page
      rcases RxPage.info_cases s.dropPage.toRxPage k with at_ | at_
      · rw [at_, acct.2] at page
        exact nomatch page
      · rw [at_, other] at page
        exact ⟨page, fun same => v.acct.apart p holds (same ▸ page)⟩
    have below := v.acct.curBelow p holds
    refine ⟨⟨⟨acct.1, fun k q page => ?_, fun q => ?_, fun k q page => ?_, fun q free => ?_,
      fun one => ?_⟩, acct.2⟩, other, ?_, ?_⟩
    · obtain ⟨there, ne⟩ := apart k q page
      rw [given]
      change 0 < Function.update s.count p _ q
      rw [Function.update_of_ne ne]
      exact v.alive (!s.indx) q there
    · by_cases same : q = p
      · rw [same, freed, v.mapped s.indx p holds]
        nofun
      · rw [life q same]
        exact v.inTurn q
    · obtain ⟨there, ne⟩ := apart k q page
      rw [life q ne]
      exact v.mapped (!s.indx) q there
    · rw [given] at free
      change s.fresh ≤ q at free
      rw [life q (by omega)]
      exact v.unused q free
    · rw [given]
      exact v.setCur_single one _
    · rw [given]
      rfl
    · rw [given]
      rfl

/-- A hole is filled, or stays. -/
theorem Hole.allocPage (v : Hole c s) {alloc : PageAlloc} (mapped : alloc ≠ .mapFail) :
    Lent c (s.allocPage c alloc) ∧ (s.allocPage c alloc).owner = s.owner ∧
      (s.allocPage c alloc).indx = s.indx ∧ (s.allocPage c alloc).other = s.other ∧
      ((s.allocPage c alloc).cur.page ≠ none →
        c.drainedBias < (s.allocPage c alloc).cur.pagecntBias) ∧
      (alloc = .ok → (s.allocPage c alloc).cur.page ≠ none) := by
  have acct := v.acct.allocPage v.hole mapped
  cases alloc with
  | mapFail => exact absurd rfl mapped
  | noMem =>
      have still : s.toRxPage.allocPage c .noMem = s.toRxPage := by
        rw [RxPage.allocPage, RxPage.setPage, ← v.hole, RxPage.setCur, RxPage.cur,
          Function.update_eq_self]
      have same : s.allocPage c .noMem = s := by
        change ({ s with toRxPage := s.toRxPage.allocPage c .noMem } : RxSlot) = s
        rw [still]
      rw [same]
      exact ⟨v.toLent, rfl, rfl, rfl, fun some => absurd v.hole some,
        fun ok => absurd ok (by decide)⟩
  | ok =>
      have cur : (s.allocPage c .ok).cur = ⟨some s.fresh, c.defaultOffset, c.fullBias⟩ :=
        RxPage.cur_setCur s.toRxPage ⟨some s.fresh, c.defaultOffset, c.fullBias⟩
      have other : (s.allocPage c .ok).other = s.other := RxPage.other_setCur s.toRxPage _
      have pages : ∀ k p, ((s.allocPage c .ok).info k).page = some p →
          p = s.fresh ∨ (p ≠ s.fresh ∧ s.other.page = some p) := by
        intro k p holds
        rcases RxPage.info_cases (s.allocPage c .ok).toRxPage k with at_ | at_
        · rw [at_, cur] at holds
          exact Or.inl (Option.some.inj holds).symm
        · rw [at_, other] at holds
          exact Or.inr ⟨(v.acct.otherBelow p holds).ne, holds⟩
      have born : (s.allocPage c .ok).life s.fresh = some .mapped := by
        change Function.update s.life s.fresh _ s.fresh = _
        rw [Function.update_self, v.unused s.fresh le_rfl]
        rfl
      have life : ∀ q, q ≠ s.fresh → (s.allocPage c .ok).life q = s.life q := by
        intro q ne
        change Function.update s.life s.fresh _ q = s.life q
        rw [Function.update_of_ne ne]
      refine ⟨⟨acct, fun k p holds => ?_, fun p => ?_, fun k p holds => ?_, fun p free => ?_,
        fun one => ?_⟩, rfl, rfl, other, fun _ => ?_, fun _ => ?_⟩
      · change 0 < Function.update s.count s.fresh c.fullBias p
        rcases pages k p holds with rfl | ⟨ne, there⟩
        · rw [Function.update_self]
          exact (Nat.zero_le _).trans_lt c.bias_lt.1
        · rw [Function.update_of_ne ne]
          exact v.alive (!s.indx) p there
      · by_cases same : p = s.fresh
        · rw [same, born]
          exact Option.some_ne_none _
        · rw [life p same]
          exact v.inTurn p
      · rcases pages k p holds with rfl | ⟨ne, there⟩
        · exact born
        · rw [life p ne]
          exact v.mapped (!s.indx) p there
      · change s.fresh + 1 ≤ p at free
        rw [life p (by omega)]
        exact v.unused p (by omega)
      · exact v.setCur_single one _
      · rw [cur]
        exact c.bias_lt.1
      · rw [cur]
        exact Option.some_ne_none _

theorem Lent.recycleBuf (v : Lent c s) {reusable : Bool} {alloc : PageAlloc}
    (mapped : alloc ≠ .mapFail) :
    Kept c { s.recycleBuf c reusable alloc with owner := .driver } := by
  unfold RxSlot.recycleBuf
  split
  · obtain ⟨page, -, -, -, stocked⟩ := RxPage.topUp_cur c s.toRxPage
    have kept : ∀ k, ((s.topUp c).info k).page = (s.info k).page := by
      unfold RxPage.topUp
      split
      · split
        · have topped : RxPage.SamePages s.toRxPage (s.setBias c.fullBias) := .setCur rfl
          exact topped.page
        · exact fun _ => rfl
      · exact fun _ => rfl
    have count : ∀ p, s.count p ≤ (s.topUp c).count p := by
      intro p
      unfold RxPage.topUp
      split
      · next q _ =>
        split
        · change s.count p ≤ Function.update s.count q _ p
          by_cases same : p = q
          · rw [same, Function.update_self]
            exact Nat.le_add_right ..
          · rw [Function.update_of_ne same]
        · exact le_rfl
      · exact le_rfl
    have rest : (s.topUp c).fresh = s.fresh ∧ (s.topUp c).indx = s.indx := by
      unfold RxPage.topUp
      split
      · split <;> exact ⟨rfl, rfl⟩
      · exact ⟨rfl, rfl⟩
    refine ⟨⟨v.acct.topUp.setOwner .driver, fun k p holds => ?_, v.inTurn, fun k p holds => ?_,
      fun p free => ?_, fun one => ?_⟩, fun some => ?_, fun away => absurd rfl away⟩
    · exact (v.alive k p ((kept k).symm.trans holds)).trans_le (count p)
    · exact v.mapped k p ((kept k).symm.trans holds)
    · exact v.unused p (rest.1.symm.trans_le free)
    · obtain ⟨first, second⟩ := v.single one
      exact ⟨rest.2.trans first, (kept true).trans second⟩
    · change (s.topUp c).cur.page ≠ none at some
      rw [page] at some
      exact stocked some (v.acct.curBias some).1
  · obtain ⟨hole, -, -, -⟩ := v.dropPage
    obtain ⟨lent, -, -, -, stocked, -⟩ := hole.allocPage mapped
    exact ⟨lent.setOwner .driver, stocked, fun away => absurd rfl away⟩

theorem Kept.postDesc (v : Kept c s) {p : Nat} (page : s.cur.page = some p) :
    Kept c s.postDesc := by
  have mapped := v.mapped s.indx p page
  have still : s.see .post p = s := by
    have life : Function.update s.life p ((s.life p).bind (·.next .post)) = s.life := by
      rw [mapped]
      exact Function.update_eq_self_iff.mpr mapped.symm
    change ({ s with life := _ } : RxSlot) = s
    rw [life]
  have eq : s.postDesc = { s with owner := .device } := by
    rw [RxSlot.postDesc, page]
    dsimp only
    rw [still]
  rw [eq]
  exact v.setOwner (by rw [page]; nofun)

theorem Kept.updateBufqDesc (v : Kept c s) (idle : s.owner = .driver) {alloc : PageAlloc}
    (mapped : alloc ≠ .mapFail) : Kept c (s.updateBufqDesc c alloc) := by
  unfold RxSlot.updateBufqDesc
  split
  · next there =>
    obtain ⟨p, page⟩ := Option.isSome_iff_exists.mp there
    exact v.postDesc page
  · next gone =>
    have hole : s.cur.page = none := by simpa using gone
    obtain ⟨lent, owner, -, -, stocked, filled⟩ := Hole.allocPage ⟨v.toLent, hole⟩ mapped
    have kept : Kept c (s.allocPage c alloc) :=
      ⟨lent, stocked, fun away => absurd (owner.trans idle) away⟩
    split
    · next ok =>
      obtain ⟨p, page⟩ := Option.ne_none_iff_exists'.mp (filled ok)
      exact kept.postDesc page
    · exact kept

theorem Kept.clean (v : Kept c s) {size : Nat} (owner : s.owner = .written size) {use : PageUse}
    {reusable : Bool} {alloc : PageAlloc} (mapped : alloc ≠ .mapFail) :
    Kept c (s.clean c size use reusable alloc) := by
  have page : s.cur.page ≠ none := v.posted (by rw [owner]; nofun)
  have used : Lent c { s with toRxPage := s.useBuf c size use } :=
    v.toLent.same (v.acct.useBuf page (v.stocked page) size use) (.useBuf c _ size use)
      fun one => RxPage.useBuf_indx one _ size use
  unfold RxSlot.clean
  dsimp only
  by_cases empty : size = 0
  · rw [if_pos empty, if_pos empty]
    split
    · exact v
    · exact v.setOwner page
  · rw [if_neg empty, if_neg empty]
    split
    · next no =>
      subst no
      have back : s.useBuf c size .noSkb = s.toRxPage :=
        RxPage.getBufPage_putBufPage ((v.acct.curBias page).2.trans c.bias_lt.2)
      rw [back]
      exact v
    · exact used.recycleBuf mapped

/-- The stack has the last reference on a page only where references are not taken in bulk and two
pages take turns. -/
theorem Kept.more (v : Kept c s) (safe : c.bulk = true ∨ c.twoPages = false) {r : PageRef}
    (member : r ∈ s.refs) {k : Bool} (page : (s.info k).page = some r.page) :
    1 < s.count r.page := by
  have lent : 0 < s.refsOn r.page := List.countP_pos_iff.mpr ⟨r, member, by simp⟩
  have counted := v.acct.count r.page
  rcases safe with bulk | one
  · have low : c.drainedBias = 1 := by rw [PageCfg.drainedBias, if_pos bulk]
    rcases RxPage.info_cases s.toRxPage k with at_ | at_
    · rw [at_] at page
      have bias := (v.acct.curBias (by rw [page]; exact Option.some_ne_none _)).1
      rw [RxPage.held, PageInfo.biasOn, if_pos page] at counted
      omega
    · rw [at_] at page
      have bias := (v.acct.otherBias (by rw [page]; exact Option.some_ne_none _)).1
      rw [RxPage.held, PageInfo.biasOn, PageInfo.biasOn, if_pos page] at counted
      omega
  · obtain ⟨first, second⟩ := v.single one
    have at_ : s.info k = s.cur := by
      cases k with
      | true => exact absurd (second.symm.trans page).symm (Option.some_ne_none _)
      | false => rw [RxPage.cur, first]
    rw [at_] at page
    have bias := v.stocked (by rw [page]; exact Option.some_ne_none _)
    rw [RxPage.held, PageInfo.biasOn, if_pos page] at counted
    omega

theorem Kept.putRef (v : Kept c s) {r : PageRef} (member : r ∈ s.refs)
    (more : ∀ k, (s.info k).page = some r.page → 1 < s.count r.page) :
    Kept c { s with toRxPage := s.putRef r } := by
  refine ⟨⟨v.acct.putRef member, fun k p page => ?_, v.inTurn, v.mapped, v.unused, v.single⟩,
    v.stocked, v.posted⟩
  change 0 < Function.update s.count r.page (s.count r.page - 1) p
  by_cases same : p = r.page
  · subst same
    have left := more k page
    rw [Function.update_self]
    omega
  · rw [Function.update_of_ne same]
    exact v.alive k p page

theorem Kept.getRef (v : Kept c s) {r : PageRef} (member : r ∈ s.refs) (skip len : Nat) :
    Kept c { s with toRxPage := s.getRef r skip len } := by
  have known : r.page < s.fresh := v.acct.refsBelow r member
  refine ⟨⟨v.acct.pushRef (r := ⟨r.page, r.start + skip, len⟩) known, fun k p page => ?_, v.inTurn,
    v.mapped, v.unused, v.single⟩, v.stocked, v.posted⟩
  change 0 < Function.update s.count r.page (s.count r.page + 1) p
  by_cases same : p = r.page
  · rw [same, Function.update_self]
    exact Nat.succ_pos _
  · rw [Function.update_of_ne same]
    exact v.alive k p page

theorem Lent.pageRel (v : Lent c s) {k : Bool} (two : c.twoPages = false → k = false) :
    Lent c (s.pageRel k) ∧ ((s.pageRel k).info k).page = none ∧
      ((s.pageRel k).info (!k)).page = (s.info (!k)).page := by
  have w := v.point k two
  unfold RxSlot.pageRel
  dsimp only
  split
  · obtain ⟨hole, other, -, -⟩ := w.dropPage
    generalize gone : ({ s with indx := k } : RxSlot).dropPage = t at hole other
    have at_ : t.indx = k := by
      rw [← gone]
      exact (w.dropPage).2.2.1
    have moved : RxPage.SamePages t.toRxPage (t.setOffset 0) := .setCur rfl
    have offset : Lent c { t with toRxPage := t.setOffset 0 } :=
      hole.toLent.same (hole.acct.setOffset 0) moved fun _ => rfl
    refine ⟨offset.point s.indx fun one => (v.single one).1, ?_, ?_⟩
    · change ((t.setOffset 0).info k).page = none
      rw [moved.page, ← at_]
      exact hole.hole
    · change ((t.setOffset 0).info !k).page = (s.info !k).page
      rw [moved.page, ← at_]
      change t.other.page = (s.info !t.indx).page
      rw [other, at_]
      rfl
  · next none_ =>
    exact ⟨v, Option.not_isSome_iff_eq_none.mp none_, rfl⟩

theorem Lent.bufRel (v : Lent c s) :
    Lent c (s.bufRel c) ∧ ∀ k, ((s.bufRel c).info k).page = none := by
  obtain ⟨first, gone, kept⟩ := v.pageRel (k := false) fun _ => rfl
  unfold RxSlot.bufRel
  dsimp only
  split
  · next two =>
    obtain ⟨second, gone', kept'⟩ :=
      first.pageRel (k := true) fun one => absurd (two.symm.trans one) nofun
    refine ⟨second, fun k => ?_⟩
    cases k with
    | true => exact gone'
    | false => exact kept'.trans gone
  · next one =>
    refine ⟨first, fun k => ?_⟩
    cases k with
    | true => exact kept.trans (v.single (by simpa using one)).2
    | false => exact gone

theorem Lent.calloc (v : Lent c s) (none_ : ∀ k, (s.info k).page = none) : Kept c s.calloc := by
  have refs : ∀ p, s.count p = s.refsOn p := by
    intro p
    have counted := v.acct.count p
    have away (k : Bool) : (s.info k).page ≠ some p := by
      rw [none_]
      exact (Option.some_ne_none p).symm
    have cur : s.cur.page ≠ some p := away s.indx
    have other : s.other.page ≠ some p := away !s.indx
    rwa [RxPage.held, PageInfo.biasOn, PageInfo.biasOn, if_neg cur, if_neg other,
      Nat.add_zero, Nat.zero_add] at counted
  have empty {p : Nat} (holds : (none : Option Nat) = some p) : False :=
    Option.some_ne_none p holds.symm
  refine ⟨⟨⟨fun p => ?_, fun _ holds => (empty holds).elim, fun _ holds => (empty holds).elim,
    fun _ holds => (empty holds).elim, v.acct.refsBelow, fun h => absurd rfl h,
    fun h => absurd rfl h⟩, fun _ _ holds => (empty holds).elim, v.inTurn,
    fun _ _ holds => (empty holds).elim, v.unused, fun _ => ⟨rfl, rfl⟩⟩,
    fun h => absurd rfl h, fun h => absurd rfl h⟩
  exact (refs p).trans (Nat.zero_add _).symm

theorem Kept.step (v : Kept c s) {op : PageOp}
    (fault : ∀ alloc use reusable, op = .post alloc ∨ op = .clean use reusable alloc →
      alloc ≠ .mapFail)
    (more : ∀ r ∈ s.refs, op = .put r → ∀ k, (s.info k).page = some r.page → 1 < s.count r.page)
    (taken : s.step c op = some t) : Kept c t := by
  cases op with
  | post alloc =>
      simp only [RxSlot.step, Option.ite_none_right_eq_some, Option.some.injEq] at taken
      obtain ⟨idle, rfl⟩ := taken
      exact v.updateBufqDesc idle (fault alloc .noSkb true (Or.inl rfl))
  | write size =>
      simp only [RxSlot.step, Option.ite_none_right_eq_some, Option.some.injEq] at taken
      obtain ⟨⟨owner, -⟩, rfl⟩ := taken
      exact v.setOwner (v.posted (by rw [owner]; nofun))
  | clean use reusable alloc =>
      simp only [RxSlot.step] at taken
      split at taken
      · next size owner =>
        obtain rfl := Option.some.inj taken
        exact v.clean owner (fault alloc use reusable (Or.inr rfl))
      · exact nomatch taken
  | put r =>
      simp only [RxSlot.step, Option.ite_none_right_eq_some, Option.some.injEq] at taken
      obtain ⟨member, rfl⟩ := taken
      exact v.putRef member (more r member rfl)
  | get r skip len =>
      simp only [RxSlot.step, Option.ite_none_right_eq_some, Option.some.injEq] at taken
      obtain ⟨⟨member, -⟩, rfl⟩ := taken
      exact v.getRef member skip len

/-- The pages of a new buffer, whether or not it gets all of them. -/
theorem Kept.allocBuf (v : Kept c s) (none_ : ∀ k, (s.info k).page = none) (first : s.indx = false)
    (idle : s.owner = .driver) {allocs : Bool → PageAlloc} (mapped : ∀ k, allocs k ≠ .mapFail) :
    Kept c (s.allocBuf c allocs).1 ∧
      ((s.allocBuf c allocs).2 = true → (s.allocBuf c allocs).1.cur.page ≠ none) := by
  obtain ⟨lent, owner, indx, other, stocked, filled⟩ :=
    Hole.allocPage ⟨v.toLent, none_ s.indx⟩ (mapped false)
  generalize one : s.allocPage c (allocs false) = t at lent owner indx other stocked filled
  have kept : Kept c t := ⟨lent, stocked, fun away => absurd (owner.trans idle) away⟩
  have point : t.indx = false := indx.trans first
  rw [RxSlot.allocBuf, one]
  dsimp only
  by_cases got : allocs false = .ok
  · rw [if_neg (not_not_intro got)]
    by_cases two : c.twoPages = true
    · rw [if_pos two]
      have empty : (t.info true).page = none := by
        have same : t.info true = t.other := by rw [RxPage.other, point]; rfl
        rw [same, other]
        exact none_ _
      obtain ⟨lent', owner', indx', other', -, -⟩ :=
        Hole.allocPage ⟨lent.point true fun single =>
          absurd (two.symm.trans single) Bool.false_ne_true.symm, empty⟩ (mapped true)
      generalize both : RxSlot.allocPage c { t with indx := true } (allocs true) = u at *
      have back : ({ u with indx := false } : RxSlot).cur = t.cur := by
        have there : u.other = t.info false := other'
        have here : u.other = u.info false := by rw [RxPage.other, indx']; rfl
        change u.info false = t.info t.indx
        rw [← here, there, point]
      refine ⟨⟨lent'.point false fun _ => rfl, fun some => ?_, fun away => ?_⟩, fun _ => ?_⟩
      · rw [back] at some ⊢
        exact stocked some
      · exact absurd (owner'.trans (owner.trans idle)) away
      · rw [back]
        exact filled got
    · rw [if_neg two]
      exact ⟨kept, fun _ => filled got⟩
  · rw [if_pos got]
    exact ⟨kept, fun done => absurd done Bool.false_ne_true⟩

end RxSlot

namespace RxPageq

variable {c : RxPageqCfg} {s t : RxPageq}

/-- What holds of a queue: each buffer is kept well, one without buffers has no pages, and one in
use has a page in each buffer it posts. -/
structure Inv (c : RxPageqCfg) (s : RxPageq) : Prop where
  kept : ∀ i, RxSlot.Kept c.toPageCfg (s.bufs i)
  bare : s.phase = .released → ∀ i k, ((s.bufs i).info k).page = none
  outside : ∀ i, c.descCount ≤ i → ∀ k, ((s.bufs i).info k).page = none

/-- The first `n` buffers have a page, as the loop of `idpf_rx_buf_alloc_all` goes on. -/
theorem allocAll_kept {cfg : PageCfg} {allocs : Nat → Bool → PageAlloc} (k i : Nat)
    {bufs : Nat → RxSlot} (kept : ∀ j, RxSlot.Kept cfg (bufs j))
    (new : ∀ j, i ≤ j → (∀ b, ((bufs j).info b).page = none) ∧ (bufs j).indx = false ∧
      (bufs j).owner = .driver)
    (filled : ∀ j < i, (bufs j).cur.page ≠ none)
    (mapped : ∀ j, i ≤ j → j < i + k → ∀ b, allocs j b ≠ .mapFail) :
    (∀ j, RxSlot.Kept cfg ((allocAll cfg allocs k i bufs).1 j)) ∧
      (∀ j, i + k ≤ j → (allocAll cfg allocs k i bufs).1 j = bufs j) ∧
      ((allocAll cfg allocs k i bufs).2 = true →
        ∀ j < i + k, ((allocAll cfg allocs k i bufs).1 j).cur.page ≠ none) := by
  induction k generalizing i bufs with
  | zero => exact ⟨kept, fun _ _ => rfl, fun _ => filled⟩
  | succ k ih =>
      obtain ⟨none_, first, idle⟩ := new i le_rfl
      obtain ⟨slot, page⟩ := (kept i).allocBuf none_ first idle (mapped i le_rfl (by omega))
      have kept' : ∀ j, RxSlot.Kept cfg
          (Function.update bufs i ((bufs i).allocBuf cfg (allocs i)).1 j) := by
        intro j
        by_cases same : j = i
        · rw [same, Function.update_self]
          exact slot
        · rw [Function.update_of_ne same]
          exact kept j
      rw [allocAll]
      split
      · next more =>
        obtain ⟨all, rest, pages⟩ := ih (i + 1) kept'
          (fun j later => by
            rw [Function.update_of_ne (by omega)]
            exact new j (by omega))
          (fun j below => by
            by_cases same : j = i
            · rw [same, Function.update_self]
              exact page more
            · rw [Function.update_of_ne same]
              exact filled j (by omega))
          (fun j later inside => mapped j (by omega) (by omega))
        refine ⟨all, fun j later => ?_, fun done j below => pages done j (by omega)⟩
        rw [rest j (by omega), Function.update_of_ne (by omega)]
      · next stop =>
        refine ⟨kept', fun j later => Function.update_of_ne (by omega) .., fun done => ?_⟩
        exact absurd done nofun

theorem bufsInit_inv (v : Inv c s) (bare : s.phase = .released)
    {allocs : Nat → Bool → PageAlloc}
    (mapped : ∀ i < c.descCount - 1, ∀ k, allocs i k ≠ .mapFail) : Inv c (s.bufsInit c allocs) := by
  obtain ⟨kept, rest, filled⟩ := allocAll_kept (c.descCount - 1) 0
    (fun j => ((v.kept j).toLent.calloc (v.bare bare j)))
    (fun j _ => ⟨fun _ => rfl, rfl, rfl⟩) (fun j below => absurd below (Nat.not_lt_zero j))
    (fun j _ inside => mapped j (by omega))
  have outside : ∀ i, c.descCount ≤ i → ∀ k, (((allocAll c.toPageCfg allocs (c.descCount - 1) 0
      fun j => (s.bufs j).calloc).1 i).info k).page = none := by
    intro i later k
    rw [rest i (by omega)]
    rfl
  unfold RxPageq.bufsInit
  dsimp only
  split
  · next done =>
    refine ⟨fun i => ?_, nofun, fun i later k => ?_⟩
    · change RxSlot.Kept c.toPageCfg (postInitBufs ..)
      rw [postInitBufs]
      split
      · next inside =>
        obtain ⟨p, page⟩ := Option.ne_none_iff_exists'.mp (filled done i (by omega))
        exact (kept i).postDesc page
      · exact kept i
    · change ((postInitBufs _ _ i).info k).page = none
      rw [postInitBufs, if_neg (by omega)]
      exact outside i later k
  · exact ⟨kept, nofun, outside⟩

theorem bufRelAll_inv (v : Inv c s) : Inv c (s.bufRelAll c) := by
  have each : ∀ i, RxSlot.Kept c.toPageCfg ((s.bufRelAll c).bufs i) ∧
      ∀ k, (((s.bufRelAll c).bufs i).info k).page = none := by
    intro i
    unfold RxPageq.bufRelAll
    dsimp only
    split
    · obtain ⟨lent, none_⟩ := (v.kept i).toLent.bufRel
      exact ⟨⟨lent.setOwner .driver, fun some => absurd (none_ _) some,
        fun away => absurd rfl away⟩, none_⟩
    · next outside => exact ⟨v.kept i, v.outside i (Nat.not_lt.mp outside)⟩
  exact ⟨fun i => (each i).1, fun _ i => (each i).2, fun i _ => (each i).2⟩

theorem idle_info {i : Nat} {op : PageOp} {b : RxSlot} (takes : s.takes c i op = true)
    (go : (s.bufs i).step c.toPageCfg op = some b) :
    (s.phase = .posted ∧ i < c.descCount - 1) ∨ b.info = (s.bufs i).info := by
  cases op with
  | put r =>
      simp only [RxSlot.step, Option.ite_none_right_eq_some, Option.some.injEq] at go
      obtain ⟨-, rfl⟩ := go
      exact Or.inr rfl
  | get r skip len =>
      simp only [RxSlot.step, Option.ite_none_right_eq_some, Option.some.injEq] at go
      obtain ⟨-, rfl⟩ := go
      exact Or.inr rfl
  | post _ => exact Or.inl (of_decide_eq_true takes)
  | write _ => exact Or.inl (of_decide_eq_true takes)
  | clean _ _ _ => exact Or.inl (of_decide_eq_true takes)

theorem buf_inv (v : Inv c s) {i : Nat} {op : PageOp} {b : RxSlot} (takes : s.takes c i op = true)
    (go : (s.bufs i).step c.toPageCfg op = some b) (kept : RxSlot.Kept c.toPageCfg b) :
    Inv c { s with bufs := Function.update s.bufs i b } := by
  have idle := idle_info takes go
  refine ⟨fun j => ?_, fun released j k => ?_, fun j outside k => ?_⟩
  · by_cases same : j = i
    · rw [same]
      dsimp only
      rw [Function.update_self]
      exact kept
    · dsimp only
      rw [Function.update_of_ne same]
      exact v.kept j
  · by_cases same : j = i
    · rw [same]
      dsimp only
      rw [Function.update_self]
      rcases idle with ⟨posted, -⟩ | info
      · exact absurd (posted.symm.trans released) nofun
      · rw [info]
        exact v.bare released i k
    · dsimp only
      rw [Function.update_of_ne same]
      exact v.bare released j k
  · by_cases same : j = i
    · subst same
      dsimp only
      rw [Function.update_self]
      rcases idle with ⟨-, inside⟩ | info
      · omega
      · rw [info]
        exact v.outside j outside k
    · dsimp only
      rw [Function.update_of_ne same]
      exact v.outside j outside k

theorem step_inv (v : Inv c s) {op : RxPageqOp} (ok : rxPageqOk c s op = true)
    (taken : s.step c op = some t) : Inv c t := by
  cases op with
  | fill allocs =>
      simp only [RxPageq.step, Option.ite_none_right_eq_some, Option.some.injEq] at taken
      obtain ⟨bare, rfl⟩ := taken
      refine bufsInit_inv v bare fun i inside k => ?_
      have both := List.all_eq_true.mp ok i (List.mem_range.mpr inside)
      simp only [Bool.and_eq_true, bne_iff_ne] at both
      cases k with
      | false => exact both.1
      | true => exact both.2
  | buf i op =>
      simp only [RxPageq.step, Option.ite_none_right_eq_some] at taken
      obtain ⟨takes, taken⟩ := taken
      obtain ⟨b, go, rfl⟩ := Option.map_eq_some_iff.mp taken
      refine buf_inv v takes go ((v.kept i).step ?_ ?_ go)
      · rintro alloc use reusable (rfl | rfl)
        · exact bne_iff_ne.mp ok
        · exact bne_iff_ne.mp ok
      · rintro r member rfl k page
        rw [rxPageqOk, Bool.or_eq_true, Bool.or_eq_true, Bool.not_eq_true'] at ok
        rcases ok with safe | kept
        · exact (v.kept i).more safe member page
        · have left := List.all_eq_true.mp kept k (by cases k <;> simp)
          rw [page] at left
          simpa using left
  | release =>
      simp only [RxPageq.step, Option.ite_none_left_eq_some, Option.some.injEq] at taken
      obtain ⟨-, rfl⟩ := taken
      exact bufRelAll_inv v

theorem start_inv (c : RxPageqCfg) : Inv c rxPageqInit :=
  ⟨fun _ => ⟨⟨⟨fun _ => rfl, nofun, nofun, nofun, nofun, fun h => absurd rfl h,
    fun h => absurd rfl h⟩, nofun, fun _ => nofun, nofun, fun _ _ => rfl, fun _ => ⟨rfl, rfl⟩⟩,
    fun h => absurd rfl h, fun h => absurd rfl h⟩, fun _ _ _ => rfl, fun _ _ _ => rfl⟩

end RxPageq

/-- As long as no mapping fails and the stack does not drop the last reference on a page put aside,
no page is used once it has been given up. -/
theorem freed_page_never_posted {c : RxPageqCfg} {s : RxPageq}
    (run : Reachable (RxPageq.step c) (fun s op => rxPageqOk c s op = true)
      (fun s => s = rxPageqInit) s) : PagesOwned s := by
  have v : RxPageq.Inv c s := run.invariant
    (fun s (start : s = rxPageqInit) => start ▸ RxPageq.start_inv c)
    (fun _ _ _ v ok taken => RxPageq.step_inv v ok taken)
  exact ⟨fun i => (v.kept i).inTurn,
    fun i k p page => ⟨(v.kept i).mapped k p page, (v.kept i).alive k p page⟩⟩

/-- Two buffers of 2K, one of which is recycled while the stack has a frag of it; its next page is
refused and got at the second try. -/
theorem freed_page_never_posted_refused :
    let c : RxPageqCfg := { narrowPages 4096 (by decide) with descCount := 3 }
    ∃ s, execIf (RxPageq.step c) (rxPageqOk c) rxPageqInit
        [.fill fun _ _ => .ok, .buf 0 (.write 1500), .buf 0 (.clean (.construct 54) false .noMem),
          .buf 0 (.put ⟨0, 54, 1446⟩), .buf 0 (.post .noMem), .buf 0 (.post .ok), .release] =
        some s ∧
      (s.bufs 0).life 0 = some .freed ∧ (s.bufs 0).life 1 = some .freed ∧ PagesOwned s := by
  intro c
  have seen : (execIf (RxPageq.step c) (rxPageqOk c) rxPageqInit
        [.fill fun _ _ => .ok, .buf 0 (.write 1500), .buf 0 (.clean (.construct 54) false .noMem),
          .buf 0 (.put ⟨0, 54, 1446⟩), .buf 0 (.post .noMem), .buf 0 (.post .ok), .release]).map
      (fun s => ((s.bufs 0).life 0, (s.bufs 0).life 1)) = some (some .freed, some .freed) := by
    decide +kernel
  obtain ⟨s, reached, eq⟩ := Option.map_eq_some_iff.mp seen
  simp only [Prod.mk.injEq] at eq
  exact ⟨s, reached, eq.1, eq.2, freed_page_never_posted (Reachable.execIf (.start rfl) reached)⟩

/-- A buffer whose new page cannot be mapped is posted with the page just freed; a queue whose first
page cannot be mapped unmaps and frees it again when it is released; and where references are taken
one by one, a page of two that the stack has freed is posted again. -/
theorem freed_page_posted :
    let narrow : RxPageqCfg := { narrowPages 4096 (by decide) with descCount := 2 }
    let wide : RxPageqCfg :=
      ⟨⟨4096, 4096, 0, 64, false, by decide, by decide, by decide, by decide⟩, 2⟩
    (∃ s, exec (RxPageq.step narrow) rxPageqInit
        [.fill fun _ _ => .ok, .buf 0 (.write 60), .buf 0 (.clean (.construct 14) false .mapFail),
          .buf 0 (.post .ok)] = some s ∧
      (s.bufs 0).owner = .device ∧ (s.bufs 0).cur.page = some 1 ∧ (s.bufs 0).count 1 = 0 ∧
      (s.bufs 0).life 1 = none ∧ ¬ PagesOwned s) ∧
    (∃ s, exec (RxPageq.step narrow) rxPageqInit [.fill fun _ _ => .mapFail, .release] = some s ∧
      (s.bufs 0).life 0 = none ∧ ¬ PagesOwned s) ∧
    ∃ s, exec (RxPageq.step wide) rxPageqInit
        [.fill fun _ _ => .ok, .buf 0 (.write 2000), .buf 0 (.clean .addFrag true .ok),
          .buf 0 (.put ⟨0, 0, 2000⟩)] = some s ∧
      ((s.bufs 0).info false).page = some 0 ∧ (s.bufs 0).count 0 = 0 ∧ ¬ PagesOwned s ∧
      (exec (RxPageq.step wide) s [.buf 0 (.post .ok), .buf 0 (.write 2000),
          .buf 0 (.clean .addFrag true .ok), .buf 0 (.post .ok)]).map
        (fun s => ((s.bufs 0).owner, (s.bufs 0).cur.page)) = some (.device, some 0) := by
  intro narrow wide
  refine ⟨?_, ?_, ?_⟩
  · have seen : (exec (RxPageq.step narrow) rxPageqInit
        [.fill fun _ _ => .ok, .buf 0 (.write 60), .buf 0 (.clean (.construct 14) false .mapFail),
          .buf 0 (.post .ok)]).map (fun s => ((s.bufs 0).owner, (s.bufs 0).cur.page,
        (s.bufs 0).count 1, (s.bufs 0).life 1)) = some (.device, some 1, 0, none) := by
      decide +kernel
    obtain ⟨s, reached, eq⟩ := Option.map_eq_some_iff.mp seen
    simp only [Prod.mk.injEq] at eq
    obtain ⟨owner, page, count, life⟩ := eq
    exact ⟨s, reached, owner, page, count, life, fun owned => owned.inTurn 0 1 life⟩
  · have seen : (exec (RxPageq.step narrow) rxPageqInit [.fill fun _ _ => .mapFail, .release]).map
        (fun s => (s.bufs 0).life 0) = some none := by decide +kernel
    obtain ⟨s, reached, life⟩ := Option.map_eq_some_iff.mp seen
    exact ⟨s, reached, life, fun owned => owned.inTurn 0 0 life⟩
  · have seen : (exec (RxPageq.step wide) rxPageqInit
        [.fill fun _ _ => .ok, .buf 0 (.write 2000), .buf 0 (.clean .addFrag true .ok),
          .buf 0 (.put ⟨0, 0, 2000⟩)]).map (fun s => (((s.bufs 0).info false).page,
        (s.bufs 0).count 0, (exec (RxPageq.step wide) s [.buf 0 (.post .ok), .buf 0 (.write 2000),
          .buf 0 (.clean .addFrag true .ok), .buf 0 (.post .ok)]).map
        fun s => ((s.bufs 0).owner, (s.bufs 0).cur.page))) =
        some (some 0, 0, some (.device, some 0)) := by decide +kernel
    obtain ⟨s, reached, eq⟩ := Option.map_eq_some_iff.mp seen
    simp only [Prod.mk.injEq] at eq
    obtain ⟨page, count, later⟩ := eq
    exact ⟨s, reached, page, count, fun owned =>
      absurd (owned.owned 0 false 0 page).2 (by rw [count]; exact Nat.lt_irrefl 0), later⟩

end Idpf
