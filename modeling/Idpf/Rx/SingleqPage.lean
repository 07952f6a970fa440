import Mathlib.Algebra.Order.BigOperators.Group.Finset
import Idpf.General.Segment
import Idpf.Rx.SingleqRing

/-! The pages behind the receive ring of a single queue: the references each one has, the
slot it belongs to, and the skbs put together from them. -/
namespace Idpf
open General

/-- The bias of a page just taken, and the one at which it is topped up. -/
def SqRxCfg.fullBias (c : SqRxCfg) : Nat := if c.bulk then 65535 else 1

def SqRxCfg.drainedBias (c : SqRxCfg) : Nat := if c.bulk then 1 else 0

namespace SqRxBuf

def frags (b : SqRxBuf) : List PageRef :=
  match b.skb with
  | some skb => skb.frags
  | none => []

def biasOn (b : SqRxBuf) (p : Nat) : Nat := if b.cur.page = some p then b.cur.pagecntBias else 0

def fragsOn (b : SqRxBuf) (p : Nat) : Nat := b.frags.countP fun r => r.page = p

/-- Whether the slot keeps the skb `id`. -/
def keeps (b : SqRxBuf) (id : Nat) : Nat := if b.skb.map (·.id) = some id then 1 else 0

/-- `idpf_rx_construct_skb` copies the whole packet. -/
def copies (b : SqRxBuf) (size : Nat) : Bool := b.skb.isNone && decide (size ≤ rxHdrSize)

/-- The octets ahead of the frag of a packet that is not copied whole. -/
def skips (b : SqRxBuf) (headlen : Nat) : Nat := if b.skb.isSome then 0 else min headlen rxHdrSize

end SqRxBuf

namespace SqRxMem

def refsOn (m : SqRxMem) (p : Nat) : Nat := m.refs.countP fun r => r.page = p

/-- The references on page `p` from outside the ring: the stack's, and those of packets that are
still being put together. -/
def outsideOn (c : SqRxCfg) (m : SqRxMem) (p : Nat) : Nat :=
  m.refsOn p + ∑ i ∈ Finset.range c.descCount, (m.bufs i).fragsOn p

def heldOn (c : SqRxCfg) (m : SqRxMem) (p : Nat) : Nat :=
  ∑ i ∈ Finset.range c.descCount, (m.bufs i).biasOn p

def Outside (c : SqRxCfg) (m : SqRxMem) (r : PageRef) : Prop :=
  r ∈ m.refs ∨ ∃ i < c.descCount, r ∈ (m.bufs i).frags

/-- How often the skb `id` has been passed up or freed. -/
def ended (m : SqRxMem) (id : Nat) : Nat :=
  m.delivered.countP (fun skb => skb.id = id) + m.freed.countP fun skb => skb.id = id

def keptOn (c : SqRxCfg) (m : SqRxMem) (id : Nat) : Nat :=
  ∑ i ∈ Finset.range c.descCount, (m.bufs i).keeps id

/-- A packet of `size` octets in slot `i` whose page may go back to the ring: on a small page the
stack keeps no reference then, or too many for the page to be reused; on a large one the next
buffer starts behind the packet and ends inside the page, or the page is given up. Without an skb
nothing is done. -/
def pageOk (c : SqRxCfg) (m : SqRxMem) (i size : Nat) (env : SqRxEnv) : Bool :=
  let b := m.bufs i
  (b.skb.isNone && !env.skb) || !env.reusable ||
    if c.pageSize < 8192 then
      match b.cur.page with
      | none => true
      | some p =>
        let used := m.count p - b.cur.pagecntBias + if b.copies size then 0 else 1
        decide (used = 0 ∨ b.cur.reuseBias < used)
    else
      let room := b.frameTruesize c (size - b.skips env.headlen)
      b.copies size || decide (size ≤ room ∧ b.cur.pageOffset + room + rxBuf2048 ≤ c.pageSize ∨
        c.pageSize < b.cur.pageOffset + room)

/-- `idpf_rx_page_rel` for `page_info[k]` of slot `i`. -/
def pageRel (m : SqRxMem) (i : Nat) (k : Bool) : SqRxMem :=
  let b := m.bufs i
  let pinfo := b.info k
  match pinfo.page with
  | none => m
  | some p =>
    (m.setBuf i { b with
        info := Function.update b.info k { pinfo with page := none, pageOffset := 0 } }).setCount p
      (m.count p - pinfo.pagecntBias)

/-- The packet slot `i` keeps is freed. -/
def skbRel (m : SqRxMem) (i : Nat) : SqRxMem :=
  match (m.bufs i).skb with
  | none => m
  | some skb => (m.freeSkb skb).setBuf i { m.bufs i with skb := none }

/-- `idpf_rx_buf_rel`. -/
def bufRel (c : SqRxCfg) (m : SqRxMem) (i : Nat) : SqRxMem :=
  let m := m.pageRel i false
  (if c.pageSize < 8192 ∧ (m.bufs i).bufSize > rxBuf2048 then m.pageRel i true else m).skbRel i

/-- `idpf_rx_buf_rel_all`. -/
def bufRelAll (c : SqRxCfg) (m : SqRxMem) : SqRxMem := (List.range c.descCount).foldl (bufRel c) m

end SqRxMem

/-- Steps that go well: no packet is found behind the last slot posted or has more buffers than an
skb has frags, no XDP program takes one, no page goes back to the ring with octets the stack still
looks at, and no mapping fails. -/
def sqPageOk (c : SqRxCfg) (s : SqRxSystem) : SqRxOp → Bool
  | .turn env =>
    match s.poll with
    | none => true
    | some p =>
      !rxSingleqFinds c s.q.ring p ||
        decide (p.ntc ≠ s.q.nextToAlloc) && (!c.xdp || env.xdp == .pass) &&
          decide ((s.q.mem.bufs p.ntc).frags.length < maxSkbFrags) &&
          s.q.mem.pageOk c p.ntc (rxSingleqExtractSize c.base (s.q.ring p.ntc)) env
  | .finish alloc =>
    match s.poll with
    | none => true
    | some p => (ringSlots c.descCount s.q.nextToAlloc p.cleanedCount).all fun i =>
        (s.q.mem.bufs i).cur.page.isSome || decide (alloc i ≠ .mapFail)
  | _ => true

/-- What the ring promises of its pages and skbs: each page's count is the bias of its slot and
the references from outside, no page has two slots, what a posted slot lets the device write is
inside its page and holds nothing a reference from outside covers, each skb is kept by one slot,
passed up once or freed once, and none has more frags than there is room for. -/
structure SqPageSafe (c : SqRxCfg) (s : SqRxSystem) : Prop where
  count : ∀ i < c.descCount, ∀ p, (s.q.mem.bufs i).cur.page = some p →
    s.q.mem.count p = (s.q.mem.bufs i).cur.pagecntBias + s.q.mem.outsideOn c p
  left : ∀ p, (∀ i < c.descCount, (s.q.mem.bufs i).cur.page ≠ some p) →
    s.q.mem.count p = s.q.mem.outsideOn c p
  owner : ∀ i < c.descCount, ∀ j < c.descCount, ∀ p, (s.q.mem.bufs i).cur.page = some p →
    (s.q.mem.bufs j).cur.page = some p → i = j
  apart : ∀ i < c.descCount, (s.slot i).withDevice = true →
    ∃ p, (s.q.mem.bufs i).cur.page = some p ∧
      (s.slot i = .posted →
        s.q.ring i = ⟨(c.dma p + (s.q.mem.bufs i).cur.pageOffset) % 2 ^ 64, 0⟩) ∧
      (s.q.mem.bufs i).cur.pageOffset + rxBuf2048 ≤ c.pageSize ∧
      ∀ r, s.q.mem.Outside c r → ∀ size, ¬ r.Overlaps p (s.q.mem.bufs i).cur.pageOffset size
  skbs : ∀ id, s.q.mem.ended id + s.q.mem.keptOn c id = if id < s.q.mem.nextSkb then 1 else 0
  frags : ∀ skb, skb ∈ s.q.mem.delivered ∨ (∃ i, (s.q.mem.bufs i).skb = some skb) →
    skb.frags.length ≤ maxSkbFrags

/-- Once the ring is released, only the stack has references and no skb is left behind. -/
structure SqReleased (c : SqRxCfg) (s : SqRxSystem) : Prop where
  count : ∀ p, (s.q.mem.bufRelAll c).count p = s.q.mem.refsOn p
  skbs : ∀ id, (s.q.mem.bufRelAll c).ended id = if id < s.q.mem.nextSkb then 1 else 0

namespace SqRxBuf

@[simp] theorem cur_setCur (b : SqRxBuf) (pinfo : SqPageInfo) : (b.setCur pinfo).cur = pinfo :=
  Function.update_self ..

@[simp] theorem setCur_setCur (b : SqRxBuf) (x y : SqPageInfo) :
    (b.setCur x).setCur y = b.setCur y := by
  simp only [setCur, Function.update_idem]

@[simp] theorem setCur_cur (b : SqRxBuf) : b.setCur b.cur = b := by
  rw [setCur, cur, Function.update_eq_self]

theorem biasOn_of_page {b : SqRxBuf} {p : Nat} (page : b.cur.page = some p) (q : Nat) :
    b.biasOn q = if p = q then b.cur.pagecntBias else 0 := by
  simp only [biasOn, page, Option.some.injEq]

theorem biasOn_of_none {b : SqRxBuf} (page : b.cur.page = none) (q : Nat) : b.biasOn q = 0 := by
  rw [biasOn, page, if_neg (Option.some_ne_none q).symm]

end SqRxBuf

namespace SqRxMem

theorem bufs_setPinfo (m : SqRxMem) (i : Nat) (pinfo : SqPageInfo) :
    (m.setPinfo i pinfo).bufs = Function.update m.bufs i ((m.bufs i).setCur pinfo) := rfl

@[simp] theorem cur_setPinfo (m : SqRxMem) (i : Nat) (pinfo : SqPageInfo) :
    ((m.setPinfo i pinfo).bufs i).cur = pinfo := by
  rw [bufs_setPinfo, Function.update_self, SqRxBuf.cur_setCur]

theorem bufs_setPinfo_ne (m : SqRxMem) {i j : Nat} (pinfo : SqPageInfo) (ne : j ≠ i) :
    (m.setPinfo i pinfo).bufs j = m.bufs j := Function.update_of_ne ne ..

@[simp] theorem skb_setPinfo (m : SqRxMem) (i : Nat) (pinfo : SqPageInfo) (j : Nat) :
    ((m.setPinfo i pinfo).bufs j).skb = (m.bufs j).skb := by
  by_cases here : j = i
  · rw [here, bufs_setPinfo, Function.update_self]
    rfl
  · rw [bufs_setPinfo_ne m pinfo here]

theorem cur_keepSkb (m : SqRxMem) (i : Nat) (skb : SqRxSkb) (x : Nat) :
    ((m.keepSkb i skb).bufs x).cur = (m.bufs x).cur := by
  by_cases here : x = i
  · have kept : (m.keepSkb i skb).bufs i = { m.bufs i with skb := some skb } :=
      Function.update_self ..
    rw [here, kept]
    rfl
  · exact congrArg SqRxBuf.cur (Function.update_of_ne here ..)

@[simp] theorem setPinfo_setPinfo (m : SqRxMem) (i : Nat) (x y : SqPageInfo) :
    (m.setPinfo i x).setPinfo i y = m.setPinfo i y := by
  simp only [setPinfo, setBuf, Function.update_idem, Function.update_self, SqRxBuf.setCur_setCur]

@[simp] theorem setPinfo_cur (m : SqRxMem) (i : Nat) : m.setPinfo i (m.bufs i).cur = m := by
  rw [setPinfo, SqRxBuf.setCur_cur, setBuf, Function.update_eq_self]

end SqRxMem

/-- What the skb of a buffer takes from it: the references it holds in place of as many of the bias,
and where the next buffer of the page starts. -/
structure SqLoan (c : SqRxCfg) (b : SqRxBuf) (p size headlen : Nat) (lent : List PageRef)
    (offset : Nat) : Prop where
  copied : b.copies size = true → lent = [] ∧ offset = b.cur.pageOffset
  frag : b.copies size = false →
    lent = [⟨p, b.cur.pageOffset + b.skips headlen, size - b.skips headlen⟩] ∧
      b.skips headlen ≤ size
  behind : b.copies size = false → 8192 ≤ c.pageSize →
    offset = b.cur.pageOffset + b.frameTruesize c (size - b.skips headlen)
  stays : c.pageSize < 8192 → offset = b.cur.pageOffset

namespace SqRxMem

variable {c : SqRxCfg} {m : SqRxMem} {i p size : Nat} {env : SqRxEnv}

theorem fragOf_page (page : (m.bufs i).cur.page = some p) (start len : Nat) :
    m.fragOf i start len = [⟨p, start, len⟩] := by
  rw [fragOf, page]

/-- A 2K buffer moves within its page only. -/
theorem setBuf_adjustPg (plain : (m.bufs i).bufSize = 0) (pinfo : SqPageInfo) (x : Nat) :
    (m.setPinfo i pinfo).setBuf i (((m.setPinfo i pinfo).bufs i).adjustPg c x) =
      m.setPinfo i { pinfo with
        pageOffset := if c.pageSize < 8192 then pinfo.pageOffset ^^^ x
          else pinfo.pageOffset + x } := by
  have narrow : ((m.setPinfo i pinfo).bufs i).bufSize = 0 := by
    rw [bufs_setPinfo, Function.update_self]
    exact plain
  have moved : ((m.setPinfo i pinfo).bufs i).adjustPg c x =
      ((m.setPinfo i pinfo).bufs i).setCur { pinfo with
        pageOffset := if c.pageSize < 8192 then pinfo.pageOffset ^^^ x
          else pinfo.pageOffset + x } := by
    rw [SqRxBuf.adjustPg, narrow, cur_setPinfo]
    split
    · rw [if_neg (by decide)]
    · rfl
  rw [moved, ← setPinfo, setPinfo_setPinfo]

/-- On a small page a buffer without `buf_size` does not move. -/
theorem xor_frameTruesize (plain : (m.bufs i).bufSize = 0) (small : c.pageSize < 8192)
    (x y : Nat) :
    (if c.pageSize < 8192 then x ^^^ (m.bufs i).frameTruesize c y
      else x + (m.bufs i).frameTruesize c y) = x := by
  rw [if_pos small, SqRxBuf.frameTruesize, if_neg (Nat.not_le.mpr small), plain, Nat.xor_zero]

theorem frameTruesize_setPinfo (pinfo : SqPageInfo) (x : Nat) :
    ((m.setPinfo i pinfo).bufs i).frameTruesize c x = (m.bufs i).frameTruesize c x := by
  rw [bufs_setPinfo, Function.update_self]
  rfl

/-- `idpf_rx_construct_skb` for a packet it copies whole. -/
theorem constructSkb_copy (short : size ≤ rxHdrSize) (pinfo : SqPageInfo) (headlen : Nat) :
    (m.setPinfo i pinfo).constructSkb c i size headlen =
      ({ m with nextSkb := m.nextSkb + 1 }.setPinfo i { pinfo with
          pagecntBias := (pinfo.pagecntBias + 1) % 65536 }, ⟨m.nextSkb, size, []⟩) := by
  simp only [constructSkb, if_neg (Nat.not_lt.mpr short), Nat.sub_self, if_true]
  change (SqRxMem.putBufPage ({ m with nextSkb := m.nextSkb + 1 }.setPinfo i pinfo) i, _) = _
  rw [putBufPage, cur_setPinfo, setPinfo_setPinfo]
  rfl

/-- `idpf_rx_construct_skb` for a packet of which it copies the header. -/
theorem constructSkb_frag (plain : (m.bufs i).bufSize = 0) (long : ¬ size ≤ rxHdrSize)
    (pinfo : SqPageInfo) (page : pinfo.page = some p) (headlen : Nat) :
    let h := min headlen rxHdrSize
    let room := (m.bufs i).frameTruesize c (size - h)
    (m.setPinfo i pinfo).constructSkb c i size headlen =
      ({ m with nextSkb := m.nextSkb + 1 }.setPinfo i { pinfo with
          pageOffset := if c.pageSize < 8192 then pinfo.pageOffset ^^^ room
            else pinfo.pageOffset + room },
        ⟨m.nextSkb, h, [⟨p, pinfo.pageOffset + h, size - h⟩]⟩) := by
  intro h room
  have left : size - min headlen rxHdrSize ≠ 0 := by
    have := Nat.min_le_right headlen rxHdrSize
    omega
  simp only [constructSkb, if_pos (Nat.not_le.mp long), if_neg left]
  let m₁ : SqRxMem := { m with nextSkb := m.nextSkb + 1 }
  have plain₁ : (m₁.bufs i).bufSize = 0 := plain
  have lent := fragOf_page (m := m₁.setPinfo i pinfo) (i := i) (by rw [cur_setPinfo]; exact page)
  change (setBuf (m₁.setPinfo i pinfo) i (((m₁.setPinfo i pinfo).bufs i).adjustPg c
      (((m₁.setPinfo i pinfo).bufs i).frameTruesize c (size - h))),
    SqRxSkb.mk m.nextSkb h ((m₁.setPinfo i pinfo).fragOf i
      (((m₁.setPinfo i pinfo).bufs i).cur.pageOffset + h) (size - h))) = _
  rw [frameTruesize_setPinfo, setBuf_adjustPg plain₁, lent, cur_setPinfo]

/-- An skb is built of slot `i`, whose page lends it what it refers to. -/
theorem rxSingleqBuild_some {m' : SqRxMem} {skb : SqRxSkb} (plain : (m.bufs i).bufSize = 0)
    (page : (m.bufs i).cur.page = some p) (low : 1 ≤ (m.bufs i).cur.pagecntBias)
    (high : (m.bufs i).cur.pagecntBias ≤ 65535)
    (built : rxSingleqBuild c (m.getBufPage i) i size env = some (m', skb)) :
    ∃ lent offset, SqLoan c (m.bufs i) p size env.headlen lent offset ∧
      m' = { m.setPinfo i { (m.bufs i).cur with
          pagecntBias := (m.bufs i).cur.pagecntBias - lent.length
          pageOffset := offset } with
        nextSkb := m.nextSkb + if (m.bufs i).skb.isNone then 1 else 0 } ∧
      skb.id = ((m.bufs i).skb.map (·.id)).getD m.nextSkb ∧
      skb.frags = (m.bufs i).frags ++ lent ∧ ((m.bufs i).skb.isNone && !env.skb) = false := by
  have less : ((m.bufs i).cur.pagecntBias + 65535) % 65536 = (m.bufs i).cur.pagecntBias - 1 := by
    omega
  have back : ((m.bufs i).cur.pagecntBias - 1 + 1) % 65536 = (m.bufs i).cur.pagecntBias := by
    omega
  rw [getBufPage, less] at built
  unfold rxSingleqBuild at built
  rw [skb_setPinfo] at built
  cases old : (m.bufs i).skb with
  | some first =>
      rw [old] at built
      simp only [addFrag, setBuf_adjustPg plain, frameTruesize_setPinfo, cur_setPinfo,
        Option.some.injEq, Prod.mk.injEq] at built
      rw [fragOf_page (by rw [cur_setPinfo]; exact page)] at built
      obtain ⟨rfl, rfl⟩ := built
      have whole : (m.bufs i).copies size = false := by rw [SqRxBuf.copies, old]; rfl
      have start : (m.bufs i).skips env.headlen = 0 := by rw [SqRxBuf.skips, old]; rfl
      refine ⟨[⟨p, (m.bufs i).cur.pageOffset, size⟩], _,
        ⟨fun yes => absurd (whole.symm.trans yes) Bool.false_ne_true,
          fun _ => ⟨by rw [start, Nat.add_zero, Nat.sub_zero], start ▸ Nat.zero_le _⟩,
          fun _ large => ?_, fun small => xor_frameTruesize plain small ..⟩, rfl, rfl, ?_, rfl⟩
      · rw [start, Nat.sub_zero, if_neg (Nat.not_lt.mpr large)]
      · rw [SqRxBuf.frags, old]
  | none =>
      rw [old] at built
      dsimp only at built
      rw [Option.ite_none_right_eq_some] at built
      obtain ⟨memory, built⟩ := built
      have known : ((m.bufs i).skb.isNone && !env.skb) = false := by
        rw [old, memory]
        rfl
      rw [old] at known
      by_cases short : size ≤ rxHdrSize
      · have whole : (m.bufs i).copies size = true := by
          rw [SqRxBuf.copies, old, decide_eq_true short]
          rfl
        rw [constructSkb_copy short, back, Option.some.injEq, Prod.mk.injEq] at built
        obtain ⟨rfl, rfl⟩ := built
        refine ⟨[], (m.bufs i).cur.pageOffset, ⟨fun _ => ⟨rfl, rfl⟩,
          fun no => absurd (whole.symm.trans no) Bool.noConfusion,
          fun no => absurd (whole.symm.trans no) Bool.noConfusion, fun _ => rfl⟩, rfl, rfl, ?_,
          known⟩
        rw [SqRxBuf.frags, old]
        rfl
      · have part : (m.bufs i).copies size = false := by
          rw [SqRxBuf.copies, old, decide_eq_false short]
          rfl
        have start : (m.bufs i).skips env.headlen = min env.headlen rxHdrSize := by
          rw [SqRxBuf.skips, old]
          rfl
        rw [constructSkb_frag plain short
          { (m.bufs i).cur with pagecntBias := (m.bufs i).cur.pagecntBias - 1 } page,
          Option.some.injEq, Prod.mk.injEq] at built
        obtain ⟨rfl, rfl⟩ := built
        refine ⟨[⟨p, (m.bufs i).cur.pageOffset + min env.headlen rxHdrSize,
          size - min env.headlen rxHdrSize⟩], _,
          ⟨fun yes => absurd (part.symm.trans yes) Bool.noConfusion,
            fun _ => ⟨by rw [start], ?_⟩, fun _ large => ?_,
            fun small => xor_frameTruesize plain small ..⟩, rfl, rfl, ?_, known⟩
        · have := Nat.min_le_right env.headlen rxHdrSize
          omega
        · rw [start, if_neg (Nat.not_lt.mpr large)]
        · rw [SqRxBuf.frags, old]
          rfl

/-- Slot `j` gets page `p`, with the references that are its bias. -/
def give (m : SqRxMem) (p j : Nat) (pinfo : SqPageInfo) : SqRxMem :=
  (m.setPinfo j pinfo).setCount p (m.count p + pinfo.pagecntBias)

/-- Slot `i` loses `n` references on page `p`, and what it had. -/
def lose (m : SqRxMem) (i p n : Nat) (b : SqRxBuf) : SqRxMem :=
  (m.setBuf i b).setCount p (m.count p - n)

def topped (c : SqRxCfg) (bias : Nat) : Nat := if bias = c.drainedBias then c.fullBias else bias

end SqRxMem

attribute [ext] SqRxMem

/-- A slot without page and skb. -/
structure SqRxBuf.Empty (b : SqRxBuf) : Prop where
  page : b.cur.page = none
  skb : b.skb = none
  size : b.bufSize = 0
  indx : b.indx = false

namespace SqRxMem

variable {c : SqRxCfg} {m : SqRxMem} {i p : Nat}

theorem topUp_eq (page : (m.bufs i).cur.page = some p) :
    m.topUp c i = (m.setPinfo i { (m.bufs i).cur with
        pagecntBias := topped c (m.bufs i).cur.pagecntBias }).setCount p
      (m.count p + (topped c (m.bufs i).cur.pagecntBias - (m.bufs i).cur.pagecntBias)) := by
  have same : (m.setPinfo i { (m.bufs i).cur with
      pagecntBias := (m.bufs i).cur.pagecntBias }).setCount p (m.count p) = m := by
    rw [setPinfo_cur, setCount, Function.update_eq_self]
  unfold topUp topped SqRxCfg.drainedBias SqRxCfg.fullBias
  dsimp only
  split
  · next none_ => exact absurd (page.symm.trans none_) (Option.some_ne_none p)
  · next q holds =>
    obtain rfl := Option.some.inj (page.symm.trans holds)
    cases c.bulk with
    | true =>
        simp only [if_true]
        split
        · next low => rw [low]
        · rw [Nat.sub_self, Nat.add_zero, same]
    | false =>
        simp only [Bool.false_eq_true, if_false]
        split
        · next low => rw [low]
        · rw [Nat.sub_self, Nat.add_zero, same]

theorem le_topped (c : SqRxCfg) (bias : Nat) : bias ≤ topped c bias := by
  unfold topped
  split
  · next low =>
    rw [low, SqRxCfg.drainedBias, SqRxCfg.fullBias]
    cases c.bulk <;> decide
  · exact le_rfl

/-- A buffer that has been used up is emptied; its page is given to the next slot or given up. -/
theorem recycleBuf_cases (page : (m.bufs i).cur.page = some p) (ne : m.nextToUse ≠ i)
    (size : (m.bufs i).bufSize = 0) (indx : (m.bufs i).indx = false) (reusable : Bool)
    (le : (m.bufs i).cur.pagecntBias ≤ m.count p) :
    ∃ b, b.Empty ∧
      (m.recycleBuf c i reusable = m.lose i p (m.bufs i).cur.pagecntBias b ∨
        m.canReusePage c i reusable = true ∧
        m.recycleBuf c i reusable =
          { (m.lose i p (m.bufs i).cur.pagecntBias b).give p m.nextToUse { (m.bufs i).cur with
              pagecntBias := topped c (m.bufs i).cur.pagecntBias
              reuseBias := (m.bufs m.nextToUse).cur.reuseBias } with
            nextToUse := bump c.descCount m.nextToUse }) := by
  have emptied : ∀ pinfo : SqPageInfo,
      { (m.bufs i).setCur { pinfo with page := none } with skb := none }.Empty := fun pinfo =>
    ⟨congrArg SqPageInfo.page (SqRxBuf.cur_setCur (m.bufs i) _), rfl, size, indx⟩
  unfold recycleBuf
  split
  · next passed =>
    rw [topUp_eq page]
    generalize pinfoEq : ({ (m.bufs i).cur with
      pagecntBias := topped c (m.bufs i).cur.pagecntBias } : SqPageInfo) = pinfo
    have bias : topped c (m.bufs i).cur.pagecntBias = pinfo.pagecntBias := by rw [← pinfoEq]
    have more := le_topped c (m.bufs i).cur.pagecntBias
    refine ⟨_, emptied pinfo, Or.inr ⟨passed, ?_⟩⟩
    refine SqRxMem.ext (funext fun j => ?_) rfl (funext fun q => ?_) rfl rfl rfl rfl rfl
    · by_cases here : j = i
      · subst here
        simp only [clearBuf, reusePage, give, lose, setCount, setBuf, setPinfo,
          Function.update_self, Function.update_of_ne ne, Function.update_of_ne ne.symm,
          SqRxBuf.cur_setCur, SqRxBuf.setCur_setCur]
      · by_cases there : j = m.nextToUse
        · subst there
          simp only [clearBuf, reusePage, give, lose, setCount, setBuf, setPinfo,
            Function.update_self, Function.update_of_ne ne, Function.update_of_ne ne.symm,
            SqRxBuf.cur_setCur, SqRxBuf.setCur_setCur, ← pinfoEq]
        · simp only [clearBuf, reusePage, give, lose, setCount, setBuf, setPinfo,
            Function.update_of_ne here, Function.update_of_ne there]
    · by_cases this : q = p
      · subst this
        simp only [clearBuf, reusePage, give, lose, setCount, setBuf, setPinfo, Function.update_self]
        omega
      · simp only [clearBuf, reusePage, give, lose, setCount, setBuf, setPinfo,
          Function.update_of_ne this]
  · refine ⟨_, emptied (m.bufs i).cur, Or.inl ?_⟩
    rw [drainPage, page]
    rfl

end SqRxMem

/-- The packet a turn has in its hands, as if a slot without page kept it. -/
def sqHand (hand : Option SqRxSkb) : SqRxBuf := { skb := hand }

/-- A reference from outside the ring, or one of the packet at hand. -/
def SqRxMem.Sees (c : SqRxCfg) (m : SqRxMem) (hand : Option SqRxSkb) (r : PageRef) : Prop :=
  m.Outside c r ∨ r ∈ (sqHand hand).frags

/-- No skb, the one at hand included, has more frags than there is room for. -/
def SqRxMem.Short (m : SqRxMem) (hand : Option SqRxSkb) : Prop :=
  (∀ i, (m.bufs i).frags.length ≤ maxSkbFrags) ∧ (sqHand hand).frags.length ≤ maxSkbFrags ∧
    ∀ skb ∈ m.delivered, skb.frags.length ≤ maxSkbFrags

/-- What holds of page `p` with what slot `i` says of it. -/
structure SqSlotOk (c : SqRxCfg) (m : SqRxMem) (hand : Option SqRxSkb) (pinfo : SqPageInfo)
    (p : Nat) : Prop where
  fresh : p < m.fresh
  dma : pinfo.dma = c.dma p
  low : c.drainedBias < pinfo.pagecntBias
  high : pinfo.pagecntBias ≤ c.fullBias
  fits : pinfo.pageOffset + rxBuf2048 ≤ c.pageSize
  clear : ∀ r, m.Sees c hand r → r.page = p →
    8192 ≤ c.pageSize ∧ r.start + r.len ≤ pinfo.pageOffset

/-- Pages and skbs are accounted for, with the packet at hand. -/
structure SqPages (c : SqRxCfg) (m : SqRxMem) (hand : Option SqRxSkb) : Prop where
  plain : ∀ i, (m.bufs i).bufSize = 0 ∧ (m.bufs i).indx = false
  count : ∀ p, m.count p = m.heldOn c p + (m.outsideOn c p + (sqHand hand).fragsOn p)
  owner : ∀ i < c.descCount, ∀ j < c.descCount, ∀ p, (m.bufs i).cur.page = some p →
    (m.bufs j).cur.page = some p → i = j
  slot : ∀ i < c.descCount, ∀ p, (m.bufs i).cur.page = some p →
    SqSlotOk c m hand (m.bufs i).cur p
  below : ∀ r, m.Sees c hand r → r.page < m.fresh
  skbs : ∀ id, m.ended id + (m.keptOn c id + (sqHand hand).keeps id) =
    if id < m.nextSkb then 1 else 0
  short : m.Short hand
  room : rxBuf2048 ≤ c.pageSize

/-- A sum over the slots of which one has changed. -/
theorem sum_slots_move {c : SqRxCfg} {bufs bufs' : Nat → SqRxBuf} {i : Nat} (inside : i < c.descCount)
    (f : SqRxBuf → Nat) (same : ∀ j, j ≠ i → bufs' j = bufs j) :
    (∑ j ∈ Finset.range c.descCount, f (bufs' j)) + f (bufs i) =
      (∑ j ∈ Finset.range c.descCount, f (bufs j)) + f (bufs' i) :=
  sum_range_move inside fun j ne => congrArg f (same j ne)

namespace SqPages

variable {c : SqRxCfg} {m : SqRxMem} {hand : Option SqRxSkb} {i p : Nat}

theorem count_page (v : SqPages c m hand) (inside : i < c.descCount)
    (page : (m.bufs i).cur.page = some p) :
    m.count p = (m.bufs i).cur.pagecntBias + (m.outsideOn c p + (sqHand hand).fragsOn p) := by
  have only : m.heldOn c p = (m.bufs i).cur.pagecntBias := by
    rw [SqRxMem.heldOn, Finset.sum_eq_single_of_mem i (Finset.mem_range.mpr inside)]
    · rw [SqRxBuf.biasOn, if_pos page]
    · intro j member other
      rw [SqRxBuf.biasOn, if_neg]
      exact fun same => other (v.owner j (Finset.mem_range.mp member) i inside p same page)
  rw [v.count, only]

theorem count_other (v : SqPages c m hand) (none_ : ∀ i < c.descCount, (m.bufs i).cur.page ≠ some p) :
    m.count p = m.outsideOn c p + (sqHand hand).fragsOn p := by
  have nothing : m.heldOn c p = 0 :=
    Finset.sum_eq_zero fun j member => by
      rw [SqRxBuf.biasOn, if_neg (none_ j (Finset.mem_range.mp member))]
  rw [v.count, nothing, Nat.zero_add]

end SqPages

theorem SqRxMem.outsideOn_pos {c : SqRxCfg} {m : SqRxMem} {r : PageRef} (seen : m.Outside c r) :
    0 < m.outsideOn c r.page := by
  rcases seen with stack | ⟨i, inside, kept⟩
  · exact Nat.add_pos_left (List.countP_pos_iff.mpr ⟨r, stack, decide_eq_true rfl⟩) _
  · have some_ : 0 < (m.bufs i).fragsOn r.page :=
      List.countP_pos_iff.mpr ⟨r, kept, decide_eq_true rfl⟩
    exact Nat.add_pos_right _ (some_.trans_le
      (Finset.single_le_sum (f := fun i => (m.bufs i).fragsOn r.page) (fun _ _ => Nat.zero_le _)
        (Finset.mem_range.mpr inside)))

namespace SqRxBuf.Empty

variable {b : SqRxBuf}

theorem frags (e : b.Empty) : b.frags = [] := by rw [SqRxBuf.frags, e.skb]

theorem keeps (e : b.Empty) (id : Nat) : b.keeps id = 0 := by
  rw [SqRxBuf.keeps, e.skb, Option.map_none, if_neg (Option.some_ne_none id).symm]

end SqRxBuf.Empty

namespace SqPages

variable {c : SqRxCfg} {m : SqRxMem} {hand : Option SqRxSkb} {i p : Nat}

/-- What is seen once slot `i` has given up its page and its packet is at hand. -/
theorem sees_lose (inside : i < c.descCount) {b : SqRxBuf} {lent : List PageRef}
    {hand : Option SqRxSkb} (frags : ∀ r, r ∈ b.frags ∨ r ∈ (sqHand hand).frags →
      r ∈ (m.bufs i).frags ∨ r ∈ lent) {k : Nat} {r : PageRef}
    (saw : (m.lose i p k b).Sees c hand r) : m.Outside c r ∨ r ∈ lent := by
  have mine : r ∈ b.frags ∨ r ∈ (sqHand hand).frags → m.Outside c r ∨ r ∈ lent :=
    fun h => (frags r h).imp_left fun old => Or.inr ⟨i, inside, old⟩
  rcases saw with (stack | ⟨j, hj, kept⟩) | held
  · exact Or.inl (Or.inl stack)
  · by_cases at_ : j = i
    · rw [at_, show (m.lose i p k b).bufs i = b from Function.update_self ..] at kept
      exact mine (Or.inl kept)
    · rw [show (m.lose i p k b).bufs j = m.bufs j from Function.update_of_ne at_ ..] at kept
      exact Or.inl (Or.inr ⟨j, hj, kept⟩)
  · exact mine (Or.inr held)

/-- A slot gives up its page. Its packet, with the references the page has lent, stays in the slot
or is at hand. -/
theorem lose (v : SqPages c m none) (inside : i < c.descCount)
    (page : (m.bufs i).cur.page = some p) {b : SqRxBuf} (hole : b.cur.page = none)
    (plain : b.bufSize = 0 ∧ b.indx = false) {lent : List PageRef}
    (on : ∀ r ∈ lent, r.page = p) (few : lent.length ≤ (m.bufs i).cur.pagecntBias)
    {hand : Option SqRxSkb} {n : Nat}
    (frags : ∀ r, r ∈ b.frags ∨ r ∈ (sqHand hand).frags → r ∈ (m.bufs i).frags ∨ r ∈ lent)
    (count : ∀ q, b.fragsOn q + (sqHand hand).fragsOn q =
      (m.bufs i).fragsOn q + lent.countP fun r => r.page = q)
    (skbs : ∀ id, b.keeps id + (sqHand hand).keeps id + (if id < m.nextSkb then 1 else 0) =
      (m.bufs i).keeps id + if id < n then 1 else 0)
    (short : b.frags.length ≤ maxSkbFrags ∧ (sqHand hand).frags.length ≤ maxSkbFrags) :
    SqPages c { m.lose i p ((m.bufs i).cur.pagecntBias - lent.length) b with nextSkb := n }
      hand := by
  have balance := v.count_page inside page
  have nothing : (sqHand none).fragsOn p = 0 := rfl
  generalize after : ({ m.lose i p ((m.bufs i).cur.pagecntBias - lent.length) b with
    nextSkb := n } : SqRxMem) = m'
  have other : ∀ j, j ≠ i → m'.bufs j = m.bufs j := fun j ne => by
    rw [← after]
    exact Function.update_of_ne ne ..
  have here : m'.bufs i = b := by
    rw [← after]
    exact Function.update_self ..
  have refs : m'.refs = m.refs := by rw [← after]; rfl
  have fresh : m'.fresh = m.fresh := by rw [← after]; rfl
  have seen : ∀ r, m'.Sees c hand r → m.Outside c r ∨ r ∈ lent := fun r saw =>
    sees_lose inside frags (k := (m.bufs i).cur.pagecntBias - lent.length) (p := p)
      (by rw [← after] at saw; exact saw)
  refine ⟨fun j => ?_, fun q => ?_, fun x hx y hy q => ?_, fun j hj q holds => ?_, fun r h => ?_,
    fun x => ?_, ⟨fun j => ?_, short.2, by rw [← after]; exact v.short.2.2⟩, v.room⟩
  · by_cases at_ : j = i
    · rw [at_, here]
      exact plain
    · rw [other j at_]
      exact v.plain j
  · have bias := sum_slots_move inside (fun b => b.biasOn q) other
    have kept := sum_slots_move inside (fun b => b.fragsOn q) other
    have move := count q
    have old := v.count q
    have idle : (sqHand none).fragsOn q = 0 := rfl
    rw [here, SqRxBuf.biasOn_of_none hole, Nat.add_zero, SqRxBuf.biasOn_of_page page] at bias
    rw [here] at kept
    rw [SqRxMem.heldOn, SqRxMem.outsideOn, SqRxMem.refsOn] at old
    rw [SqRxMem.heldOn, SqRxMem.outsideOn, SqRxMem.refsOn, refs]
    by_cases at_ : q = p
    · have all : lent.countP (fun r => r.page = q) = lent.length :=
        List.countP_eq_length.mpr fun r member => decide_eq_true ((on r member).trans at_.symm)
      have less : m'.count q = m.count q - ((m.bufs i).cur.pagecntBias - lent.length) := by
        rw [← after, at_]
        exact Function.update_self ..
      rw [if_pos at_.symm] at bias
      rw [← at_] at balance
      omega
    · have no : lent.countP (fun r => r.page = q) = 0 :=
        List.countP_eq_zero.mpr fun r member => by
          rw [decide_eq_true_eq, on r member]
          exact fun same => at_ same.symm
      have same : m'.count q = m.count q := by
        rw [← after]
        exact Function.update_of_ne at_ ..
      rw [if_neg (Ne.symm at_)] at bias
      omega
  · by_cases atx : x = i
    · rw [atx, here, hole]
      exact fun no => absurd no (Option.some_ne_none q).symm
    · by_cases aty : y = i
      · rw [aty, here, hole]
        exact fun _ no => absurd no (Option.some_ne_none q).symm
      · rw [other x atx, other y aty]
        exact v.owner x hx y hy q
  · by_cases at_ : j = i
    · rw [at_, here, hole] at holds
      exact absurd holds (Option.some_ne_none q).symm
    · rw [other j at_] at holds ⊢
      have ok := v.slot j hj q holds
      refine ⟨fresh ▸ ok.fresh, ok.dma, ok.low, ok.high, ok.fits, fun r saw same => ?_⟩
      rcases seen r saw with old | new
      · exact ok.clear r (Or.inl old) same
      · exact absurd (v.owner j hj i inside q holds (by rw [page, ← same, on r new])) at_
  · rw [fresh]
    rcases seen r h with old | new
    · exact v.below r (Or.inl old)
    · rw [on r new]
      exact (v.slot i inside p page).fresh
  · have kept := sum_slots_move inside (fun b => b.keeps x) other
    have move := skbs x
    have old := v.skbs x
    have idle : (sqHand none).keeps x = 0 := rfl
    have ended : m'.ended x = m.ended x := by rw [← after]; rfl
    have next : m'.nextSkb = n := by rw [← after]
    rw [here] at kept
    rw [SqRxMem.keptOn] at old ⊢
    rw [ended, next]
    omega
  · by_cases at_ : j = i
    · rw [at_, here]
      exact short.1
    · rw [other j at_]
      exact v.short.1 j

theorem empty_frags {b : SqRxBuf} (empty : b.Empty) {skb : SqRxSkb} {lent : List PageRef}
    (frags : skb.frags = (m.bufs i).frags ++ lent) {r : PageRef}
    (saw : r ∈ b.frags ∨ r ∈ (sqHand (some skb)).frags) : r ∈ (m.bufs i).frags ∨ r ∈ lent := by
  rcases saw with mine | held
  · rw [empty.frags] at mine
    exact absurd mine List.not_mem_nil
  · change r ∈ skb.frags at held
    rwa [frags, List.mem_append] at held

/-- The slot that gives up its page is left empty. -/
theorem loseAll (v : SqPages c m none) (inside : i < c.descCount)
    (page : (m.bufs i).cur.page = some p) {b : SqRxBuf} (empty : b.Empty) {lent : List PageRef}
    (on : ∀ r ∈ lent, r.page = p) (few : lent.length ≤ (m.bufs i).cur.pagecntBias) {skb : SqRxSkb}
    (id : skb.id = ((m.bufs i).skb.map (·.id)).getD m.nextSkb)
    (frags : skb.frags = (m.bufs i).frags ++ lent) (short : skb.frags.length ≤ maxSkbFrags) :
    SqPages c { m.lose i p ((m.bufs i).cur.pagecntBias - lent.length) b with
      nextSkb := m.nextSkb + if (m.bufs i).skb.isNone then 1 else 0 } (some skb) := by
  refine v.lose inside page empty.page ⟨empty.size, empty.indx⟩ on few
    (fun r => empty_frags empty frags) (fun q => ?_) (fun x => ?_)
    ⟨by rw [empty.frags]; exact Nat.zero_le _, short⟩
  · have none_ : b.fragsOn q = 0 := by rw [SqRxBuf.fragsOn, empty.frags, List.countP_nil]
    have mine : (sqHand (some skb)).fragsOn q =
        (m.bufs i).fragsOn q + lent.countP fun r => r.page = q := by
      rw [SqRxBuf.fragsOn, show (sqHand (some skb)).frags = skb.frags from rfl, frags,
        List.countP_append]
      rfl
    rw [none_, mine, Nat.zero_add]
  · have mine : (sqHand (some skb)).keeps x = if skb.id = x then 1 else 0 := by
      simp only [sqHand, SqRxBuf.keeps, Option.map_some, Option.some.injEq]
    rw [empty.keeps, mine, id]
    cases first : (m.bufs i).skb with
    | none =>
        have none_ : (m.bufs i).keeps x = 0 := by
          rw [SqRxBuf.keeps, first, Option.map_none, if_neg (Option.some_ne_none x).symm]
        simp only [Option.map_none, Option.getD_none, Option.isNone_none, if_true, none_]
        split <;> split <;> split <;> omega
    | some one =>
        have some_ : (m.bufs i).keeps x = if one.id = x then 1 else 0 := by
          simp only [SqRxBuf.keeps, first, Option.map_some, Option.some.injEq]
        simp only [Option.map_some, Option.getD_some, Option.isNone_some, Bool.false_eq_true,
          if_false, Nat.add_zero, some_, Nat.zero_add]

/-- A slot without page is given one that no other slot has. -/
theorem give (v : SqPages c m hand) {j : Nat} (inside : j < c.descCount)
    (hole : (m.bufs j).cur.page = none) (pinfo : SqPageInfo) (page : pinfo.page = some p)
    (free : ∀ x < c.descCount, (m.bufs x).cur.page ≠ some p) (ok : SqSlotOk c m hand pinfo p) :
    SqPages c (m.give p j pinfo) hand := by
  have other : ∀ x, x ≠ j → (m.give p j pinfo).bufs x = m.bufs x :=
    fun x ne => Function.update_of_ne ne ..
  have here : (m.give p j pinfo).bufs j = (m.bufs j).setCur pinfo := Function.update_self ..
  have cur : ((m.give p j pinfo).bufs j).cur = pinfo := by rw [here, SqRxBuf.cur_setCur]
  have frags : ∀ x, ((m.give p j pinfo).bufs x).frags = (m.bufs x).frags := by
    intro x
    by_cases at_ : x = j
    · rw [at_, here]
      rfl
    · rw [other x at_]
  have keeps : ∀ x id, ((m.give p j pinfo).bufs x).keeps id = (m.bufs x).keeps id := by
    intro x id
    by_cases at_ : x = j
    · rw [at_, here]
      rfl
    · rw [other x at_]
  have seen : ∀ r, (m.give p j pinfo).Sees c hand r ↔ m.Sees c hand r := by
    intro r
    simp only [SqRxMem.Sees, SqRxMem.Outside, frags]
    rfl
  refine ⟨fun x => ?_, fun q => ?_, fun x hx y hy q hpx hpy => ?_, fun x hx q holds => ?_,
    fun r h => v.below r ((seen r).mp h), fun x => ?_,
    ⟨fun x => by rw [frags]; exact v.short.1 x, v.short.2⟩, v.room⟩
  · by_cases at_ : x = j
    · rw [at_, here]
      exact v.plain j
    · rw [other x at_]
      exact v.plain x
  · have bias := sum_slots_move inside (fun b => b.biasOn q) other
    have kept : (m.give p j pinfo).outsideOn c q = m.outsideOn c q := by
      rw [SqRxMem.outsideOn, SqRxMem.outsideOn]
      simp only [SqRxBuf.fragsOn, frags]
      rfl
    have old := v.count q
    rw [SqRxBuf.biasOn_of_none hole, Nat.add_zero,
      SqRxBuf.biasOn_of_page (by rw [cur]; exact page), cur] at bias
    rw [SqRxMem.heldOn] at old ⊢
    rw [kept]
    by_cases at_ : q = p
    · have more : (m.give p j pinfo).count q = m.count q + pinfo.pagecntBias := by
        rw [at_]
        exact Function.update_self ..
      rw [if_pos at_.symm] at bias
      omega
    · have same : (m.give p j pinfo).count q = m.count q := Function.update_of_ne at_ ..
      rw [if_neg (Ne.symm at_)] at bias
      omega
  · by_cases atx : x = j
    · rw [atx, cur, page] at hpx
      by_cases aty : y = j
      · rw [atx, aty]
      · rw [other y aty] at hpy
        exact absurd (hpy.trans hpx.symm) (free y hy)
    · rw [other x atx] at hpx
      by_cases aty : y = j
      · rw [aty, cur, page] at hpy
        exact absurd (hpx.trans hpy.symm) (free x hx)
      · rw [other y aty] at hpy
        exact v.owner x hx y hy q hpx hpy
  · by_cases at_ : x = j
    · rw [at_, cur] at holds ⊢
      obtain rfl := Option.some.inj (page.symm.trans holds)
      exact ⟨ok.fresh, ok.dma, ok.low, ok.high, ok.fits, fun r saw => ok.clear r ((seen r).mp saw)⟩
    · rw [other x at_] at holds ⊢
      have ok := v.slot x hx q holds
      exact ⟨ok.fresh, ok.dma, ok.low, ok.high, ok.fits, fun r saw => ok.clear r ((seen r).mp saw)⟩
  · have old := v.skbs x
    rw [SqRxMem.keptOn] at old ⊢
    simp only [keeps]
    exact old

/-- What a reference or an skb at hand goes to does not matter to the slots' pages: it is enough
that no more references are seen, and that counts and skbs still add up. -/
theorem handOver (v : SqPages c m hand) {m' : SqRxMem} {hand' : Option SqRxSkb}
    (cur : ∀ x, (m'.bufs x).cur = (m.bufs x).cur)
    (plain : ∀ x, (m'.bufs x).bufSize = (m.bufs x).bufSize ∧ (m'.bufs x).indx = (m.bufs x).indx)
    (fresh : m'.fresh = m.fresh) (seen : ∀ r, m'.Sees c hand' r → m.Sees c hand r)
    (count : ∀ p, m'.count p + (m.outsideOn c p + (sqHand hand).fragsOn p) =
      m.count p + (m'.outsideOn c p + (sqHand hand').fragsOn p))
    (next : m'.nextSkb = m.nextSkb)
    (skbs : ∀ id, m'.ended id + (m'.keptOn c id + (sqHand hand').keeps id) =
      m.ended id + (m.keptOn c id + (sqHand hand).keeps id))
    (short : m'.Short hand') : SqPages c m' hand' := by
  refine ⟨fun x => ?_, fun p => ?_, fun x hx y hy p => ?_, fun x hx p holds => ?_, fun r saw => ?_,
    fun id => ?_, short, v.room⟩
  · rw [(plain x).1, (plain x).2]
    exact v.plain x
  · have old := v.count p
    have move := count p
    have same : m'.heldOn c p = m.heldOn c p := by
      rw [SqRxMem.heldOn, SqRxMem.heldOn]
      simp only [SqRxBuf.biasOn, cur]
    omega
  · rw [cur, cur]
    exact v.owner x hx y hy p
  · rw [cur] at holds ⊢
    have ok := v.slot x hx p holds
    exact ⟨fresh ▸ ok.fresh, ok.dma, ok.low, ok.high, ok.fits,
      fun r saw => ok.clear r (seen r saw)⟩
  · rw [fresh]
    exact v.below r (seen r saw)
  · rw [skbs, next]
    exact v.skbs id

theorem keepSkb {skb : SqRxSkb} (v : SqPages c m (some skb)) (inside : i < c.descCount)
    (idle : (m.bufs i).skb = none) : SqPages c (m.keepSkb i skb) none := by
  have other : ∀ j, j ≠ i → (m.keepSkb i skb).bufs j = m.bufs j :=
    fun j ne => Function.update_of_ne ne ..
  have here : (m.keepSkb i skb).bufs i = { m.bufs i with skb := some skb } :=
    Function.update_self ..
  have nothing : (m.bufs i).frags = [] := by rw [SqRxBuf.frags, idle]
  refine v.handOver (SqRxMem.cur_keepSkb m i skb) (fun x => ?_) rfl (fun r saw => ?_)
    (fun p => ?_) rfl (fun id => ?_) ⟨fun x => ?_, Nat.zero_le _, v.short.2.2⟩
  · by_cases at_ : x = i
    · rw [at_, here]
      exact ⟨rfl, rfl⟩
    · rw [other x at_]
      exact ⟨rfl, rfl⟩
  · rcases saw with (stack | ⟨j, hj, kept⟩) | mine
    · exact Or.inl (Or.inl stack)
    · by_cases at_ : j = i
      · rw [at_, here] at kept
        exact Or.inr kept
      · rw [other j at_] at kept
        exact Or.inl (Or.inr ⟨j, hj, kept⟩)
    · exact absurd mine List.not_mem_nil
  · have kept := sum_slots_move inside (fun b => b.fragsOn p) other
    have none_ : (m.bufs i).fragsOn p = 0 := by rw [SqRxBuf.fragsOn, nothing, List.countP_nil]
    have mine : ((m.keepSkb i skb).bufs i).fragsOn p = (sqHand (some skb)).fragsOn p := by
      rw [here]
      rfl
    have hand : (sqHand none).fragsOn p = 0 := rfl
    have count : (m.keepSkb i skb).count p = m.count p := rfl
    have refs : (m.keepSkb i skb).refsOn p = m.refsOn p := rfl
    rw [SqRxMem.outsideOn, SqRxMem.outsideOn]
    omega
  · have kept := sum_slots_move inside (fun b => b.keeps id) other
    have none_ : (m.bufs i).keeps id = 0 := by
      rw [SqRxBuf.keeps, idle, Option.map_none, if_neg (Option.some_ne_none id).symm]
    have mine : ((m.keepSkb i skb).bufs i).keeps id = (sqHand (some skb)).keeps id := by
      rw [here]
      rfl
    have hand : (sqHand none).keeps id = 0 := rfl
    have ended : (m.keepSkb i skb).ended id = m.ended id := rfl
    rw [SqRxMem.keptOn, SqRxMem.keptOn]
    omega
  · by_cases at_ : x = i
    · rw [at_, here]
      exact v.short.2.1
    · rw [other x at_]
      exact v.short.1 x

theorem keeps_hand (skb : SqRxSkb) (id : Nat) :
    (sqHand (some skb)).keeps id = [skb].countP fun skb => skb.id = id := by
  rw [List.countP_singleton]
  simp only [sqHand, SqRxBuf.keeps, Option.map_some, Option.some.injEq, decide_eq_true_eq]

theorem freeSkb {skb : SqRxSkb} (v : SqPages c m (some skb)) : SqPages c (m.freeSkb skb) none := by
  refine v.handOver (fun _ => rfl) (fun _ => ⟨rfl, rfl⟩) rfl (fun r saw => ?_) (fun p => ?_) rfl
    (fun id => ?_) ⟨v.short.1, Nat.zero_le _, v.short.2.2⟩
  · exact Or.inl (saw.resolve_right List.not_mem_nil)
  · have old := v.count p
    have less : (m.freeSkb skb).count p = m.count p - (sqHand (some skb)).fragsOn p := rfl
    have same : (m.freeSkb skb).outsideOn c p = m.outsideOn c p := rfl
    have hand : (sqHand none).fragsOn p = 0 := rfl
    omega
  · have ended : (m.freeSkb skb).ended id = m.ended id + (sqHand (some skb)).keeps id := by
      rw [keeps_hand, SqRxMem.ended, SqRxMem.ended, SqRxMem.freeSkb, List.countP_append,
        Nat.add_assoc]
    have same : (m.freeSkb skb).keptOn c id = m.keptOn c id := rfl
    have hand : (sqHand none).keeps id = 0 := rfl
    omega

theorem deliver {skb : SqRxSkb} (v : SqPages c m (some skb)) : SqPages c (m.deliver skb) none := by
  refine v.handOver (fun _ => rfl) (fun _ => ⟨rfl, rfl⟩) rfl (fun r saw => ?_) (fun p => ?_) rfl
    (fun id => ?_) ⟨v.short.1, Nat.zero_le _, fun x member => ?_⟩
  · rcases saw with (stack | slot) | mine
    · exact (List.mem_append.mp stack).elim Or.inr fun old => Or.inl (Or.inl old)
    · exact Or.inl (Or.inr slot)
    · exact absurd mine List.not_mem_nil
  · have more : (m.deliver skb).refsOn p = (sqHand (some skb)).fragsOn p + m.refsOn p :=
      List.countP_append
    have count : (m.deliver skb).count p = m.count p := rfl
    have hand : (sqHand none).fragsOn p = 0 := rfl
    rw [SqRxMem.outsideOn, SqRxMem.outsideOn, more, count, hand]
    change _ = _ + (_ + (∑ i ∈ Finset.range c.descCount, (m.bufs i).fragsOn p) + 0)
    omega
  · have ended : (m.deliver skb).ended id = m.ended id + (sqHand (some skb)).keeps id := by
      rw [keeps_hand, SqRxMem.ended, SqRxMem.ended, SqRxMem.deliver, List.countP_append]
      exact Nat.add_right_comm ..
    have same : (m.deliver skb).keptOn c id = m.keptOn c id := rfl
    have hand : (sqHand none).keeps id = 0 := rfl
    omega
  · rcases List.mem_append.mp member with old | new
    · exact v.short.2.2 x old
    · rw [List.mem_singleton.mp new]
      exact v.short.2.1

theorem put (v : SqPages c m none) {r : PageRef} (member : r ∈ m.refs) :
    SqPages c { m.setCount r.page (m.count r.page - 1) with refs := m.refs.erase r } none := by
  refine v.handOver (fun _ => rfl) (fun _ => ⟨rfl, rfl⟩) rfl (fun x saw => ?_) (fun p => ?_) rfl
    (fun _ => rfl) v.short
  · exact saw.imp_left fun outside => outside.imp_left List.mem_of_mem_erase
  · have less : m.refsOn p = (m.refs.erase r).countP (fun x => x.page = p) +
        if r.page = p then 1 else 0 := by
      rw [SqRxMem.refsOn, (List.perm_cons_erase member).countP_eq, List.countP_cons]
      simp only [decide_eq_true_eq]
    have old := v.count p
    rw [SqRxMem.outsideOn] at old ⊢
    rw [SqRxMem.outsideOn]
    change Function.update m.count r.page (m.count r.page - 1) p + _ =
      _ + ((m.refs.erase r).countP (fun x => x.page = p) +
        (∑ i ∈ Finset.range c.descCount, (m.bufs i).fragsOn p) + _)
    by_cases at_ : p = r.page
    · rw [if_pos at_.symm] at less
      rw [at_] at less old ⊢
      rw [Function.update_self]
      omega
    · rw [if_neg (Ne.symm at_)] at less
      rw [Function.update_of_ne at_]
      omega

end SqPages

theorem SqRxCfg.bias_lt (c : SqRxCfg) : c.drainedBias < c.fullBias ∧ c.fullBias ≤ 65535 := by
  unfold drainedBias fullBias
  cases c.bulk <;> decide

theorem SqLoan.length {c : SqRxCfg} {b : SqRxBuf} {p size headlen offset : Nat}
    {lent : List PageRef} (l : SqLoan c b p size headlen lent offset) :
    lent.length = if b.copies size then 0 else 1 := by
  cases whole : b.copies size with
  | true => rw [(l.copied whole).1]; rfl
  | false => rw [(l.frag whole).1]; rfl

theorem SqLoan.length_le {c : SqRxCfg} {b : SqRxBuf} {p size headlen offset : Nat}
    {lent : List PageRef} (l : SqLoan c b p size headlen lent offset) : lent.length ≤ 1 := by
  rw [l.length]
  split <;> decide

/-- What a loan leaves of a page that is reused: nothing outside refers to the octets from the
offset on. -/
theorem SqLoan.clear {c : SqRxCfg} {m : SqRxMem} {i p size offset : Nat} {env : SqRxEnv}
    {lent : List PageRef} (l : SqLoan c (m.bufs i) p size env.headlen lent offset)
    (v : SqPages c m none) (inside : i < c.descCount) (page : (m.bufs i).cur.page = some p)
    (memory : ((m.bufs i).skb.isNone && !env.skb) = false)
    (ok : m.pageOk c i size env = true) (reusable : env.reusable = true)
    (small : c.pageSize < 8192 →
      m.count p - ((m.bufs i).cur.pagecntBias - lent.length) ≤ (m.bufs i).cur.reuseBias)
    (large : ¬ c.pageSize < 8192 → offset ≤ c.pageSize) {r : PageRef}
    (saw : m.Outside c r ∨ r ∈ lent) (on : r.page = p) :
    8192 ≤ c.pageSize ∧ r.start + r.len ≤ offset := by
  have slot := v.slot i inside p page
  have count := v.count_page inside page
  have low := slot.low
  simp only [SqRxMem.pageOk, memory, reusable, Bool.not_true, Bool.or_false, Bool.false_or,
    page] at ok
  split at ok
  · next few =>
    have bound := small few
    have one := l.length_le
    rw [decide_eq_true_eq, ← l.length] at ok
    have idle : (sqHand none).fragsOn p = 0 := rfl
    rcases saw with outside | mine
    · have some_ := SqRxMem.outsideOn_pos outside
      rw [on] at some_
      omega
    · have some_ := List.length_pos_of_mem mine
      omega
  · next many =>
    have bound := large many
    have wide : 8192 ≤ c.pageSize := Nat.not_lt.mp many
    refine ⟨wide, ?_⟩
    simp only [Bool.or_eq_true, decide_eq_true_eq] at ok
    rcases saw with outside | mine
    · have before := (slot.clear r (Or.inl outside) on).2
      cases whole : (m.bufs i).copies size with
      | true =>
          rw [(l.copied whole).2]
          exact before
      | false =>
          rw [l.behind whole wide]
          omega
    · cases whole : (m.bufs i).copies size with
      | true =>
          rw [(l.copied whole).1] at mine
          exact absurd mine List.not_mem_nil
      | false =>
          have room := l.behind whole wide
          obtain ⟨one, skips⟩ := l.frag whole
          rw [one] at mine
          obtain rfl := List.mem_singleton.mp mine
          rw [whole] at ok
          rcases ok with no | ⟨fits, -⟩ | last
          · exact Bool.noConfusion no
          · dsimp only
            omega
          · omega

/-- A page that is reused has room for another buffer. -/
theorem SqLoan.fits {c : SqRxCfg} {m : SqRxMem} {i p size offset : Nat} {env : SqRxEnv}
    {lent : List PageRef} (l : SqLoan c (m.bufs i) p size env.headlen lent offset)
    (v : SqPages c m none) (inside : i < c.descCount) (page : (m.bufs i).cur.page = some p)
    (memory : ((m.bufs i).skb.isNone && !env.skb) = false)
    (ok : m.pageOk c i size env = true) (reusable : env.reusable = true)
    (large : ¬ c.pageSize < 8192 → offset ≤ c.pageSize) : offset + rxBuf2048 ≤ c.pageSize := by
  have before := (v.slot i inside p page).fits
  by_cases small : c.pageSize < 8192
  · rw [l.stays small]
    exact before
  · have bound := large small
    simp only [SqRxMem.pageOk, memory, reusable, Bool.not_true, Bool.or_false, Bool.false_or,
      if_neg small, Bool.or_eq_true, decide_eq_true_eq] at ok
    cases whole : (m.bufs i).copies size with
    | true =>
        rw [(l.copied whole).2]
        exact before
    | false =>
        have behind := l.behind whole (Nat.not_lt.mp small)
        rw [whole] at ok
        rcases ok with no | ⟨-, room⟩ | last
        · exact Bool.noConfusion no
        · rw [behind]
          exact room
        · omega

namespace SqRxMem

variable {c : SqRxCfg} {m : SqRxMem}

theorem canReusePage_some {i p : Nat} {reusable : Bool} (page : (m.bufs i).cur.page = some p)
    (size : (m.bufs i).bufSize = 0) (passed : m.canReusePage c i reusable = true) :
    reusable = true ∧
      (c.pageSize < 8192 → m.count p - (m.bufs i).cur.pagecntBias ≤ (m.bufs i).cur.reuseBias) ∧
      (¬ c.pageSize < 8192 → (m.bufs i).cur.pageOffset ≤ c.pageSize) := by
  unfold canReusePage at passed
  simp only [page, size, Nat.sub_zero, Bool.and_eq_true] at passed
  refine ⟨passed.1, fun small => ?_, fun large => ?_⟩
  · have tests := passed.2
    rw [if_pos small, decide_eq_true_eq] at tests
    exact tests.2
  · have tests := passed.2
    rwa [if_neg large, decide_eq_true_eq] at tests

theorem lose_setPinfo (m : SqRxMem) (i p k n : Nat) (pinfo : SqPageInfo) (b : SqRxBuf) :
    ({ m.setPinfo i pinfo with nextSkb := n } : SqRxMem).lose i p k b =
      { m.lose i p k b with nextSkb := n } := by
  simp only [lose, setBuf, setCount, setPinfo, Function.update_idem]

end SqRxMem

/-- The slots of a memory in which slot `i` has been used: it is left with neither page nor skb, and
its page may have gone to the slot at `next_to_use`. -/
structure SqUsed (c : SqRxCfg) (m m' : SqRxMem) (i : Nat) : Prop where
  page : (m'.bufs i).cur.page = none
  skb : (m'.bufs i).skb = none
  skbs : ∀ x, x ≠ i → (m'.bufs x).skb = (m.bufs x).skb
  other : ∀ x, x ≠ i → x ≠ m.nextToUse → m'.bufs x = m.bufs x
  next : m'.nextToUse = m.nextToUse ∧ m'.bufs m.nextToUse = m.bufs m.nextToUse ∨
    m'.nextToUse = bump c.descCount m.nextToUse ∧
      (m'.bufs m.nextToUse).cur.page.isSome = true

namespace SqUsed

variable {c : SqRxCfg} {m : SqRxMem} {i p : Nat} {b : SqRxBuf}

/-- The page is given up. -/
theorem lose (empty : b.Empty) (ne : m.nextToUse ≠ i) (k next : Nat) :
    SqUsed c m { m.lose i p k b with nextSkb := next } i := by
  have emptied : (m.lose i p k b).bufs i = b := Function.update_self ..
  have others : ∀ x, x ≠ i → (m.lose i p k b).bufs x = m.bufs x :=
    fun x other => Function.update_of_ne other ..
  refine ⟨?_, ?_, fun x other => ?_, fun x other _ => others x other, Or.inl ⟨rfl, ?_⟩⟩
  · exact (congrArg (·.cur.page) emptied).trans empty.page
  · exact (congrArg SqRxBuf.skb emptied).trans empty.skb
  · exact congrArg SqRxBuf.skb (others x other)
  · exact others _ ne

/-- The page goes to the slot at `next_to_use`. -/
theorem give (empty : b.Empty) (ne : m.nextToUse ≠ i) (k next : Nat) {pinfo : SqPageInfo}
    (page : pinfo.page = some p) :
    SqUsed c m { SqRxMem.give { m.lose i p k b with nextSkb := next } p m.nextToUse pinfo with
      nextToUse := bump c.descCount m.nextToUse } i := by
  have used : SqUsed c m { m.lose i p k b with nextSkb := next } i := lose empty ne k next
  have kept : ∀ x, x ≠ m.nextToUse →
      (SqRxMem.give { m.lose i p k b with nextSkb := next } p m.nextToUse pinfo).bufs x =
        (m.lose i p k b).bufs x :=
    fun x other => Function.update_of_ne other ..
  have taken : (SqRxMem.give { m.lose i p k b with nextSkb := next } p m.nextToUse pinfo).bufs
      m.nextToUse = ((m.lose i p k b).bufs m.nextToUse).setCur pinfo := Function.update_self ..
  refine ⟨?_, ?_, fun x other => ?_, fun x other away => (kept x away).trans (used.other x other away),
    Or.inr ⟨rfl, ?_⟩⟩
  · exact (congrArg (·.cur.page) (kept i ne.symm)).trans used.page
  · exact (congrArg SqRxBuf.skb (kept i ne.symm)).trans used.skb
  · by_cases next : x = m.nextToUse
    · rw [next]
      exact (congrArg SqRxBuf.skb taken).trans (used.skbs _ ne)
    · exact (congrArg SqRxBuf.skb (kept x next)).trans (used.skbs x other)
  · have holds := congrArg (·.cur.page.isSome) taken
    dsimp only at holds
    rw [SqRxBuf.cur_setCur, page] at holds
    exact holds

end SqUsed

/-- A packet's buffer is made part of an skb and recycled. -/
theorem SqPages.use {c : SqRxCfg} {m m₁ : SqRxMem} {i p size : Nat} {env : SqRxEnv} {skb : SqRxSkb}
    (v : SqPages c m none) (inside : i < c.descCount) (page : (m.bufs i).cur.page = some p)
    (there : m.nextToUse < c.descCount) (ne : m.nextToUse ≠ i)
    (hole : (m.bufs m.nextToUse).cur.page = none) (few : (m.bufs i).frags.length < maxSkbFrags)
    (ok : m.pageOk c i size env = true)
    (built : rxSingleqBuild c (m.getBufPage i) i size env = some (m₁, skb)) :
    SqPages c (m₁.recycleBuf c i env.reusable) (some skb) ∧
      SqUsed c m (m₁.recycleBuf c i env.reusable) i := by
  have slot := v.slot i inside p page
  have low := slot.low
  have high := slot.high
  have bias := c.bias_lt
  have plain := v.plain i
  have count := v.count_page inside page
  obtain ⟨lent, offset, loan, eq, id, frags, memory⟩ :=
    SqRxMem.rxSingleqBuild_some plain.1 page (by omega) (by omega) built
  have one := loan.length_le
  have on : ∀ r ∈ lent, r.page = p := by
    intro r member
    cases whole : (m.bufs i).copies size with
    | true =>
        rw [(loan.copied whole).1] at member
        exact absurd member List.not_mem_nil
    | false =>
        rw [(loan.frag whole).1] at member
        rw [List.mem_singleton.mp member]
  have here : m₁.bufs i = (m.bufs i).setCur { (m.bufs i).cur with
      pagecntBias := (m.bufs i).cur.pagecntBias - lent.length, pageOffset := offset } := by
    rw [eq]
    exact Function.update_self ..
  have there_ : m₁.bufs m.nextToUse = m.bufs m.nextToUse := by
    rw [eq]
    exact Function.update_of_ne ne ..
  have cur := congrArg SqRxBuf.cur here
  rw [SqRxBuf.cur_setCur] at cur
  have ntu : m₁.nextToUse = m.nextToUse := by rw [eq]; rfl
  have counts : m₁.count = m.count := by rw [eq]; rfl
  obtain ⟨b, empty, recycled⟩ := SqRxMem.recycleBuf_cases (c := c) (m := m₁) (i := i) (p := p)
    (by rw [cur]; exact page) (ntu ▸ ne) (by rw [here]; exact plain.1) (by rw [here]; exact plain.2)
    env.reusable (by rw [cur, counts]; dsimp only; omega)
  have short : skb.frags.length ≤ maxSkbFrags := by
    rw [frags, List.length_append]
    omega
  have base := v.loseAll inside page empty on (by omega) id frags short
  have lost : ∀ k, m₁.lose i p k b = { m.lose i p k b with
      nextSkb := m.nextSkb + if (m.bufs i).skb.isNone then 1 else 0 } := fun k => by
    rw [eq, SqRxMem.lose_setPinfo]
  rw [cur, ntu, there_, lost] at recycled
  dsimp only at recycled
  generalize left : (m.bufs i).cur.pagecntBias - lent.length = k at recycled base cur
  generalize n : (m.nextSkb + if (m.bufs i).skb.isNone then 1 else 0) = next at recycled base
  rcases recycled with dropped | ⟨passed, reused⟩
  · rw [dropped]
    exact ⟨base, .lose empty ne k next⟩
  · rw [reused]
    obtain ⟨reusable, small, large⟩ := SqRxMem.canReusePage_some (by rw [cur]; exact page)
      (by rw [here]; exact plain.1) passed
    rw [cur, counts] at small
    rw [cur] at large
    rw [← left] at small
    have others : ∀ x, x ≠ i → (m.lose i p k b).bufs x = m.bufs x :=
      fun x other => Function.update_of_ne other ..
    have free : ∀ x < c.descCount, ((m.lose i p k b).bufs x).cur.page ≠ some p := by
      intro x hx holds
      by_cases at_ : x = i
      · have emptied : (m.lose i p k b).bufs i = b := Function.update_self ..
        rw [at_, emptied, empty.page] at holds
        exact Option.some_ne_none p holds.symm
      · rw [others x at_] at holds
        exact at_ (v.owner x hx i inside p holds page)
    have stocked : c.drainedBias < SqRxMem.topped c k ∧ SqRxMem.topped c k ≤ c.fullBias := by
      unfold SqRxMem.topped
      split <;> omega
    let pinfo : SqPageInfo := { (m.bufs i).cur with
      pageOffset := offset
      pagecntBias := SqRxMem.topped c k
      reuseBias := (m.bufs m.nextToUse).cur.reuseBias }
    have slotOk : SqSlotOk c { m.lose i p k b with nextSkb := next } (some skb) pinfo p :=
      ⟨slot.fresh, slot.dma, stocked.1, stocked.2,
        loan.fits v inside page memory ok reusable large, fun r saw same =>
        loan.clear v inside page memory ok reusable small large
          (SqPages.sees_lose (k := k) (p := p) inside
            (fun _ => SqPages.empty_frags empty frags) saw) same⟩
    have given := base.give there ((congrArg (·.cur.page) (others _ ne)).trans hole) pinfo page free
      slotOk
    exact ⟨given.handOver (fun _ => rfl) (fun _ => ⟨rfl, rfl⟩) rfl (fun _ saw => saw)
      (fun _ => rfl) rfl (fun _ => rfl) given.short, .give empty ne k next page⟩

namespace SqPages

variable {c : SqRxCfg} {m : SqRxMem} {i : Nat}

theorem count_fresh (v : SqPages c m none) : m.count m.fresh = 0 := by
  have unseen : ∀ r, m.Outside c r → r.page ≠ m.fresh := fun r saw => (v.below r (Or.inl saw)).ne
  have stack : m.refsOn m.fresh = 0 :=
    List.countP_eq_zero.mpr fun r member => by
      rw [decide_eq_true_eq]
      exact unseen r (Or.inl member)
  have slots : ∑ i ∈ Finset.range c.descCount, (m.bufs i).fragsOn m.fresh = 0 :=
    Finset.sum_eq_zero fun i inside => List.countP_eq_zero.mpr fun r member => by
      rw [decide_eq_true_eq]
      exact unseen r (Or.inr ⟨i, Finset.mem_range.mp inside, member⟩)
  rw [v.count_other fun i hi holds => (v.slot i hi _ holds).fresh.false, SqRxMem.outsideOn, stack,
    slots]
  rfl

theorem take (v : SqPages c m none) : SqPages c { m with fresh := m.fresh + 1 } none :=
  ⟨v.plain, v.count, v.owner,
    fun i hi p holds =>
      have ok := v.slot i hi p holds
      ⟨Nat.lt_succ_of_lt ok.fresh, ok.dma, ok.low, ok.high, ok.fits, ok.clear⟩,
    fun r saw => Nat.lt_succ_of_lt (v.below r saw), v.skbs, v.short, v.room⟩

theorem fillBuf_ok (v : SqPages c m none) (hole : (m.bufs i).cur.page = none) :
    m.fillBuf c i .ok = (SqRxMem.give { m with fresh := m.fresh + 1 } m.fresh i
      { (m.bufs i).cur with
        page := some m.fresh
        dma := c.dma m.fresh
        pageOffset := 0
        pagecntBias := c.fullBias
        reuseBias := 1 }, true) := by
  have none_ : ¬ (m.bufs i).cur.page.isSome = true := by
    rw [hole]
    exact Bool.false_ne_true
  unfold SqRxMem.fillBuf
  rw [if_neg none_]
  dsimp only
  rw [if_pos rfl]
  refine Prod.ext (SqRxMem.ext (funext fun j => ?_) rfl (funext fun q => ?_) rfl rfl rfl rfl rfl) rfl
  · by_cases at_ : j = i
    · rw [at_]
      simp only [SqRxMem.allocPage, SqRxMem.give, SqRxMem.setCount, SqRxMem.setPinfo,
        SqRxMem.setBuf, Function.update_self, SqRxBuf.cur_setCur, SqRxBuf.setCur_setCur,
        SqRxCfg.fullBias]
    · simp only [SqRxMem.allocPage, SqRxMem.give, SqRxMem.setCount, SqRxMem.setPinfo,
        SqRxMem.setBuf, Function.update_of_ne at_]
  · simp only [SqRxMem.allocPage, SqRxMem.give, SqRxMem.setCount, SqRxMem.setPinfo,
      SqRxMem.setBuf, v.count_fresh, Nat.zero_add, SqRxCfg.fullBias]

/-- A slot gets a page where it has none, or stays as it is when there is no memory. -/
theorem fillBuf (v : SqPages c m none) (inside : i < c.descCount) {alloc : PageAlloc}
    (mapped : (m.bufs i).cur.page.isSome = true ∨ alloc ≠ .mapFail) :
    SqPages c (m.fillBuf c i alloc).1 none ∧
      (m.fillBuf c i alloc).1.nextToUse = m.nextToUse ∧
      (∀ j ≠ i, (m.fillBuf c i alloc).1.bufs j = m.bufs j) ∧
      ((m.fillBuf c i alloc).1.bufs i).skb = (m.bufs i).skb ∧
      ((m.fillBuf c i alloc).2 = true → ((m.fillBuf c i alloc).1.bufs i).cur.page.isSome = true) ∧
      ((m.fillBuf c i alloc).2 = false → (m.bufs i).cur.page = none ∧ alloc ≠ .ok ∧
        (m.fillBuf c i alloc).1 = m) := by
  by_cases has : (m.bufs i).cur.page.isSome = true
  · rw [SqRxMem.fillBuf, if_pos has]
    exact ⟨v, rfl, fun _ _ => rfl, rfl, fun _ => has, fun no => absurd no Bool.noConfusion⟩
  · have hole : (m.bufs i).cur.page = none := by simpa using has
    cases alloc with
    | mapFail => exact absurd rfl (mapped.resolve_left has)
    | noMem =>
        have same : ({ (m.bufs i).cur with page := none } : SqPageInfo) = (m.bufs i).cur := by
          rw [← hole]
        have stays : m.fillBuf c i .noMem = (m, false) := by
          rw [SqRxMem.fillBuf, if_neg has]
          dsimp only
          rw [if_neg PageAlloc.noConfusion, SqRxMem.allocPage, same, SqRxMem.setPinfo_cur]
        rw [stays]
        exact ⟨v, rfl, fun _ _ => rfl, rfl, fun no => absurd no Bool.noConfusion,
          fun _ => ⟨hole, PageAlloc.noConfusion, rfl⟩⟩
    | ok =>
        have bias := c.bias_lt
        rw [v.fillBuf_ok hole]
        refine ⟨v.take.give inside hole _ rfl (fun x hx holds => (v.slot x hx _ holds).fresh.false)
          ⟨Nat.lt_succ_self _, rfl, bias.1, le_rfl, by rw [Nat.zero_add]; exact v.room,
            fun r saw on => ?_⟩, rfl,
          fun j ne => Function.update_of_ne ne .., ?_, fun _ => ?_,
          fun no => absurd no Bool.noConfusion⟩
        · exact absurd on (v.below r saw).ne
        · exact SqRxMem.skb_setPinfo ..
        · exact congrArg (·.page.isSome) (SqRxMem.cur_setPinfo ..)

end SqPages

/-- `j` slots from `nta` on have been posted with a page each. -/
structure SqPosted (c : SqRxCfg) (ring ring' : Nat → SqRxDesc) (m m' : SqRxMem) (nta j : Nat) :
    Prop where
  pages : SqPages c m' none
  next : m'.nextToUse = m.nextToUse
  skb : ∀ i, (m'.bufs i).skb = (m.bufs i).skb
  posted : ∀ i ∈ ringSlots c.descCount nta j,
    (m'.bufs i).cur.page.isSome = true ∧ ring' i = m'.bufDesc i
  other : ∀ i, i ∉ ringSlots c.descCount nta j → ring' i = ring i ∧ m'.bufs i = m.bufs i

/-- Posting ends where there is no page to be had, if not before. -/
theorem SqPages.allocLoop {c : SqRxCfg} {alloc : Nat → PageAlloc} {k : Nat} :
    ∀ {ring : Nat → SqRxDesc} {m : SqRxMem} {nta : Nat}, SqPages c m none → k ≤ c.descCount →
      nta < c.descCount →
      (∀ i ∈ ringSlots c.descCount nta k,
        (m.bufs i).cur.page.isSome = true ∨ alloc i ≠ .mapFail) →
      ∃ ring' m' j, j ≤ k ∧
        rxSingleqAllocLoop c alloc k ring m nta =
          (ring', m', (nta + j) % c.descCount, k - j) ∧
        SqPosted c ring ring' m m' nta j ∧
        (j < k → (m.bufs ((nta + j) % c.descCount)).cur.page = none ∧
          alloc ((nta + j) % c.descCount) ≠ .ok) := by
  induction k with
  | zero =>
      intro ring m nta v _ inside _
      refine ⟨ring, m, 0, le_rfl, ?_, ⟨v, rfl, fun _ => rfl, fun i member => ?_,
        fun _ _ => ⟨rfl, rfl⟩⟩, fun no => absurd no (Nat.lt_irrefl 0)⟩
      · rw [rxSingleqAllocLoop, Nat.add_zero, Nat.mod_eq_of_lt inside]
      · exact absurd member List.not_mem_nil
  | succ k ih =>
      intro ring m nta v lap inside mapped
      have slots := ringSlots_cons c.descCount nta k
      have nodup := ringSlots_nodup nta lap
      rw [Nat.mod_eq_of_lt inside] at slots
      rw [slots] at mapped nodup
      obtain ⟨fresh, -⟩ := List.nodup_cons.mp nodup
      have after : bump c.descCount nta = (nta + 1) % c.descCount := by
        have h := bump_mod (Nat.zero_lt_of_lt inside) nta
        rwa [Nat.mod_eq_of_lt inside] at h
      obtain ⟨pages, next, others, skb, filled, failed⟩ :=
        v.fillBuf inside (mapped nta List.mem_cons_self)
      cases got : (m.fillBuf c nta (alloc nta)).2 with
      | false =>
          obtain ⟨hole, noMem, same⟩ := failed got
          refine ⟨ring, m, 0, Nat.zero_le _, ?_, ⟨v, rfl, fun _ => rfl, fun i member => ?_,
            fun _ _ => ⟨rfl, rfl⟩⟩, fun _ => ?_⟩
          · rw [rxSingleqAllocLoop, if_neg (by rw [got]; exact Bool.false_ne_true), same,
              show (nta + 0) % c.descCount = nta from Nat.mod_eq_of_lt inside, Nat.sub_zero]
          · exact absurd member List.not_mem_nil
          · rw [Nat.add_zero, Nat.mod_eq_of_lt inside]
            exact ⟨hole, noMem⟩
      | true =>
          obtain ⟨ring', m', j, le, loop, posted, stuck⟩ := @ih
            (Function.update ring nta ((m.fillBuf c nta (alloc nta)).1.bufDesc nta)) _ _ pages
            (Nat.le_of_succ_le lap) (bump_lt inside) (fun i member => by
              rw [after, ringSlots_mod] at member
              have other : i ≠ nta := fun same => fresh (same ▸ member)
              rw [others i other]
              exact mapped i (List.mem_cons_of_mem _ member))
          have cons := ringSlots_cons c.descCount nta j
          rw [Nat.mod_eq_of_lt inside] at cons
          have apart : nta ∉ ringSlots c.descCount (bump c.descCount nta) j := by
            rw [after, ringSlots_mod]
            exact fun member => fresh (ringSlots_subset le member)
          have tail : ringSlots c.descCount (bump c.descCount nta) j =
              ringSlots c.descCount (nta + 1) j := by rw [after, ringSlots_mod]
          have stop : (bump c.descCount nta + j) % c.descCount = (nta + (j + 1)) % c.descCount := by
            rw [after, Nat.mod_add_mod, Nat.add_assoc, Nat.add_comm 1 j]
          refine ⟨ring', m', j + 1, Nat.succ_le_succ le, ?_, ⟨posted.pages, posted.next.trans next,
            fun i => ?_, fun i member => ?_, fun i member => ?_⟩, fun short => ?_⟩
          · rw [rxSingleqAllocLoop, if_pos got, loop, stop, Nat.add_sub_add_right]
          · rw [posted.skb]
            by_cases at_ : i = nta
            · rw [at_, skb]
            · rw [others i at_]
          · rw [cons] at member
            rcases List.mem_cons.mp member with rfl | later
            · obtain ⟨desc, buf⟩ := posted.other i apart
              have same : m'.bufDesc i = (m.fillBuf c i (alloc i)).1.bufDesc i := by
                rw [SqRxMem.bufDesc, SqRxMem.bufDesc, buf]
              rw [desc, buf, Function.update_self, same]
              exact ⟨filled got, rfl⟩
            · exact posted.posted i (tail ▸ later)
          · rw [cons, List.mem_cons, not_or] at member
            obtain ⟨desc, buf⟩ := posted.other i (tail ▸ member.2)
            rw [desc, buf, Function.update_of_ne member.1]
            exact ⟨rfl, others i member.1⟩
          · obtain ⟨hole, noMem⟩ := stuck (Nat.lt_of_succ_lt_succ short)
            rw [stop] at hole noMem
            refine ⟨?_, noMem⟩
            by_cases at_ : (nta + (j + 1)) % c.descCount = nta
            · rw [at_] at hole
              rw [hole] at filled
              exact absurd (filled got) Bool.false_ne_true
            · rwa [others _ at_] at hole

/-- The written slots `a..b`, the posted ones `b..e`, those given a page again `e..u` and the rest
of a lap, whose slots have none. -/
structure SqPlaces (c : SqRxCfg) (s : SqRxSystem) (a b e u : Nat) : Prop where
  order : a ≤ b ∧ b ≤ e ∧ e ≤ u
  lap : u ≤ e + s.cleaned ∧ e + s.cleaned + 1 ≤ a + c.descCount
  ntc : s.ntc = a % c.descCount
  head : s.head = b % c.descCount
  nta : s.q.nextToAlloc = e % c.descCount
  tail : s.q.tail = e % c.descCount
  ntu : s.q.mem.nextToUse = u % c.descCount
  written : ∀ x, a ≤ x → x < b → s.slot (x % c.descCount) = .written
  posted : ∀ x, b ≤ x → x < e → s.slot (x % c.descCount) = .posted ∧
    s.q.ring (x % c.descCount) = s.q.mem.bufDesc (x % c.descCount)
  rest : ∀ x, e ≤ x → x < a + c.descCount → (s.slot (x % c.descCount)).withDevice = false
  page : ∀ x, a ≤ x → x < u → (s.q.mem.bufs (x % c.descCount)).cur.page.isSome = true
  hole : ∀ x, u ≤ x → x < a + c.descCount → (s.q.mem.bufs (x % c.descCount)).cur.page = none
  skb : ∀ x, a < x → x < a + c.descCount → (s.q.mem.bufs (x % c.descCount)).skb = none

namespace SqPlaces

variable {c : SqRxCfg} {s t : SqRxSystem} {a b e u : Nat}

theorem ntc_poll (v : SqPlaces c s a b e u) {p : SqRxPoll} (poll : s.poll = some p) :
    p.ntc = a % c.descCount := by
  have h := v.ntc
  rwa [SqRxSystem.ntc, poll] at h

theorem found (v : SqPlaces c s a b e u) {p : SqRxPoll} (poll : s.poll = some p)
    (finds : rxSingleqFinds c s.q.ring p = true) (behind : p.ntc ≠ s.q.nextToAlloc) : a < b := by
  have here := v.ntc_poll poll
  have order := v.order
  by_contra none_
  obtain rfl : a = b := by omega
  rcases Nat.lt_or_ge a e with inside | past
  · have blank := (v.posted a le_rfl inside).2
    rw [← here] at blank
    rw [rxSingleqFinds_blank (congrArg SqRxDesc.qword1 blank)] at finds
    exact Bool.noConfusion finds
  · obtain rfl : a = e := by omega
    exact behind (here.trans v.nta.symm)

theorem write (v : SqPlaces c s a b e u) {d : SqRxDesc} (go : s.step c (.write d) = some t) :
    SqPlaces c t a (b + 1) e u := by
  simp only [SqRxSystem.step, Option.ite_none_left_eq_some, Option.some.injEq] at go
  obtain ⟨room, rfl⟩ := go
  have order := v.order
  have lap := v.lap
  have ring := c.ring
  have more : b ≠ e := by
    rintro rfl
    exact room (v.head.trans v.tail.symm)
  refine ⟨⟨by omega, by omega, by omega⟩, v.lap, v.ntc, ?_, v.nta, v.tail, v.ntu,
    fun x low high => ?_, fun x low high => ?_, fun x low high => ?_, v.page, v.hole, v.skb⟩
  · rw [← bump_mod (by omega), ← v.head]
  · dsimp only
    rw [v.head]
    by_cases last : x = b
    · rw [last, Function.update_self]
    · rw [update_mod_ne _ _ last (by omega) (by omega)]
      exact v.written x low (by omega)
  · dsimp only
    rw [v.head, update_mod_ne _ _ (by omega) (by omega) (by omega),
      update_mod_ne _ _ (by omega) (by omega) (by omega)]
    exact v.posted x (by omega) high
  · dsimp only
    rw [v.head, update_mod_ne _ _ (by omega) (by omega) (by omega)]
    exact v.rest x low high

end SqPlaces

/-- A turn has taken slot `i`, and the packet may go on in slot `n`. -/
structure SqTaken (c : SqRxCfg) (m m' : SqRxMem) (i n : Nat) : Prop where
  page : (m'.bufs i).cur.page = none
  cur : ∀ x, x ≠ i → x ≠ m.nextToUse → (m'.bufs x).cur = (m.bufs x).cur
  skb : ∀ x, x ≠ n → x = i ∨ (m.bufs x).skb = none → (m'.bufs x).skb = none
  next : m'.nextToUse = m.nextToUse ∧
      (m'.bufs m.nextToUse).cur = (m.bufs m.nextToUse).cur ∨
    m'.nextToUse = bump c.descCount m.nextToUse ∧
      (m'.bufs m.nextToUse).cur.page.isSome = true

theorem SqUsed.taken {c : SqRxCfg} {m m₂ m' : SqRxMem} {i n : Nat} (h : SqUsed c m m₂ i)
    (cur : ∀ x, (m'.bufs x).cur = (m₂.bufs x).cur)
    (skb : ∀ x, x ≠ n → (m'.bufs x).skb = (m₂.bufs x).skb)
    (next : m'.nextToUse = m₂.nextToUse) : SqTaken c m m' i n := by
  refine ⟨?_, fun x here there => ?_, fun x other idle => ?_, ?_⟩
  · rw [cur]
    exact h.page
  · rw [cur, h.other x here there]
  · rw [skb x other]
    by_cases at_ : x = i
    · rw [at_]
      exact h.skb
    · rw [h.skbs x at_]
      exact idle.resolve_left at_
  · rw [next, cur]
    exact h.next.imp_left fun ⟨same, buf⟩ => ⟨same, congrArg SqRxBuf.cur buf⟩

theorem SqRxMem.getBufPage_putBufPage {m : SqRxMem} {i : Nat}
    (high : (m.bufs i).cur.pagecntBias ≤ 65535) : (m.getBufPage i).putBufPage i = m := by
  have back : ((m.bufs i).cur.pagecntBias + 65535) % 65536 + 1 = (m.bufs i).cur.pagecntBias ∨
      (m.bufs i).cur.pagecntBias = 0 := by omega
  have same : (((m.bufs i).cur.pagecntBias + 65535) % 65536 + 1) % 65536 =
      (m.bufs i).cur.pagecntBias := by omega
  rw [putBufPage, getBufPage, cur_setPinfo, setPinfo_setPinfo]
  dsimp only
  rw [same, setPinfo_cur]

/-- A turn stops with nothing done, or takes a packet the device has written. -/
theorem SqPages.turn {c : SqRxCfg} {s : SqRxSystem} {a b e u : Nat} {p : SqRxPoll} {env : SqRxEnv}
    (v : SqPages c s.q.mem none) (w : SqPlaces c s a b e u) (poll : s.poll = some p)
    (ok : sqPageOk c s (.turn env) = true) :
    rxSingleqTurn c s.q.ring s.q.mem p env = (s.q.mem, p.stop) ∨
      a < b ∧ SqPages c (rxSingleqTurn c s.q.ring s.q.mem p env).1 none ∧
        SqTaken c s.q.mem (rxSingleqTurn c s.q.ring s.q.mem p env).1 (a % c.descCount)
          ((a + 1) % c.descCount) ∧
        ((rxSingleqTurn c s.q.ring s.q.mem p env).2 = p.next c ∨
          (rxSingleqTurn c s.q.ring s.q.mem p env).2 = (p.next c).packet) := by
  cases finds : rxSingleqFinds c s.q.ring p with
  | false => exact Or.inl (rxSingleqTurn_stop finds)
  | true =>
      simp only [sqPageOk, poll, finds, Bool.not_true, Bool.false_or, Bool.and_eq_true,
        decide_eq_true_eq] at ok
      obtain ⟨⟨⟨behind, pass⟩, few⟩, pageOk⟩ := ok
      have ready := w.found poll finds behind
      have order := w.order
      have lap := w.lap
      have ring := c.ring
      have here := w.ntc_poll poll
      have inside : p.ntc < c.descCount := here ▸ Nat.mod_lt _ (by omega)
      obtain ⟨pg, page⟩ := Option.isSome_iff_exists.mp (w.page a le_rfl (by omega))
      rw [← here] at page
      have high := (v.slot _ inside pg page).high
      have bias := c.bias_lt
      have noXdp : (c.xdp && env.xdp != .pass) = false := by
        cases on : c.xdp with
        | false => rfl
        | true =>
            rw [on] at pass
            simpa using pass
      unfold rxSingleqTurn
      simp only [finds, Bool.not_true, Bool.false_eq_true, if_false, noXdp]
      cases built : rxSingleqBuild c (s.q.mem.getBufPage p.ntc) p.ntc
          (rxSingleqExtractSize c.base (s.q.ring p.ntc)) env with
      | none =>
          refine Or.inl ?_
          dsimp only
          rw [SqRxMem.getBufPage_putBufPage (by omega)]
      | some r =>
          obtain ⟨m₁, skb⟩ := r
          have ne : s.q.mem.nextToUse ≠ p.ntc := by
            rw [w.ntu, here]
            exact (mod_ne_of_near (by omega) (by omega)).symm
          have hole : (s.q.mem.bufs s.q.mem.nextToUse).cur.page = none := by
            rw [w.ntu]
            exact w.hole u le_rfl (by omega)
          obtain ⟨pages, used⟩ := v.use inside page
            (by rw [w.ntu]; exact Nat.mod_lt _ (by omega)) ne hole few pageOk built
          have next : (p.next c).ntc = (a + 1) % c.descCount := by
            rw [SqRxPoll.next, here]
            exact bump_mod (by omega) a
          have idle : ((m₁.recycleBuf c p.ntc env.reusable).bufs ((a + 1) % c.descCount)).skb =
              none := by
            rw [used.skbs _ (by rw [here]; exact (mod_ne_of_near (by omega) (by omega)).symm)]
            exact w.skb (a + 1) (by omega) (by omega)
          refine Or.inr ⟨ready, ?_⟩
          rw [← here]
          unfold rxSingleqFinish
          dsimp only
          split
          · rw [next]
            exact ⟨pages.keepSkb (Nat.mod_lt _ (by omega)) idle,
              used.taken (SqRxMem.cur_keepSkb _ _ _)
                (fun x other => congrArg SqRxBuf.skb (Function.update_of_ne other ..)) rfl,
              Or.inl rfl⟩
          · split
            · exact ⟨pages.freeSkb, used.taken (fun _ => rfl) (fun _ _ => rfl) rfl, Or.inl rfl⟩
            · exact ⟨pages.deliver, used.taken (fun _ => rfl) (fun _ _ => rfl) rfl, Or.inr rfl⟩

namespace SqPlaces

variable {c : SqRxCfg} {s t : SqRxSystem} {a b e u : Nat}

theorem stop (v : SqPlaces c s a b e u) {p : SqRxPoll} (poll : s.poll = some p) {env : SqRxEnv}
    (stops : rxSingleqTurn c s.q.ring s.q.mem p env = (s.q.mem, p.stop)) :
    SqPlaces c (s.turn c p env) a b e u := by
  have cleaned : (s.turn c p env).cleaned = s.cleaned := by
    simp only [SqRxSystem.cleaned, SqRxSystem.turn, poll, stops, SqRxPoll.stop]
  have ntc : (s.turn c p env).ntc = s.ntc := by
    simp only [SqRxSystem.ntc, SqRxSystem.turn, poll, stops, SqRxPoll.stop]
  have slot : (s.turn c p env).slot = s.slot := by
    simp only [SqRxSystem.turn, stops, SqRxPoll.stop, Bool.false_eq_true, if_false]
  have mem : (s.turn c p env).q.mem = s.q.mem := by
    simp only [SqRxSystem.turn, stops]
  refine ⟨v.order, ?_, ?_, v.head, v.nta, v.tail, ?_, ?_, ?_, ?_, ?_, ?_, ?_⟩
  · rw [cleaned]
    exact v.lap
  · rw [ntc]
    exact v.ntc
  · rw [mem]
    exact v.ntu
  · rw [slot]
    exact v.written
  · rw [slot, mem]
    exact v.posted
  · rw [slot]
    exact v.rest
  · rw [mem]
    exact v.page
  · rw [mem]
    exact v.hole
  · rw [mem]
    exact v.skb

theorem untouched (v : SqPlaces c s a b e u) {m' : SqRxMem} {n x : Nat}
    (taken : SqTaken c s.q.mem m' (a % c.descCount) n) (nea : x ≠ a) (neu : x ≠ u) (low : a ≤ x)
    (high : x < a + c.descCount) :
    (m'.bufs (x % c.descCount)).cur = (s.q.mem.bufs (x % c.descCount)).cur := by
  have order := v.order
  have lap := v.lap
  refine taken.cur _ (mod_ne_of_near (by omega) (by omega)).symm ?_
  rw [v.ntu]
  rcases Nat.lt_or_gt_of_ne neu with lt | gt
  · exact mod_ne_of_near lt (by omega)
  · exact (mod_ne_of_near gt (by omega)).symm

/-- What is in the slots once the first has been taken. Its page may have gone to slot `u`. -/
theorem taken_slots (v : SqPlaces c s a b e u) (ready : a < b) {m' : SqRxMem}
    (taken : SqTaken c s.q.mem m' (a % c.descCount) ((a + 1) % c.descCount)) :
    ∃ u', (u ≤ u' ∧ u' ≤ u + 1) ∧ m'.nextToUse = u' % c.descCount ∧
      (∀ x, a + 1 ≤ x → x < u' → (m'.bufs (x % c.descCount)).cur.page.isSome = true) ∧
      (∀ x, u' ≤ x → x < a + 1 + c.descCount → (m'.bufs (x % c.descCount)).cur.page = none) ∧
      ∀ x, a + 1 < x → x < a + 1 + c.descCount → (m'.bufs (x % c.descCount)).skb = none := by
  have order := v.order
  have lap := v.lap
  have ring := c.ring
  have ntu := v.ntu
  have skb : ∀ x, a + 1 < x → x < a + 1 + c.descCount →
      (m'.bufs (x % c.descCount)).skb = none := by
    intro x low high
    refine taken.skb _ (mod_ne_of_near low (by omega)).symm ?_
    by_cases last : x = a + c.descCount
    · rw [last, Nat.add_mod_right]
      exact Or.inl rfl
    · exact Or.inr (v.skb x (by omega) (by omega))
  have hole : ∀ x, u < x → x < a + 1 + c.descCount →
      (m'.bufs (x % c.descCount)).cur.page = none := by
    intro x low high
    by_cases last : x = a + c.descCount
    · rw [last, Nat.add_mod_right]
      exact taken.page
    · rw [v.untouched taken (by omega) (by omega) (by omega) (by omega)]
      exact v.hole x (by omega) (by omega)
  rcases taken.next with ⟨stays, cur⟩ | ⟨moves, page⟩
  · rw [ntu] at cur
    refine ⟨u, ⟨le_rfl, Nat.le_succ u⟩, stays.trans ntu, ?_, ?_, skb⟩
    · intro x low high
      rw [v.untouched taken (by omega) (by omega) (by omega) (by omega)]
      exact v.page x (by omega) high
    · intro x low high
      by_cases at_ : x = u
      · rw [at_, cur]
        exact v.hole u le_rfl (by omega)
      · exact hole x (by omega) high
  · rw [ntu] at page
    refine ⟨u + 1, ⟨Nat.le_succ u, le_rfl⟩, ?_, ?_, fun x low high => hole x low high, skb⟩
    · rw [moves, ntu]
      exact bump_mod (by omega) u
    · intro x low high
      by_cases at_ : x = u
      · rw [at_]
        exact page
      · rw [v.untouched taken (by omega) at_ (by omega) (by omega)]
        exact v.page x (by omega) (by omega)

/-- A turn that takes a descriptor, whether or not it ends a packet. -/
theorem take (v : SqPlaces c s a b e u) {p p' : SqRxPoll} (poll : s.poll = some p) {env : SqRxEnv}
    (looping : p.looping = true) (ready : a < b)
    (taken : SqTaken c s.q.mem (rxSingleqTurn c s.q.ring s.q.mem p env).1 (a % c.descCount)
      ((a + 1) % c.descCount))
    (goes : (rxSingleqTurn c s.q.ring s.q.mem p env).2 = p')
    (ntc : p'.ntc = (p.next c).ntc) (cleaned : p'.cleanedCount = (p.next c).cleanedCount)
    (on : p'.looping = p.looping) : ∃ u', SqPlaces c (s.turn c p env) (a + 1) b e u' := by
  have order := v.order
  have lap := v.lap
  have ring := c.ring
  have count := c.count
  have here := v.ntc_poll poll
  have before : s.cleaned = p.cleanedCount := by rw [SqRxSystem.cleaned, poll]
  have after : (s.turn c p env).cleaned = s.cleaned + 1 := by
    rw [before] at lap ⊢
    simp only [SqRxSystem.cleaned, SqRxSystem.turn, goes]
    rw [cleaned]
    exact Nat.mod_eq_of_lt (by omega)
  have slot : (s.turn c p env).slot = Function.update s.slot (a % c.descCount) .taken := by
    simp only [SqRxSystem.turn, goes, on, looping, if_true, here]
  have nextNtc : (s.turn c p env).ntc = (a + 1) % c.descCount := by
    simp only [SqRxSystem.ntc, SqRxSystem.turn, goes]
    rw [ntc, SqRxPoll.next, here]
    exact bump_mod (by omega) a
  generalize memEq : (rxSingleqTurn c s.q.ring s.q.mem p env).1 = m' at taken
  obtain rfl : (s.turn c p env).q.mem = m' := memEq
  obtain ⟨u', near, ntu, page, hole, skb⟩ := v.taken_slots ready taken
  refine ⟨u', ⟨by omega, by omega, by omega⟩, by rw [after]; omega, nextNtc, v.head, v.nta, v.tail,
    ntu, fun x low high => ?_, fun x low high => ?_, fun x low high => ?_, page, hole, skb⟩
  · rw [slot, update_mod_ne _ _ (by omega) (by omega) (by omega)]
    exact v.written x (by omega) high
  · obtain ⟨waits, desc⟩ := v.posted x low high
    rw [slot, update_mod_ne _ _ (by omega) (by omega) (by omega), SqRxMem.bufDesc,
      v.untouched taken (by omega) (by omega) (by omega) (by omega)]
    exact ⟨waits, desc⟩
  · rw [slot]
    by_cases last : x = a + c.descCount
    · rw [last, Nat.add_mod_right, Function.update_self]
      rfl
    · rw [update_mod_ne _ _ (by omega) (by omega) (by omega)]
      exact v.rest x low (by omega)

/-- The end of a poll posts slots up to one that can have no page. -/
theorem finish (v : SqPlaces c s a b e u) (pages : SqPages c s.q.mem none) {p : SqRxPoll}
    (poll : s.poll = some p) {alloc : Nat → PageAlloc}
    (ok : sqPageOk c s (.finish alloc) = true) :
    SqPages c (s.finish c p alloc).q.mem none ∧
      ∃ e', SqPlaces c (s.finish c p alloc) a b e' e' := by
  have order := v.order
  have lap := v.lap
  have ring := c.ring
  have here := v.ntc_poll poll
  have before : s.cleaned = p.cleanedCount := by rw [SqRxSystem.cleaned, poll]
  simp only [sqPageOk, poll, List.all_eq_true, Bool.or_eq_true, decide_eq_true_eq] at ok
  have inside : s.q.nextToAlloc < c.descCount := by
    rw [v.nta]
    exact Nat.mod_lt _ (by omega)
  obtain ⟨ring', m', j, le, loop, posted, stuck⟩ := @SqPages.allocLoop c _ _ s.q.ring _ _ pages
    (by omega) inside ok
  obtain ⟨ringEq, ntcEq, ntaEq, tailEq⟩ := rxSingleqEnd_of_loop loop (v.tail.trans v.nta.symm)
  have reused : u ≤ e + j := by
    by_contra more
    have short : j < p.cleanedCount := by omega
    have page := v.page (e + j) (by omega) (by omega)
    rw [v.nta, Nat.mod_add_mod] at stuck
    rw [(stuck short).1] at page
    exact absurd page Bool.false_ne_true
  have nta : (s.q.nextToAlloc + j) % c.descCount = (e + j) % c.descCount := by
    rw [v.nta, Nat.mod_add_mod]
  have memEq : (s.finish c p alloc).q.mem = { m' with nextToUse := (e + j) % c.descCount } := by
    have stays : j = 0 → m' = { m' with nextToUse := (e + j) % c.descCount } := by
      rintro rfl
      obtain rfl : u = e := by omega
      rw [Nat.add_zero, ← v.ntu, ← posted.next]
    change (rxSingleqEnd c s.q p alloc).1.mem = _
    unfold rxSingleqEnd
    dsimp only
    split
    · next nothing =>
      rw [nothing, rxSingleqAllocLoop, Prod.mk.injEq, Prod.mk.injEq] at loop
      rw [← stays (by omega)]
      exact loop.2.1
    · simp only [rxSingleqBufHwAllocAll, loop]
      split
      · rw [nta]
      · next same =>
        rw [ne_eq, not_not, nta, v.nta] at same
        refine stays ?_
        by_contra some_
        exact mod_ne_of_near (show e < e + j by omega) (by omega) same
  have slot : (s.finish c p alloc).slot = postSlots c.descCount s.q.nextToAlloc j s.slot := by
    simp only [SqRxSystem.finish, loop, Nat.sub_sub_self le]
  have outside : ∀ x, a ≤ x → x < a + c.descCount → (x < e ∨ e + j ≤ x) →
      x % c.descCount ∉ ringSlots c.descCount s.q.nextToAlloc j := by
    intro x low high apart member
    rw [v.nta, ringSlots_mod] at member
    obtain ⟨k, small, eq⟩ := mem_ringSlots.mp member
    rcases apart with lt | ge
    · exact mod_ne_of_near (by omega) (by omega) eq.symm
    · exact mod_ne_of_near (by omega) (by omega) eq
  have bufs : (s.finish c p alloc).q.mem.bufs = m'.bufs := by rw [memEq]
  have ringEq : (s.finish c p alloc).q.ring = ring' := ringEq
  refine ⟨?_, e + j, ⟨order.1, by omega, le_rfl⟩, ?_, ntcEq.trans here, v.head, ntaEq.trans nta,
    tailEq.trans nta, ?_, fun x low high => ?_, fun x low high => ?_, fun x low high => ?_,
    fun x low high => ?_, fun x low high => ?_, fun x low high => ?_⟩
  · rw [memEq]
    exact posted.pages.handOver (fun _ => rfl) (fun _ => ⟨rfl, rfl⟩) rfl (fun _ saw => saw)
      (fun _ => rfl) rfl (fun _ => rfl) posted.pages.short
  · change e + j ≤ e + j + 0 ∧ e + j + 0 + 1 ≤ a + c.descCount
    omega
  · rw [memEq]
  · rw [slot, postSlots, if_neg (outside x (by omega) (by omega) (Or.inl (by omega)))]
    exact v.written x low high
  · rw [slot, postSlots, ringEq, SqRxMem.bufDesc, bufs, ← SqRxMem.bufDesc]
    rcases Nat.lt_or_ge x e with old | new
    · obtain ⟨desc, buf⟩ := posted.other _ (outside x (by omega) (by omega) (Or.inl old))
      rw [if_neg (outside x (by omega) (by omega) (Or.inl old)), desc, SqRxMem.bufDesc, buf]
      exact v.posted x low old
    · have member : x % c.descCount ∈ ringSlots c.descCount s.q.nextToAlloc j := by
        rw [v.nta, ringSlots_mod]
        exact mem_ringSlots.mpr ⟨x - e, by omega, by rw [Nat.add_sub_cancel' new]⟩
      rw [if_pos member]
      exact ⟨rfl, (posted.posted _ member).2⟩
  · rw [slot, postSlots, if_neg (outside x (by omega) high (Or.inr low))]
    exact v.rest x (by omega) high
  · rw [bufs]
    rcases Nat.lt_or_ge x e with old | new
    · rw [(posted.other _ (outside x low (by omega) (Or.inl old))).2]
      exact v.page x low (by omega)
    · refine (posted.posted _ ?_).1
      rw [v.nta, ringSlots_mod]
      exact mem_ringSlots.mpr ⟨x - e, by omega, by rw [Nat.add_sub_cancel' new]⟩
  · rw [bufs, (posted.other _ (outside x (by omega) high (Or.inr low))).2]
    exact v.hole x (by omega) high
  · rw [bufs, posted.skb]
    exact v.skb x low high

theorem start {c : SqRxCfg} (room : rxBuf2048 ≤ c.pageSize) : SqPages c (sqRxInit c).q.mem none ∧
    SqPlaces c (sqRxInit c) 0 0 (c.descCount - 1) (c.descCount - 1) := by
  have ring := c.ring
  have empty : SqPages c SqRxq.blank.mem none := by
    refine ⟨fun _ => ⟨rfl, rfl⟩, fun p => ?_, fun _ _ _ _ p no => absurd no ?_,
      fun _ _ p no => absurd no ?_, fun r saw => ?_, fun id => ?_,
      ⟨fun _ => Nat.zero_le _, Nat.zero_le _, nofun⟩, room⟩
    · have held : SqRxq.blank.mem.heldOn c p = 0 := Finset.sum_eq_zero fun _ _ => rfl
      have kept : ∑ i ∈ Finset.range c.descCount, (SqRxq.blank.mem.bufs i).fragsOn p = 0 :=
        Finset.sum_eq_zero fun _ _ => rfl
      rw [held, SqRxMem.outsideOn, kept]
      rfl
    · exact (Option.some_ne_none p).symm
    · exact (Option.some_ne_none p).symm
    · rcases saw with (stack | ⟨i, -, kept⟩) | mine
      · exact absurd stack List.not_mem_nil
      · exact absurd kept List.not_mem_nil
      · exact absurd mine List.not_mem_nil
    · have kept : SqRxq.blank.mem.keptOn c id = 0 := Finset.sum_eq_zero fun _ _ => rfl
      rw [kept]
      rfl
  obtain ⟨ring', m', j, le, loop, posted, stuck⟩ := @SqPages.allocLoop c (fun _ => .ok)
    (c.descCount - 1) SqRxq.blank.ring _ SqRxq.blank.nextToAlloc empty (by omega)
    (Nat.zero_lt_of_lt ring) fun _ _ => Or.inr PageAlloc.noConfusion
  obtain rfl : j = c.descCount - 1 := by
    by_contra short
    exact (stuck (by omega)).2 rfl
  obtain ⟨ringEq, ntcEq, ntaEq, tailEq⟩ := rxSingleqBufHwAllocAll_of_loop loop rfl
  have nta : (SqRxq.blank.nextToAlloc + (c.descCount - 1)) % c.descCount =
      (c.descCount - 1) % c.descCount := by
    rw [SqRxq.blank, Nat.zero_add]
  have last : (c.descCount - 1) % c.descCount = c.descCount - 1 := Nat.mod_eq_of_lt (by omega)
  have memEq : (sqRxInit c).q.mem = { m' with nextToUse := (c.descCount - 1) % c.descCount } := by
    have moves : SqRxq.blank.nextToAlloc ≠
        (SqRxq.blank.nextToAlloc + (c.descCount - 1)) % c.descCount := by
      rw [nta, last]
      exact fun same => absurd (Nat.sub_eq_zero_iff_le.mp same.symm) (Nat.not_le.mpr ring)
    simp only [sqRxInit, rxSingleqBufHwAllocAll, loop]
    rw [if_pos moves, nta]
  have bufs : (sqRxInit c).q.mem.bufs = m'.bufs := by rw [memEq]
  have ringEq : (sqRxInit c).q.ring = ring' := ringEq
  have inside : ∀ x < c.descCount - 1, x % c.descCount ∈
      ringSlots c.descCount SqRxq.blank.nextToAlloc (c.descCount - 1) :=
    fun x high => mem_ringSlots.mpr ⟨x, high, by rw [SqRxq.blank, Nat.zero_add]⟩
  have behind : ∀ x, c.descCount - 1 ≤ x → x < 0 + c.descCount → x % c.descCount ∉
      ringSlots c.descCount SqRxq.blank.nextToAlloc (c.descCount - 1) := by
    intro x low high member
    obtain ⟨k, small, eq⟩ := mem_ringSlots.mp member
    rw [SqRxq.blank, Nat.zero_add] at eq
    exact mod_ne_of_near (by omega) (by omega) eq
  refine ⟨?_, ⟨le_rfl, Nat.zero_le _, le_rfl⟩, ?_, ntcEq.trans (Nat.zero_mod _).symm,
    (Nat.zero_mod _).symm, ntaEq.trans nta, tailEq.trans nta, ?_,
    fun x _ high => absurd high (Nat.not_lt_zero x), fun x _ high => ⟨if_pos (inside x high), ?_⟩,
    fun x low high => ?_, fun x _ high => ?_, fun x low high => ?_, fun x _ _ => ?_⟩
  · rw [memEq]
    exact posted.pages.handOver (fun _ => rfl) (fun _ => ⟨rfl, rfl⟩) rfl (fun _ saw => saw)
      (fun _ => rfl) rfl (fun _ => rfl) posted.pages.short
  · change c.descCount - 1 ≤ c.descCount - 1 + 0 ∧ c.descCount - 1 + 0 + 1 ≤ 0 + c.descCount
    omega
  · rw [memEq]
  · rw [ringEq, SqRxMem.bufDesc, bufs]
    exact (posted.posted _ (inside x high)).2
  · rw [show (sqRxInit c).slot (x % c.descCount) = .unused from if_neg (behind x low high)]
    rfl
  · rw [bufs]
    exact (posted.posted _ (inside x high)).1
  · rw [bufs, (posted.other _ (behind x low high)).2]
    rfl
  · rw [bufs, posted.skb]
    rfl

theorem step (v : SqPlaces c s a b e u) (pages : SqPages c s.q.mem none) {op : SqRxOp}
    (ok : sqPageOk c s op = true) (go : s.step c op = some t) :
    SqPages c t.q.mem none ∧ ∃ a' b' e' u', SqPlaces c t a' b' e' u' := by
  cases op with
  | write d =>
      have w := v.write go
      simp only [SqRxSystem.step, Option.ite_none_left_eq_some, Option.some.injEq] at go
      obtain ⟨-, rfl⟩ := go
      exact ⟨pages, _, _, _, _, w⟩
  | begin_ budget =>
      rw [SqRxSystem.step] at go
      cases poll : s.poll with
      | some p =>
          rw [poll] at go
          exact absurd go.symm (Option.some_ne_none t)
      | none =>
          rw [poll] at go
          obtain rfl := Option.some.inj go
          have lap := v.lap
          have here := v.ntc
          rw [SqRxSystem.cleaned, poll] at lap
          rw [SqRxSystem.ntc, poll] at here
          exact ⟨pages, a, b, e, u, v.order, lap, here, v.head, v.nta, v.tail, v.ntu, v.written,
            v.posted, v.rest, v.page, v.hole, v.skb⟩
  | turn env =>
      rw [SqRxSystem.step] at go
      cases poll : s.poll with
      | none =>
          rw [poll] at go
          exact absurd go.symm (Option.some_ne_none t)
      | some p =>
          rw [poll] at go
          dsimp only at go
          rw [Option.ite_none_right_eq_some] at go
          obtain ⟨looping, go⟩ := go
          obtain rfl := Option.some.inj go
          rcases pages.turn v poll ok with stops | ⟨ready, after, taken, goes | goes⟩
          · refine ⟨?_, _, _, _, _, v.stop poll stops⟩
            rw [show (s.turn c p env).q.mem = s.q.mem from congrArg Prod.fst stops]
            exact pages
          · exact ⟨after, _, _, _, v.take poll looping ready taken goes rfl rfl rfl⟩
          · exact ⟨after, _, _, _, v.take poll looping ready taken goes rfl rfl rfl⟩
  | finish alloc =>
      rw [SqRxSystem.step] at go
      cases poll : s.poll with
      | none =>
          rw [poll] at go
          exact absurd go.symm (Option.some_ne_none t)
      | some p =>
          rw [poll] at go
          dsimp only at go
          rw [Option.ite_none_left_eq_some] at go
          obtain ⟨-, go⟩ := go
          obtain rfl := Option.some.inj go
          obtain ⟨after, e', w⟩ := v.finish pages poll ok
          exact ⟨after, _, _, _, _, w⟩
  | put r =>
      rw [SqRxSystem.step, Option.ite_none_right_eq_some] at go
      obtain ⟨member, go⟩ := go
      obtain rfl := Option.some.inj go
      exact ⟨pages.put member, a, b, e, u, v.order, v.lap, v.ntc, v.head, v.nta, v.tail, v.ntu,
        v.written, v.posted, v.rest, v.page, v.hole, v.skb⟩

theorem withDevice (v : SqPlaces c s a b e u) {i : Nat} (inside : i < c.descCount)
    (there : (s.slot i).withDevice = true) : ∃ x, a ≤ x ∧ x < e ∧ x % c.descCount = i ∧
      (s.slot i = .posted → s.q.ring i = s.q.mem.bufDesc i) := by
  obtain ⟨x, low, high, rfl⟩ := exists_mod_eq a inside
  rcases Nat.lt_or_ge x e with before | past
  · refine ⟨x, low, before, rfl, fun posted => ?_⟩
    rcases Nat.lt_or_ge x b with done | waiting
    · rw [v.written x low done] at posted
      exact SqRxSlot.noConfusion posted
    · exact (v.posted x waiting before).2
  · rw [v.rest x past high] at there
    exact absurd there Bool.false_ne_true

theorem safe (v : SqPlaces c s a b e u) (pages : SqPages c s.q.mem none) : SqPageSafe c s := by
  have order := v.order
  refine ⟨fun i hi p holds => ?_, fun p gone => ?_, pages.owner, fun i hi there => ?_, fun id => ?_,
    fun skb held => ?_⟩
  · exact (pages.count_page hi holds).trans rfl
  · exact (pages.count_other gone).trans rfl
  · obtain ⟨x, low, high, rfl, desc⟩ := v.withDevice hi there
    obtain ⟨p, page⟩ := Option.isSome_iff_exists.mp (v.page x low (by omega))
    have ok := pages.slot _ hi p page
    refine ⟨p, page, fun posted => ?_, ok.fits, fun r saw size ⟨on, _, past⟩ => ?_⟩
    · rw [desc posted, SqRxMem.bufDesc, ok.dma]
    · have clear := (ok.clear r (Or.inl saw) on).2
      omega
  · have skbs := pages.skbs id
    exact skbs
  · rcases held with sent | ⟨i, kept⟩
    · exact pages.short.2.2 skb sent
    · have short := pages.short.1 i
      rwa [SqRxBuf.frags, kept] at short

end SqPlaces

namespace SqPages

variable {c : SqRxCfg} {m : SqRxMem} {i : Nat}

theorem pageRel (v : SqPages c m none) (inside : i < c.descCount) :
    SqPages c (m.pageRel i false) none ∧ ((m.pageRel i false).bufs i).cur.page = none ∧
      ((m.pageRel i false).bufs i).skb = (m.bufs i).skb := by
  have cur : (m.bufs i).info false = (m.bufs i).cur := by rw [SqRxBuf.cur, (v.plain i).2]
  unfold SqRxMem.pageRel
  dsimp only
  rw [cur]
  split
  · next hole => exact ⟨v, hole, rfl⟩
  · next p page =>
    generalize pinfoEq : ({ (m.bufs i).cur with page := none, pageOffset := 0 } : SqPageInfo) =
      pinfo
    have set_ : ({ m.bufs i with info := Function.update (m.bufs i).info false pinfo } : SqRxBuf) =
        (m.bufs i).setCur pinfo := by
      have indx := (v.plain i).2
      rw [SqRxBuf.setCur, indx]
      exact congrArg (SqRxBuf.mk _ · _ _) indx
    have hole : ((m.bufs i).setCur pinfo).cur.page = none := by
      rw [SqRxBuf.cur_setCur, ← pinfoEq]
    rw [set_]
    have here : ((m.setBuf i ((m.bufs i).setCur pinfo)).setCount p
        (m.count p - (m.bufs i).cur.pagecntBias)).bufs i = (m.bufs i).setCur pinfo :=
      Function.update_self ..
    refine ⟨?_, ?_, ?_⟩
    · exact @lose c m i p v inside page _ hole (v.plain i) [] nofun (Nat.zero_le _) none
        m.nextSkb (fun r saw => saw.imp_right fun no => absurd no List.not_mem_nil)
        (fun _ => rfl) (fun _ => rfl) ⟨v.short.1 i, Nat.zero_le _⟩
    · rw [here]
      exact hole
    · rw [here]
      rfl

theorem dropSkb (v : SqPages c m none) (inside : i < c.descCount) {skb : SqRxSkb}
    (kept : (m.bufs i).skb = some skb) :
    SqPages c ((m.freeSkb skb).setBuf i { m.bufs i with skb := none }) none := by
  generalize after : (m.freeSkb skb).setBuf i { m.bufs i with skb := none } = m'
  have other : ∀ j, j ≠ i → m'.bufs j = m.bufs j := fun j ne => by
    rw [← after]
    exact Function.update_of_ne ne ..
  have here : m'.bufs i = { m.bufs i with skb := none } := by
    rw [← after]
    exact Function.update_self ..
  have frags : (m.bufs i).frags = skb.frags := by rw [SqRxBuf.frags, kept]
  refine v.handOver (fun x => ?_) (fun x => ?_) (by rw [← after]; rfl) (fun r saw => ?_)
    (fun p => ?_) (by rw [← after]; rfl) (fun id => ?_)
    ⟨fun x => ?_, Nat.zero_le _, by rw [← after]; exact v.short.2.2⟩
  · by_cases at_ : x = i
    · rw [at_, here]
      rfl
    · rw [other x at_]
  · by_cases at_ : x = i
    · rw [at_, here]
      exact ⟨rfl, rfl⟩
    · rw [other x at_]
      exact ⟨rfl, rfl⟩
  · have refs : m'.refs = m.refs := by rw [← after]; rfl
    rcases saw with (stack | ⟨j, hj, kept⟩) | mine
    · exact Or.inl (Or.inl (refs ▸ stack))
    · by_cases at_ : j = i
      · rw [at_, here] at kept
        exact absurd kept List.not_mem_nil
      · rw [other j at_] at kept
        exact Or.inl (Or.inr ⟨j, hj, kept⟩)
    · exact absurd mine List.not_mem_nil
  · have held := sum_slots_move inside (fun b => b.fragsOn p) other
    have none_ : (m'.bufs i).fragsOn p = 0 := by
      rw [here]
      rfl
    have less : m'.count p = m.count p - (m.bufs i).fragsOn p := by
      rw [← after, SqRxBuf.fragsOn, frags]
      rfl
    have refs : m'.refsOn p = m.refsOn p := by rw [← after]; rfl
    have old := v.count p
    rw [SqRxMem.outsideOn] at old ⊢
    rw [SqRxMem.outsideOn]
    omega
  · have held := sum_slots_move inside (fun b => b.keeps id) other
    have none_ : (m'.bufs i).keeps id = 0 := by
      rw [here, SqRxBuf.keeps, Option.map_none, if_neg (Option.some_ne_none id).symm]
    have mine : (m.bufs i).keeps id = (sqHand (some skb)).keeps id := by
      rw [SqRxBuf.keeps, kept]
      rfl
    have ended : m'.ended id = m.ended id + (sqHand (some skb)).keeps id := by
      rw [← after, keeps_hand]
      simp only [SqRxMem.ended, SqRxMem.freeSkb, SqRxMem.setBuf, List.countP_append,
        Nat.add_assoc]
    rw [SqRxMem.keptOn, SqRxMem.keptOn]
    omega
  · by_cases at_ : x = i
    · rw [at_, here]
      exact Nat.zero_le _
    · rw [other x at_]
      exact v.short.1 x

theorem bufRel (v : SqPages c m none) (inside : i < c.descCount) :
    SqPages c (m.bufRel c i) none ∧ ((m.bufRel c i).bufs i).cur.page = none ∧
      ((m.bufRel c i).bufs i).skb = none := by
  obtain ⟨pages, hole, skb⟩ := v.pageRel inside
  have narrow : ¬ (c.pageSize < 8192 ∧ ((m.pageRel i false).bufs i).bufSize > rxBuf2048) := by
    rw [(pages.plain i).1]
    exact fun wide => absurd wide.2 (Nat.not_lt_zero _)
  unfold SqRxMem.bufRel
  dsimp only
  rw [if_neg narrow]
  unfold SqRxMem.skbRel
  split
  · next none_ => exact ⟨pages, hole, none_⟩
  · next one kept =>
    have here : (SqRxMem.setBuf ((m.pageRel i false).freeSkb one) i
        { (m.pageRel i false).bufs i with skb := none }).bufs i =
        { (m.pageRel i false).bufs i with skb := none } := Function.update_self ..
    rw [here]
    exact ⟨pages.dropSkb inside kept, hole, rfl⟩

end SqPages

/-- Two memories that differ in slot `i` and in counts only. -/
def SqRxMem.SameBut (m m' : SqRxMem) (i : Nat) : Prop :=
  (∀ j, j ≠ i → m'.bufs j = m.bufs j) ∧ m'.refs = m.refs ∧ m'.nextSkb = m.nextSkb

theorem SqRxMem.SameBut.trans {m m₁ m₂ : SqRxMem} {i : Nat} (x : m.SameBut m₁ i)
    (y : m₁.SameBut m₂ i) : m.SameBut m₂ i :=
  ⟨fun j ne => (y.1 j ne).trans (x.1 j ne), y.2.1.trans x.2.1, y.2.2.trans x.2.2⟩

namespace SqRxMem

theorem pageRel_other (m : SqRxMem) (i : Nat) (k : Bool) : m.SameBut (m.pageRel i k) i := by
  unfold pageRel
  dsimp only
  split
  · exact ⟨fun _ _ => rfl, rfl, rfl⟩
  · exact ⟨fun j ne => Function.update_of_ne ne .., rfl, rfl⟩

theorem skbRel_other (m : SqRxMem) (i : Nat) : m.SameBut (m.skbRel i) i := by
  unfold skbRel
  split
  · exact ⟨fun _ _ => rfl, rfl, rfl⟩
  · exact ⟨fun j ne => Function.update_of_ne ne .., rfl, rfl⟩

theorem bufRel_other (c : SqRxCfg) (m : SqRxMem) (i : Nat) : m.SameBut (m.bufRel c i) i := by
  unfold bufRel
  dsimp only
  split
  · exact (m.pageRel_other i false).trans ((pageRel_other _ i true).trans (skbRel_other _ i))
  · exact (m.pageRel_other i false).trans (skbRel_other _ i)

end SqRxMem

/-- Slots are released one after the other. -/
theorem SqPages.bufRels {c : SqRxCfg} {l : List Nat} (nodup : l.Nodup) :
    ∀ {m : SqRxMem}, SqPages c m none → (∀ i ∈ l, i < c.descCount) →
      (∀ i, i ∉ l → i < c.descCount → (m.bufs i).cur.page = none ∧ (m.bufs i).skb = none) →
      SqPages c (l.foldl (SqRxMem.bufRel c) m) none ∧
        (∀ i < c.descCount, ((l.foldl (SqRxMem.bufRel c) m).bufs i).cur.page = none ∧
          ((l.foldl (SqRxMem.bufRel c) m).bufs i).skb = none) ∧
        (l.foldl (SqRxMem.bufRel c) m).refs = m.refs ∧
        (l.foldl (SqRxMem.bufRel c) m).nextSkb = m.nextSkb := by
  induction l with
  | nil =>
      intro m v _ idle
      exact ⟨v, fun i hi => idle i List.not_mem_nil hi, rfl, rfl⟩
  | cons i l ih =>
      intro m v inside idle
      obtain ⟨fresh, nodup⟩ := List.nodup_cons.mp nodup
      obtain ⟨pages, hole, skb⟩ := v.bufRel (inside i List.mem_cons_self)
      obtain ⟨other, refs, next⟩ := m.bufRel_other c i
      obtain ⟨pages, empty, refs', next'⟩ := ih nodup pages
        (fun j member => inside j (List.mem_cons_of_mem _ member)) (fun j away hj => by
          by_cases at_ : j = i
          · rw [at_]
            exact ⟨hole, skb⟩
          · rw [other j at_]
            exact idle j (fun member => away ((List.mem_cons.mp member).resolve_left at_)) hj)
      exact ⟨pages, empty, refs'.trans refs, next'.trans next⟩

theorem SqPages.released {c : SqRxCfg} {s : SqRxSystem} (v : SqPages c s.q.mem none) :
    SqReleased c s := by
  obtain ⟨pages, empty, refs, next⟩ := v.bufRels List.nodup_range
    (fun i member => List.mem_range.mp member)
    (fun i away hi => absurd (List.mem_range.mpr hi) away)
  have released : (List.range c.descCount).foldl (SqRxMem.bufRel c) s.q.mem =
      s.q.mem.bufRelAll c := rfl
  rw [released] at pages empty refs next
  refine ⟨fun p => ?_, fun id => ?_⟩
  · have left := pages.count_other (p := p) fun i hi holds =>
      absurd ((empty i hi).1.symm.trans holds) (Option.some_ne_none p).symm
    have none_ : ∑ i ∈ Finset.range c.descCount, ((s.q.mem.bufRelAll c).bufs i).fragsOn p = 0 :=
      Finset.sum_eq_zero fun i hi => by
        rw [SqRxBuf.fragsOn, SqRxBuf.frags, (empty i (Finset.mem_range.mp hi)).2, List.countP_nil]
    rw [left, SqRxMem.outsideOn, none_, SqRxMem.refsOn, refs]
    rfl
  · have all := pages.skbs id
    have none_ : (s.q.mem.bufRelAll c).keptOn c id = 0 :=
      Finset.sum_eq_zero fun i hi => by
        rw [SqRxBuf.keeps, (empty i (Finset.mem_range.mp hi)).2, Option.map_none,
          if_neg (Option.some_ne_none id).symm]
    rw [none_, next] at all
    exact all

/-- As long as no poll finds a packet behind the last slot posted or one of too many buffers, no
XDP program takes a packet, no page goes back to the ring with octets the stack still looks at or
without room for a buffer, and no mapping fails, the pages and skbs of a single queue are accounted
for, also once the ring is released. -/
theorem singleq_page_safe {c : SqRxCfg} {s : SqRxSystem} (page : 4096 ≤ c.pageSize)
    (h : Reachable (SqRxSystem.step c) (fun s op => sqPageOk c s op = true) (· = sqRxInit c) s) :
    SqPageSafe c s ∧ SqReleased c s := by
  obtain ⟨pages, a, b, e, u, v⟩ := h.invariant
    (I := fun s => SqPages c s.q.mem none ∧ ∃ a b e u, SqPlaces c s a b e u)
    (fun _ hs => by
      subst hs
      obtain ⟨pages, v⟩ := SqPlaces.start (Nat.le_trans (by decide) page)
      exact ⟨pages, _, _, _, _, v⟩)
    fun _ _ _ ⟨pages, _, _, _, _, v⟩ ok go => v.step pages ok go
  exact ⟨v.safe pages, pages.released⟩

/-- A packet of `size` octets, or the part of one. -/
def sqRxPart (size : Nat) (last : Bool) : SqRxDesc := ⟨0, size * 2 ^ 38 + if last then 3 else 1⟩

/-- The smallest queue with an XDP program. -/
def sqRxXdp64 : SqRxCfg := { sqRxCfg64 with xdp := true }

/-- A packet in two descriptors is passed up with one page, which the stack gives back. -/
theorem singleq_page_safe_two : ∃ s : SqRxSystem, s.q.mem.delivered.length = 1 ∧
    s.q.mem.refs = [] ∧ SqPageSafe sqRxCfg64 s ∧ SqReleased sqRxCfg64 s := by
  have run : (execIf (SqRxSystem.step sqRxCfg64) (sqPageOk sqRxCfg64) (sqRxInit sqRxCfg64)
      [.write (sqRxPart 60 false), .write (sqRxPart 1500 true), .begin_ 64, .turn {},
        .turn { reusable := false }, .turn {}, .finish fun _ => .ok, .put ⟨1, 0, 1500⟩]).map
      (fun s => (s.q.mem.delivered.length, s.q.mem.refs)) = some (1, []) := by
    decide +kernel
  obtain ⟨s, steps, eq⟩ := Option.map_eq_some_iff.mp run
  exact ⟨s, congrArg Prod.fst eq, congrArg Prod.snd eq,
    singleq_page_safe (by decide) (Reachable.execIf (.start rfl) steps)⟩

/-- A page is posted again at the octets the stack has been given; a frame an XDP program sends on
is not taken off the bias; a verdict on a packet's second descriptor loses its skb; and a slot whose
page could not be mapped keeps the page freed, with the bias of the one before. -/
theorem singleq_page_unsafe :
    (∃ s : SqRxSystem, Reachable (SqRxSystem.step sqRxCfg64) anyStep (· = sqRxInit sqRxCfg64) s ∧
      s.slot 63 = .posted ∧ (s.q.mem.bufs 63).cur.page = some 0 ∧
      (s.q.mem.bufs 63).cur.pageOffset = 0 ∧ s.q.mem.refs = [⟨0, 54, 1446⟩] ∧
      ¬ SqPageSafe sqRxCfg64 s) ∧
    (∃ s : SqRxSystem, Reachable (SqRxSystem.step sqRxXdp64) anyStep (· = sqRxInit sqRxXdp64) s ∧
      (s.q.mem.bufs 63).cur.page = some 0 ∧ s.q.mem.count 0 = (s.q.mem.bufs 63).cur.pagecntBias ∧
      s.q.mem.refs = [⟨0, 0, 60⟩] ∧ ¬ SqPageSafe sqRxXdp64 s) ∧
    (∃ s : SqRxSystem, Reachable (SqRxSystem.step sqRxXdp64) anyStep (· = sqRxInit sqRxXdp64) s ∧
      s.q.mem.nextSkb = 1 ∧ s.q.mem.ended 0 = 0 ∧ s.q.mem.keptOn sqRxXdp64 0 = 0 ∧
      ¬ SqPageSafe sqRxXdp64 s) ∧
    ∃ s : SqRxSystem, Reachable (SqRxSystem.step sqRxCfg64) anyStep (· = sqRxInit sqRxCfg64) s ∧
      (s.q.mem.bufs 0).cur.page = some 64 ∧ s.q.mem.count 64 = 0 ∧
      (s.q.mem.bufs 0).cur.pagecntBias = 65535 ∧ ¬ SqPageSafe sqRxCfg64 s := by
  refine ⟨?_, ?_, ?_, ?_⟩
  · have run : (exec (SqRxSystem.step sqRxCfg64) (sqRxInit sqRxCfg64)
        [.write (sqRxPart 1500 true), .begin_ 64, .turn { headlen := 54 }, .turn {},
          .finish fun _ => .ok]).map (fun s => (s.slot 63, (s.q.mem.bufs 63).cur.page,
            (s.q.mem.bufs 63).cur.pageOffset, s.q.mem.refs)) =
        some (.posted, some 0, 0, [⟨0, 54, 1446⟩]) := by
      decide +kernel
    obtain ⟨s, steps, eq⟩ := Option.map_eq_some_iff.mp run
    simp only [Prod.mk.injEq] at eq
    obtain ⟨posted, page, offset, refs⟩ := eq
    refine ⟨s, Reachable.exec (.start rfl) steps, posted, page, offset, refs, fun safe => ?_⟩
    obtain ⟨p, holds, -, -, apart⟩ := safe.apart 63 (by decide) (by rw [posted]; rfl)
    obtain rfl := Option.some.inj (page.symm.trans holds)
    have given : s.q.mem.Outside sqRxCfg64 ⟨0, 54, 1446⟩ :=
      Or.inl (by rw [refs]; exact List.mem_singleton_self _)
    refine apart _ given 2048 ⟨rfl, ?_, ?_⟩
    · rw [offset]
      decide
    · rw [offset]
      decide
  · have run : (exec (SqRxSystem.step sqRxXdp64) (sqRxInit sqRxXdp64)
        [.write (sqRxPart 60 true), .begin_ 64, .turn { xdp := .tx }]).map
        (fun s => ((s.q.mem.bufs 63).cur.page,
          decide (s.q.mem.count 0 = (s.q.mem.bufs 63).cur.pagecntBias), s.q.mem.refs)) =
        some (some 0, true, [⟨0, 0, 60⟩]) := by
      decide +kernel
    obtain ⟨s, steps, eq⟩ := Option.map_eq_some_iff.mp run
    simp only [Prod.mk.injEq, decide_eq_true_eq] at eq
    obtain ⟨page, count, refs⟩ := eq
    refine ⟨s, Reachable.exec (.start rfl) steps, page, count, refs, fun safe => ?_⟩
    have counted := safe.count 63 (by decide) 0 page
    have given : s.q.mem.Outside sqRxXdp64 ⟨0, 0, 60⟩ :=
      Or.inl (by rw [refs]; exact List.mem_singleton_self _)
    have some_ := SqRxMem.outsideOn_pos given
    dsimp only at some_
    omega
  · have run : (exec (SqRxSystem.step sqRxXdp64) (sqRxInit sqRxXdp64)
        [.write (sqRxPart 60 false), .write (sqRxPart 60 true), .begin_ 64, .turn {},
          .turn { xdp := .consumed }]).map
        (fun s => (s.q.mem.nextSkb, s.q.mem.ended 0, s.q.mem.keptOn sqRxXdp64 0)) =
        some (1, 0, 0) := by
      decide +kernel
    obtain ⟨s, steps, eq⟩ := Option.map_eq_some_iff.mp run
    simp only [Prod.mk.injEq] at eq
    obtain ⟨next, ended, kept⟩ := eq
    refine ⟨s, Reachable.exec (.start rfl) steps, next, ended, kept, fun safe => ?_⟩
    have all := safe.skbs 0
    rw [next, ended, kept] at all
    exact absurd all (by decide)
  · have run : (exec (SqRxSystem.step sqRxCfg64) (sqRxInit sqRxCfg64)
        [.write (sqRxPart 60 true), .begin_ 64, .turn { reusable := false }, .turn {},
          .finish fun _ => .ok, .write (sqRxPart 60 true), .begin_ 64,
          .turn { reusable := false }, .turn {}, .finish fun _ => .mapFail]).map
        (fun s => ((s.q.mem.bufs 0).cur.page, s.q.mem.count 64,
          (s.q.mem.bufs 0).cur.pagecntBias)) = some (some 64, 0, 65535) := by
      decide +kernel
    obtain ⟨s, steps, eq⟩ := Option.map_eq_some_iff.mp run
    simp only [Prod.mk.injEq] at eq
    obtain ⟨page, count, bias⟩ := eq
    refine ⟨s, Reachable.exec (.start rfl) steps, page, count, bias, fun safe => ?_⟩
    have counted := safe.count 0 (by decide) 64 page
    omega

end Idpf
