import Idpf.General.Transition
import Idpf.Rx.Singleq

/-! The receive ring of a single queue and its device over whole runs: which
descriptors polls take, and which slots are posted again. -/
namespace Idpf
open General

/-- What has last happened to a slot. -/
inductive SqRxSlot where
  | unused | posted | written | taken
  deriving DecidableEq, Repr

/-- The queue with its device, which writes the slot `head` next; `seen` lists the slots in which
polls have found a packet, with what had last happened to them. -/
structure SqRxSystem where
  q : SqRxq
  head : Nat
  poll : Option SqRxPoll
  slot : Nat → SqRxSlot
  seen : List (Nat × SqRxSlot)

inductive SqRxOp where
  | write (d : SqRxDesc)
  | begin_ (budget : Nat)
  | turn (env : SqRxEnv)
  | finish (alloc : Nat → PageAlloc)
  | put (r : PageRef)

/-- `k` slots from `p` on have been posted. -/
def postSlots (n p k : Nat) (slot : Nat → SqRxSlot) (i : Nat) : SqRxSlot :=
  if i ∈ ringSlots n p k then .posted else slot i

namespace SqRxSystem

def turn (c : SqRxCfg) (s : SqRxSystem) (p : SqRxPoll) (env : SqRxEnv) : SqRxSystem :=
  let r := rxSingleqTurn c s.q.ring s.q.mem p env
  { s with
    q := { s.q with mem := r.1 }
    poll := some r.2
    slot := if r.2.looping then Function.update s.slot p.ntc .taken else s.slot
    seen := s.seen ++ if rxSingleqFinds c s.q.ring p then [(p.ntc, s.slot p.ntc)] else [] }

def finish (c : SqRxCfg) (s : SqRxSystem) (p : SqRxPoll) (alloc : Nat → PageAlloc) : SqRxSystem :=
  let left :=
    (rxSingleqAllocLoop c alloc p.cleanedCount s.q.ring s.q.mem s.q.nextToAlloc).2.2.2
  { s with
    q := (rxSingleqEnd c s.q p alloc).1
    poll := none
    slot := postSlots c.descCount s.q.nextToAlloc (p.cleanedCount - left) s.slot }

def put (s : SqRxSystem) (r : PageRef) : SqRxSystem :=
  let m := s.q.mem
  { s with q := { s.q with mem :=
    { m.setCount r.page (m.count r.page - 1) with refs := m.refs.erase r } } }

/-- The device writes posted slots back in their order, with anything it likes, at any moment
between the turns of a poll. -/
def step (c : SqRxCfg) (s : SqRxSystem) : SqRxOp → Option SqRxSystem
  | .write d =>
    if s.head = s.q.tail then none
    else some { s with
      q := { s.q with ring := Function.update s.q.ring s.head d }
      head := bump c.descCount s.head
      slot := Function.update s.slot s.head .written }
  | .begin_ budget =>
    match s.poll with
    | none => some { s with poll := some (rxSingleqBegin s.q budget) }
    | some _ => none
  | .turn env =>
    match s.poll with
    | none => none
    | some p => if p.looping then some (s.turn c p env) else none
  | .finish alloc =>
    match s.poll with
    | none => none
    | some p => if p.looping then none else some (s.finish c p alloc)
  | .put r => if r ∈ s.q.mem.refs then some (s.put r) else none

def cleaned (s : SqRxSystem) : Nat :=
  match s.poll with
  | none => 0
  | some p => p.cleanedCount

def ntc (s : SqRxSystem) : Nat :=
  match s.poll with
  | none => s.q.nextToClean
  | some p => p.ntc

end SqRxSystem

/-- The ring as `idpf_rx_bufs_init_singleq` leaves it. -/
def sqRxInit (c : SqRxCfg) : SqRxSystem where
  q := (rxSingleqBufHwAllocAll c .blank (c.descCount - 1) fun _ => .ok).1
  head := 0
  poll := none
  slot := postSlots c.descCount 0 (c.descCount - 1) fun _ => .unused
  seen := []

/-- Each of `slots` has a page or is given one. -/
def rxSingleqRefills (m : SqRxMem) (alloc : Nat → PageAlloc) (slots : List Nat) : Bool :=
  slots.all fun i => (m.bufs i).cur.page.isSome || decide (alloc i = .ok)

/-- Steps that go well: no packet is found in the slot behind the last one posted, and each slot
to be posted again has a page or is given one. -/
def sqRxOk (c : SqRxCfg) (s : SqRxSystem) : SqRxOp → Bool
  | .turn _ =>
    match s.poll with
    | none => true
    | some p => !(rxSingleqFinds c s.q.ring p && decide (p.ntc = s.q.nextToAlloc))
  | .finish alloc =>
    match s.poll with
    | none => true
    | some p =>
      rxSingleqRefills s.q.mem alloc (ringSlots c.descCount s.q.nextToAlloc p.cleanedCount)
  | _ => true

def SqRxSlot.withDevice : SqRxSlot → Bool
  | .posted | .written => true
  | .unused | .taken => false

/-- Polls have found packets only in slots the device had written since they were posted. All
slots but one and those the poll under way has taken are posted or written; the others are the
next to be posted, and a posted slot carries nothing of an earlier packet. -/
structure SqRxConserved (c : SqRxCfg) (s : SqRxSystem) : Prop where
  seen : ∀ x ∈ s.seen, x.2 = .written
  count : (List.range c.descCount).countP (fun i => (s.slot i).withDevice) + s.cleaned + 1 =
    c.descCount
  next : ∀ i < c.descCount, (s.slot i).withDevice = false ↔
    i ∈ ringSlots c.descCount s.q.nextToAlloc (s.cleaned + 1)
  blank : ∀ i < c.descCount, s.slot i = .posted → (s.q.ring i).qword1 = 0

/-- At the end of a poll as many slots are posted as it has taken, those that have waited longest.
-/
def SqRxReposts (c : SqRxCfg) (s : SqRxSystem) : Prop :=
  ∀ alloc t, sqRxOk c s (.finish alloc) = true → s.step c (.finish alloc) = some t →
    ∀ i ∈ ringSlots c.descCount s.q.nextToAlloc s.cleaned,
      s.slot i ≠ .posted ∧ t.slot i = .posted

/-! One turn, and posting. -/

theorem rxSingleqTurn_stop {c : SqRxCfg} {ring : Nat → SqRxDesc} {m : SqRxMem} {p : SqRxPoll}
    {env : SqRxEnv} (finds : rxSingleqFinds c ring p = false) :
    rxSingleqTurn c ring m p env = (m, p.stop) := by
  simp only [rxSingleqTurn, finds, Bool.not_false, if_true]

/-- A turn either leaves the loop where it was or takes one descriptor. -/
theorem rxSingleqTurn_poll (c : SqRxCfg) (ring : Nat → SqRxDesc) (m : SqRxMem) (p : SqRxPoll)
    (env : SqRxEnv) :
    (rxSingleqTurn c ring m p env).2 = p.stop ∨
      rxSingleqFinds c ring p = true ∧ ((rxSingleqTurn c ring m p env).2 = p.next c ∨
        (rxSingleqTurn c ring m p env).2 = (p.next c).packet) := by
  cases finds : rxSingleqFinds c ring p with
  | false => exact Or.inl (by rw [rxSingleqTurn_stop finds])
  | true =>
      unfold rxSingleqTurn
      simp only [finds, Bool.not_true, Bool.false_eq_true, if_false]
      split
      · exact Or.inr ⟨trivial, Or.inr rfl⟩
      · split
        · exact Or.inl rfl
        · unfold rxSingleqFinish
          dsimp only
          split
          · exact Or.inr ⟨trivial, Or.inl rfl⟩
          · split
            · exact Or.inr ⟨trivial, Or.inl rfl⟩
            · exact Or.inr ⟨trivial, Or.inr rfl⟩

theorem fillBuf_ok {c : SqRxCfg} {m : SqRxMem} {i : Nat} {alloc : PageAlloc}
    (page : (m.bufs i).cur.page.isSome = true ∨ alloc = .ok) :
    (m.fillBuf c i alloc).2 = true ∧ ∀ j ≠ i, (m.fillBuf c i alloc).1.bufs j = m.bufs j := by
  unfold SqRxMem.fillBuf
  split
  · exact ⟨rfl, fun j _ => rfl⟩
  · next none_ =>
    obtain rfl := page.resolve_left none_
    refine ⟨rfl, fun j other => ?_⟩
    simp only [if_true, SqRxMem.allocPage, SqRxMem.setPinfo, SqRxMem.setBuf, SqRxMem.setCount,
      Function.update_of_ne other]

/-- When no slot lacks a page, all are posted. -/
theorem rxSingleqAllocLoop_full {c : SqRxCfg} {alloc : Nat → PageAlloc} {k : Nat} :
    ∀ {ring : Nat → SqRxDesc} {m : SqRxMem} {nta : Nat}, k ≤ c.descCount → nta < c.descCount →
      rxSingleqRefills m alloc (ringSlots c.descCount nta k) = true →
      ∃ ring' m', rxSingleqAllocLoop c alloc k ring m nta =
          (ring', m', (nta + k) % c.descCount, 0) ∧
        (∀ i ∈ ringSlots c.descCount nta k, (ring' i).qword1 = 0) ∧
        ∀ i, i ∉ ringSlots c.descCount nta k → ring' i = ring i := by
  induction k with
  | zero =>
      intro ring m nta _ inside _
      refine ⟨ring, m, ?_, nofun, fun _ _ => rfl⟩
      rw [rxSingleqAllocLoop, Nat.add_zero, Nat.mod_eq_of_lt inside]
  | succ k ih =>
      intro ring m nta lap inside full
      have slots := ringSlots_cons c.descCount nta k
      have nodup := ringSlots_nodup nta lap
      rw [Nat.mod_eq_of_lt inside] at slots
      rw [slots] at full nodup
      obtain ⟨fresh, -⟩ := List.nodup_cons.mp nodup
      simp only [rxSingleqRefills, List.all_cons, Bool.and_eq_true, Bool.or_eq_true,
        decide_eq_true_eq] at full
      obtain ⟨filled, others⟩ := fillBuf_ok (c := c) full.1
      have after : bump c.descCount nta = (nta + 1) % c.descCount := by
        have h := bump_mod (Nat.zero_lt_of_lt inside) nta
        rwa [Nat.mod_eq_of_lt inside] at h
      have rest : rxSingleqRefills (m.fillBuf c nta (alloc nta)).1 alloc
          (ringSlots c.descCount (bump c.descCount nta) k) = true := by
        rw [after, ringSlots_mod]
        refine List.all_eq_true.mpr fun j member => ?_
        have other : j ≠ nta := fun same => fresh (same ▸ member)
        rw [others j other]
        exact List.all_eq_true.mp full.2 j member
      obtain ⟨ring', m', loop, blank, same⟩ := @ih
        (Function.update ring nta ((m.fillBuf c nta (alloc nta)).1.bufDesc nta)) _ _
        (Nat.le_of_succ_le lap) (bump_lt inside) rest
      rw [after, ringSlots_mod] at blank same
      refine ⟨ring', m', ?_, fun i member => ?_, fun i member => ?_⟩
      · rw [rxSingleqAllocLoop, if_pos filled, loop, after, Nat.mod_add_mod, Nat.add_assoc,
          Nat.add_comm 1 k]
      · rw [slots] at member
        rcases List.mem_cons.mp member with rfl | member
        · rw [same i fresh, Function.update_self]
          rfl
        · exact blank i member
      · rw [slots, List.mem_cons, not_or] at member
        rw [same i member.2, Function.update_of_ne member.1]

theorem rxSingleqBufHwAllocAll_of_loop {c : SqRxCfg} {q : SqRxq} {k : Nat}
    {alloc : Nat → PageAlloc} {ring' : Nat → SqRxDesc} {m' : SqRxMem} {nta left : Nat}
    (loop : rxSingleqAllocLoop c alloc k q.ring q.mem q.nextToAlloc = (ring', m', nta, left))
    (tail : q.tail = q.nextToAlloc) :
    let q' := (rxSingleqBufHwAllocAll c q k alloc).1
    q'.ring = ring' ∧ q'.nextToClean = q.nextToClean ∧ q'.nextToAlloc = nta ∧ q'.tail = nta := by
  simp only [rxSingleqBufHwAllocAll, loop]
  split
  · exact ⟨rfl, rfl, rfl, rfl⟩
  · next same =>
    rw [ne_eq, not_not] at same
    exact ⟨rfl, rfl, same, tail.trans same⟩

/-- A poll ends where its posting ends. -/
theorem rxSingleqEnd_of_loop {c : SqRxCfg} {q : SqRxq} {p : SqRxPoll} {alloc : Nat → PageAlloc}
    {ring' : Nat → SqRxDesc} {m' : SqRxMem} {nta left : Nat}
    (loop : rxSingleqAllocLoop c alloc p.cleanedCount q.ring q.mem q.nextToAlloc =
      (ring', m', nta, left)) (tail : q.tail = q.nextToAlloc) :
    let q' := (rxSingleqEnd c q p alloc).1
    q'.ring = ring' ∧ q'.nextToClean = p.ntc ∧ q'.nextToAlloc = nta ∧ q'.tail = nta := by
  unfold rxSingleqEnd
  dsimp only
  split
  · next nothing =>
    rw [nothing, rxSingleqAllocLoop, Prod.mk.injEq, Prod.mk.injEq, Prod.mk.injEq] at loop
    obtain ⟨rfl, -, rfl, -⟩ := loop
    exact ⟨rfl, rfl, rfl, tail⟩
  · exact rxSingleqBufHwAllocAll_of_loop (q := { q with nextToClean := p.ntc }) loop tail

/-- The written slots `a..b`, the posted ones `b..e` and the rest of a lap. -/
structure SqRxInv (c : SqRxCfg) (s : SqRxSystem) (a b e : Nat) : Prop where
  order : a ≤ b ∧ b ≤ e
  lap : e + s.cleaned + 1 = a + c.descCount
  ntc : s.ntc = a % c.descCount
  head : s.head = b % c.descCount
  nta : s.q.nextToAlloc = e % c.descCount
  tail : s.q.tail = e % c.descCount
  written : ∀ x, a ≤ x → x < b → s.slot (x % c.descCount) = .written
  posted : ∀ x, b ≤ x → x < e → s.slot (x % c.descCount) = .posted ∧
    (s.q.ring (x % c.descCount)).qword1 = 0
  rest : ∀ x, e ≤ x → x < a + c.descCount → s.slot (x % c.descCount) = .taken ∨
    s.slot (x % c.descCount) = .unused ∧ (s.q.ring (x % c.descCount)).qword1 = 0
  seen : ∀ x ∈ s.seen, x.2 = .written

theorem rxSingleqFinds_blank {c : SqRxCfg} {ring : Nat → SqRxDesc} {p : SqRxPoll}
    (blank : (ring p.ntc).qword1 = 0) : rxSingleqFinds c ring p = false := by
  simp only [rxSingleqFinds, rxSingleqTestStaterr, blank, Nat.zero_and, bne_self_eq_false,
    Bool.and_false, Bool.false_and]

namespace SqRxInv

variable {c : SqRxCfg} {s t : SqRxSystem} {a b e : Nat}

theorem found (v : SqRxInv c s a b e) {p : SqRxPoll} (poll : s.poll = some p) {env : SqRxEnv}
    (ok : sqRxOk c s (.turn env) = true) (finds : rxSingleqFinds c s.q.ring p = true) : a < b := by
  have here : p.ntc = a % c.descCount := by
    have h := v.ntc
    rwa [SqRxSystem.ntc, poll] at h
  by_contra none_
  have order := v.order
  obtain rfl : a = b := by omega
  rcases Nat.lt_or_ge a e with inside | past
  · have blank := (v.posted a le_rfl inside).2
    rw [← here] at blank
    rw [rxSingleqFinds_blank blank] at finds
    exact Bool.noConfusion finds
  · obtain rfl : a = e := by omega
    have same : p.ntc = s.q.nextToAlloc := here.trans v.nta.symm
    simp only [sqRxOk, poll, finds, same, decide_true, Bool.and_self, Bool.not_true] at ok
    exact Bool.noConfusion ok

theorem write (v : SqRxInv c s a b e) {d : SqRxDesc} (go : s.step c (.write d) = some t) :
    SqRxInv c t a (b + 1) e := by
  simp only [SqRxSystem.step, Option.ite_none_left_eq_some, Option.some.injEq] at go
  obtain ⟨room, rfl⟩ := go
  have order := v.order
  have lap := v.lap
  have ring := c.ring
  have more : b ≠ e := by
    rintro rfl
    exact room (v.head.trans v.tail.symm)
  refine ⟨⟨by omega, by omega⟩, v.lap, v.ntc, ?_, v.nta, v.tail, fun x low high => ?_,
    fun x low high => ?_, fun x low high => ?_, v.seen⟩
  · rw [← bump_mod (by omega), ← v.head]
  · dsimp only
    rw [v.head]
    by_cases last : x = b
    · rw [last, Function.update_self]
    · rw [update_mod_ne _ _ last (by omega) (by omega)]
      exact v.written x low (by omega)
  · dsimp only
    rw [v.head, update_mod_ne _ _ (by omega) (by omega) (by omega),
      update_mod_ne _ _ (by omega) (by omega) (by omega)]
    exact v.posted x (by omega) high
  · dsimp only
    rw [v.head, update_mod_ne _ _ (by omega) (by omega) (by omega),
      update_mod_ne _ _ (by omega) (by omega) (by omega)]
    exact v.rest x low high

theorem seen_turn (v : SqRxInv c s a b e) {p : SqRxPoll} (poll : s.poll = some p) {env : SqRxEnv}
    (ok : sqRxOk c s (.turn env) = true) : ∀ x ∈ (s.turn c p env).seen, x.2 = .written := by
  intro x member
  rcases List.mem_append.mp member with old | new
  · exact v.seen x old
  · split at new
    · next finds =>
      obtain rfl := List.mem_singleton.mp new
      have here := v.ntc
      rw [SqRxSystem.ntc, poll] at here
      dsimp only at here ⊢
      rw [here]
      exact v.written a le_rfl (v.found poll ok finds)
    · exact nomatch new

/-- A turn that leaves the loop. -/
theorem stop (v : SqRxInv c s a b e) {p : SqRxPoll} (poll : s.poll = some p) {env : SqRxEnv}
    (ok : sqRxOk c s (.turn env) = true)
    (stops : (rxSingleqTurn c s.q.ring s.q.mem p env).2 = p.stop) :
    SqRxInv c (s.turn c p env) a b e := by
  have cleaned : (s.turn c p env).cleaned = s.cleaned := by
    simp only [SqRxSystem.cleaned, SqRxSystem.turn, poll, stops, SqRxPoll.stop]
  have ntc : (s.turn c p env).ntc = s.ntc := by
    simp only [SqRxSystem.ntc, SqRxSystem.turn, poll, stops, SqRxPoll.stop]
  have slot : (s.turn c p env).slot = s.slot := by
    simp only [SqRxSystem.turn, stops, SqRxPoll.stop, Bool.false_eq_true, if_false]
  refine ⟨v.order, ?_, ?_, v.head, v.nta, v.tail, ?_, ?_, ?_, v.seen_turn poll ok⟩
  · rw [cleaned]
    exact v.lap
  · rw [ntc]
    exact v.ntc
  · rw [slot]
    exact v.written
  · rw [slot]
    exact v.posted
  · rw [slot]
    exact v.rest

/-- A turn that takes a descriptor, whether or not it ends a packet. -/
theorem take (v : SqRxInv c s a b e) {p p' : SqRxPoll} (poll : s.poll = some p) {env : SqRxEnv}
    (looping : p.looping = true) (ok : sqRxOk c s (.turn env) = true)
    (finds : rxSingleqFinds c s.q.ring p = true)
    (goes : (rxSingleqTurn c s.q.ring s.q.mem p env).2 = p')
    (ntc : p'.ntc = (p.next c).ntc) (cleaned : p'.cleanedCount = (p.next c).cleanedCount)
    (on : p'.looping = p.looping) : SqRxInv c (s.turn c p env) (a + 1) b e := by
  have order := v.order
  have lap := v.lap
  have ring := c.ring
  have count := c.count
  have ready := v.found poll ok finds
  have here : p.ntc = a % c.descCount := by
    have h := v.ntc
    rwa [SqRxSystem.ntc, poll] at h
  have before : s.cleaned = p.cleanedCount := by rw [SqRxSystem.cleaned, poll]
  have after : (s.turn c p env).cleaned = s.cleaned + 1 := by
    rw [before] at lap ⊢
    simp only [SqRxSystem.cleaned, SqRxSystem.turn, goes]
    rw [cleaned]
    exact Nat.mod_eq_of_lt (by omega)
  have slot : (s.turn c p env).slot = Function.update s.slot (a % c.descCount) .taken := by
    simp only [SqRxSystem.turn, goes, on, looping, if_true, here]
  refine ⟨⟨by omega, order.2⟩, ?_, ?_, v.head, v.nta, v.tail, fun x low high => ?_,
    fun x low high => ?_, fun x low high => ?_, v.seen_turn poll ok⟩
  · rw [after]
    omega
  · simp only [SqRxSystem.ntc, SqRxSystem.turn, goes]
    rw [ntc, SqRxPoll.next, here]
    exact bump_mod (by omega) a
  · rw [slot, update_mod_ne _ _ (by omega) (by omega) (by omega)]
    exact v.written x (by omega) high
  · rw [slot, update_mod_ne _ _ (by omega) (by omega) (by omega)]
    exact v.posted x low high
  · rw [slot]
    by_cases last : x = a + c.descCount
    · rw [last, Nat.add_mod_right, Function.update_self]
      exact Or.inl rfl
    · rw [update_mod_ne _ _ (by omega) (by omega) (by omega)]
      exact v.rest x low (by omega)

/-- The end of a poll posts what the poll has taken. -/
theorem finish (v : SqRxInv c s a b e) {p : SqRxPoll} (poll : s.poll = some p)
    {alloc : Nat → PageAlloc} (ok : sqRxOk c s (.finish alloc) = true) :
    SqRxInv c (s.finish c p alloc) a b (e + s.cleaned) ∧
      (s.finish c p alloc).slot = postSlots c.descCount s.q.nextToAlloc s.cleaned s.slot := by
  have order := v.order
  have lap := v.lap
  have ring := c.ring
  have here : p.ntc = a % c.descCount := by
    have h := v.ntc
    rwa [SqRxSystem.ntc, poll] at h
  have before : s.cleaned = p.cleanedCount := by rw [SqRxSystem.cleaned, poll]
  simp only [sqRxOk, poll] at ok
  have inside : s.q.nextToAlloc < c.descCount := by
    rw [v.nta]
    exact Nat.mod_lt _ (by omega)
  obtain ⟨ring', m', loop, blank, same⟩ := @rxSingleqAllocLoop_full c _ _ s.q.ring _ _
    (by omega) inside ok
  obtain ⟨ringEq, ntcEq, ntaEq, tailEq⟩ := rxSingleqEnd_of_loop loop (v.tail.trans v.nta.symm)
  have slot : (s.finish c p alloc).slot =
      postSlots c.descCount s.q.nextToAlloc s.cleaned s.slot := by
    simp only [SqRxSystem.finish, loop, Nat.sub_zero, before]
  have nta : (s.q.nextToAlloc + p.cleanedCount) % c.descCount = (e + s.cleaned) % c.descCount := by
    rw [v.nta, Nat.mod_add_mod, before]
  rw [← before, v.nta, ringSlots_mod] at blank same
  have outside : ∀ x, a ≤ x → x < a + c.descCount → (x < e ∨ e + s.cleaned ≤ x) →
      x % c.descCount ∉ ringSlots c.descCount e s.cleaned := by
    intro x low high apart member
    obtain ⟨j, small, eq⟩ := mem_ringSlots.mp member
    rcases apart with lt | ge
    · exact mod_ne_of_near (by omega) (by omega) eq.symm
    · exact mod_ne_of_near (by omega) (by omega) eq
  have kept : ∀ x, a ≤ x → x < a + c.descCount → (x < e ∨ e + s.cleaned ≤ x) →
      (s.finish c p alloc).slot (x % c.descCount) = s.slot (x % c.descCount) ∧
        (s.finish c p alloc).q.ring (x % c.descCount) = s.q.ring (x % c.descCount) := by
    intro x low high apart
    refine ⟨?_, ?_⟩
    · rw [slot, postSlots, v.nta, ringSlots_mod, if_neg (outside x low high apart)]
    · exact (congrFun ringEq _).trans (same _ (outside x low high apart))
  refine ⟨⟨⟨order.1, by omega⟩, ?_, ntcEq.trans here, v.head, ntaEq.trans nta, tailEq.trans nta,
    fun x low high => ?_, fun x low high => ?_, fun x low high => ?_, v.seen⟩, slot⟩
  · change e + s.cleaned + 0 + 1 = a + c.descCount
    omega
  · rw [(kept x low (by omega) (by omega)).1]
    exact v.written x low high
  · rcases Nat.lt_or_ge x e with old | new
    · obtain ⟨slotEq, descEq⟩ := kept x (by omega) (by omega) (Or.inl old)
      rw [slotEq, descEq]
      exact v.posted x low old
    · have member : x % c.descCount ∈ ringSlots c.descCount e s.cleaned :=
        mem_ringSlots.mpr ⟨x - e, by omega, by rw [Nat.add_sub_cancel' new]⟩
      refine ⟨?_, ?_⟩
      · rw [slot, postSlots, v.nta, ringSlots_mod, if_pos member]
      · rw [show (s.finish c p alloc).q.ring = ring' from ringEq]
        exact blank _ member
  · obtain ⟨slotEq, descEq⟩ := kept x (by omega) high (Or.inr low)
    rw [slotEq, descEq]
    exact v.rest x (by omega) high

theorem start (c : SqRxCfg) : SqRxInv c (sqRxInit c) 0 0 (c.descCount - 1) := by
  have ring := c.ring
  have full : rxSingleqRefills SqRxq.blank.mem (fun _ => .ok)
      (ringSlots c.descCount SqRxq.blank.nextToAlloc (c.descCount - 1)) = true :=
    List.all_eq_true.mpr fun _ _ => by rw [decide_eq_true rfl, Bool.or_true]
  obtain ⟨ring', m', loop, blank, same⟩ := @rxSingleqAllocLoop_full c _ _
    SqRxq.blank.ring _ _ (by omega) (by show 0 < _; omega) full
  obtain ⟨ringEq, ntcEq, ntaEq, tailEq⟩ := rxSingleqBufHwAllocAll_of_loop loop rfl
  have nta : (SqRxq.blank.nextToAlloc + (c.descCount - 1)) % c.descCount =
      (c.descCount - 1) % c.descCount := by
    rw [SqRxq.blank, Nat.zero_add]
  refine ⟨⟨le_rfl, Nat.zero_le _⟩, ?_, ntcEq.trans (Nat.zero_mod _).symm, (Nat.zero_mod _).symm,
    ntaEq.trans nta, tailEq.trans nta, fun x _ high => absurd high (Nat.not_lt_zero x),
    fun x _ high => ?_, fun x low high => ?_, nofun⟩
  · change c.descCount - 1 + 0 + 1 = 0 + c.descCount
    omega
  · have member : x % c.descCount ∈ ringSlots c.descCount 0 (c.descCount - 1) :=
      mem_ringSlots.mpr ⟨x, high, by rw [Nat.zero_add]⟩
    refine ⟨if_pos member, ?_⟩
    rw [show (sqRxInit c).q.ring = ring' from ringEq]
    exact blank _ member
  · have last : x % c.descCount ∉ ringSlots c.descCount 0 (c.descCount - 1) := by
      intro member
      obtain ⟨j, small, eq⟩ := mem_ringSlots.mp member
      exact mod_ne_of_near (by omega) (by omega) eq
    refine Or.inr ⟨if_neg last, ?_⟩
    rw [show (sqRxInit c).q.ring = ring' from ringEq, same _ last]
    rfl

theorem step (v : SqRxInv c s a b e) {op : SqRxOp} (ok : sqRxOk c s op = true)
    (go : s.step c op = some t) : ∃ a' b' e', SqRxInv c t a' b' e' := by
  cases op with
  | write d => exact ⟨_, _, _, v.write go⟩
  | begin_ budget =>
      rw [SqRxSystem.step] at go
      cases poll : s.poll with
      | some p => rw [poll] at go; exact nomatch go
      | none =>
          rw [poll] at go
          obtain rfl := Option.some.inj go
          have lap := v.lap
          have here := v.ntc
          rw [SqRxSystem.cleaned, poll] at lap
          rw [SqRxSystem.ntc, poll] at here
          exact ⟨a, b, e, v.order, lap, here, v.head, v.nta, v.tail, v.written, v.posted, v.rest,
            v.seen⟩
  | turn env =>
      rw [SqRxSystem.step] at go
      cases poll : s.poll with
      | none => rw [poll] at go; exact nomatch go
      | some p =>
          rw [poll] at go
          dsimp only at go
          rw [Option.ite_none_right_eq_some] at go
          obtain ⟨looping, go⟩ := go
          obtain rfl := Option.some.inj go
          rcases rxSingleqTurn_poll c s.q.ring s.q.mem p env with stops | ⟨finds, goes | goes⟩
          · exact ⟨_, _, _, v.stop poll ok stops⟩
          · exact ⟨_, _, _, v.take poll looping ok finds goes rfl rfl rfl⟩
          · exact ⟨_, _, _, v.take poll looping ok finds goes rfl rfl rfl⟩
  | finish alloc =>
      rw [SqRxSystem.step] at go
      cases poll : s.poll with
      | none => rw [poll] at go; exact nomatch go
      | some p =>
          rw [poll] at go
          dsimp only at go
          rw [Option.ite_none_left_eq_some] at go
          obtain ⟨-, go⟩ := go
          obtain rfl := Option.some.inj go
          exact ⟨_, _, _, (v.finish poll ok).1⟩
  | put r =>
      rw [SqRxSystem.step, Option.ite_none_right_eq_some] at go
      obtain ⟨-, go⟩ := go
      obtain rfl := Option.some.inj go
      exact ⟨a, b, e, v.order, v.lap, v.ntc, v.head, v.nta, v.tail, v.written, v.posted, v.rest,
        v.seen⟩

theorem next (v : SqRxInv c s a b e) {i : Nat} (small : i < c.descCount) :
    (s.slot i).withDevice = false ↔ i ∈ ringSlots c.descCount s.q.nextToAlloc (s.cleaned + 1) := by
  have order := v.order
  have lap := v.lap
  rw [v.nta, ringSlots_mod]
  obtain ⟨x, low, high, rfl⟩ := exists_mod_eq a small
  constructor
  · intro away
    rcases Nat.lt_or_ge x e with inside | past
    · rcases Nat.lt_or_ge x b with done | waiting
      · rw [v.written x low done] at away
        exact Bool.noConfusion away
      · rw [(v.posted x waiting inside).1] at away
        exact Bool.noConfusion away
    · exact mem_ringSlots.mpr ⟨x - e, by omega, by rw [Nat.add_sub_cancel' past]⟩
  · intro member
    obtain ⟨j, short, eq⟩ := mem_ringSlots.mp member
    rw [← eq]
    rcases v.rest (e + j) (by omega) (by omega) with taken | ⟨unused, -⟩
    · rw [taken]
      rfl
    · rw [unused]
      rfl

theorem conserved (v : SqRxInv c s a b e) : SqRxConserved c s := by
  have lap := v.lap
  have order := v.order
  have ring := c.ring
  refine ⟨v.seen, ?_, fun i small => v.next small, fun i small posted => ?_⟩
  · have all := countP_ringSlots (p := s.q.nextToAlloc) (k := s.cleaned + 1)
      (show 0 < c.descCount by omega) (by omega)
    rw [← List.countP_congr (fun i member => ?_)] at all
    · exact all
    · rw [decide_eq_true_eq, ← v.next (List.mem_range.mp member), Bool.not_eq_false]
  · obtain ⟨x, low, high, rfl⟩ := exists_mod_eq a small
    rcases Nat.lt_or_ge x b with done | waiting
    · rw [v.written x low done] at posted
      exact nomatch posted
    · rcases Nat.lt_or_ge x e with inside | past
      · exact (v.posted x waiting inside).2
      · rcases v.rest x past high with taken | ⟨unused, -⟩
        · rw [taken] at posted
          exact nomatch posted
        · rw [unused] at posted
          exact nomatch posted

theorem reposts (v : SqRxInv c s a b e) : SqRxReposts c s := by
  intro alloc t ok go i member
  have lap := v.lap
  have ring := c.ring
  have small : i < c.descCount := by
    obtain ⟨j, -, rfl⟩ := mem_ringSlots.mp member
    exact Nat.mod_lt _ (by omega)
  refine ⟨fun posted => ?_, ?_⟩
  · have away := (v.next small).mpr (ringSlots_subset (Nat.le_succ _) member)
    rw [posted] at away
    exact Bool.noConfusion away
  · rw [SqRxSystem.step] at go
    cases poll : s.poll with
    | none => rw [poll] at go; exact nomatch go
    | some p =>
        rw [poll] at go
        dsimp only at go
        rw [Option.ite_none_left_eq_some] at go
        obtain ⟨-, go⟩ := go
        obtain rfl := Option.some.inj go
        rw [(v.finish poll ok).2, postSlots, if_pos member]

end SqRxInv

/-- As long as no poll finds a packet behind the last slot posted and pages are to be had for the
slots to be posted, a slot is taken only after the device has written it, and posted again. -/
theorem singleq_rx_conserved {c : SqRxCfg} {s : SqRxSystem}
    (h : Reachable (SqRxSystem.step c) (fun s op => sqRxOk c s op = true) (· = sqRxInit c) s) :
    SqRxConserved c s ∧ SqRxReposts c s := by
  obtain ⟨a, b, e, v⟩ := h.invariant (I := fun s => ∃ a b e, SqRxInv c s a b e)
    (fun _ hs => by subst hs; exact ⟨_, _, _, SqRxInv.start c⟩)
    fun _ _ _ ⟨_, _, _, v⟩ ok go => v.step ok go
  exact ⟨v.conserved, v.reposts⟩

def sqRxCfg64 : SqRxCfg where
  descCount := 64
  dma p := 4096 * (p + 1)
  ring := by decide
  count := by decide

def sqRxFrame (last : Bool) : SqRxDesc := ⟨0, 60 * 2 ^ 38 + if last then 3 else 1⟩

/-- A packet in two descriptors is taken and both slots are posted again. -/
theorem singleq_rx_conserved_two : ∃ s : SqRxSystem, s.q.mem.delivered.length = 1 ∧
    s.q.nextToAlloc = 1 ∧ SqRxConserved sqRxCfg64 s ∧ SqRxReposts sqRxCfg64 s := by
  have run : (execIf (SqRxSystem.step sqRxCfg64) (sqRxOk sqRxCfg64) (sqRxInit sqRxCfg64)
      [.write (sqRxFrame false), .write (sqRxFrame true), .begin_ 64, .turn {}, .turn {}, .turn {},
        .finish fun _ => .ok]).map (fun s => (s.q.mem.delivered.length, s.q.nextToAlloc)) =
      some (1, 1) := by
    decide +kernel
  obtain ⟨s, steps, eq⟩ := Option.map_eq_some_iff.mp run
  exact ⟨s, congrArg Prod.fst eq, congrArg Prod.snd eq,
    singleq_rx_conserved (Reachable.execIf (.start rfl) steps)⟩

/-- A poll that takes all posted slots goes on to the one behind them, which still holds the packet
taken in the poll before. A page that cannot be had costs a slot, which no later poll posts. -/
theorem singleq_rx_lost :
    (∃ s : SqRxSystem, Reachable (SqRxSystem.step sqRxCfg64) anyStep (· = sqRxInit sqRxCfg64) s ∧
      (0, .taken) ∈ s.seen ∧ ¬ SqRxConserved sqRxCfg64 s) ∧
    ∃ s : SqRxSystem, Reachable (SqRxSystem.step sqRxCfg64) anyStep (· = sqRxInit sqRxCfg64) s ∧
      s.poll = none ∧ (List.range 64).countP (fun i => (s.slot i).withDevice) = 62 ∧
      ¬ SqRxConserved sqRxCfg64 s := by
  constructor
  · have run : (exec (SqRxSystem.step sqRxCfg64) (sqRxInit sqRxCfg64)
        ([.write (sqRxFrame true), .begin_ 64, .turn {}, .turn {}, .finish fun _ => .ok] ++
          List.replicate 63 (.write (sqRxFrame true)) ++ [.begin_ 64] ++
          List.replicate 64 (.turn {}))).map (fun s => decide ((0, .taken) ∈ s.seen)) =
        some true := by
      decide +kernel
    obtain ⟨s, steps, eq⟩ := Option.map_eq_some_iff.mp run
    have stale : (0, .taken) ∈ s.seen := of_decide_eq_true eq
    exact ⟨s, Reachable.exec (.start rfl) steps, stale, fun fine => nomatch fine.seen _ stale⟩
  · have run : (exec (SqRxSystem.step sqRxCfg64) (sqRxInit sqRxCfg64)
        [.write (sqRxFrame true), .begin_ 64, .turn { reusable := false }, .turn {},
          .finish fun _ => .noMem, .write (sqRxFrame true), .begin_ 64, .turn {}, .turn {},
          .finish fun _ => .ok]).map (fun s => (s.poll.isNone,
            (List.range 64).countP fun i => (s.slot i).withDevice)) = some (true, 62) := by
      decide +kernel
    obtain ⟨s, steps, eq⟩ := Option.map_eq_some_iff.mp run
    have idle : s.poll = none := Option.isNone_iff_eq_none.mp (congrArg Prod.fst eq)
    have few : (List.range 64).countP (fun i => (s.slot i).withDevice) = 62 :=
      congrArg Prod.snd eq
    refine ⟨s, Reachable.exec (.start rfl) steps, idle, few, fun fine => ?_⟩
    have count := fine.count
    rw [SqRxSystem.cleaned, idle] at count
    exact absurd (count.symm.trans (congrArg (· + 0 + 1) few)) nofun

end Idpf
