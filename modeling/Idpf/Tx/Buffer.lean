import Idpf.Tx.Refill

/-! `libeth_tx.h` and the chains of software queue elements a packet is spread
over. A chain is walked through the `next` words, so what a walk does is first
shown to be a fold over the chain's buffer IDs. -/
namespace Idpf
open General

/-- `struct libeth_sq_napi_stats`. -/
structure NapiStats where
  packets : Nat := 0
  bytes : Nat := 0
  deriving DecidableEq, Repr

/-- A queue under completion together with the on-stack statistics. -/
structure Cleaning where
  q : TxQueue
  ss : NapiStats

def TxBuf.mapped (e : TxBuf) : Bool :=
  match e.type with
  | .skb | .frag | .slab => true
  | _ => false

/-- `libeth_tx_complete`. The driver's own types fall through to `default` in
both switches: they lose their type and nothing else happens. -/
def libethTxComplete (s : Cleaning) (b : Nat) : Cleaning :=
  let e := s.q.bufs b
  if e.type = .empty then s
  else
    let q := if e.mapped then s.q.record (.unmap e.dma) else s.q
    let s' : Cleaning := match e.type with
      | .skb => ⟨q.record (.consumeSkb e.skb),
          ⟨u32 (s.ss.packets + e.packets), u32 (s.ss.bytes + e.bytes)⟩⟩
      | .slab => ⟨q.record (.kfree e.skb), s.ss⟩
      | _ => ⟨q, s.ss⟩
    { s' with q := s'.q.modBuf b fun e => { e with type := .empty } }

/-- Apply `f` to the buffer `b` and then to every buffer its `next` words lead
to. The fuel is the pool size; `walkChain_eq` shows that it never runs out. -/
def walkChain (f : Cleaning → Nat → Cleaning) : Nat → Cleaning → Nat → Cleaning
  | 0, s, _ => s
  | fuel + 1, s, b =>
    let s := f s b
    match (s.q.bufs b).next with
    | none => s
    | some b' => walkChain f fuel s b'

/-- `l` is the list of buffers reached from its head. -/
def Chain (bufs : Nat → TxBuf) : List Nat → Prop
  | [] => True
  | [b] => (bufs b).next = none
  | b :: b' :: l => (bufs b).next = some b' ∧ Chain bufs (b' :: l)

theorem Chain.congr {bufs bufs' : Nat → TxBuf} {l : List Nat}
    (same : ∀ b ∈ l, (bufs' b).next = (bufs b).next) (h : Chain bufs l) : Chain bufs' l := by
  induction l with
  | nil => trivial
  | cons b l ih =>
      cases l with
      | nil => exact (same b (by simp)).trans h
      | cons b' l =>
          exact ⟨(same b (by simp)).trans h.1, ih (fun x m => same x (by simp [m])) h.2⟩

/-- `l` is linked by its `next` words; the last word is still to be written. -/
def Linked (bufs : Nat → TxBuf) : List Nat → Prop
  | [] | [_] => True
  | b :: b' :: l => (bufs b).next = some b' ∧ Linked bufs (b' :: l)

theorem Linked.snoc {bufs bufs' : Nat → TxBuf} {l : List Nat} {b b' : Nat}
    (h : Linked bufs (l ++ [b])) (same : ∀ x ∈ l, (bufs' x).next = (bufs x).next)
    (next : (bufs' b).next = some b') : Linked bufs' (l ++ [b] ++ [b']) := by
  induction l with
  | nil => exact ⟨next, trivial⟩
  | cons x l ih =>
      have rest := fun linked => ih linked fun y m => same y (List.mem_cons_of_mem x m)
      cases l with
      | nil => exact ⟨(same x (by simp)).trans h.1, rest h.2⟩
      | cons y l => exact ⟨(same x (by simp)).trans h.1, rest h.2⟩

theorem Linked.close {bufs bufs' : Nat → TxBuf} {l : List Nat} {b : Nat}
    (h : Linked bufs (l ++ [b])) (same : ∀ x ∈ l, (bufs' x).next = (bufs x).next)
    (next : (bufs' b).next = none) : Chain bufs' (l ++ [b]) := by
  induction l with
  | nil => exact next
  | cons x l ih =>
      have rest := fun linked => ih linked fun y m => same y (List.mem_cons_of_mem x m)
      cases l with
      | nil => exact ⟨(same x (by simp)).trans h.1, rest h.2⟩
      | cons y l => exact ⟨(same x (by simp)).trans h.1, rest h.2⟩

theorem Linked.congr {bufs bufs' : Nat → TxBuf} {l : List Nat}
    (same : ∀ b ∈ l, (bufs' b).next = (bufs b).next) (h : Linked bufs l) : Linked bufs' l := by
  induction l with
  | nil => trivial
  | cons b l ih =>
      cases l with
      | nil => trivial
      | cons b' l =>
          exact ⟨(same b (by simp)).trans h.1, ih (fun x m => same x (by simp [m])) h.2⟩

theorem walkChain_eq {f : Cleaning → Nat → Cleaning}
    (keeps : ∀ s b x, ((f s b).q.bufs x).next = (s.q.bufs x).next)
    {fuel : Nat} {s : Cleaning} {b : Nat} {l : List Nat}
    (chain : Chain s.q.bufs (b :: l)) (enough : l.length < fuel) :
    walkChain f fuel s b = (b :: l).foldl f s := by
  induction fuel generalizing s b l with
  | zero => simp at enough
  | succ fuel ih =>
      cases l with
      | nil =>
          have stop : ((f s b).q.bufs b).next = none := (keeps s b b).trans chain
          simp only [walkChain, stop, List.foldl_cons, List.foldl_nil]
      | cons b' l =>
          have go : ((f s b).q.bufs b).next = some b' := (keeps s b b).trans chain.1
          simp only [walkChain, go]
          rw [ih (chain.2.congr fun x _ => keeps s b x) (by simpa using enough)]
          rfl

namespace TxQueue

@[simp] theorem modBuf_same (q : TxQueue) (b : Nat) (f : TxBuf → TxBuf) :
    (q.modBuf b f).bufs b = f (q.bufs b) := by simp [modBuf]

theorem modBuf_other (q : TxQueue) {b x : Nat} (f : TxBuf → TxBuf) (ne : x ≠ b) :
    (q.modBuf b f).bufs x = q.bufs x := by simp [modBuf, ne]

@[simp] theorem setNext_same (q : TxQueue) (b : Nat) (next : Option Nat) :
    (q.setNext b next).bufs b = { q.bufs b with next } := by simp [setNext]

theorem setNext_other (q : TxQueue) {b x : Nat} (next : Option Nat) (ne : x ≠ b) :
    (q.setNext b next).bufs x = q.bufs x := modBuf_other q _ ne

theorem modBuf_next (q : TxQueue) (b x : Nat) {f : TxBuf → TxBuf}
    (keeps : ∀ e, (f e).next = e.next) : ((q.modBuf b f).bufs x).next = (q.bufs x).next := by
  by_cases own : x = b
  · subst own
    rw [modBuf_same, keeps]
  · rw [modBuf_other _ _ own]

theorem setNext_type (q : TxQueue) (b : Nat) (next : Option Nat) (x : Nat) :
    ((q.setNext b next).bufs x).type = (q.bufs x).type := by
  by_cases own : x = b
  · subst own
    rw [setNext_same]
  · rw [setNext_other _ _ own]

@[simp] theorem record_bufs (q : TxQueue) (e : Effect) : (q.record e).bufs = q.bufs := rfl
@[simp] theorem modBuf_flowSchEn (q : TxQueue) (b : Nat) (f : TxBuf → TxBuf) :
    (q.modBuf b f).flowSchEn = q.flowSchEn := rfl
@[simp] theorem record_flowSchEn (q : TxQueue) (e : Effect) :
    (q.record e).flowSchEn = q.flowSchEn := rfl
@[simp] theorem setNext_flowSchEn (q : TxQueue) (b : Nat) (next : Option Nat) :
    (q.setNext b next).flowSchEn = q.flowSchEn := rfl
@[simp] theorem setNext_refillq (q : TxQueue) (b : Nat) (next : Option Nat) :
    (q.setNext b next).refillq = q.refillq := rfl
end TxQueue

theorem libethTxComplete_empty {s : Cleaning} {b : Nat} (h : (s.q.bufs b).type = .empty) :
    libethTxComplete s b = s := by
  simp only [libethTxComplete, h, if_true]

/-- What completing a buffer leaves of the queue apart from statistics: effects
on the log and an empty type. -/
theorem libethTxComplete_q (s : Cleaning) (b : Nat) :
    ∃ log, (libethTxComplete s b).q =
      { s.q with
        bufs := Function.update s.q.bufs b { s.q.bufs b with type := .empty }
        mem := { s.q.mem with log } } := by
  by_cases idle : (s.q.bufs b).type = .empty
  · refine ⟨s.q.mem.log, ?_⟩
    have kept : Function.update s.q.bufs b { s.q.bufs b with type := .empty } = s.q.bufs := by
      rw [← idle]
      exact Function.update_eq_self b s.q.bufs
    rw [libethTxComplete_empty idle, kept]
  · unfold libethTxComplete
    simp only [idle, if_false]
    split <;> split <;> exact ⟨_, rfl⟩

def TxQueue.emptied (q : TxQueue) (l : List Nat) (log : List Effect) : TxQueue :=
  { q with
    bufs := fun b => if b ∈ l then { q.bufs b with type := .empty } else q.bufs b
    mem := { q.mem with log } }

@[simp] theorem TxQueue.emptied_next (q : TxQueue) (l : List Nat) (log : List Effect) (b : Nat) :
    ((q.emptied l log).bufs b).next = (q.bufs b).next := by
  unfold TxQueue.emptied
  dsimp only
  split <;> rfl

@[simp] theorem TxQueue.emptied_flowSchEn (q : TxQueue) (l : List Nat) (log : List Effect) :
    (q.emptied l log).flowSchEn = q.flowSchEn := rfl

theorem TxQueue.emptied_other (q : TxQueue) {l : List Nat} (log : List Effect) {b : Nat}
    (other : b ∉ l) : (q.emptied l log).bufs b = q.bufs b := by
  simp only [TxQueue.emptied, if_neg other]

theorem TxQueue.emptied_emptied (q : TxQueue) (l l' : List Nat) (log log' : List Effect) :
    (q.emptied l log).emptied l' log' = q.emptied (l ++ l') log' := by
  have both : ((q.emptied l log).emptied l' log').bufs = (q.emptied (l ++ l') log').bufs := by
    funext x
    by_cases first : x ∈ l <;> by_cases second : x ∈ l' <;>
      simp [TxQueue.emptied, first, second]
  exact congrArg (fun bufs => { q with bufs, mem := { q.mem with log := log' } }) both

theorem libethTxComplete_emptied (s : Cleaning) (b : Nat) :
    ∃ log, (libethTxComplete s b).q = s.q.emptied [b] log := by
  obtain ⟨log, eq⟩ := libethTxComplete_q s b
  have spread : Function.update s.q.bufs b { s.q.bufs b with type := .empty } =
      fun x => if x ∈ [b] then { s.q.bufs x with type := .empty } else s.q.bufs x := by
    funext x
    by_cases same : x = b
    · subst x
      simp
    · simp [same]
  exact ⟨log, by rw [eq, spread]; rfl⟩

theorem foldl_libethTxComplete (l : List Nat) (s : Cleaning) :
    ∃ log, (l.foldl libethTxComplete s).q = s.q.emptied l log := by
  induction l generalizing s with
  | nil => exact ⟨s.q.mem.log, by simp [TxQueue.emptied]⟩
  | cons b l ih =>
      obtain ⟨_, one⟩ := libethTxComplete_emptied s b
      obtain ⟨log, rest⟩ := ih (libethTxComplete s b)
      refine ⟨log, ?_⟩
      rw [List.foldl_cons, rest, one, s.q.emptied_emptied]
      rfl

theorem walk_libethTxComplete {q : TxQueue} {fuel b : Nat} {l : List Nat}
    (chain : Chain q.bufs (b :: l)) (enough : l.length < fuel) :
    ∃ log, (walkChain libethTxComplete fuel ⟨q, {}⟩ b).q = q.emptied (b :: l) log := by
  have keeps : ∀ s c x, ((libethTxComplete s c).q.bufs x).next = (s.q.bufs x).next := by
    intro s c x
    obtain ⟨log, eq⟩ := libethTxComplete_emptied s c
    rw [eq, TxQueue.emptied_next]
  rw [walkChain_eq keeps chain enough]
  exact foldl_libethTxComplete (b :: l) ⟨q, {}⟩

end Idpf
