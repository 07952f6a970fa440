import Idpf.General.Transition
import Idpf.Tx.Refill

/-! The refill queue between a producer and a consumer that run side by side. On
the transmit side the consumer takes one ID at a time; on the receive side it
moves IDs into a buffer queue, in passes that stop where a buffer has no page. -/
namespace Idpf
open General

def rxBufPostStride : Nat := 16

/-- The part of a buffer queue that posting works on: the buffer IDs in its
descriptors, and `next_to_use`, which is also the value last written to the tail. -/
structure RxBufq where
  descCount : Nat
  nextToUse : Nat
  nextToAlloc : Nat
  ring : Nat → Nat

/-- A refill queue as `idpf_rxq_group_alloc` sets it up: zeroed, so that no slot
carries the bit the consumer waits for. -/
def rxRflAlloc (descCount : Nat) : SwQueue where
  ring _ := 0
  descCount := descCount
  nextToUse := 0
  nextToClean := 0
  genChk := true
  rflGenChk := true

/-- The local variables of `idpf_rx_clean_refillq`. -/
structure RefillPass where
  ntc : Nat
  bufqNta : Nat
  cleaned : Nat

def rxRefillBegin (r : SwQueue) (bufq : RxBufq) : RefillPass := ⟨r.nextToClean, bufq.nextToAlloc, 0⟩

/-- One turn of the loop in `idpf_rx_clean_refillq`, `none` where it leaves the
loop; `ok` is whether `idpf_rx_update_bufq_desc` succeeds. -/
def rxRefillTurn (r : SwQueue) (bufq : RxBufq) (p : RefillPass) (ok : Bool) :
    Option (SwQueue × RxBufq × RefillPass) :=
  let desc := r.ring p.ntc
  if r.descCount ≤ p.cleaned then none
  else if r.rflGenChk ≠ rflGen desc then none
  else if !ok then none
  else some (
    { r with rflGenChk := turn r.descCount p.ntc r.rflGenChk },
    { bufq with ring := Function.update bufq.ring p.bufqNta (rflBufId desc) },
    ⟨bump r.descCount p.ntc, bump bufq.descCount p.bufqNta, p.cleaned + 1⟩)

/-- The end of `idpf_rx_clean_refillq`. -/
def rxRefillEnd (r : SwQueue) (bufq : RxBufq) (p : RefillPass) : SwQueue × RxBufq :=
  if p.cleaned = 0 then (r, bufq)
  else
    let filled := (if bufq.nextToUse ≤ p.bufqNta then 0 else bufq.descCount) + p.bufqNta -
      bufq.nextToUse
    let bufq := { bufq with nextToAlloc := p.bufqNta }
    ({ r with nextToClean := p.ntc },
      if filled ≥ rxBufPostStride then
        { bufq with nextToUse := p.bufqNta / rxBufPostStride * rxBufPostStride }
      else bufq)

def RefillPass.view (p : RefillPass) (r : SwQueue) : SwQueue := { r with nextToClean := p.ntc }

def rxRefillFilled (bufq : RxBufq) (nta : Nat) : Nat :=
  (if bufq.nextToUse ≤ nta then 0 else bufq.descCount) + nta - bufq.nextToUse

theorem rxRefillEnd_idle {r : SwQueue} {bufq : RxBufq} {p : RefillPass} (idle : p.cleaned = 0) :
    rxRefillEnd r bufq p = (r, bufq) := if_pos idle

theorem rxRefillEnd_used {r : SwQueue} {bufq : RxBufq} {p : RefillPass} (used : p.cleaned ≠ 0) :
    rxRefillEnd r bufq p = (p.view r, { bufq with
      nextToAlloc := p.bufqNta
      nextToUse := if rxRefillFilled bufq p.bufqNta ≥ rxBufPostStride then
        p.bufqNta / rxBufPostStride * rxBufPostStride else bufq.nextToUse }) := by
  have end_ : rxRefillEnd r bufq p = (p.view r,
      if rxRefillFilled bufq p.bufqNta ≥ rxBufPostStride then
        { bufq with
          nextToAlloc := p.bufqNta, nextToUse := p.bufqNta / rxBufPostStride * rxBufPostStride }
      else { bufq with nextToAlloc := p.bufqNta }) := if_neg used
  rw [end_]
  by_cases enough : rxRefillFilled bufq p.bufqNta ≥ rxBufPostStride
  · simp only [if_pos enough]
  · simp only [if_neg enough]

theorem rxRflAlloc_view {n : Nat} (pos : 0 < n) :
    RflView (rxRflAlloc n) (fun _ => 0) (2 * n) (2 * n) := by
  have laps : 2 * n / n = 2 := Nat.mul_div_cancel _ pos
  refine ⟨⟨pos, le_rfl, Nat.le_add_right _ _, by show n ≤ 2 * n; omega, ?_⟩, ?_, ?_, ?_, ?_⟩
  · intro k lt near
    simp only [rxRflAlloc] at lt near ⊢
    have lap : k / n = 1 := by
      rw [Nat.div_eq_iff pos]
      omega
    rw [lap]
    rfl
  · exact (Nat.mul_mod_left 2 n).symm
  · simp only [rxRflAlloc, laps, lapGen, Bool.not_not]
  · exact (Nat.mul_mod_left 2 n).symm
  · simp only [rxRflAlloc, laps, lapGen, Bool.not_not]

theorem rxRflAlloc_free {n : Nat} (pos : 0 < n) : RflFree (rxRflAlloc n) [] :=
  ⟨_, _, _, rxRflAlloc_view pos, (backlog_nil _ _).symm⟩

/-- A turn that gets through takes the oldest ID that waits. -/
theorem RflFree.turn {r : SwQueue} {bufq : RxBufq} {p : RefillPass} {free : List Nat} {ok : Bool}
    {r' : SwQueue} {bufq' : RxBufq} {p' : RefillPass} (f : RflFree (p.view r) free)
    (taken : rxRefillTurn r bufq p ok = some (r', bufq', p')) :
    ∃ b rest, free = b :: rest ∧ b = rflBufId (r.ring p.ntc) ∧ RflFree (p'.view r') rest ∧
      r'.descCount = r.descCount := by
  simp only [rxRefillTurn, Option.ite_none_left_eq_some, Option.some.injEq, Prod.mk.injEq] at taken
  obtain ⟨-, ready, -, rfl, -, rfl⟩ := taken
  have got : txGetFreeBufId (p.view r) = some (rflBufId (r.ring p.ntc),
      { p.view r with
        nextToClean := bump r.descCount p.ntc
        rflGenChk := General.turn r.descCount p.ntc r.rflGenChk }) := if_neg ready
  cases free with
  | nil => exact absurd (f.get_none.symm.trans got) nofun
  | cons b rest =>
      obtain ⟨r', got', left, same⟩ := f.get
      rw [got] at got'
      obtain ⟨rfl, rfl⟩ := Prod.mk.inj (Option.some.inj got')
      exact ⟨_, rest, rfl, rfl, left, rfl⟩

/-- Producer and consumer of one refill queue, with everything put in and taken out
so far. `pass` is the consumer inside `idpf_rx_clean_refillq`. -/
structure RefillSystem where
  refillq : SwQueue
  bufq : RxBufq
  pass : Option RefillPass
  produced : List Nat
  consumed : List Nat

inductive RefillOp where
  | post (bufId : Nat)
  | get
  | begin_
  | turn (ok : Bool)
  deriving DecidableEq, Repr

/-- A step of either side. The producer keeps to the bound of the queue. -/
def RefillSystem.step (s : RefillSystem) : RefillOp → Option RefillSystem
  | .post bufId =>
    if s.produced.length < s.consumed.length + s.refillq.descCount then
      some { s with
        refillq := postBufRefill s.refillq (u16 bufId)
        produced := s.produced ++ [u16 bufId] }
    else none
  | .get =>
    match s.pass with
    | some _ => none
    | none =>
      match txGetFreeBufId s.refillq with
      | none => some s
      | some (b, r) => some { s with refillq := r, consumed := s.consumed ++ [b] }
  | .begin_ =>
    match s.pass with
    | some _ => none
    | none => some { s with pass := some (rxRefillBegin s.refillq s.bufq) }
  | .turn ok =>
    s.pass.map fun p =>
      match rxRefillTurn s.refillq s.bufq p ok with
      | some (r, bufq, p') =>
        { s with
          refillq := r, bufq, pass := some p'
          consumed := s.consumed ++ [rflBufId (s.refillq.ring p.ntc)] }
      | none =>
        let left := rxRefillEnd s.refillq s.bufq p
        { s with refillq := left.1, bufq := left.2, pass := none }

/-- The pre-filled queue of a Tx queue, or the empty one of an Rx queue. -/
inductive RefillStart : RefillSystem → Prop
  | tx {n bufq} : 0 < n → n ≤ 65536 → RefillStart ⟨rflAlloc n, bufq, none, List.range n, []⟩
  | rx {n bufq} : 0 < n → RefillStart ⟨rxRflAlloc n, bufq, none, [], []⟩

def RefillSystem.view (s : RefillSystem) : SwQueue :=
  match s.pass with
  | some p => p.view s.refillq
  | none => s.refillq

@[simp] theorem RefillSystem.view_descCount (s : RefillSystem) :
    s.view.descCount = s.refillq.descCount := by
  unfold view
  split <;> rfl

def RefillSystem.waiting (s : RefillSystem) : List Nat := rflValid s.refillq.descCount s.view

/-- `free` waits in the queue as its consumer sees it, and completes what was
taken to what was put in. A pass that has done nothing has changed nothing. -/
structure RefillInv (s : RefillSystem) (free : List Nat) : Prop where
  queue : RflFree s.view free
  idle : ∀ p, s.pass = some p → p.cleaned = 0 → p.ntc = s.refillq.nextToClean
  all : s.produced = s.consumed ++ free

theorem RflFree.length_le {r : SwQueue} {free : List Nat} (f : RflFree r free) :
    free.length ≤ r.descCount := by
  obtain ⟨h, c, p, v, rfl⟩ := f
  rw [backlog_length]
  have := v.gens.room
  omega

namespace RefillInv

variable {s s' : RefillSystem} {free : List Nat}

theorem start (h : RefillStart s) : ∃ free, RefillInv s free := by
  cases h with
  | tx pos small => exact ⟨_, rflAlloc_free pos small, nofun, rfl⟩
  | rx pos => exact ⟨_, rxRflAlloc_free pos, nofun, rfl⟩

theorem length_le (v : RefillInv s free) : free.length ≤ s.refillq.descCount :=
  s.view_descCount ▸ v.queue.length_le

theorem waiting_eq (v : RefillInv s free) : s.waiting = free := rflValid_eq v.queue v.length_le

theorem post (v : RefillInv s free) {bufId : Nat} (taken : s.step (.post bufId) = some s') :
    RefillInv s' (free ++ [u16 bufId]) := by
  simp only [RefillSystem.step, Option.ite_none_right_eq_some, Option.some.injEq] at taken
  obtain ⟨room, rfl⟩ := taken
  have space : free.length < s.refillq.descCount := by
    rw [v.all, List.length_append] at room
    omega
  have small : u16 bufId < 65536 := Nat.mod_lt _ (by decide)
  have all : s.produced ++ [u16 bufId] = s.consumed ++ (free ++ [u16 bufId]) := by
    rw [v.all, List.append_assoc]
  obtain ⟨q, bufq, pass, produced, consumed⟩ := s
  refine ⟨?_, v.idle, all⟩
  cases pass with
  | none => exact v.queue.post space small
  | some p => exact v.queue.post space small

theorem get (v : RefillInv s free) (taken : s.step .get = some s') :
    ∃ free', RefillInv s' free' := by
  obtain ⟨q, bufq, pass, produced, consumed⟩ := s
  cases pass with
  | some p => exact nomatch taken
  | none =>
      cases free with
      | nil =>
          have spent : txGetFreeBufId q = none := v.queue.get_none
          simp only [RefillSystem.step, spent, Option.some.injEq] at taken
          exact ⟨[], taken ▸ v⟩
      | cons b rest =>
          obtain ⟨r, got, left, -⟩ := v.queue.get
          have got : txGetFreeBufId q = some (b, r) := got
          simp only [RefillSystem.step, got, Option.some.injEq] at taken
          have all : produced = consumed ++ b :: rest := v.all
          exact ⟨rest, taken ▸ ⟨left, nofun, by simp only [all, List.append_assoc, List.cons_append,
            List.nil_append]⟩⟩

theorem begin_ (v : RefillInv s free) (taken : s.step .begin_ = some s') : RefillInv s' free := by
  obtain ⟨q, bufq, pass, produced, consumed⟩ := s
  cases pass with
  | some p => exact nomatch taken
  | none =>
      obtain rfl := Option.some.inj taken
      refine ⟨v.queue, fun p eq _ => ?_, v.all⟩
      rw [← Option.some.inj eq]
      rfl

theorem turn (v : RefillInv s free) {ok : Bool} (taken : s.step (.turn ok) = some s') :
    ∃ free', RefillInv s' free' := by
  obtain ⟨q, bufq, pass, produced, consumed⟩ := s
  cases pass with
  | none => exact nomatch taken
  | some p =>
      have all : produced = consumed ++ free := v.all
      obtain rfl := Option.some.inj taken
      dsimp only
      cases through : rxRefillTurn q bufq p ok with
      | some next =>
          obtain ⟨r, bufq', p'⟩ := next
          obtain ⟨b, rest, rfl, rfl, left, -⟩ := RflFree.turn v.queue through
          refine ⟨rest, left, fun p'' eq zero => ?_, by simp only [all, List.append_assoc,
            List.cons_append, List.nil_append]⟩
          simp only [rxRefillTurn, Option.ite_none_left_eq_some, Option.some.injEq,
            Prod.mk.injEq] at through
          rw [← Option.some.inj eq, ← through.2.2.2.2.2] at zero
          exact absurd zero (Nat.succ_ne_zero _)
      | none =>
          refine ⟨free, ?_, nofun, all⟩
          dsimp only [rxRefillEnd]
          split
          · next idle =>
            have same : p.view q = q := by
              have ntc : p.ntc = q.nextToClean := v.idle p rfl idle
              rw [RefillPass.view, ntc]
            exact same ▸ v.queue
          · exact v.queue

theorem step {op : RefillOp} (v : RefillInv s free) (taken : s.step op = some s') :
    ∃ free', RefillInv s' free' := by
  cases op with
  | post bufId => exact ⟨_, v.post taken⟩
  | get => exact v.get taken
  | begin_ => exact ⟨free, v.begin_ taken⟩
  | turn ok => exact v.turn taken

end RefillInv

/-- In every interleaving of the two sides the IDs taken, followed by those the
consumer would still find, are the IDs put in, in their order. -/
theorem refill_queue_fifo {s : RefillSystem}
    (run : Reachable RefillSystem.step anyStep RefillStart s) :
    s.produced = s.consumed ++ s.waiting ∧ s.waiting.length ≤ s.refillq.descCount := by
  obtain ⟨free, v⟩ := run.invariant (I := fun s => ∃ free, RefillInv s free)
    (fun _ => RefillInv.start) (fun _ _ _ ⟨_, v⟩ _ taken => v.step taken)
  rw [v.waiting_eq]
  exact ⟨v.all, v.length_le⟩

/-- A pass that stops at a buffer without a page, over the wrap of both indices. -/
theorem refill_queue_fifo_pass :
    let bufq : RxBufq := ⟨4, 0, 3, fun _ => 0⟩
    let run := exec RefillSystem.step ⟨rxRflAlloc 2, bufq, none, [], []⟩
      [.post 0, .begin_, .turn true, .post 1, .post 2, .turn true, .turn true, .begin_, .turn false]
    ∃ s, run = some s ∧ s.consumed = [0, 1] ∧ s.produced = [0, 1, 2] ∧
      s.produced = s.consumed ++ s.waiting := by
  intro bufq run
  have seen : run.map (fun s => (s.consumed, s.produced)) = some ([0, 1], [0, 1, 2]) := by
    decide +kernel
  obtain ⟨s, reached, eq⟩ := Option.map_eq_some_iff.mp seen
  obtain ⟨consumed, produced⟩ := Prod.mk.inj eq
  have start : RefillStart ⟨rxRflAlloc 2, bufq, none, [], []⟩ := .rx (by decide)
  exact ⟨s, reached, consumed, produced,
    (refill_queue_fifo ((Reachable.start start).exec reached)).1⟩

end Idpf
