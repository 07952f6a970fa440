import Idpf.Tx.Send
import Idpf.General.Transition

/-! Which Tx queues have a refill queue. Three tests have to agree: the capability
that `idpf_txq_group_alloc` allocates by, the flag that `idpf_tx_desc_alloc`
initialises by, and whatever the users of the refill queue look at. The flag is
set once more for ETF queues when everything is allocated. -/
namespace Idpf
open General

/-- `txq->tx.refillq`: `NULL`, allocated by the queue group without a ring, or
with its ring. -/
inductive RefillqPtr where
  | null | bare | ready (r : SwQueue)

/-- What a vport negotiated: `VIRTCHNL2_CAP_SPLITQ_QSCHED`, `VIRTCHNL2_CAP_EDT`,
`VIRTCHNL2_CAP_MISS_COMPL_TAG` and the Tx queue model. -/
structure VportCaps where
  qsched : Bool
  edt : Bool
  missTag : Bool
  split : Bool

/-- Flags and refill queue of a Tx queue. -/
structure TxqRes where
  flowSchEn : Bool := false
  etfEn : Bool := false
  xdp : Bool := false
  bufPoolSize : Nat := 0
  refillq : RefillqPtr := .null

/-- Results of the allocations made for one Tx queue, in the order of the calls. -/
structure TxqAlloc where
  txq : Bool := true
  refillq : Bool := true
  bufs : Bool := true
  descRing : Bool := true
  rflRing : Bool := true

/-- An attempt to bring the queues up: the Tx queues in the order of `vport->txqs`,
the first XDP queue if a program is loaded, and whether all the rest succeeds. -/
structure OpenEnv where
  descCount : Nat
  txqs : List TxqAlloc
  xdpTxqOffset : Option Nat := none
  rest : Bool := true

/-- A negative return, or an access through a refill queue that is not there. -/
inductive AllocErr where
  | err | noRefillq
  deriving DecidableEq

/-- `idpf_txq_group_alloc`, for one queue. -/
def txqGroupAlloc (c : VportCaps) (a : TxqAlloc) : Except AllocErr TxqRes :=
  if !a.txq then .error .err
  else if !c.qsched then
    if a.refillq then .ok { flowSchEn := true, refillq := .bare } else .error .err
  else .ok {}

/-- `idpf_tx_desc_alloc` of a Tx queue, with `idpf_tx_buf_alloc_all`. -/
def txDescAlloc (c : VportCaps) (descCount : Nat) (a : TxqAlloc) (q : TxqRes) :
    Except AllocErr TxqRes :=
  let poolSize := if q.flowSchEn then (if c.missTag then 65535 / 2 else 65535) else descCount
  let q := { q with bufPoolSize := poolSize }
  if !a.bufs || !a.descRing then .error .err
  else if !q.flowSchEn then .ok q
  else match q.refillq with
    | .null => .error .noRefillq
    | _ => if a.rflRing then .ok { q with refillq := .ready (rflAlloc poolSize) } else .error .err

/-- The loops at the end of `idpf_vport_queue_alloc_all`, for queue `i`. -/
def txqMark (etfQenable : Nat → Bool) (xdpTxqOffset : Option Nat) (i : Nat) (q : TxqRes) : TxqRes :=
  let q := if etfQenable i then { q with flowSchEn := true, etfEn := true } else q
  match xdpTxqOffset with
  | some offset => if offset ≤ i then { q with xdp := true } else q
  | none => q

/-- `idpf_vport_queue_alloc_all`: any failure releases every queue. -/
def vportQueueAllocAll (c : VportCaps) (etfQenable : Nat → Bool) (e : OpenEnv) :
    Except AllocErr (List TxqRes) := do
  let qs ← e.txqs.mapM fun a => (txqGroupAlloc c a).map (a, ·)
  let qs ← qs.mapM fun p => txDescAlloc c e.descCount p.1 p.2
  if e.rest then .ok (qs.mapIdx (txqMark etfQenable e.xdpTxqOffset)) else .error .err

/-- The refill queue as its users reach it; `none` is a stray access. -/
def TxqRes.deref (q : TxqRes) : Option SwQueue :=
  match q.refillq with
  | .ready r => some r
  | _ => none

/-- One pass of the transmit or cleaning code over the refill queue of a Tx queue,
with the values that decide how far it gets. -/
inductive RefillUse where
  | hasRoom (unused pending thresh descsNeeded : Nat)
  | frame
  | map
  | rollback (prevNtc : Nat) (prevGen : Bool)
  | rs (cleanable : Bool) (bufIds : List Nat)
  | miss (cleanable : Bool) (bufIds : List Nat)
  | reinject
  | xmitXdpq

/-- `idpf_tx_get_free_buf_id` where only the queue it leaves matters. -/
def takeBufId (r : SwQueue) : SwQueue := ((txGetFreeBufId r).map Prod.snd).getD r

/-- `idpf_tx_clean_bufs`: nothing happens unless the first buffer has a type it
cleans, and each buffer of the packet is posted otherwise. -/
def cleanBufsUse (q : TxqRes) (cleanable : Bool) (bufIds : List Nat) : Option TxqRes :=
  if !cleanable then some q
  else q.deref.map fun r => { q with refillq := .ready (bufIds.foldl postBufRefill r) }

/-- The accesses to `txq->tx.refillq`, under the tests the source makes before
them; `none` when one meets no initialised refill queue. -/
def RefillUse.run (q : TxqRes) : RefillUse → Option TxqRes
  | .hasRoom unused pending thresh descsNeeded =>
    if unused < descsNeeded || pending > thresh then some q else q.deref.map fun _ => q
  | .frame | .map | .xmitXdpq =>
    if q.flowSchEn then q.deref.map fun r => { q with refillq := .ready (takeBufId r) } else some q
  | .rollback prevNtc prevGen =>
    match q.refillq with
    | .null => some q
    | _ => q.deref.map fun r => { q with refillq := .ready (rflRestore r prevNtc prevGen) }
  | .rs cleanable bufIds => if q.flowSchEn then cleanBufsUse q cleanable bufIds else some q
  | .miss cleanable bufIds => cleanBufsUse q cleanable bufIds
  | .reinject => some q

/-- The queues of a vport while they exist, and the user's ETF setting. -/
structure VportTxqs where
  etfQenable : Nat → Bool
  txqs : Option (List TxqRes)

/-- A soft reset: it stops early without memory for its copy of the vport, and
otherwise allocates the queues anew. -/
inductive SoftReset where
  | noMem | reopened (e : OpenEnv)

inductive VportOp where
  | openVport (e : OpenEnv)
  | stop
  | offloadTxtime (queue : Nat) (enable : Bool) (reset : SoftReset)
  | use (queue : Nat) (u : RefillUse)

/-- The queues `idpf_vport_open` leaves. -/
def vportOpen (c : VportCaps) (s : VportTxqs) (e : OpenEnv) : VportTxqs :=
  { s with txqs := (vportQueueAllocAll c s.etfQenable e).toOption }

/-- `idpf_offload_txtime` with `idpf_change_tx_sch_mode`, behind the tests of
`idpf_setup_tc`. -/
def offloadTxtime (c : VportCaps) (s : VportTxqs) (queue : Nat) (enable : Bool)
    (reset : SoftReset) : VportTxqs :=
  match s.txqs with
  | none => s
  | some qs =>
    if !c.split || !c.edt then s
    else match qs[queue]? with
      | none => s
      | some q =>
        let s := { s with etfQenable := Function.update s.etfQenable queue enable }
        if c.qsched then
          if enable != q.flowSchEn then
            match reset with
            | .noMem => s
            | .reopened e => vportOpen c s e
          else s
        else { s with txqs := some (qs.set queue { q with etfEn := enable }) }

/-- A step of the vport. The users of the refill queue run on split queues only. -/
def VportTxqs.step (c : VportCaps) (s : VportTxqs) : VportOp → Option VportTxqs
  | .openVport e => if s.txqs.isSome then none else some (vportOpen c s e)
  | .stop => some { s with txqs := none }
  | .offloadTxtime queue enable reset => some (offloadTxtime c s queue enable reset)
  | .use queue u => do
    let qs ← s.txqs
    let q ← qs[queue]?
    if c.split then
      let q ← u.run q
      some { s with txqs := some (qs.set queue q) }
    else none

/-- No queue exists yet; the ETF setting of an earlier life of the vport stays. -/
def VportTxqs.Start (s : VportTxqs) : Prop := s.txqs = none

/-- Every use of a refill queue that can run finds one. -/
def RefillqsExist (c : VportCaps) (s : VportTxqs) : Prop :=
  c.split = true → ∀ qs, s.txqs = some qs → ∀ q ∈ qs, ∀ u : RefillUse, u.run q ≠ none

theorem mem_of_mapM_ok {α β ε : Type} {f : α → Except ε β} {xs : List α} {ys : List β}
    (ok : xs.mapM f = .ok ys) {y : β} (member : y ∈ ys) : ∃ x ∈ xs, f x = .ok y := by
  induction xs generalizing ys with
  | nil =>
      obtain rfl := Except.ok.inj ok
      exact absurd member List.not_mem_nil
  | cons x xs ih =>
      rw [List.mapM_cons] at ok
      cases one : f x with
      | error e => rw [one] at ok; exact nomatch ok
      | ok z =>
          cases rest : xs.mapM f with
          | error e => rw [one, rest] at ok; exact nomatch ok
          | ok zs =>
              rw [one, rest] at ok
              obtain rfl := Except.ok.inj ok
              rcases List.mem_cons.mp member with rfl | later
              · exact ⟨x, List.mem_cons_self, one⟩
              · obtain ⟨x', old, eq⟩ := ih rest later
                exact ⟨x', List.mem_cons_of_mem x old, eq⟩

section Alloc

variable {c : VportCaps} {descCount : Nat} {a : TxqAlloc} {q q' : TxqRes}

theorem txqGroupAlloc_ok (ok : txqGroupAlloc c a = .ok q) :
    q = if c.qsched then {} else { flowSchEn := true, refillq := .bare } := by
  unfold txqGroupAlloc at ok
  split at ok
  · exact nomatch ok
  · split at ok
    · next flow =>
      split at ok
      · rw [← Except.ok.inj ok, if_neg (by simpa using flow)]
      · exact nomatch ok
    · next sched => rw [← Except.ok.inj ok, if_pos (by simpa using sched)]

/-- The flag agrees with the allocation when the ring is set up, so the set-up
finds what it initialises, and initialises all there is. -/
theorem txDescAlloc_grouped (ok : txqGroupAlloc c a = .ok q) :
    txDescAlloc c descCount a q ≠ .error .noRefillq ∧
      ∀ q', txDescAlloc c descCount a q = .ok q' →
        q'.refillq = if c.qsched then .null else .ready (rflAlloc q'.bufPoolSize) := by
  rw [txqGroupAlloc_ok ok]
  cases c.qsched with
  | true =>
      simp only [if_true, txDescAlloc]
      split
      · exact ⟨nofun, nofun⟩
      · refine ⟨nofun, fun q' eq => ?_⟩
        rw [← Except.ok.inj eq]
  | false =>
      simp only [Bool.false_eq_true, if_false, txDescAlloc]
      split
      · exact ⟨nofun, nofun⟩
      · simp only [Bool.not_true, Bool.false_eq_true, if_false]
        split
        · refine ⟨nofun, fun q' eq => ?_⟩
          rw [← Except.ok.inj eq]
        · exact ⟨nofun, nofun⟩

theorem txqMark_refillq (etf : Nat → Bool) (offset : Option Nat) (i : Nat) (q : TxqRes) :
    (txqMark etf offset i q).refillq = q.refillq := by
  unfold txqMark
  split <;> split <;> (try split) <;> rfl

/-- Every queue of a vport that came up has a refill queue ready, or, with queue
scheduling, none has one. -/
theorem vportQueueAllocAll_refillq {etf : Nat → Bool} {e : OpenEnv} {qs : List TxqRes}
    (ok : vportQueueAllocAll c etf e = .ok qs) (member : q ∈ qs) :
    if c.qsched then q.refillq = .null else ∃ r, q.refillq = .ready r := by
  unfold vportQueueAllocAll at ok
  cases grouped : e.txqs.mapM fun a => (txqGroupAlloc c a).map (a, ·) with
  | error _ => rw [grouped] at ok; exact nomatch ok
  | ok ps =>
      rw [grouped] at ok
      cases set : ps.mapM fun p => txDescAlloc c e.descCount p.1 p.2 with
      | error _ => simp only [bind, Except.bind, set] at ok; exact nomatch ok
      | ok qs' =>
          simp only [bind, Except.bind, set] at ok
          split at ok
          · rw [← Except.ok.inj ok] at member
            obtain ⟨i, hi, rfl⟩ := List.mem_mapIdx.mp member
            rw [txqMark_refillq]
            obtain ⟨⟨a, q⟩, fromPairs, desc⟩ := mem_of_mapM_ok set (List.getElem_mem hi)
            obtain ⟨a', -, pair⟩ := mem_of_mapM_ok grouped fromPairs
            cases group : txqGroupAlloc c a' with
            | error _ => rw [group] at pair; exact nomatch pair
            | ok q' =>
                rw [group] at pair
                obtain ⟨rfl, rfl⟩ := Prod.mk.inj (Except.ok.inj pair)
                have := (txDescAlloc_grouped group).2 _ desc
                split
                · next sched => rw [this, if_pos sched]
                · next flow => exact ⟨_, by rw [this, if_neg flow]⟩
          · exact nomatch ok

end Alloc

theorem RefillUse.run_ready {q : TxqRes} {r : SwQueue} (ready : q.refillq = .ready r)
    (u : RefillUse) : ∃ q', u.run q = some q' ∧ ∃ r', q'.refillq = .ready r' := by
  have found : q.deref = some r := by rw [TxqRes.deref, ready]
  have clean : ∀ cleanable bufIds, ∃ q', cleanBufsUse q cleanable bufIds = some q' ∧
      ∃ r', q'.refillq = .ready r' := by
    intro cleanable bufIds
    unfold cleanBufsUse
    split
    · exact ⟨q, rfl, r, ready⟩
    · exact ⟨_, by rw [found]; rfl, _, rfl⟩
  cases u with
  | hasRoom _ _ _ _ =>
      refine ⟨q, ?_, r, ready⟩
      simp only [RefillUse.run, found, Option.map_some, ite_self]
  | frame | map | xmitXdpq =>
      simp only [RefillUse.run, found, Option.map_some]
      split
      · exact ⟨_, rfl, _, rfl⟩
      · exact ⟨_, rfl, r, ready⟩
  | rollback prevNtc prevGen =>
      simp only [RefillUse.run, ready, found, Option.map_some]
      exact ⟨_, rfl, _, rfl⟩
  | rs cleanable bufIds =>
      simp only [RefillUse.run]
      split
      · exact clean cleanable bufIds
      · exact ⟨q, rfl, r, ready⟩
  | miss cleanable bufIds => exact clean cleanable bufIds
  | reinject => exact ⟨q, rfl, r, ready⟩

def AllReady (s : VportTxqs) : Prop :=
  ∀ qs, s.txqs = some qs → ∀ q ∈ qs, ∃ r, q.refillq = .ready r

theorem AllReady.set {s : VportTxqs} {qs : List TxqRes} (h : AllReady s) (some : s.txqs = some qs)
    {i : Nat} {q : TxqRes} {r : SwQueue} (ready : q.refillq = .ready r) (etf : Nat → Bool) :
    AllReady { etfQenable := etf, txqs := .some (qs.set i q) } := by
  intro qs' eq q' member
  rw [← Option.some.inj eq] at member
  rcases List.mem_or_eq_of_mem_set member with old | rfl
  · exact h qs some q' old
  · exact ⟨r, ready⟩

theorem vportOpen_allReady {c : VportCaps} (flow : c.qsched = false) (s : VportTxqs) (e : OpenEnv) :
    AllReady (vportOpen c s e) := by
  intro qs eq q member
  have ok : vportQueueAllocAll c s.etfQenable e = .ok qs := by
    simp only [vportOpen] at eq
    cases alloc : vportQueueAllocAll c s.etfQenable e with
    | error _ => rw [alloc] at eq; exact nomatch eq
    | ok qs' => rw [alloc] at eq; rw [Option.some.inj eq]
  have := vportQueueAllocAll_refillq ok member
  rwa [flow] at this

theorem offloadTxtime_allReady {c : VportCaps} (flow : c.qsched = false) {s : VportTxqs}
    (h : AllReady s) (queue : Nat) (enable : Bool) (reset : SoftReset) :
    AllReady (offloadTxtime c s queue enable reset) := by
  unfold offloadTxtime
  split
  · exact h
  · next qs some =>
    split
    · exact h
    · split
      · exact h
      · next q at_ =>
        obtain ⟨r, ready⟩ := h qs some q (List.mem_of_getElem? at_)
        simp only [flow, Bool.false_eq_true, if_false]
        exact h.set some (q := { q with etfEn := enable }) ready _

theorem AllReady.step {c : VportCaps} (flow : c.qsched = false) {s s' : VportTxqs} {op : VportOp}
    (h : AllReady s) (taken : s.step c op = some s') : AllReady s' := by
  cases op with
  | openVport e =>
      simp only [VportTxqs.step, Option.ite_none_left_eq_some, Option.some.injEq] at taken
      exact taken.2 ▸ vportOpen_allReady flow s e
  | stop =>
      rw [← Option.some.inj taken]
      exact nofun
  | offloadTxtime queue enable reset =>
      rw [← Option.some.inj taken]
      exact offloadTxtime_allReady flow h queue enable reset
  | use queue u =>
      obtain ⟨qs, some, taken⟩ := Option.bind_eq_some_iff.mp taken
      obtain ⟨q, at_, taken⟩ := Option.bind_eq_some_iff.mp taken
      split at taken
      · obtain ⟨q', ran, eq⟩ := Option.bind_eq_some_iff.mp taken
        obtain ⟨r, ready⟩ := h qs some q (List.mem_of_getElem? at_)
        obtain ⟨q'', ran', r', ready'⟩ := u.run_ready ready
        rw [ran] at ran'
        rw [← Option.some.inj eq]
        exact h.set some (Option.some.inj ran' ▸ ready') _
      · exact nomatch taken

/-- A refill queue is there for every use that can run, in every state of the vport,
exactly if the device does not offer queue scheduling or the queues are single. -/
theorem refillqs_exist_iff (c : VportCaps) :
    (∀ s, Reachable (VportTxqs.step c) anyStep VportTxqs.Start s → RefillqsExist c s) ↔
      c.qsched = false ∨ c.split = false := by
  constructor
  · intro all
    by_contra neither
    obtain ⟨sched, split⟩ := not_or.mp neither
    have sched : c.qsched = true := by simpa using sched
    have split : c.split = true := by simpa using split
    let e : OpenEnv := { descCount := 512, txqs := [{}] }
    let s : VportTxqs := ⟨fun _ => false, none⟩
    have up : vportQueueAllocAll c s.etfQenable e = .ok [{ bufPoolSize := 512 }] := by
      simp [vportQueueAllocAll, e, s, txqGroupAlloc, txDescAlloc, txqMark, sched, bind, Except.bind,
        pure, Except.pure, Except.map]
    have run : Reachable (VportTxqs.step c) anyStep VportTxqs.Start (vportOpen c s e) :=
      .next (a := .openVport e) (.start (s := s) rfl) trivial rfl
    refine all _ run split [{ bufPoolSize := 512 }] ?_ _ (List.mem_singleton_self _)
      (.hasRoom 1 0 0 1) rfl
    rw [vportOpen, up]
    rfl
  · rintro (flow | single) s run split qs eq q member u
    · have ready := run.invariant (I := AllReady) (fun s start qs eq => nomatch start ▸ eq)
        (fun s op t h _ taken => h.step flow taken)
      obtain ⟨r, ready⟩ := ready qs eq q member
      obtain ⟨q', ran, -⟩ := u.run_ready ready
      rw [ran]
      exact Option.some_ne_none q'
    · exact absurd split (by rw [single]; exact Bool.false_ne_true)

/-- With queue scheduling the room check of the first packet meets no refill queue;
once ETF is enabled, neither does the tag allocation after it. -/
theorem refillq_missing :
    let c : VportCaps := ⟨true, true, false, true⟩
    let e : OpenEnv := { descCount := 512, txqs := [{}] }
    let run := exec (VportTxqs.step c) ⟨fun _ => false, none⟩ [.openVport e]
    let toggled := exec (VportTxqs.step c) ⟨fun _ => false, none⟩
      [.openVport e, .offloadTxtime 0 true (.reopened e)]
    (∃ s qs q, run = some s ∧ s.txqs = some qs ∧ qs[0]? = some q ∧
      RefillUse.run q (.hasRoom 511 0 128 1) = none) ∧
    ∃ s qs q, toggled = some s ∧ s.txqs = some qs ∧ qs[0]? = some q ∧ q.flowSchEn = true ∧
      RefillUse.run q .frame = none :=
  ⟨⟨_, _, _, rfl, rfl, rfl, rfl⟩, ⟨_, _, _, rfl, rfl, rfl, rfl, rfl⟩⟩

end Idpf
