import Idpf.Rx.Posting

/-! A buffer queue that is filled from an AF_XDP pool: what happens to the descriptors and the buffer
IDs for which the pool has nothing to give. -/
namespace Idpf
open General

/-- How many of the next `k` requests to the pool are met, from request `i` on. -/
def supplied (supply : Nat → Bool) : Nat → Nat → Nat
  | 0, _ => 0
  | k + 1, i => if supply i then supplied supply k (i + 1) + 1 else 0

/-- The requests `idpf_rx_splitq_buf_hw_alloc_zc_all` makes for `count`. -/
def zcRequests (count : Nat) : Nat := if count = 0 then 65536 else count

/-- What is asked of a queue in use: the tail covers descriptors with buffers only and has not passed
`next_to_alloc`, and each ID is posted or waits in a refill queue, but not both. -/
structure ZcSafe (c : RxPostCfg) (s : RxPosting) : Prop where
  covered : ∀ i ∈ ringSlots c.descCount s.head (ringDist c.descCount s.head s.tail),
    s.filled i = true
  behind : ringDist c.descCount s.head s.tail ≤ ringDist c.descCount s.head s.nta
  once : ∀ b, s.places c.numRxq b = if b < c.descCount - 1 then 1 else 0

/-- The pool supplies buffers up to the last descriptor but one, as `idpf_vport_xdp_init` asks. -/
def zcOk (c : RxPostCfg) : PostOp → Bool
  | .xdpInit count supply =>
    decide (supplied supply (zcRequests count) 0 % c.descCount = c.descCount - 1)
  | _ => true

theorem RflFree.posts {q : SwQueue} {free l : List Nat} (f : RflFree q free)
    (room : free.length + l.length ≤ q.descCount) (small : ∀ b ∈ l, b < 65536) :
    RflFree (l.foldl (fun q b => postBufRefill q (u16 b)) q) (free ++ l) := by
  induction l generalizing q free with
  | nil =>
      rw [List.append_nil]
      exact f
  | cons b l ih =>
      rw [List.length_cons] at room
      have u : u16 b = b := Nat.mod_eq_of_lt (small b List.mem_cons_self)
      have next := f.post (b := b) (by omega) (small b List.mem_cons_self)
      rw [List.foldl_cons, u, ← List.singleton_append, ← List.append_assoc]
      refine ih next ?_ fun b' member => small b' (List.mem_cons_of_mem _ member)
      rw [List.length_append, List.length_singleton]
      change _ ≤ q.descCount
      omega

namespace RxPosting

variable {c : RxPostCfg} {s t : RxPosting}

/-- The loop stops behind the descriptors that have got a buffer. -/
theorem zcAllocLoop_eq {n : Nat} (pos : 0 < n) (supply : Nat → Bool) (k i p : Nat)
    (filled : Nat → Bool) :
    zcAllocLoop n supply k i (p % n) filled = ((p + supplied supply k i) % n,
      fun x => filled x || decide (x ∈ ringSlots n p (supplied supply k i))) := by
  induction k generalizing i p filled with
  | zero => simp [zcAllocLoop, supplied]
  | succ k ih =>
      rw [zcAllocLoop, supplied]
      by_cases got : supply i = true
      · rw [if_pos got, if_pos got, bump_mod pos, ih]
        refine Prod.ext ?_ ?_
        · change (p + 1 + _) % n = _
          rw [Nat.add_right_comm, Nat.add_assoc]
        · funext x
          simp only [ringSlots_cons, List.mem_cons]
          by_cases same : x = p % n
          · rw [same, Function.update_self, Bool.true_or, decide_eq_true (Or.inl rfl), Bool.or_true]
          · rw [Function.update_of_ne same]
            congr 1
            exact decide_eq_decide.mpr ⟨Or.inr, fun h => h.resolve_left same⟩
      · rw [if_neg got, if_neg got]
        simp

/-- The queue once `m` of the requests have been met. -/
theorem xdpInit_pool (pool : c.zc = true) {count m : Nat} {supply : Nat → Bool}
    (met : supplied supply (zcRequests count) 0 = m) :
    ∃ writes, c.opened.xdpInit c count supply = { c.opened with
      stage := .enabled
      filled := fun x => decide (x ∈ ringSlots c.descCount 0 m)
      refillq := Function.update c.opened.refillq 0
        ((List.range' (m % c.descCount) (c.descCount - 1 - m % c.descCount)).foldl
          (fun q b => postBufRefill q (u16 b)) (rxRflAlloc c.descCount))
      bufq := { c.opened.bufq with nextToUse := c.rounded }
      tail := c.rounded
      writes } := by
  have two := c.two
  have inside := Nat.mod_lt m (show 0 < c.descCount by omega)
  have last : m % c.descCount + (c.descCount - 1 - m % c.descCount) = c.descCount - 1 := by omega
  have loop := zcAllocLoop_eq (n := c.descCount) (by omega) supply (zcRequests count) 0 0
    c.opened.filled
  have bare : ∀ x, c.opened.filled x = false := by
    intro x
    change (decide (x < c.descCount - 1) && !c.zc) = false
    rw [pool, Bool.not_true, Bool.and_false]
  rw [met, Nat.zero_mod, Nat.zero_add] at loop
  simp only [bare, Bool.false_or] at loop
  rw [RxPosting.xdpInit, if_pos pool, RxPosting.bufHwAllocZcAll]
  simp only [zcRequests] at loop
  rw [loop]
  dsimp only
  rw [last]
  exact ⟨_, rfl⟩

theorem Live.safe (v : Live c s) : ZcSafe c s := by
  obtain ⟨d, t, a, ring⟩ := v.ring
  have covered := ring.covered
  have written := ring.written
  have room := ring.room
  have toTail : ringDist c.descCount s.head s.tail = t - d := by
    rw [ring.head, ring.tail, ringDist_mod covered (by omega)]
  have toNta : ringDist c.descCount s.head s.nta = a - d := by
    rw [ring.head, ring.nta, ringDist_mod (covered.trans written) room]
  refine ⟨fun i member => ?_, by omega, v.ids.places⟩
  rw [toTail, ring.head, ringSlots_mod] at member
  obtain ⟨k, before, rfl⟩ := mem_ringSlots.mp member
  exact ring.filled (d + k) (by omega) (by omega)

theorem xdpInit_safe (pool : c.zc = true) {count : Nat} {supply : Nat → Bool} :
    (zcOk c (.xdpInit count supply) = true → Live c (c.opened.xdpInit c count supply)) ∧
      (ZcSafe c (c.opened.xdpInit c count supply) → zcOk c (.xdpInit count supply) = true) := by
  have two := c.two
  have max := c.max
  have le := c.rounded_le
  obtain ⟨m, met⟩ : ∃ m, supplied supply (zcRequests count) 0 = m := ⟨_, rfl⟩
  obtain ⟨writes, eq⟩ := xdpInit_pool pool met
  rw [zcOk, met, decide_eq_true_eq]
  have inside := Nat.mod_lt m (show 0 < c.descCount by omega)
  refine ⟨fun full => ?_, fun safe => ?_⟩
  · have none_ : c.descCount - 1 - m % c.descCount = 0 := by omega
    have same : Function.update c.opened.refillq 0
        ((List.range' (m % c.descCount) (c.descCount - 1 - m % c.descCount)).foldl
          (fun q b => postBufRefill q (u16 b)) (rxRflAlloc c.descCount)) = c.opened.refillq := by
      rw [none_]
      exact Function.update_eq_self 0 c.opened.refillq
    rw [eq, same]
    refine Live.start (fun i below => ?_) le (Or.inl rfl)
    have many : c.descCount - 1 ≤ m := full ▸ Nat.mod_le m c.descCount
    exact decide_eq_true (mem_ringSlots.mpr
      ⟨i, by omega, by rw [Nat.zero_add, Nat.mod_eq_of_lt (by omega)]⟩)
  · by_contra short
    -- the first ID without a buffer is in the ring and in the refill queue
    obtain ⟨b, first⟩ : ∃ b, b = m % c.descCount := ⟨_, rfl⟩
    rw [← first] at inside short eq
    have below : b < c.descCount - 1 := by omega
    have once := safe.once b
    rw [if_pos below, places] at once
    obtain ⟨u, is⟩ : ∃ u, u = c.opened.xdpInit c count supply := ⟨_, rfl⟩
    rw [← is] at once eq
    have queue : u.refillView 0 = (List.range' b (c.descCount - 1 - b)).foldl
        (fun q b => postBufRefill q (u16 b)) (rxRflAlloc c.descCount) := by
      rw [eq]
      exact Function.update_self 0 _ c.opened.refillq
    have posted : b ∈ u.posted := by
      have ring : u.posted = ringSeg c.descCount (fun i => if i < c.descCount - 1 then i else 0) 0
          (c.descCount - 1) ++ [] := by
        rw [eq]
        rfl
      rw [ring]
      refine List.mem_append_left _ (List.mem_map.mpr ⟨b, ?_, ?_⟩)
      · rw [ringDist, if_pos (Nat.zero_le _), List.mem_range]
        omega
      · rw [Nat.zero_add, Nat.mod_eq_of_lt inside]
        exact if_pos below
    have rest : RflFree (u.refillView 0) ([] ++ List.range' b (c.descCount - 1 - b)) := by
      rw [queue]
      refine (rxRflAlloc_free (by omega)).posts ?_ fun b' member => ?_
      · rw [List.length_nil, List.length_range']
        change 0 + (c.descCount - 1 - b) ≤ c.descCount
        omega
      · rw [List.mem_range'_1] at member
        omega
    have waits : b ∈ u.waiting 0 := by
      rw [waiting_eq rest, List.nil_append, List.mem_range'_1]
      omega
    have one := Finset.single_le_sum (f := fun j => (u.waiting j).count b)
      (fun _ _ => Nat.zero_le _) (Finset.mem_range.mpr c.rxqs)
    have ring := List.count_pos_iff.mpr posted
    have queued := List.count_pos_iff.mpr waits
    omega

/-- A queue of a pool: it is opened step by step, and in use it is live. -/
structure Pooled (c : RxPostCfg) (s : RxPosting) : Prop extends Opening c s where
  used : s.stage = .enabled → Live c s

/-- A step of a queue that has been filled in full so far. -/
theorem Pooled.step (pool : c.zc = true) (v : Pooled c s) {op : PostOp}
    (taken : s.step c op = some t) :
    (zcOk c op = true → Pooled c t) ∧
      (t.stage = .enabled → (ZcSafe c t ↔ zcOk c op = true)) := by
  have next := v.toOpening.step taken
  have running (stage : s.stage = .enabled) (ok : zcOk c op = true) :
      (zcOk c op = true → Pooled c t) ∧
        (t.stage = .enabled → (ZcSafe c t ↔ zcOk c op = true)) := by
    have live := ((v.used stage).step taken).1
    exact ⟨fun _ => ⟨next, fun _ => live⟩, fun _ => ⟨fun _ => ok, fun _ => live.safe⟩⟩
  cases step_moved taken with
  | fill ok stage =>
      rw [v.new stage, c.bufsInit_init] at next ⊢
      have closed : (if (c.zc || ok) = true then c.posted else c.init).stage ≠ .enabled := by
        split
        · exact (by decide : PostStage.filled ≠ .enabled)
        · exact (by decide : PostStage.new ≠ .enabled)
      exact ⟨fun _ => ⟨next, fun on => absurd on closed⟩, fun on => absurd on closed⟩
  | initTail =>
      have closed : PostStage.opened ≠ .enabled := by decide
      exact ⟨fun _ => ⟨next, fun on => absurd on closed⟩, fun on => absurd on closed⟩
  | xdpInit count supply stage =>
      rw [v.opened stage] at next ⊢
      obtain ⟨full, safe⟩ := @xdpInit_safe c pool count supply
      exact ⟨fun ok => ⟨next, fun _ => full ok⟩, fun _ => ⟨safe, fun ok => (full ok).safe⟩⟩
  | fetch stage | give _ _ stage | passBegin _ stage | passTurn _ stage => exact running stage rfl

end RxPosting

/-- A queue of a pool that is in use is safe after a step if and only if the step is not a fill for
which the pool has too few buffers; a refill that the pool cuts short does no harm. -/
theorem zc_fill_safe {c : RxPostCfg} (pool : c.zc = true) {s t : RxPosting} {op : PostOp}
    (run : Reachable (RxPosting.step c) (fun _ op => zcOk c op = true) (fun s => s = c.init) s)
    (taken : s.step c op = some t) (enabled : t.stage = .enabled) :
    ZcSafe c t ↔ zcOk c op = true := by
  have v : RxPosting.Pooled c s := run.invariant
    (fun s (start : s = c.init) => start ▸ ⟨.start c, nofun⟩)
    (fun _ _ _ v ok taken => (v.step pool taken).1 ok)
  exact (v.step pool taken).2 enabled

/-- A queue of 17 descriptors whose pool is empty once the device has taken a buffer: the pass stops,
and the ID goes on waiting. -/
theorem zc_fill_safe_short :
    let c : RxPostCfg := ⟨17, 16, 1, true, by decide, by decide, by decide, by decide, by decide⟩
    ∃ s t, execIf (RxPosting.step c) (fun _ op => zcOk c op) c.init
        [.fill false, .initTail, .xdpInit 16 fun _ => true, .fetch, .give 0 0, .passBegin 0] = some s ∧
      s.step c (.passTurn false) = some t ∧ t.waiting 0 = [0] ∧ ZcSafe c t := by
  intro c
  have seen : (execIf (RxPosting.step c) (fun _ op => zcOk c op) c.init
      [.fill false, .initTail, .xdpInit 16 fun _ => true, .fetch, .give 0 0, .passBegin 0]).bind
      (fun s => (s.step c (.passTurn false)).map fun t => (t.stage, t.waiting 0)) =
      some (.enabled, [0]) := by decide +kernel
  obtain ⟨s, reached, rest⟩ := Option.bind_eq_some_iff.mp seen
  obtain ⟨t, taken, eq⟩ := Option.map_eq_some_iff.mp rest
  obtain ⟨enabled, waiting⟩ := Prod.mk.inj eq
  exact ⟨s, t, reached, taken, waiting,
    (zc_fill_safe rfl (Reachable.execIf (.start rfl) reached) taken enabled).mpr rfl⟩

/-- A pool with 10 buffers for a queue of 64 descriptors: the tail covers 32 of them, and buffer 10 is
posted while it waits in the refill queue. -/
theorem zc_fill_unsafe :
    let c : RxPostCfg := ⟨64, 32, 1, true, by decide, by decide, by decide, by decide, by decide⟩
    ∃ s, exec (RxPosting.step c) c.init
        [.fill false, .initTail, .xdpInit 63 fun i => decide (i < 10)] = some s ∧
      s.tail = 32 ∧ s.filled 10 = false ∧ s.bufq.ring 10 = 10 ∧ 10 ∈ s.waiting 0 ∧
      ¬ ZcSafe c s := by
  intro c
  have seen : (exec (RxPosting.step c) c.init
      [.fill false, .initTail, .xdpInit 63 fun i => decide (i < 10)]).map
      (fun s => (s.head, s.tail, s.filled 10, s.bufq.ring 10, decide (10 ∈ s.waiting 0))) =
      some (0, 32, false, 10, true) := by decide +kernel
  obtain ⟨s, reached, eq⟩ := Option.map_eq_some_iff.mp seen
  simp only [Prod.mk.injEq, decide_eq_true_eq] at eq
  obtain ⟨head, tail, empty, ring, waits⟩ := eq
  refine ⟨s, reached, tail, empty, ring, waits, fun safe => ?_⟩
  have covered := safe.covered 10 (by
    rw [head, tail]
    decide)
  exact absurd (empty.symm.trans covered) nofun

end Idpf
