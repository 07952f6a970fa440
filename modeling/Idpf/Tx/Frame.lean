import Idpf.Tx.Send

/-! What one transmission does to the ring and to the fields of the queue,
verdict by verdict. The counts are stated without the loops: how many descriptors
a buffer takes depends on its size and on where its address lies in a 4K page. -/
namespace Idpf
open General

/-- Descriptors of a mapped buffer: one up to 16383 bytes; a larger buffer starts
with 12K and what aligns it, and goes on in steps of 12K. -/
def bufDescs (addr size : Nat) : Nat :=
  if size ≤ txMaxDescData then 1
  else 2 + sizeToTxdCount (size - firstMaxData addr - txMaxDescData)

theorem bufChunks_aligned {fuel size : Nat} (enough : size ≤ fuel) (addr : Nat) :
    (bufChunks fuel txMaxDescDataAligned addr size).1.length =
      sizeToTxdCount (size - txMaxDescData) := by
  induction fuel generalizing addr size with
  | zero =>
      obtain rfl := Nat.le_zero.mp enough
      rfl
  | succ fuel ih =>
      unfold bufChunks
      split
      · next large =>
        have less : size - txMaxDescDataAligned ≤ fuel := by
          simp only [txMaxDescDataAligned]
          omega
        simp only [List.length_cons, ih less]
        simp only [sizeToTxdCount, txMaxDescDataAligned, txMaxDescData] at large ⊢
        omega
      · next small =>
        simp only [sizeToTxdCount, txMaxDescDataAligned, txMaxDescData, List.length_nil] at small ⊢
        omega

theorem bufChunks_length (addr size : Nat) :
    (bufChunks size (firstMaxData addr) addr size).1.length + 1 = bufDescs addr size := by
  have wide : txMaxDescDataAligned ≤ firstMaxData addr := Nat.le_add_right ..
  cases size with
  | zero => rfl
  | succ size =>
      unfold bufChunks bufDescs
      by_cases large : size + 1 > txMaxDescData
      · have less : size + 1 - firstMaxData addr ≤ size := by
          simp only [txMaxDescDataAligned] at wide
          omega
        rw [if_pos large, if_neg (Nat.not_le.mpr large), List.length_cons,
          bufChunks_aligned less]
        omega
      · rw [if_neg large, if_pos (Nat.not_lt.mp large)]
        rfl

theorem bufDescs_pos (addr size : Nat) : 0 < bufDescs addr size := by
  unfold bufDescs
  split <;> omega

/-- The cursor has written consecutive slots from position `base` on. -/
structure Cursor.Runs (n base : Nat) (ring : Nat → TxDesc) (c : Cursor) : Prop where
  place : c.i = (base + c.slots.length) % n
  slots : c.slots = (List.range c.slots.length).map fun j => (base + j) % n
  frame : ∀ x, x ∉ c.slots → c.ring x = ring x

theorem Cursor.Runs.put {n base : Nat} {ring : Nat → TxDesc} {c : Cursor} (pos : 0 < n)
    (h : c.Runs n base ring) (d : TxDesc) : (c.put n d).Runs n base ring := by
  have len : (c.put n d).slots.length = c.slots.length + 1 := by simp [Cursor.put]
  refine ⟨?_, ?_, fun x fresh => ?_⟩
  · rw [len]
    simp only [Cursor.put, h.place]
    exact bump_mod pos _
  · rw [len, List.range_succ, List.map_append, ← h.slots]
    simp only [Cursor.put, h.place, List.map_cons, List.map_nil]
  · simp only [Cursor.put, List.mem_append, List.mem_singleton, not_or] at fresh
    simp only [Cursor.put, Function.update_of_ne fresh.2]
    exact h.frame x fresh.1

theorem Cursor.putAll_length (n : Nat) (c : Cursor) (ds : List TxDesc) :
    (c.putAll n ds).slots.length = c.slots.length + ds.length := by
  induction ds generalizing c with
  | nil => rfl
  | cons d ds ih =>
      rw [Cursor.putAll, List.foldl_cons]
      refine (ih (c.put n d)).trans ?_
      simp only [Cursor.put, List.length_append, List.length_cons, List.length_nil]
      omega

theorem Cursor.Runs.putAll {n base : Nat} {ring : Nat → TxDesc} {c : Cursor} (pos : 0 < n)
    (h : c.Runs n base ring) (ds : List TxDesc) : (c.putAll n ds).Runs n base ring := by
  induction ds generalizing c with
  | nil => exact h
  | cons d ds ih => exact ih (h.put pos d)

/-- `q'` is `q` but for its buffers, its refill queue and the kernel's memory. -/
def TxQueue.OnlyBufs (q q' : TxQueue) : Prop :=
  q' = { q with bufs := q'.bufs, refillq := q'.refillq, mem := q'.mem }

namespace TxQueue.OnlyBufs

theorem trans {q q' q'' : TxQueue} (h : q.OnlyBufs q') (h' : q'.OnlyBufs q'') :
    q.OnlyBufs q'' := by
  unfold TxQueue.OnlyBufs at *
  rw [h']
  rw [h]

end TxQueue.OnlyBufs

/-- What one turn of the loop in `idpf_tx_splitq_map` leads to. -/
inductive MapTurn where
  | done (r : MapResult)
  | more (frags : List Nat) (size : Nat) (st : MapState)

def mapTurn (dma : Nat → Option Nat) (tag : Nat) (frags : List Nat) (k size : Nat)
    (st : MapState) : MapTurn :=
  match dma k with
  | none => .done (.failed { st with q := st.q.setNext st.buf none })
  | some addr =>
    let r := mapBuf tag addr size st
    match frags with
    | [] => .done (.mapped r.1 r.2)
    | f :: fs =>
      if (f :: fs).sum = 0 then .done (.mapped r.1 r.2)
      else
        let cur := r.1.cur.put r.1.q.descCount (.data r.2.1 r.2.2 tag false false)
        match nextBufId r.1.q cur.i with
        | none => .done (.failed { r.1 with q := r.1.q.setNext r.1.buf none, cur })
        | some (id, q) =>
          .more fs f { q := q.setNext r.1.buf (some id), cur, buf := id, mapped := r.1.mapped }

/-- Turn after turn is the loop. -/
theorem txSplitqMapLoop_turn (dma : Nat → Option Nat) (tag : Nat) (frags : List Nat)
    (k size : Nat) (st : MapState) :
    txSplitqMapLoop dma tag frags k size st =
      match mapTurn dma tag frags k size st with
      | .done r => r
      | .more fs f st' => txSplitqMapLoop dma tag fs (k + 1) f st' := by
  cases frags with
  | nil =>
      unfold txSplitqMapLoop mapTurn
      cases dma k <;> rfl
  | cons f fs =>
      rw [txSplitqMapLoop]
      unfold mapTurn
      cases dma k with
      | none => rfl
      | some addr =>
          dsimp only
          split
          · rfl
          · split <;> simp only [*]

theorem mapTurn_more {dma : Nat → Option Nat} {tag k size f : Nat} {frags fs : List Nat}
    {st st' : MapState} (turned : mapTurn dma tag frags k size st = .more fs f st') :
    frags = f :: fs := by
  unfold mapTurn at turned
  cases mapping : dma k with
  | none => simp only [mapping, reduceCtorEq] at turned
  | some addr =>
      cases frags with
      | nil => simp only [mapping, reduceCtorEq] at turned
      | cons f' fs' =>
          simp only [mapping] at turned
          split at turned
          · cases turned
          · split at turned
            · cases turned
            · obtain ⟨rfl, rfl, -⟩ := MapTurn.more.inj turned
              rfl

/-- The state a turn leaves, whether or not it is the last. -/
def MapResult.state : MapResult → MapState
  | .failed st => st
  | .mapped st _ => st

def MapTurn.state : MapTurn → MapState
  | .done r => r.state
  | .more _ _ st => st

theorem nextBufId_onlyBufs {q q' : TxQueue} {i id : Nat} (got : nextBufId q i = some (id, q')) :
    q.OnlyBufs q' := by
  unfold nextBufId at got
  split at got
  · obtain ⟨r, -, eq⟩ := Option.map_eq_some_iff.mp got
    obtain ⟨-, rfl⟩ := Prod.mk.inj eq
    rfl
  · obtain ⟨-, rfl⟩ := Prod.mk.inj (Option.some.inj got)
    rfl

theorem mapTurn_state (dma : Nat → Option Nat) (tag : Nat) (frags : List Nat) (k size : Nat)
    (st : MapState) :
    st.q.OnlyBufs (mapTurn dma tag frags k size st).state.q ∧
      ∀ {base : Nat} {ring : Nat → TxDesc}, 0 < st.q.descCount →
        st.cur.Runs st.q.descCount base ring →
        (mapTurn dma tag frags k size st).state.cur.Runs st.q.descCount base ring := by
  unfold mapTurn
  cases dma k with
  | none => exact ⟨rfl, fun _ runs => runs⟩
  | some addr =>
      have only : st.q.OnlyBufs (mapBuf tag addr size st).1.q := rfl
      cases frags with
      | nil => exact ⟨only, fun pos runs => runs.putAll pos _⟩
      | cons f fs =>
          dsimp only
          split
          · exact ⟨only, fun pos runs => runs.putAll pos _⟩
          · split
            · exact ⟨only.trans rfl, fun pos runs => (runs.putAll pos _).put pos _⟩
            · next id q got =>
              exact ⟨(only.trans (nextBufId_onlyBufs got)).trans rfl,
                fun pos runs => (runs.putAll pos _).put pos _⟩

/-- The loop's induction: a property of where it starts and ends that holds of
every last turn and goes back over every other. -/
theorem txSplitqMapLoop_induct {dma : Nat → Option Nat} {tag : Nat}
    {P : List Nat → Nat → Nat → MapState → MapResult → Prop}
    (done : ∀ frags k size st r, mapTurn dma tag frags k size st = .done r → P frags k size st r)
    (more : ∀ f fs k size st st' r, mapTurn dma tag (f :: fs) k size st = .more fs f st' →
      P fs (k + 1) f st' r → P (f :: fs) k size st r)
    (frags : List Nat) (k size : Nat) (st : MapState) :
    P frags k size st (txSplitqMapLoop dma tag frags k size st) := by
  induction frags generalizing k size st with
  | nil =>
      rw [txSplitqMapLoop_turn]
      cases turned : mapTurn dma tag [] k size st with
      | done r => exact done _ _ _ _ _ turned
      | more fs f st' => cases mapTurn_more turned
  | cons f fs ih =>
      rw [txSplitqMapLoop_turn]
      cases turned : mapTurn dma tag (f :: fs) k size st with
      | done r => exact done _ _ _ _ _ turned
      | more fs' f' st' =>
          obtain ⟨rfl, rfl⟩ := List.cons.inj (mapTurn_more turned)
          exact more _ _ _ _ _ _ _ turned (ih ..)

theorem txSplitqMapLoop_state (dma : Nat → Option Nat) (tag : Nat) (frags : List Nat)
    (k size : Nat) (st : MapState) :
    st.q.OnlyBufs (txSplitqMapLoop dma tag frags k size st).state.q ∧
      ∀ {base : Nat} {ring : Nat → TxDesc}, 0 < st.q.descCount →
        st.cur.Runs st.q.descCount base ring →
        (txSplitqMapLoop dma tag frags k size st).state.cur.Runs st.q.descCount base ring := by
  refine txSplitqMapLoop_induct (P := fun _ _ _ st r => st.q.OnlyBufs r.state.q ∧
    ∀ {base : Nat} {ring : Nat → TxDesc}, 0 < st.q.descCount →
      st.cur.Runs st.q.descCount base ring → r.state.cur.Runs st.q.descCount base ring) ?_ ?_ ..
  · intro frags k size st r turned
    have one := mapTurn_state dma tag frags k size st
    rw [turned] at one
    exact one
  · intro f fs k size st st' r turned rest
    have one := mapTurn_state dma tag (f :: fs) k size st
    rw [turned] at one
    have same : st'.q.descCount = st.q.descCount := by
      rw [show st'.q = _ from one.1]
    refine ⟨one.1.trans rest.1, fun pos runs => ?_⟩
    exact same ▸ rest.2 (same ▸ pos) (same ▸ one.2 pos runs)

/-- The refill queue after the next buffer's ID, if there is one to have. -/
def nextRefill (flow : Bool) (r : SwQueue) : Option SwQueue :=
  if flow then (txGetFreeBufId r).map Prod.snd else some r

/-- The buffers a packet gets mapped, as address and size, and whether all are:
the mapping ends early on a DMA error or for want of an ID. -/
def mapPlan (flow : Bool) (dma : Nat → Option Nat) :
    List Nat → Nat → Nat → SwQueue → List (Nat × Nat) × Bool
  | frags, k, size, r =>
    match dma k with
    | none => ([], false)
    | some addr =>
      match frags with
      | [] => ([(addr, size)], true)
      | f :: fs =>
        if (f :: fs).sum = 0 then ([(addr, size)], true)
        else
          match nextRefill flow r with
          | none => ([(addr, size)], false)
          | some r' =>
            let rest := mapPlan flow dma fs (k + 1) f r'
            ((addr, size) :: rest.1, rest.2)

def planDescs (bufs : List (Nat × Nat)) : Nat := (bufs.map fun b => bufDescs b.1 b.2).sum

theorem planDescs_pos {flow : Bool} {dma : Nat → Option Nat} {frags : List Nat} {k size : Nat}
    {r : SwQueue} (good : (mapPlan flow dma frags k size r).2 = true) :
    0 < planDescs (mapPlan flow dma frags k size r).1 := by
  unfold mapPlan at good ⊢
  cases mapped : dma k with
  | none => simp only [mapped, Bool.false_eq_true] at good
  | some addr =>
      have one := bufDescs_pos addr size
      cases frags with
      | nil => simpa [planDescs] using one
      | cons f fs =>
          dsimp only
          split
          · simpa [planDescs] using one
          · split
            · simpa [planDescs] using one
            · simp only [planDescs, List.map_cons, List.sum_cons]
              omega

def MapResult.descs : MapResult → Nat
  | .failed st => st.cur.slots.length
  | .mapped st _ => st.cur.slots.length + 1

def MapResult.ok : MapResult → Bool
  | .failed _ => false
  | .mapped _ _ => true

theorem nextBufId_refill (q : TxQueue) (i : Nat) :
    (nextBufId q i).map (fun r => r.2.refillq) = nextRefill q.flowSchEn q.refillq := by
  unfold nextBufId nextRefill
  cases q.flowSchEn with
  | false => rfl
  | true =>
      simp only [if_true, Option.map_map]
      rfl

theorem mapBuf_descs (tag addr size : Nat) (st : MapState) :
    (mapBuf tag addr size st).1.cur.slots.length + 1 =
      st.cur.slots.length + bufDescs addr size := by
  rw [← bufChunks_length addr size]
  simp only [mapBuf, Cursor.putAll_length, List.length_map]
  omega

theorem txSplitqMapLoop_plan (dma : Nat → Option Nat) (tag : Nat) (frags : List Nat)
    (k size : Nat) (st : MapState) :
    let r := txSplitqMapLoop dma tag frags k size st
    let plan := mapPlan st.q.flowSchEn dma frags k size st.q.refillq
    r.descs = st.cur.slots.length + planDescs plan.1 ∧ r.ok = plan.2 := by
  induction frags generalizing k size st with
  | nil =>
      unfold txSplitqMapLoop mapPlan
      cases dma k with
      | none => exact ⟨rfl, rfl⟩
      | some addr => exact ⟨mapBuf_descs tag addr size st, rfl⟩
  | cons f fs ih =>
      unfold txSplitqMapLoop mapPlan
      cases dma k with
      | none => exact ⟨rfl, rfl⟩
      | some addr =>
          have one := mapBuf_descs tag addr size st
          dsimp only
          split
          · exact ⟨one, rfl⟩
          · have next := nextBufId_refill (mapBuf tag addr size st).1.q
              (Cursor.put (mapBuf tag addr size st).1.q.descCount (mapBuf tag addr size st).1.cur
                (.data (mapBuf tag addr size st).2.1 (mapBuf tag addr size st).2.2 tag false
                  false)).i
            rw [mapBuf_flowSchEn, mapBuf_refillq] at next
            split
            · next none =>
              rw [none] at next
              rw [← next]
              refine ⟨?_, rfl⟩
              simp only [MapResult.descs, Cursor.put, List.length_append, List.length_singleton]
              exact one
            · next id q' got =>
              rw [got] at next
              rw [← next]
              have flow : q'.flowSchEn = st.q.flowSchEn := by
                rw [show q' = _ from nextBufId_onlyBufs got, mapBuf_flowSchEn]
              obtain ⟨descs, ok⟩ := ih (k + 1) f
                { q := q'.setNext (mapBuf tag addr size st).1.buf (some id)
                  cur := Cursor.put (mapBuf tag addr size st).1.q.descCount
                    (mapBuf tag addr size st).1.cur (.data (mapBuf tag addr size st).2.1
                      (mapBuf tag addr size st).2.2 tag false false)
                  buf := id
                  mapped := (mapBuf tag addr size st).1.mapped }
              simp only [TxQueue.setNext_flowSchEn, TxQueue.setNext_refillq, flow] at descs ok
              refine ⟨descs.trans ?_, ok⟩
              simp only [planDescs, Cursor.put, List.length_append, List.length_singleton,
                List.map_cons, List.sum_cons, Option.map_some] at one ⊢
              omega

theorem TxQueue.OnlyBufs.descCount {q q' : TxQueue} (h : q.OnlyBufs q') :
    q'.descCount = q.descCount := by rw [show q' = _ from h]

theorem TxQueue.OnlyBufs.lastRe {q q' : TxQueue} (h : q.OnlyBufs q') :
    q'.lastRe = q.lastRe := by rw [show q' = _ from h]

theorem TxQueue.OnlyBufs.ring {q q' : TxQueue} (h : q.OnlyBufs q') : q'.ring = q.ring := by
  rw [show q' = _ from h]

/-- The fields a transmission leaves alone. -/
structure TxQueue.Same (q q' : TxQueue) : Prop where
  descCount : q'.descCount = q.descCount
  nextToClean : q'.nextToClean = q.nextToClean
  flowSchEn : q'.flowSchEn = q.flowSchEn
  missTagEn : q'.missTagEn = q.missTagEn
  xdp : q'.xdp = q.xdp
  txMaxBufs : q'.txMaxBufs = q.txMaxBufs
  bufPoolSize : q'.bufPoolSize = q.bufPoolSize
  reinjectTimers : q'.reinjectTimers = q.reinjectTimers
  cleanedBytes : q'.cleanedBytes = q.cleanedBytes
  cleanedPkts : q'.cleanedPkts = q.cleanedPkts
  stopped : q'.stopped = q.stopped

theorem TxQueue.Same.trans {q q' q'' : TxQueue} (h : q.Same q') (h' : q'.Same q'') :
    q.Same q'' := by
  constructor
  · exact h'.descCount.trans h.descCount
  · exact h'.nextToClean.trans h.nextToClean
  · exact h'.flowSchEn.trans h.flowSchEn
  · exact h'.missTagEn.trans h.missTagEn
  · exact h'.xdp.trans h.xdp
  · exact h'.txMaxBufs.trans h.txMaxBufs
  · exact h'.bufPoolSize.trans h.bufPoolSize
  · exact h'.reinjectTimers.trans h.reinjectTimers
  · exact h'.cleanedBytes.trans h.cleanedBytes
  · exact h'.cleanedPkts.trans h.cleanedPkts
  · exact h'.stopped.trans h.stopped

theorem TxQueue.OnlyBufs.same {q q' : TxQueue} (h : q.OnlyBufs q') : q.Same q' := by
  rw [show q' = _ from h]
  constructor <;> rfl

theorem libethTxComplete_only (s : Cleaning) (b : Nat) :
    s.q.OnlyBufs (libethTxComplete s b).q := by
  obtain ⟨log, eq⟩ := libethTxComplete_q s b
  rw [eq]
  rfl

theorem walkChain_only {f : Cleaning → Nat → Cleaning}
    (one : ∀ (s : Cleaning) b, s.q.OnlyBufs (f s b).q) (fuel : Nat) (s : Cleaning) (b : Nat) :
    s.q.OnlyBufs (walkChain f fuel s b).q := by
  induction fuel generalizing s b with
  | zero => rfl
  | succ fuel ih =>
      unfold walkChain
      dsimp only
      split
      · exact one s b
      · exact (one s b).trans (ih ..)

/-- `idpf_tx_splitq_pkt_err_unmap` rewinds the ring index and touches nothing of
the queue but buffers, refill queue and memory. -/
theorem txSplitqPktErrUnmap_only (q : TxQueue) (ntu ntc : Nat) (gen : Bool) (first : Nat) :
    let q' := txSplitqPktErrUnmap q ntu ntc gen first
    q' = { q with nextToUse := ntu, bufs := q'.bufs, refillq := q'.refillq, mem := q'.mem } := by
  have walked := walkChain_only libethTxComplete_only q.bufPoolSize ⟨q, {}⟩ first
  unfold txSplitqPktErrUnmap
  dsimp only
  generalize walkChain libethTxComplete q.bufPoolSize ⟨q, {}⟩ first = s at walked
  rw [show s.q = _ from walked]
  rfl

/-- Where `next_to_use` stands when the need for an RE bit is judged. -/
def rePos (q : TxQueue) (env : SendEnv) (skb : Skb) (tso : Tso) : Nat :=
  (ctxCursor q tso skb.vlanTag (txTstamp env.latch skb tso)).i

def asksRe (q : TxQueue) (env : SendEnv) (skb : Skb) (tso : Tso) : Bool :=
  q.flowSchEn && txSplitqNeedRe q.descCount (rePos q env skb tso) q.lastRe

def framePlan (q : TxQueue) (env : SendEnv) (skb : Skb) : List (Nat × Nat) × Bool :=
  match nextRefill q.flowSchEn q.refillq with
  | none => ([], false)
  | some r => mapPlan q.flowSchEn env.dma skb.frags 0 skb.headlen r

def ctxCount (env : SendEnv) (skb : Skb) (tso : Tso) : Nat :=
  tso.count + skb.vlanTag.toNat + (txTstamp env.latch skb tso).isSome.toNat

theorem ctxDescs_length (tso : Tso) (vlanTag : Bool) (latch : Option Nat) :
    (ctxDescs tso vlanTag latch).length = tso.count + vlanTag.toNat + latch.isSome.toNat := by
  cases tso <;> cases vlanTag <;> cases latch <;> rfl

theorem ctxCursor_runs {q : TxQueue} (use : q.nextToUse < q.descCount) (tso : Tso)
    (vlanTag : Bool) (latch : Option Nat) :
    (ctxCursor q tso vlanTag latch).Runs q.descCount q.nextToUse q.ring := by
  have start : Cursor.Runs q.descCount q.nextToUse q.ring ⟨q.ring, q.nextToUse, []⟩ :=
    ⟨(Nat.mod_eq_of_lt use).symm, rfl, fun _ _ => rfl⟩
  exact start.putAll (Nat.zero_lt_of_lt use) _

theorem ctxCursor_length (q : TxQueue) (env : SendEnv) (skb : Skb) (tso : Tso) :
    (ctxCursor q tso skb.vlanTag (txTstamp env.latch skb tso)).slots.length =
      ctxCount env skb tso := by
  rw [ctxCursor, Cursor.putAll_length, ctxDescs_length]
  exact Nat.zero_add _

theorem rePos_eq {q : TxQueue} (use : q.nextToUse < q.descCount) (env : SendEnv) (skb : Skb)
    (tso : Tso) :
    rePos q env skb tso = (q.nextToUse + ctxCount env skb tso) % q.descCount := by
  rw [← ctxCursor_length q env skb tso]
  exact (ctxCursor_runs use ..).place

/-- What an accepted packet does to the queue, mapped or rolled back. -/
structure Carried (q : TxQueue) (env : SendEnv) (skb : Skb) (tso : Tso) (r : FrameResult) :
    Prop where
  re : r.re = asksRe q env skb tso
  lastRe : r.q.lastRe = if r.re then rePos q env skb tso else q.lastRe
  length : r.slots.length = ctxCount env skb tso + planDescs (framePlan q env skb).1
  slots : r.slots = (List.range r.slots.length).map fun j => (q.nextToUse + j) % q.descCount
  ring : ∀ x, x ∉ r.slots → r.q.ring x = q.ring x
  same : q.Same r.q

/-- The part of `Carried` that `idpf_tx_splitq_map` adds to what it is given. -/
structure MapCarried (p : TxParams) (st : MapState) (plan : List (Nat × Nat) × Bool)
    (r : FrameResult) : Prop where
  re : r.re = p.re
  length : r.slots.length = st.cur.slots.length + planDescs plan.1
  runs : ∀ {base : Nat} {ring : Nat → TxDesc}, 0 < st.q.descCount →
    st.cur.Runs st.q.descCount base ring →
    r.slots = (List.range r.slots.length).map (fun j => (base + j) % st.q.descCount) ∧
      (∀ x, x ∉ r.slots → r.q.ring x = ring x) ∧
      (r.verdict = .sent → r.q.nextToUse = (base + r.slots.length) % st.q.descCount ∧
        (r.q.ring ((base + r.slots.length - 1) % st.q.descCount)).carriesRe = p.re ∧
        0 < r.slots.length)
  same : st.q.Same r.q
  lastRe : r.q.lastRe = st.q.lastRe
  failed : plan.2 = false → r.verdict = .rolledBack ∧ r.charged = p.re.toNat ∧
    r.mapped = [] ∧ r.q.nextToUse = p.prevNtu
  sent : plan.2 = true → r.verdict = .sent ∧ r.charged = p.re.toNat + 1

theorem mapEnd_mapped (p : TxParams) (st : MapState) (last : Nat × Nat) :
    let c := st.cur.put st.q.descCount (.data last.1 last.2 p.complTag true p.re)
    (mapEnd p (.mapped st last)).slots = c.slots ∧
      (mapEnd p (.mapped st last)).q.ring = c.ring ∧
      (mapEnd p (.mapped st last)).q.nextToUse = c.i := ⟨rfl, rfl, rfl⟩

theorem txSplitqMap_carried (p : TxParams) (skb : Skb) (dma : Nat → Option Nat) (st : MapState) :
    MapCarried p st (mapPlan st.q.flowSchEn dma skb.frags 0 skb.headlen st.q.refillq)
      (txSplitqMap p skb dma st) := by
  obtain ⟨descs, ok⟩ := txSplitqMapLoop_plan dma p.complTag skb.frags 0 skb.headlen st
  obtain ⟨only, runs⟩ := txSplitqMapLoop_state dma p.complTag skb.frags 0 skb.headlen st
  unfold txSplitqMap
  generalize mapPlan st.q.flowSchEn dma skb.frags 0 skb.headlen st.q.refillq = plan at *
  cases looped : txSplitqMapLoop dma p.complTag skb.frags 0 skb.headlen st with
  | failed st' =>
      rw [looped] at descs ok only runs
      have unmap := txSplitqPktErrUnmap_only { st'.q with ring := st'.cur.ring } p.prevNtu
        p.prevRefillNtc p.prevRefillGen p.complTag
      refine ⟨rfl, descs, fun pos start => ?_, ?_, ?_, fun _ => ⟨rfl, rfl, rfl, ?_⟩,
        fun good => ?_⟩
      · have run := runs pos start
        refine ⟨run.slots, fun x fresh => ?_, nofun⟩
        exact (congrFun (congrArg TxQueue.ring unmap) x).trans (run.frame x fresh)
      · refine only.same.trans ?_
        change TxQueue.Same _ (txSplitqPktErrUnmap ..)
        rw [unmap]
        constructor <;> rfl
      · exact (congrArg TxQueue.lastRe unmap).trans only.lastRe
      · exact congrArg TxQueue.nextToUse unmap
      · rw [← ok] at good
        cases good
  | mapped st' last =>
      rw [looped] at descs ok only runs
      have count : st'.q.descCount = st.q.descCount := only.descCount
      refine ⟨rfl, ?_, fun pos start => ?_, only.same.trans ?_, only.lastRe, fun bad => ?_,
        fun _ => ⟨rfl, rfl⟩⟩
      · rw [← descs]
        simp [mapEnd, MapResult.descs, Cursor.put]
      · have run := runs pos start
        have next := run.put pos (.data last.1 last.2 p.complTag true p.re)
        obtain ⟨slots, ring, use⟩ := mapEnd_mapped p st' last
        rw [count] at slots ring use
        have len : (st'.cur.put st.q.descCount
            (.data last.1 last.2 p.complTag true p.re)).slots.length =
            st'.cur.slots.length + 1 := by simp [Cursor.put]
        rw [slots, ring, use]
        refine ⟨next.slots, next.frame, fun _ => ⟨next.place, ?_, by omega⟩⟩
        have place : st'.cur.i = (_ + st'.cur.slots.length) % st.q.descCount := run.place
        rw [len, ← Nat.add_assoc, Nat.add_sub_cancel, ← place]
        simp [Cursor.put, TxDesc.carriesRe]
      · constructor <;> rfl
      · rw [← ok] at bad
        cases bad

/-- The start of a packet that gets its first ID. -/
structure Begun (q : TxQueue) (skbId : Nat) (skb : Skb) (tso : Tso) (env : SendEnv)
    (p : TxParams) (st : MapState) : Prop where
  cur : st.cur = ctxCursor q tso skb.vlanTag (txTstamp env.latch skb tso)
  re : p.re = asksRe q env skb tso
  prevNtu : p.prevNtu = q.nextToUse
  refill : nextRefill q.flowSchEn q.refillq = some st.q.refillq
  lastRe : st.q.lastRe = if p.re then rePos q env skb tso else q.lastRe
  same : q.Same st.q

theorem txSplitqBegin_cases (q : TxQueue) (skbId : Nat) (skb : Skb) (tso : Tso) (env : SendEnv) :
    (nextRefill q.flowSchEn q.refillq = none ∧
      txSplitqBegin q skbId skb tso (txTstamp env.latch skb tso) = none) ∨
    ∃ p st, txSplitqBegin q skbId skb tso (txTstamp env.latch skb tso) = some (p, st) ∧
      Begun q skbId skb tso env p st := by
  let at_ := (ctxCursor q tso skb.vlanTag (txTstamp env.latch skb tso)).i
  have next := nextBufId_refill q at_
  cases got : nextBufId q at_ with
  | none =>
      rw [got] at next
      refine .inl ⟨next.symm, ?_⟩
      simp only [txSplitqBegin, at_, got, Option.map_none]
  | some r =>
      rw [got] at next
      have only := nextBufId_onlyBufs got
      unfold txSplitqBegin
      simp only [at_, got, Option.map_some]
      refine .inr ⟨_, _, rfl, rfl, rfl, rfl, next.symm, rfl, only.same.trans ?_⟩
      constructor <;> rfl

/-- An accepted packet: without a first ID it is dropped, else its plan decides
between a rollback and a handover to the device. -/
theorem frame_accepted {q : TxQueue} {pending thresh : Nat} {skb skb' : Skb} {env : SendEnv}
    {tso : Tso} (use : q.nextToUse < q.descCount)
    (accepted : txSplitqAdmit q pending thresh skb env = .accept skb' tso) (skbId : Nat) :
    let r := txSplitqFrame q pending thresh skbId skb env
    (r.verdict = .dropped ∧ nextRefill q.flowSchEn q.refillq = none ∧ r.charged = 0 ∧
      r.mapped = [] ∧ r.re = false ∧ (∃ ring, r.q = { q with ring }.record (.consumeSkb skbId)) ∧
      r.slots.length = ctxCount env skb' tso ∧
      r.slots = ((List.range r.slots.length).map fun j => (q.nextToUse + j) % q.descCount) ∧
      ∀ x, x ∉ r.slots → r.q.ring x = q.ring x) ∨
    (Carried q env skb' tso r ∧ nextRefill q.flowSchEn q.refillq ≠ none ∧
      ((r.verdict = .rolledBack ∧ (framePlan q env skb').2 = false ∧ r.charged = r.re.toNat ∧
        r.mapped = [] ∧ r.q.nextToUse = q.nextToUse) ∨
      (r.verdict = .sent ∧ (framePlan q env skb').2 = true ∧ r.charged = r.re.toNat + 1 ∧
        r.q.nextToUse = (q.nextToUse + r.slots.length) % q.descCount ∧
        (r.q.ring ((q.nextToUse + r.slots.length - 1) % q.descCount)).carriesRe = r.re ∧
        0 < r.slots.length))) := by
  have pos : 0 < q.descCount := Nat.zero_lt_of_lt use
  unfold txSplitqFrame
  simp only [accepted]
  rcases txSplitqBegin_cases q skbId skb' tso env with ⟨spent, none⟩ | ⟨p, st, some, b⟩
  · simp only [none]
    exact .inl ⟨rfl, spent, rfl, rfl, rfl, ⟨_, rfl⟩, ctxCursor_length q env skb' tso,
      (ctxCursor_runs use ..).slots, (ctxCursor_runs use ..).frame⟩
  · simp only [some]
    have m := txSplitqMap_carried p skb' env.dma st
    have plan : framePlan q env skb' =
        mapPlan st.q.flowSchEn env.dma skb'.frags 0 skb'.headlen st.q.refillq := by
      rw [framePlan, b.refill, b.same.flowSchEn]
    rw [← plan] at m
    have count := b.same.descCount
    obtain ⟨slots, ring, sent⟩ := m.runs (count ▸ pos)
      (show st.cur.Runs st.q.descCount q.nextToUse q.ring by
        rw [b.cur, count]; exact ctxCursor_runs use ..)
    rw [count] at slots sent
    refine .inr ⟨⟨m.re.trans b.re, ?_, ?_, slots, ring, b.same.trans m.same⟩,
      by rw [b.refill]; exact nofun, ?_⟩
    · rw [m.lastRe, b.lastRe, m.re]
    · rw [m.length, b.cur, ctxCursor_length]
    · cases good : (framePlan q env skb').2 with
      | false =>
          obtain ⟨verdict, charged, mapped, back⟩ := m.failed good
          exact .inl ⟨verdict, rfl, by rw [charged, m.re], mapped, back.trans b.prevNtu⟩
      | true =>
          obtain ⟨verdict, charged⟩ := m.sent good
          obtain ⟨next, re, some⟩ := sent verdict
          exact .inr ⟨verdict, rfl, by rw [charged, m.re], next, by rw [re, m.re], some⟩

/-- A packet that is not accepted writes nothing. -/
theorem frame_refused {q : TxQueue} {pending thresh : Nat} {skb : Skb} {env : SendEnv}
    (refused : ∀ skb' tso, txSplitqAdmit q pending thresh skb env ≠ .accept skb' tso)
    (skbId : Nat) :
    let r := txSplitqFrame q pending thresh skbId skb env
    r.slots = [] ∧ r.charged = 0 ∧ r.mapped = [] ∧ r.re = false ∧
      ((r.verdict = .dropped ∧ r.q = q.record (.consumeSkb skbId)) ∨
      (r.verdict = .busy ∧ txSplitqAdmit q pending thresh skb env = .busy ∧
        r.q = { q with stopped := true })) := by
  unfold txSplitqFrame
  cases admission : txSplitqAdmit q pending thresh skb env with
  | drop => exact ⟨rfl, rfl, rfl, rfl, .inl ⟨rfl, rfl⟩⟩
  | busy => exact ⟨rfl, rfl, rfl, rfl, .inr ⟨rfl, rfl, rfl⟩⟩
  | accept skb' tso => exact absurd admission (refused skb' tso)

end Idpf
