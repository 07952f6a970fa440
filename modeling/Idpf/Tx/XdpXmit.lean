import Idpf.Tx.XdpFrames

/-! A batch of frames handed to `idpf_xdp_xmit`. The driver is to own the frames it puts on
the ring until their completions, and the caller keeps the others, from the one the return value
names on. -/
namespace Idpf
open General

/-- A frame of the batch, with what mapping it for the device gives. -/
structure XdpBuf where
  frame : Nat
  len : Nat
  dma : Option Nat
  given : frame ≠ 0

/-- The part of a vport `idpf_xdp_xmit` looks at. The queues have no AF_XDP pool. -/
structure XdpVport where
  up : Bool
  carrier : Bool
  linkUp : Bool
  progEna : Bool
  numXdpTxq : Nat
  xdpTxqOffset : Nat
  txqs : Nat → TxQueue

/-- `XDP_XMIT_FLUSH`, the only flag in `XDP_XMIT_FLAGS_MASK`. -/
def xdpXmitFlush : Nat := 1

/-- The loop of `idpf_xdp_xmit`: `placed` are the frames put on the ring with their
buffers, `freed` those given to `xdp_return_frame_rx_napi`. -/
structure XdpTurns where
  q : TxQueue
  placed : List (Nat × Nat)
  freed : List Nat
  drops : Nat

/-- The first frame that is not sent is freed and ends the loop. -/
def xdpXmitTurns : List XdpBuf → TxQueue → XdpTurns
  | [], q => ⟨q, [], [], 0⟩
  | f :: rest, q =>
    let r := txXmitXdpq q f.frame f.len f.dma
    if r.sent then
      let t := xdpXmitTurns rest r.q
      { t with placed := (r.mapped.map fun m => (f.frame, m.1)) ++ t.placed }
    else ⟨r.q, [], [f.frame], 1⟩

/-- What a call returns and leaves; `tail` is what it writes to the tail register. -/
structure XdpXmit where
  ret : Int
  v : XdpVport
  placed : List (Nat × Nat)
  freed : List Nat
  tail : Option Nat

namespace XdpVport

/-- The index of the queue used on a CPU. -/
def xdpq (v : XdpVport) (cpu : Nat) : Nat := cpu % v.numXdpTxq + v.xdpTxqOffset

/-- The checks of `idpf_xdp_xmit` in front of its loop: `-ENETDOWN`, `-ENXIO`, `-EINVAL`. -/
def xmitError (v : XdpVport) (flags : Nat) : Option Int :=
  if !v.up then some (-100)
  else if !v.carrier || !v.linkUp then some (-100)
  else if !v.progEna || v.numXdpTxq == 0 then some (-6)
  else if flags / 2 ≠ 0 then some (-22)
  else none

/-- `idpf_xdp_xmit`. -/
def xdpXmit (v : XdpVport) (cpu : Nat) (frames : List XdpBuf) (flags : Nat) : XdpXmit :=
  match v.xmitError flags with
  | some err => ⟨err, v, [], [], none⟩
  | none =>
    let t := xdpXmitTurns frames (v.txqs (v.xdpq cpu))
    { ret := (frames.length : Int) - t.drops
      v := { v with txqs := Function.update v.txqs (v.xdpq cpu) t.q }
      placed := t.placed
      freed := t.freed
      tail := if flags % 2 = xdpXmitFlush then some t.q.nextToUse else none }

end XdpVport

/-- The RS completions of a batch have been handled: with flow scheduling one for each of its
buffers, in the order `order`, and else one with the head behind the last descriptor. -/
def xdpCompleted (q : TxQueue) (order : List Nat) : TxQueue :=
  if q.flowSchEn then order.foldl (fun q b => (handleRsCompletion q b).q) q
  else (handleRsCompletion q q.nextToUse).q

/-- The call and its caller agree on who owns which frame: those before the `ret`-th, none if
it is negative, are on the ring of `q`, and the driver has freed none. -/
structure XdpHandedOver (frames : List XdpBuf) (q : TxQueue) (r : XdpXmit) : Prop where
  count : r.ret.toNat ≤ frames.length
  enqueued : r.placed.map Prod.fst = (frames.take r.ret.toNat).map XdpBuf.frame
  held : ∀ p ∈ r.placed, (q.bufs p.2).skb = p.1 ∧ (q.bufs p.2).type = .xdpTx
  kept : r.freed = []

/-- Besides, once the completions of the batch have been handled and the caller has freed its
part, each frame has been released once. -/
structure XdpContract (frames : List XdpBuf) (q : TxQueue) (r : XdpXmit) : Prop extends
    XdpHandedOver frames q r where
  once : ∀ order : List Nat, order.Perm (r.placed.map Prod.snd) → ∀ f ∈ frames,
    (releasedIn (xdpCompleted q order).mem.log ++ r.freed ++
      (frames.drop r.ret.toNat).map XdpBuf.frame).count f.frame =
        (releasedIn q.mem.log).count f.frame + (frames.map XdpBuf.frame).count f.frame

/-- An XDP queue whose indices are on its ring; the frames put on it take the buffers `ids` in
turn. -/
structure XdpqReady (q : TxQueue) (ids : List Nat) : Prop where
  quiet : ∀ b, Quiet (q.bufs b)
  missTag : q.missTagEn = false
  clean : q.nextToClean < q.descCount
  use : q.nextToUse < q.descCount
  nodup : ids.Nodup
  flow : q.flowSchEn = true → RflFree q.refillq ids
  ring : q.flowSchEn = false → ids = ringSlots q.descCount q.nextToUse q.descUnused

/-- Every frame is mapped, and there are descriptors and buffer IDs for all of them. -/
def xdpFitsAll (q : TxQueue) (frames : List XdpBuf) : Bool :=
  frames.all (fun f => f.dma.isSome) && decide (frames.length ≤ q.descUnused) &&
    (!q.flowSchEn || (rflValid frames.length q.refillq).length == frames.length)

/-- A descriptor taken is one fewer. -/
theorem descUnused_bump {q q' : TxQueue} (clean : q.nextToClean < q.descCount)
    (use : q.nextToUse < q.descCount) (room : q.descUnused ≠ 0)
    (count : q'.descCount = q.descCount) (same : q'.nextToClean = q.nextToClean)
    (next : q'.nextToUse = bump q.descCount q.nextToUse) : q'.descUnused + 1 = q.descUnused := by
  unfold TxQueue.descUnused at room ⊢
  rw [count, same, next]
  unfold bump
  split_ifs at room ⊢ <;> omega

namespace XdpqReady

variable {q : TxQueue} {ids : List Nat}

theorem sent (v : XdpqReady q ids) {frame size addr b : Nat} {rest : List Nat} {r : XdpResult}
    (put : XdpSent q frame size addr b r) (split : ids = b :: rest)
    (flow : q.flowSchEn = true → RflFree r.q.refillq rest) : XdpqReady r.q rest := by
  have left := descUnused_bump v.clean v.use put.room put.count put.clean put.use
  have nodup := v.nodup
  rw [split] at nodup
  refine ⟨put.quiet v.quiet, put.missTag.trans v.missTag, ?_, ?_, (List.nodup_cons.mp nodup).2, ?_,
    ?_⟩
  · rw [put.clean, put.count]
    exact v.clean
  · rw [put.use, put.count]
    exact bump_lt v.use
  · intro mode
    exact flow (put.flow ▸ mode)
  · intro mode
    have slots := v.ring (put.flow ▸ mode)
    have next : bump q.descCount q.nextToUse = (q.nextToUse + 1) % q.descCount := by
      have next := bump_mod (Nat.zero_lt_of_lt v.use) q.nextToUse
      rwa [Nat.mod_eq_of_lt v.use] at next
    rw [split, ← left, ringSlots_cons, List.cons.injEq] at slots
    rw [slots.2, put.count, put.use, next, ringSlots_mod]

/-- A frame is refused for want of a mapping, a descriptor or a buffer ID only. -/
theorem xmit (v : XdpqReady q ids) (f : XdpBuf) :
    (XdpRefused q f.dma (txXmitXdpq q f.frame f.len f.dma) ∧
      (f.dma = none ∨ q.descUnused = 0 ∨ ids = [])) ∨
    ∃ addr b rest, f.dma = some addr ∧ ids = b :: rest ∧
      XdpSent q f.frame f.len addr b (txXmitXdpq q f.frame f.len f.dma) ∧
      XdpqReady (txXmitXdpq q f.frame f.len f.dma).q rest := by
  have why (refused : XdpRefused q f.dma (txXmitXdpq q f.frame f.len f.dma)) :
      f.dma = none ∨ q.descUnused = 0 ∨ ids = [] := by
    have stop : xdpFits q f.dma = false := by
      rcases txXmitXdpq_cases q f.frame f.len f.dma with ⟨stop, -⟩ | ⟨-, sent, -⟩
      · exact stop
      · exact absurd (refused.1.symm.trans sent) nofun
    cases dma : f.dma with
    | none => exact .inl rfl
    | some addr =>
        by_cases full : q.descUnused = 0
        · exact .inr (.inl full)
        · cases free : ids with
          | nil => exact .inr (.inr rfl)
          | cons b rest =>
              have more : (nextRefill q.flowSchEn q.refillq).isSome = true := by
                cases mode : q.flowSchEn with
                | false => rfl
                | true =>
                    obtain ⟨r, got, -⟩ := (free ▸ v.flow mode).get
                    rw [nextRefill, if_pos rfl, got]
                    rfl
              rw [xdpFits, dma, more] at stop
              simp [full] at stop
  cases mode : q.flowSchEn with
  | true =>
      rcases txXmitXdpq_flow mode (v.flow mode) f.frame f.len f.dma with
        refused | ⟨addr, b, rest, dma, split, put, refill, -⟩
      · exact .inl ⟨refused, why refused⟩
      · exact .inr ⟨addr, b, rest, dma, split, put, v.sent put split fun _ => refill⟩
  | false =>
      rcases txXmitXdpq_ring mode f.frame f.len f.dma with refused | ⟨addr, dma, put⟩
      · exact .inl ⟨refused, why refused⟩
      · obtain ⟨k, unused⟩ := Nat.exists_eq_succ_of_ne_zero put.room
        have split : ids = q.nextToUse :: ringSlots q.descCount (q.nextToUse + 1) k := by
          have first : q.nextToUse % q.descCount = q.nextToUse := Nat.mod_eq_of_lt v.use
          rw [v.ring mode, unused, Nat.succ_eq_add_one, ringSlots_cons, first]
        refine .inr ⟨addr, q.nextToUse, _, dma, split, put, v.sent put split ?_⟩
        intro flow
        rw [mode] at flow
        exact absurd flow nofun

theorem fitsAll_iff (v : XdpqReady q ids) (frames : List XdpBuf) :
    xdpFitsAll q frames = true ↔ (∀ f ∈ frames, f.dma.isSome = true) ∧
      frames.length ≤ q.descUnused ∧ frames.length ≤ ids.length := by
  have taken : (!q.flowSchEn || (rflValid frames.length q.refillq).length == frames.length) = true ∧
      frames.length ≤ q.descUnused ↔
        frames.length ≤ ids.length ∧ frames.length ≤ q.descUnused := by
    cases mode : q.flowSchEn with
    | true =>
        rw [rflValid_take (v.flow mode), List.length_take]
        simp
    | false =>
        have length : ids.length = q.descUnused := by
          rw [v.ring mode]
          simp [ringSlots]
        simp [length]
  unfold xdpFitsAll
  simp only [Bool.and_eq_true, List.all_eq_true, decide_eq_true_eq]
  tauto

end XdpqReady

/-- All frames have been put on the ring, each in a buffer of its own. -/
structure XdpPlaced (q : TxQueue) (ids : List Nat) (frames : List XdpBuf) (t : XdpTurns) :
    Prop where
  freed : t.freed = []
  drops : t.drops = 0
  inTurn : t.placed.map Prod.fst = frames.map XdpBuf.frame
  bufs : t.placed.map Prod.snd = ids.take frames.length
  held : ∀ p ∈ t.placed, (t.q.bufs p.2).skb = p.1 ∧ (t.q.bufs p.2).type = .xdpTx
  others : ∀ b ∉ ids.take frames.length, t.q.bufs b = q.bufs b
  ready : ∃ rest, XdpqReady t.q rest

/-- With room for all frames the loop places them all. -/
theorem xdpXmitTurns_placed {q : TxQueue} {ids : List Nat} (v : XdpqReady q ids)
    {frames : List XdpBuf} (fits : (∀ f ∈ frames, f.dma.isSome = true) ∧
      frames.length ≤ q.descUnused ∧ frames.length ≤ ids.length) :
    XdpPlaced q ids frames (xdpXmitTurns frames q) := by
  induction frames generalizing q ids with
  | nil => exact ⟨rfl, rfl, rfl, rfl, nofun, fun _ _ => rfl, ids, v⟩
  | cons f frames ih =>
      obtain ⟨mapped, room, enough⟩ := fits
      rw [List.length_cons] at room enough
      have here := mapped f List.mem_cons_self
      rcases v.xmit f with ⟨-, none | full | spent⟩ | ⟨addr, b, rest, dma, split, put, ready⟩
      · rw [none] at here
        exact absurd here nofun
      · omega
      · rw [spent, List.length_nil] at enough
        omega
      · have left := descUnused_bump v.clean v.use put.room put.count put.clean put.use
        have nodup := v.nodup
        rw [split] at enough nodup
        rw [List.length_cons] at enough
        have later := ih ready ⟨fun g member => mapped g (List.mem_cons_of_mem f member), by omega,
          by omega⟩
        have own : b ∉ rest.take frames.length := fun member =>
          (List.nodup_cons.mp nodup).1 (List.mem_of_mem_take member)
        have here : (xdpXmitTurns frames (txXmitXdpq q f.frame f.len f.dma).q).q.bufs b =
            { q.bufs b with
              type := .xdpTx, rsIdx := q.nextToUse, skb := f.frame, dma := ⟨addr, q.mem.nextMap⟩
              len := f.len, packets := 1, bytes := f.len, next := none } := by
          rw [later.others b own, put.bufs, Function.update_self]
        rw [xdpXmitTurns]
        dsimp only
        rw [if_pos put.sent, put.mapped, split]
        refine ⟨later.freed, later.drops, ?_, ?_, ?_, ?_, later.ready⟩
        · rw [List.map_append, later.inTurn]
          rfl
        · rw [List.map_append, later.bufs]
          rfl
        · intro p member
          rcases List.mem_append.mp member with first | other
          · obtain rfl := List.mem_singleton.mp first
            rw [here]
            exact ⟨rfl, rfl⟩
          · exact later.held p other
        · intro c outside
          rw [List.length_cons, List.take_succ_cons] at outside
          rw [later.others c (mt (List.mem_cons_of_mem b) outside), put.bufs]
          apply Function.update_of_ne
          rintro rfl
          exact outside List.mem_cons_self

/-- Without it the driver frees a frame. -/
theorem xdpXmitTurns_freed {q : TxQueue} {ids : List Nat} (v : XdpqReady q ids)
    {frames : List XdpBuf} (kept : (xdpXmitTurns frames q).freed = []) :
    (∀ f ∈ frames, f.dma.isSome = true) ∧ frames.length ≤ q.descUnused ∧
      frames.length ≤ ids.length := by
  induction frames generalizing q ids with
  | nil => exact ⟨nofun, Nat.zero_le _, Nat.zero_le _⟩
  | cons f frames ih =>
      rw [xdpXmitTurns] at kept
      dsimp only at kept
      rcases v.xmit f with ⟨refused, -⟩ | ⟨addr, b, rest, dma, split, put, ready⟩
      · rw [refused.1, if_neg Bool.false_ne_true] at kept
        exact absurd kept (List.cons_ne_nil _ _)
      · have left := descUnused_bump v.clean v.use put.room put.count put.clean put.use
        rw [if_pos put.sent] at kept
        obtain ⟨mapped, room, enough⟩ := ih ready kept
        rw [split, List.length_cons, List.length_cons]
        refine ⟨?_, by omega, by omega⟩
        intro g member
        rcases List.mem_cons.mp member with rfl | other
        · rw [dma]
          rfl
        · exact mapped g other

/-- An XDP queue that has released the objects `l` and releases no more, whatever is completed. -/
structure Silent (q : TxQueue) (l : List Nat) : Prop where
  quiet : ∀ b, Quiet (q.bufs b)
  missTag : q.missTagEn = false
  released : releasedIn q.mem.log = l

namespace Silent

variable {l : List Nat}

theorem complete {s : Cleaning} (v : Silent s.q l) (b : Nat) : Silent (libethTxComplete s b).q l := by
  rw [libethTxComplete_quiet (v.quiet b)]
  exact ⟨Quiet.emptied v.quiet [b] s.q.mem.log, v.missTag, v.released⟩

theorem post {q : TxQueue} (v : Silent q l) (b : Nat) : Silent (q.postBuf b) l := by
  refine ⟨v.quiet, v.missTag, ?_⟩
  change releasedIn (q.mem.log ++ [.postBuf (q.bufs b).dma b]) = l
  rw [releasedIn, List.filterMap_append]
  exact (List.append_nil _).trans v.released

theorem walkChain {fuel : Nat} {s : Cleaning} (v : Silent s.q l) (b : Nat) :
    Silent (Idpf.walkChain completeAndPost fuel s b).q l := by
  induction fuel generalizing s b with
  | zero => exact v
  | succ fuel ih =>
      have next : Silent (completeAndPost s b).q l := (v.complete b).post b
      rw [Idpf.walkChain]
      split
      · exact next
      · exact ih next _

theorem cleanBufs {q : TxQueue} (v : Silent q l) (b : Nat) : Silent (txCleanBufs q b).q l := by
  unfold txCleanBufs txCleanable
  rcases v.quiet b with idle | frame
  · rw [idle]
    exact v
  · rw [frame]
    exact v.walkChain b

theorem cleanRest {eop fuel ntc : Nat} {s : Cleaning} (v : Silent s.q l) :
    Silent (splitqCleanRest eop fuel s ntc).1.q l := by
  induction fuel generalizing s ntc with
  | zero => exact v
  | succ fuel ih =>
      rw [splitqCleanRest]
      split
      · exact v
      · exact ih (v.complete _)

theorem cleanTurns {end_ fuel ntc : Nat} {s : Cleaning} (v : Silent s.q l) :
    Silent (splitqCleanTurns end_ fuel s ntc).1.q l := by
  induction fuel generalizing s ntc with
  | zero => exact v
  | succ fuel ih =>
      rw [splitqCleanTurns]
      split
      · exact v
      · dsimp only
        split
        · exact ih v
        · exact ih (v.complete ntc).cleanRest

theorem rsCompletion {q : TxQueue} (v : Silent q l) (val : Nat) :
    Silent (handleRsCompletion q val).q l := by
  unfold handleRsCompletion
  split
  · have plain : ¬ (q.missTagEn && val / txSplitqMissComplTag % 2 == 1) = true := by
      rw [v.missTag, Bool.false_and]
      exact Bool.false_ne_true
    rw [txHandleRsCompletion, if_neg plain]
    exact v.cleanBufs val
  · have turns : Silent (splitqCleanTurns val q.descCount ⟨q, {}⟩ q.nextToClean).1.q l :=
      Silent.cleanTurns (s := ⟨q, {}⟩) v
    exact ⟨turns.quiet, turns.missTag, turns.released⟩

theorem completed {q : TxQueue} (v : Silent q l) (order : List Nat) :
    Silent (xdpCompleted q order) l := by
  unfold xdpCompleted
  split
  · clear * - v
    induction order generalizing q with
    | nil => exact v
    | cons b order ih => exact ih (v.rsCompletion b)
  · exact v.rsCompletion q.nextToUse

end Silent

theorem XdpqReady.released {q : TxQueue} {ids : List Nat} (v : XdpqReady q ids)
    (order : List Nat) : releasedIn (xdpCompleted q order).mem.log = releasedIn q.mem.log :=
  (Silent.completed ⟨v.quiet, v.missTag, rfl⟩ order).released

namespace XdpVport

variable {v : XdpVport} {cpu flags : Nat} {frames : List XdpBuf}

theorem xmitError_toNat {err : Int} (early : v.xmitError flags = some err) : err.toNat = 0 := by
  unfold xmitError at early
  split_ifs at early <;> obtain rfl := Option.some.inj early <;> rfl

/-- A call that fails before its loop leaves all frames with the caller. -/
theorem handedOver_early {ids : List Nat} (ready : XdpqReady (v.txqs (v.xdpq cpu)) ids)
    (early : (v.xmitError flags).isSome = true) :
    XdpContract frames ((v.xdpXmit cpu frames flags).v.txqs (v.xdpq cpu))
      (v.xdpXmit cpu frames flags) := by
  obtain ⟨err, fails⟩ := Option.isSome_iff_exists.mp early
  have result : v.xdpXmit cpu frames flags = ⟨err, v, [], [], none⟩ := by rw [xdpXmit, fails]
  have none_ := xmitError_toNat fails
  rw [result]
  refine ⟨⟨?_, ?_, nofun, rfl⟩, fun order _ f _ => ?_⟩
  · rw [none_]
    exact Nat.zero_le _
  · rw [none_]
    rfl
  · rw [ready.released, none_, List.append_nil, List.drop_zero, List.count_append]

theorem handedOver_iff {ids : List Nat} (ready : XdpqReady (v.txqs (v.xdpq cpu)) ids)
    (late : v.xmitError flags = none) :
    XdpHandedOver frames ((v.xdpXmit cpu frames flags).v.txqs (v.xdpq cpu))
        (v.xdpXmit cpu frames flags) ↔ xdpFitsAll (v.txqs (v.xdpq cpu)) frames = true := by
  rw [ready.fitsAll_iff]
  simp only [xdpXmit, late, Function.update_self]
  constructor
  · exact fun handed => xdpXmitTurns_freed ready handed.kept
  · intro fits
    have placed := xdpXmitTurns_placed ready fits
    have all : ((frames.length : Int) -
        (xdpXmitTurns frames (v.txqs (v.xdpq cpu))).drops).toNat = frames.length := by
      rw [placed.drops]
      simp
    refine ⟨Nat.le_of_eq all, ?_, placed.held, placed.freed⟩
    dsimp only
    rw [all, List.take_length]
    exact placed.inTurn

/-- A batch that is put on the ring is never released by its completions. -/
theorem not_contract {ids : List Nat} (ready : XdpqReady (v.txqs (v.xdpq cpu)) ids)
    (late : v.xmitError flags = none) (some_ : frames ≠ []) :
    ¬ XdpContract frames ((v.xdpXmit cpu frames flags).v.txqs (v.xdpq cpu))
      (v.xdpXmit cpu frames flags) := by
  intro contract
  have fits := (ready.fitsAll_iff frames).mp
    ((handedOver_iff ready late).mp contract.toXdpHandedOver)
  have placed := xdpXmitTurns_placed ready fits
  obtain ⟨rest, after⟩ := placed.ready
  obtain ⟨f, others, rfl⟩ := List.exists_cons_of_ne_nil some_
  have once := contract.once _ (List.Perm.refl _) f List.mem_cons_self
  simp only [xdpXmit, late, Function.update_self] at once
  have all : (((f :: others).length : Int) -
      (xdpXmitTurns (f :: others) (v.txqs (v.xdpq cpu))).drops).toNat = (f :: others).length := by
    rw [placed.drops]
    simp
  rw [after.released, placed.freed, all, List.drop_length, List.append_nil, List.map_nil,
    List.append_nil, List.map_cons, List.count_cons_self] at once
  omega

end XdpVport

/-- The driver and its caller agree on the owner of every frame if and only if the call
fails before its loop or there is room for the whole batch; but no completion releases a frame,
so that all are released once only where there is nothing to complete. -/
theorem xdp_xmit_contract_iff (v : XdpVport) (cpu : Nat) (frames : List XdpBuf) (flags : Nat)
    {ids : List Nat} (ready : XdpqReady (v.txqs (v.xdpq cpu)) ids) :
    (XdpContract frames ((v.xdpXmit cpu frames flags).v.txqs (v.xdpq cpu))
        (v.xdpXmit cpu frames flags) ↔ (v.xmitError flags).isSome = true ∨ frames = []) ∧
      (XdpHandedOver frames ((v.xdpXmit cpu frames flags).v.txqs (v.xdpq cpu))
          (v.xdpXmit cpu frames flags) ↔
        (v.xmitError flags).isSome = true ∨ xdpFitsAll (v.txqs (v.xdpq cpu)) frames = true) := by
  cases late : v.xmitError flags with
  | some err =>
      have contract : XdpContract frames ((v.xdpXmit cpu frames flags).v.txqs (v.xdpq cpu))
          (v.xdpXmit cpu frames flags) := XdpVport.handedOver_early ready (by rw [late]; rfl)
      exact ⟨iff_of_true contract (.inl rfl), iff_of_true contract.toXdpHandedOver (.inl rfl)⟩
  | none =>
      constructor
      · constructor
        · intro contract
          by_contra neither
          exact XdpVport.not_contract ready late (fun empty => neither (.inr empty)) contract
        · rintro (failed | rfl)
          · exact absurd failed nofun
          · refine ⟨(XdpVport.handedOver_iff ready late).mpr ?_, fun _ _ _ => nofun⟩
            exact (ready.fitsAll_iff []).mpr ⟨nofun, Nat.zero_le _, Nat.zero_le _⟩
      · rw [XdpVport.handedOver_iff ready late]
        exact ⟨.inr, fun either => either.resolve_left nofun⟩

/-- A queue that has just been set up is ready, in flow scheduling mode with all of its
buffer IDs and otherwise with all of its slots but one. -/
theorem txQueueAlloc_ready (c : TxConfig) :
    XdpqReady (txQueueAlloc c.descCount c.poolSize c.txMaxBufs true) (List.range c.poolSize) ∧
      XdpqReady { txQueueAlloc c.descCount c.descCount c.txMaxBufs true with flowSchEn := false }
        (ringSlots c.descCount 0 (c.descCount - 1)) := by
  have pos : 0 < c.descCount := Nat.lt_of_lt_of_le (by decide : 0 < minTxqDesc) c.descMin
  have pool : 0 < c.poolSize ∧ c.poolSize ≤ 65535 := by
    unfold TxConfig.poolSize
    split <;> decide
  constructor
  · exact ⟨fun _ => .inl rfl, rfl, pos, pos, List.nodup_range,
      fun _ => rflAlloc_free pool.1 (by omega), nofun⟩
  · refine ⟨fun _ => .inl rfl, rfl, pos, pos, ringSlots_nodup 0 (Nat.sub_le _ _), nofun, fun _ => ?_⟩
    change _ = ringSlots c.descCount 0 (c.descCount + 0 - 0 - 1)
    rw [Nat.add_zero, Nat.sub_zero]

/-- A vport that is up, with one XDP queue of 128 descriptors. -/
def xdpVport : XdpVport :=
  let c : TxConfig :=
    ⟨1, 128, 256, 8, false, fun _ => true, minTxqDesc_le, le_maxDescs, minTxqComplqDesc_le,
      twice_le_maxDescs⟩
  ⟨true, true, true, true, 1, 0, fun _ => txQueueAlloc c.descCount c.poolSize c.txMaxBufs true⟩

/-- A batch of two is put on the ring and the call returns 2, but its frames stay there. -/
theorem xdp_xmit_contract_two :
    let frames : List XdpBuf := [⟨1, 60, some 4096, by decide⟩, ⟨2, 60, some 8192, by decide⟩]
    let r := xdpVport.xdpXmit 0 frames 1
    r.ret = 2 ∧ XdpHandedOver frames (r.v.txqs (xdpVport.xdpq 0)) r ∧
      ¬ XdpContract frames (r.v.txqs (xdpVport.xdpq 0)) r := by
  intro frames r
  have iffs := xdp_xmit_contract_iff xdpVport 0 frames 1 (txQueueAlloc_ready _).1
  refine ⟨by decide +kernel, iffs.2.mpr (.inr (by decide +kernel)), fun contract => ?_⟩
  rcases iffs.1.mp contract with failed | empty
  · exact absurd failed (by decide)
  · exact absurd empty (List.cons_ne_nil _ _)

/-- The first of three frames has no mapping: the driver frees it and returns 2, and nobody
owns the second. A frame alone in its batch is freed by the driver and by its caller. And two frames
that are put on the ring are not released by their completions. -/
theorem xdp_xmit_frame_lost :
    let lost : XdpBuf := ⟨1, 60, none, by decide⟩
    let frames : List XdpBuf :=
      [lost, ⟨2, 60, some 4096, by decide⟩, ⟨3, 60, some 8192, by decide⟩]
    let r := xdpVport.xdpXmit 0 frames 1
    let one := xdpVport.xdpXmit 0 [lost] 1
    let two := xdpVport.xdpXmit 0 frames.tail 1
    r.ret = 2 ∧ r.placed = [] ∧ r.freed = [1] ∧ (frames.drop r.ret.toNat).map XdpBuf.frame = [3] ∧
      ¬ XdpContract frames (r.v.txqs (xdpVport.xdpq 0)) r ∧
      one.ret = 0 ∧ one.freed = [1] ∧ ([lost].drop one.ret.toNat).map XdpBuf.frame = [1] ∧
      ¬ XdpContract [lost] (one.v.txqs (xdpVport.xdpq 0)) one ∧
      two.placed = [(2, 0), (3, 1)] ∧
      releasedIn (xdpCompleted (two.v.txqs (xdpVport.xdpq 0)) [0, 1]).mem.log = [] ∧
      ¬ XdpContract frames.tail (two.v.txqs (xdpVport.xdpq 0)) two := by
  intro lost frames r one two
  have freed : r.freed = [1] := by decide +kernel
  have alone : one.freed = [1] := by decide +kernel
  have ready := (txQueueAlloc_ready ⟨1, 128, 256, 8, false, fun _ => true, minTxqDesc_le,
    le_maxDescs, minTxqComplqDesc_le, twice_le_maxDescs⟩).1
  refine ⟨by decide +kernel, by decide +kernel, freed, by decide +kernel, ?_, by decide +kernel,
    alone, by decide +kernel, ?_, by decide +kernel, by decide +kernel, ?_⟩
  · intro contract
    exact absurd (freed.symm.trans contract.kept) nofun
  · intro contract
    exact absurd (alone.symm.trans contract.kept) nofun
  · exact XdpVport.not_contract (v := xdpVport) ready (by decide) (List.cons_ne_nil _ _)

end Idpf
