import Idpf.Ptp.Latches
import Idpf.Tx.BufferIds
import Idpf.Tx.MapChain

/-! A packet that fails on its way to the device: what the error paths of `idpf_tx_splitq_frame` and
`idpf_tx_splitq_map` take back, the timestamp latches of the vport among it. -/
namespace Idpf
open General

/-- A packet given to a queue. `capable` is what `idpf_ptp_get_txq_tstamp_capability` says, and
`env` is about the other calls the packet makes. -/
structure SendCall where
  q : TxQueue
  ts : TsVport
  capable : Bool
  pending : Nat
  thresh : Nat
  skbId : Nat
  skb : Skb
  env : SendEnv

namespace SendCall

/-- `idpf_ptp_request_ts` takes the first of the free latches. -/
def sendEnv (c : SendCall) : SendEnv :=
  { c.env with latch := if c.capable then c.ts.free.head?.map TsLatch.idx else none }

def admission (c : SendCall) : Admission :=
  txSplitqAdmit c.q c.pending c.thresh c.skb c.sendEnv

def result (c : SendCall) : FrameResult :=
  txSplitqFrame c.q c.pending c.thresh c.skbId c.skb c.sendEnv

def latched (c : SendCall) : Bool :=
  match c.admission with
  | .accept skb tso => (txTstamp c.sendEnv.latch skb tso).isSome
  | _ => false

/-- The latches after the call; no error path gives one back. -/
def tsAfter (c : SendCall) : TsVport := if c.latched then c.ts.requestTs c.skbId else c.ts

/-- The packet does not get to the device, and is not left to the stack either. -/
def fails (c : SendCall) : Bool :=
  match c.result.verdict with
  | .dropped | .rolledBack => true
  | _ => false

def ids (c : SendCall) : List Nat :=
  match c.admission with
  | .accept skb tso => frameIds c.q c.sendEnv skb tso
  | _ => []

/-- The indexes are within the ring, the buffers that the packet takes are distinct ones of the pool
and idle, and the latches are there as long as their queues. -/
structure Ready (c : SendCall) : Prop where
  use : c.q.nextToUse < c.q.descCount
  once : c.ids.Nodup
  idle : ∀ b ∈ c.ids, (c.q.bufs b).type = .empty
  pool : c.ids.length ≤ c.q.bufPoolSize
  present : c.ts.released = false

/-- Nothing is left of the packet: the queue and the latches are as before it, each mapping made for
it is undone once, and the skb is freed once. -/
structure TakenBack (c : SendCall) : Prop where
  use : c.result.q.nextToUse = c.q.nextToUse
  refill : c.result.q.refillq = c.q.refillq
  lastRe : c.result.q.lastRe = c.q.lastRe
  charged : c.result.charged = 0
  free : c.tsAfter.free = c.ts.free
  inUse : c.tsAfter.inUse = c.ts.inUse
  memory : ∃ maps : List DmaMap,
    c.result.q.mem.log = c.q.mem.log ++ maps.map .unmap ++ [.consumeSkb c.skbId] ∧
      maps.map DmaMap.serial = List.range' c.q.mem.nextMap maps.length ∧
      c.result.q.mem.nextMap = c.q.mem.nextMap + maps.length

/-- The packet asks for an RE completion and gets a first buffer. -/
def asked (c : SendCall) : Bool :=
  match c.admission with
  | .accept skb tso => asksRe c.q c.sendEnv skb tso && (nextRefill c.q.flowSchEn c.q.refillq).isSome
  | _ => false

/-- The packet has taken nothing that no error path gives back. -/
def bare (c : SendCall) : Bool := !c.latched && !c.asked

theorem takeId_refill (flow : Bool) (r : SwQueue) (i : Nat) :
    (takeId flow r i).map Prod.snd = nextRefill flow r := by
  unfold takeId nextRefill
  cases flow with
  | true => rfl
  | false => rfl

theorem frameIds_ne_nil {q : TxQueue} (more : nextRefill q.flowSchEn q.refillq ≠ none)
    (env : SendEnv) (skb : Skb) (tso : Tso) : frameIds q env skb tso ≠ [] := by
  intro none
  unfold frameIds at none
  dsimp only at none
  have take := takeId_refill q.flowSchEn q.refillq
    ((q.nextToUse + ctxCount env skb tso) % q.descCount)
  split at none
  · next spent =>
    rw [spent] at take
    exact more take.symm
  · cases none

variable {c : SendCall}

theorem tsAfter_of_unlatched (unlatched : c.latched = false) : c.tsAfter = c.ts := by
  unfold tsAfter
  rw [unlatched]
  exact if_neg Bool.false_ne_true

theorem latch_of_latched (latched : c.latched = true) : c.sendEnv.latch ≠ none := by
  unfold SendCall.latched at latched
  split at latched
  · unfold txTstamp at latched
    intro none
    rw [none, ite_self] at latched
    split at latched
    · exact Bool.noConfusion latched
    · exact Bool.noConfusion latched
  · exact Bool.noConfusion latched

theorem tsAfter_of_latched (present : c.ts.released = false) (latched : c.latched = true) :
    c.tsAfter.free ≠ c.ts.free := by
  have some := latch_of_latched latched
  unfold tsAfter
  rw [latched, if_pos rfl]
  unfold TsVport.requestTs
  rw [if_neg (Bool.eq_false_iff.mp present)]
  cases free : c.ts.free with
  | nil =>
      unfold sendEnv at some
      rw [free] at some
      exact absurd (ite_self none) some
  | cons l rest =>
      intro same
      have shorter := congrArg List.length same
      rw [List.length_cons] at shorter
      exact absurd shorter (Nat.ne_of_lt (Nat.lt_succ_self _))

/-- What is left is the latch and the request for an RE completion. -/
theorem takenBack_iff (present : c.ts.released = false)
    (use : c.result.q.nextToUse = c.q.nextToUse) (refill : c.result.q.refillq = c.q.refillq)
    (lastRe : c.asked = false → c.result.q.lastRe = c.q.lastRe)
    (charged : c.result.charged = c.asked.toNat) (memory : ∃ maps : List DmaMap,
      c.result.q.mem.log = c.q.mem.log ++ maps.map .unmap ++ [.consumeSkb c.skbId] ∧
        maps.map DmaMap.serial = List.range' c.q.mem.nextMap maps.length ∧
        c.result.q.mem.nextMap = c.q.mem.nextMap + maps.length) :
    c.TakenBack ↔ c.bare = true := by
  unfold bare
  rw [Bool.and_eq_true, Bool.not_eq_true', Bool.not_eq_true']
  constructor
  · intro back
    constructor
    · apply Bool.eq_false_iff.mpr
      intro latched
      exact tsAfter_of_latched present latched back.free
    · apply Bool.eq_false_iff.mpr
      intro asked
      have one := back.charged
      rw [charged, asked] at one
      exact Nat.one_ne_zero one
  · intro ⟨unlatched, unasked⟩
    have same := tsAfter_of_unlatched unlatched
    constructor
    · exact use
    · exact refill
    · exact lastRe unasked
    · rw [charged, unasked]
      rfl
    · rw [same]
    · rw [same]
    · exact memory

theorem memory_of_dropped {ring : Nat → TxDesc}
    (result : c.result.q = { c.q with ring }.record (.consumeSkb c.skbId)) :
    ∃ maps : List DmaMap,
      c.result.q.mem.log = c.q.mem.log ++ maps.map .unmap ++ [.consumeSkb c.skbId] ∧
        maps.map DmaMap.serial = List.range' c.q.mem.nextMap maps.length ∧
        c.result.q.mem.nextMap = c.q.mem.nextMap + maps.length := by
  rw [result]
  refine ⟨[], ?_, rfl, rfl⟩
  rw [List.map_nil, List.append_nil]
  rfl

/-- A packet that fails is taken back exactly if it has neither a latch nor asked for an RE
completion. -/
theorem rollback_exact_iff (ready : c.Ready) (fails : c.fails = true) :
    c.TakenBack ↔ c.bare = true := by
  by_cases accepted : ∃ skb tso, c.admission = .accept skb tso
  · obtain ⟨skb, tso, accepted⟩ := accepted
    have ids : c.ids = frameIds c.q c.sendEnv skb tso := by
      unfold SendCall.ids
      rw [accepted]
    have asked : c.asked = (asksRe c.q c.sendEnv skb tso &&
        (nextRefill c.q.flowSchEn c.q.refillq).isSome) := by
      unfold SendCall.asked
      rw [accepted]
    obtain ⟨-, spent, charged, -, -, ⟨ring, after⟩, -⟩ | ⟨carried, more, done⟩ :=
      frame_accepted ready.use accepted c.skbId
    · have after : c.result.q = { c.q with ring }.record (.consumeSkb c.skbId) := after
      rw [spent, Option.isSome_none, Bool.and_false] at asked
      apply takenBack_iff ready.present
      · rw [after]
        rfl
      · rw [after]
        rfl
      · intro _
        rw [after]
        rfl
      · rw [asked]
        exact charged
      · exact memory_of_dropped after
    · have some := frameIds_ne_nil more c.sendEnv skb tso
      rw [Option.isSome_iff_ne_none.mpr more, Bool.and_true] at asked
      obtain ⟨rolled, -, charged, -, use⟩ | ⟨sent, -⟩ := done
      · obtain ⟨-, unwound⟩ | ⟨sent, -⟩ := frame_buffers ready.use accepted some
          (ids ▸ ready.once) (ids ▸ ready.idle) (ids ▸ ready.pool) c.skbId
        · apply takenBack_iff ready.present
          · exact use
          · exact unwound.refill
          · intro unasked
            have kept := carried.lastRe
            rw [carried.re, ← asked, unasked] at kept
            exact kept
          · rw [asked, ← carried.re]
            exact charged
          · exact unwound.log
        · exact Verdict.noConfusion (rolled.symm.trans sent)
      · have verdict : c.result.verdict = .sent := sent
        unfold SendCall.fails at fails
        rw [verdict] at fails
        exact Bool.noConfusion fails
  · have refused : ∀ skb tso, txSplitqAdmit c.q c.pending c.thresh c.skb c.sendEnv ≠
        .accept skb tso := fun skb tso same => accepted ⟨skb, tso, same⟩
    have unasked : c.asked = false := by
      unfold SendCall.asked
      split
      · next skb tso same => exact absurd same (refused skb tso)
      · rfl
    obtain ⟨-, charged, -, -, ⟨-, after⟩ | ⟨busy, -⟩⟩ := frame_refused refused c.skbId
    · have after : c.result.q = { c.q with ring := c.q.ring }.record (.consumeSkb c.skbId) := after
      apply takenBack_iff ready.present
      · rw [after]
        rfl
      · rw [after]
        rfl
      · intro _
        rw [after]
        rfl
      · rw [unasked]
        exact charged
      · exact memory_of_dropped after
    · have verdict : c.result.verdict = .busy := busy
      unfold SendCall.fails at fails
      rw [verdict] at fails
      exact Bool.noConfusion fails

theorem mapIds_free {n : Nat} {dma : Nat → Option Nat} {frags : List Nat} {k size i : Nat}
    {r : SwQueue} {free : List Nat} (f : RflFree r free) :
    mapIds true n dma frags k size r i <+: free := by
  induction frags generalizing k size i r free with
  | nil =>
      cases mapping : dma k with
      | none =>
          rw [mapIds_failed mapping]
          exact List.nil_prefix
      | some addr =>
          rw [mapIds_last mapping rfl]
          exact List.nil_prefix
  | cons x fs ih =>
      cases mapping : dma k with
      | none =>
          rw [mapIds_failed mapping]
          exact List.nil_prefix
      | some addr =>
          by_cases last : (x :: fs).sum = 0
          · rw [mapIds_last mapping last]
            exact List.nil_prefix
          · rw [mapIds_next mapping last, takeId, if_pos rfl]
            cases free with
            | nil =>
                simp only [f.get_none, List.nil_prefix]
            | cons b free =>
                obtain ⟨r', got, rest, -⟩ := f.get
                rw [got]
                exact List.cons_prefix_cons.mpr ⟨rfl, ih rest⟩

theorem frameIds_free {q : TxQueue} {env : SendEnv} {skb : Skb} {tso : Tso} {free : List Nat}
    (flow : q.flowSchEn = true) (f : RflFree q.refillq free) : frameIds q env skb tso <+: free := by
  unfold frameIds
  dsimp only
  rw [flow, takeId, if_pos rfl]
  cases free with
  | nil =>
      simp only [f.get_none, List.nil_prefix]
  | cons b free =>
      obtain ⟨r', got, rest, -⟩ := f.get
      rw [got]
      exact List.cons_prefix_cons.mpr ⟨rfl, mapIds_free rest⟩

/-- A queue whose free IDs are idle is ready for any packet. -/
theorem ready_of_free {free : List Nat} (use : c.q.nextToUse < c.q.descCount)
    (flow : c.q.flowSchEn = true) (f : RflFree c.q.refillq free) (once : free.Nodup)
    (idle : ∀ b ∈ free, (c.q.bufs b).type = .empty) (pool : free.length ≤ c.q.bufPoolSize)
    (present : c.ts.released = false) : c.Ready := by
  have first : c.ids <+: free := by
    unfold SendCall.ids
    split
    · exact frameIds_free flow f
    · exact List.nil_prefix
  constructor
  · exact use
  · exact once.sublist first.sublist
  · exact fun b member => idle b (first.subset member)
  · exact first.length_le.trans pool
  · exact present

end SendCall

/-- What a run of sender and cleaner keeps of the ring index and of the types: the buffers that no
packet owns are idle, and so is the one that the sender is at. -/
structure IdleInv (s : BufSystem) : Prop where
  use : s.q.nextToUse < s.q.descCount
  idle : ∀ b < s.q.bufPoolSize, b ∉ s.owned → (s.q.bufs b).type = .empty
  mapping : ∀ m, s.sender = .mapping m → (s.q.bufs m.buf).type = .empty ∧
    m.p.prevNtu < s.q.descCount ∧ ∃ base ring, m.cur.Runs s.q.descCount base ring

namespace IdleInv

variable {n : Nat} {s t : BufSystem} {free : List Nat}

theorem start (started : BufStart s) : IdleInv s := by
  obtain ⟨c, rfl⟩ := started
  constructor
  · have large : 128 ≤ c.descCount := c.descMin
    exact Nat.zero_lt_of_lt large
  · intro b _ _
    rfl
  · intro m phase
    cases phase

theorem send (i : IdleInv s) (phase : s.sender = .idle) (skbId : Nat) (skb : Skb) (env : SendEnv)
    (pending thresh : Nat) : IdleInv (s.send skbId skb env pending thresh) := by
  have free : s.owned = s.cleaner.held ++ s.inflight.flatten := by
    unfold BufSystem.owned
    rw [phase]
    rfl
  unfold BufSystem.send
  split
  · exact ⟨i.use, i.idle, i.mapping⟩
  · exact ⟨i.use, i.idle, i.mapping⟩
  · constructor
    · exact i.use
    · intro b low out
      exact i.idle b low (free ▸ out)
    · intro m other
      cases other

theorem begin (v : BufInv n s free) (i : IdleInv s) {skbId : Nat} {skb : Skb} {tso : Tso}
    {env : SendEnv} (phase : s.sender = .accepted skbId skb tso env) :
    IdleInv (s.begin skbId skb tso env) := by
  have owned : s.owned = s.cleaner.held ++ s.inflight.flatten := by
    unfold BufSystem.owned
    rw [phase]
    rfl
  unfold BufSystem.begin
  dsimp only
  have needs := v.needs
  have refill := v.refill
  have once := v.places.nodup_iff.mpr List.nodup_range
  rw [phase] at needs refill
  cases some : free with
  | nil =>
      rw [some] at needs
      exact absurd needs (Nat.not_lt_zero _)
  | cons b rest =>
      rw [some] at refill once
      obtain ⟨r, got, -⟩ := RflFree.get refill
      have take : takeId s.q.flowSchEn s.q.refillq
          (ctxCursor s.q tso skb.vlanTag (txTstamp env.latch skb tso)).i = Option.some (b, r) := by
        rw [takeId, v.flow, if_pos rfl]
        exact got
      obtain ⟨p, st, begun, o, cur⟩ := txSplitqBegin_opened skbId take
      rw [begun]
      have new : b ∉ s.owned := by
        rw [List.cons_append] at once
        intro old
        exact (List.nodup_cons.mp once).1 (List.mem_append_right _ old)
      have low : b < s.q.bufPoolSize := by
        rw [v.pool]
        apply List.mem_range.mp
        apply v.places.mem_iff.mp
        rw [some]
        exact List.mem_cons_self
      have buf : st.buf = b := by
        have held := o.held
        have front : st.mapped.map Prod.fst = [] := by
          have length := congrArg List.length held
          rw [MapState.held, List.length_append] at length
          exact List.eq_nil_of_length_eq_zero (Nat.add_right_cancel length)
        rw [MapState.held, front] at held
        exact (List.cons.inj held).1
      constructor
      · change st.q.nextToUse < st.q.descCount
        rw [o.use, o.count]
        exact i.use
      · intro x inside out
        change (st.q.bufs x).type = _
        rw [o.type]
        apply i.idle x
        · rw [← o.pool]
          exact inside
        · rw [owned]
          exact fun old => out (List.mem_append_right _ old)
      · intro m other
        obtain rfl := SendPhase.mapping.inj other
        refine ⟨?_, ?_, s.q.nextToUse, s.q.ring, ?_⟩
        · change (st.q.bufs st.buf).type = _
          rw [o.type, buf]
          exact i.idle b low new
        · change p.prevNtu < st.q.descCount
          rw [o.prevNtu, o.count]
          exact i.use
        · change st.cur.Runs st.q.descCount _ _
          rw [cur, o.count]
          exact ctxCursor_runs i.use _ _ _

/-- What unwinding a chain leaves of the types. -/
theorem errUnmap_types {q : TxQueue} {l : List Nat} {first : Nat} (chain : Chain q.bufs l)
    (head : l.head? = some first) (enough : l.length ≤ q.bufPoolSize) (ntu ntc : Nat) (gen : Bool) :
    (∀ b ∈ l, ((txSplitqPktErrUnmap q ntu ntc gen first).bufs b).type = .empty) ∧
      ∀ b ∉ l, ((txSplitqPktErrUnmap q ntu ntc gen first).bufs b) = q.bufs b := by
  obtain ⟨rest, rfl⟩ : ∃ rest, l = first :: rest := by
    cases l with
    | nil => cases head
    | cons b rest => exact ⟨rest, by rw [Option.some.inj head]⟩
  obtain ⟨log, walked⟩ := walk_libethTxComplete chain enough
  have bufs : (txSplitqPktErrUnmap q ntu ntc gen first).bufs =
      ((q.emptied (first :: rest) log).modBuf first fun e => { e with skb := 0 }).bufs := by
    unfold txSplitqPktErrUnmap
    dsimp only
    rw [walked]
    rfl
  rw [bufs]
  constructor
  · intro b member
    have empty : ((q.emptied (first :: rest) log).bufs b).type = .empty := by
      unfold TxQueue.emptied
      dsimp only
      rw [if_pos member]
    by_cases own : b = first
    · rw [own] at empty ⊢
      rw [TxQueue.modBuf_same]
      exact empty
    · rw [TxQueue.modBuf_other _ _ own]
      exact empty
  · intro b out
    have apart : b ≠ first := fun same => out (same ▸ List.mem_cons_self)
    rw [TxQueue.modBuf_other _ _ apart, TxQueue.emptied_other _ _ out]

theorem buf_mem_held (m : Mapping) : m.buf ∈ m.held :=
  List.mem_append_right _ (List.mem_singleton_self _)

theorem owned_of_mapping {m : Mapping} (phase : s.sender = .mapping m) :
    s.owned = m.held ++ (s.cleaner.held ++ s.inflight.flatten) := by
  unfold BufSystem.owned
  rw [phase]
  rfl

theorem fresh_id (v : BufInv n s free) {m : Mapping} (phase : s.sender = .mapping m) {b : Nat}
    {r : SwQueue} (got : txGetFreeBufId s.q.refillq = some (b, r)) :
    b ∉ s.owned ∧ b < s.q.bufPoolSize := by
  obtain ⟨places, refill, -, -, needs, -⟩ := v.mapping phase
  rw [← owned_of_mapping phase] at places
  cases some : free with
  | nil =>
      rw [some] at needs
      exact absurd needs (Nat.not_lt_zero _)
  | cons b' rest =>
      rw [some] at refill places
      obtain ⟨r', got', -⟩ := refill.get
      obtain ⟨rfl, -⟩ := Prod.mk.inj (Option.some.inj (got'.symm.trans got))
      have nodup := places.nodup_iff.mpr List.nodup_range
      rw [List.cons_append] at nodup places
      rw [v.pool]
      constructor
      · intro old
        exact (List.nodup_cons.mp nodup).1 (List.mem_append_right _ old)
      · exact List.mem_range.mp (places.mem_iff.mp List.mem_cons_self)

/-- A descriptor that could not be mapped: the packet's buffers are unwound. -/
theorem map_failed (v : BufInv n s free) (i : IdleInv s) {m : Mapping}
    (phase : s.sender = .mapping m) {cur : Cursor}
    (turn : m.turn s.q = .done (.failed ⟨s.q.setNext m.buf none, cur, m.buf, m.mapped⟩)) :
    IdleInv (s.map m) := by
  obtain ⟨places, -, linked, head, -, once⟩ := v.mapping phase
  obtain ⟨-, prev, -⟩ := i.mapping m phase
  have fits : m.held.length ≤ s.q.bufPoolSize := by
    have length := places.length_eq
    rw [List.length_append, List.length_append, List.length_range, ← v.pool] at length
    omega
  have chain : Chain (s.q.setNext m.buf none).bufs m.held := by
    apply linked.close
    · intro x old
      rw [TxQueue.setNext_other]
      rintro rfl
      exact m.older once old
    · rw [TxQueue.setNext_same]
  obtain ⟨emptied, other⟩ := errUnmap_types
    (q := { s.q.setNext m.buf none with ring := cur.ring }) chain head fits m.p.prevNtu
    m.p.prevRefillNtc m.p.prevRefillGen
  have fields := txSplitqPktErrUnmap_only { s.q.setNext m.buf none with ring := cur.ring }
    m.p.prevNtu m.p.prevRefillNtc m.p.prevRefillGen m.p.complTag
  unfold BufSystem.map
  rw [turn]
  constructor
  · show (txSplitqPktErrUnmap { s.q.setNext m.buf none with ring := cur.ring } _ _ _ _).nextToUse <
      (txSplitqPktErrUnmap { s.q.setNext m.buf none with ring := cur.ring } _ _ _ _).descCount
    rw [fields]
    exact prev
  · intro x low out
    by_cases mine : x ∈ m.held
    · exact emptied x mine
    · have apart : x ≠ m.buf := by
        rintro rfl
        exact mine (buf_mem_held m)
      have kept : x ∉ s.owned := by
        rw [owned_of_mapping phase]
        exact fun member => (List.mem_append.mp member).elim mine out
      have size : x < s.q.bufPoolSize := by
        have low : x < (txSplitqPktErrUnmap { s.q.setNext m.buf none with ring := cur.ring }
          m.p.prevNtu m.p.prevRefillNtc m.p.prevRefillGen m.p.complTag).bufPoolSize := low
        rw [fields] at low
        exact low
      have same := other x mine
      rw [TxQueue.setNext_other _ _ apart] at same
      exact (congrArg TxBuf.type same).trans (i.idle x size kept)
  · intro m' other
    cases other

/-- The last descriptor: what the packet holds goes on its way. -/
theorem map_last (v : BufInv n s free) (i : IdleInv s) {m : Mapping}
    (phase : s.sender = .mapping m) {q' : TxQueue} {cur : Cursor} {d : DmaMap} {last : Nat × Nat}
    (turn : m.turn s.q = .done (.mapped ⟨q', cur, m.buf, m.mapped ++ [(m.buf, d)]⟩ last))
    (only : s.q.OnlyBufs q') {base : Nat} {ring : Nat → TxDesc}
    (next : cur.Runs s.q.descCount base ring)
    (frame : ∀ x, x ≠ m.buf → q'.bufs x = s.q.bufs x) : IdleInv (s.map m) := by
  have head := (v.mapping phase).2.2.2.1
  have pos : 0 < s.q.descCount := Nat.zero_lt_of_lt i.use
  have count : q'.descCount = s.q.descCount := only.descCount
  have size : q'.bufPoolSize = s.q.bufPoolSize := only.same.bufPoolSize
  have held : (m.mapped ++ [(m.buf, d)]).map Prod.fst = m.held := by
    rw [List.map_append]
    rfl
  unfold BufSystem.map
  rw [turn]
  constructor
  · change bump q'.descCount cur.i < q'.descCount
    rw [count]
    have place : cur.i = _ := next.place
    rw [place]
    exact bump_lt (Nat.mod_lt _ pos)
  · intro x low out
    have out : x ∉ s.cleaner.held ++
      (s.inflight ++ [(m.mapped ++ [(m.buf, d)]).map Prod.fst]).flatten := out
    rw [held, List.flatten_append, List.flatten_singleton] at out
    have mine : x ∉ m.held := fun member =>
      out (List.mem_append_right _ (List.mem_append_right _ member))
    have apart : x ≠ m.buf := by
      rintro rfl
      exact mine (buf_mem_held m)
    have tag : x ≠ m.p.complTag := by
      rintro rfl
      exact mine (List.mem_of_head? head)
    have kept : x ∉ s.owned := by
      rw [owned_of_mapping phase]
      intro member
      cases List.mem_append.mp member with
      | inl member => exact mine member
      | inr member =>
          apply out
          cases List.mem_append.mp member with
          | inl member => exact List.mem_append_left _ member
          | inr member => exact List.mem_append_right _ (List.mem_append_left _ member)
    change (((q'.modBuf m.p.complTag _).setNext m.buf none).bufs x).type = _
    rw [TxQueue.setNext_other _ _ apart, TxQueue.modBuf_other _ _ tag, frame x apart]
    exact i.idle x (size ▸ low) kept
  · intro m' other
    cases other

/-- A further descriptor: one more ID is held, and its buffer is idle. -/
theorem map_more (v : BufInv n s free) (i : IdleInv s) {m : Mapping}
    (phase : s.sender = .mapping m) {f : Nat} {fs : List Nat} {q' : TxQueue} {cur : Cursor}
    {d : DmaMap} {b : Nat} {r : SwQueue} (got : txGetFreeBufId s.q.refillq = some (b, r))
    (turn : m.turn s.q = .more fs f ⟨q', cur, b, m.mapped ++ [(m.buf, d)]⟩)
    (only : s.q.OnlyBufs q') {base : Nat} {ring : Nat → TxDesc}
    (next : cur.Runs s.q.descCount base ring)
    (frame : ∀ x, x ≠ m.buf → q'.bufs x = s.q.bufs x) : IdleInv (s.map m) := by
  obtain ⟨-, prev, -⟩ := i.mapping m phase
  have count : q'.descCount = s.q.descCount := only.descCount
  have size : q'.bufPoolSize = s.q.bufPoolSize := only.same.bufPoolSize
  have use : q'.nextToUse = s.q.nextToUse := by
    have same : q' = _ := only
    rw [same]
  obtain ⟨young, small⟩ := fresh_id v phase got
  have apart : b ≠ m.buf := by
    rintro rfl
    apply young
    rw [owned_of_mapping phase]
    exact List.mem_append_left _ (buf_mem_held m)
  have grown : (Mapping.mk m.p m.dma fs (m.k + 1) f cur b (m.mapped ++ [(m.buf, d)])).held =
      m.held ++ [b] := by
    change (m.mapped ++ [(m.buf, d)]).map Prod.fst ++ [b] = _
    rw [List.map_append]
    rfl
  unfold BufSystem.map
  rw [turn]
  constructor
  · change q'.nextToUse < q'.descCount
    rw [count, use]
    exact i.use
  · intro x low out
    have out : x ∉ (Mapping.mk m.p m.dma fs (m.k + 1) f cur b (m.mapped ++ [(m.buf, d)])).held ++
      (s.cleaner.held ++ s.inflight.flatten) := out
    rw [grown] at out
    have mine : x ≠ m.buf := by
      rintro rfl
      exact out (List.mem_append_left _ (List.mem_append_left _ (buf_mem_held m)))
    have kept : x ∉ s.owned := by
      rw [owned_of_mapping phase]
      intro member
      apply out
      cases List.mem_append.mp member with
      | inl member => exact List.mem_append_left _ (List.mem_append_left _ member)
      | inr member => exact List.mem_append_right _ member
    change (q'.bufs x).type = _
    rw [frame x mine]
    exact i.idle x (size ▸ low) kept
  · intro m' other
    obtain rfl := SendPhase.mapping.inj other
    refine ⟨?_, ?_, base, ring, ?_⟩
    · change (q'.bufs b).type = _
      rw [frame b apart]
      exact i.idle b small young
    · change m.p.prevNtu < q'.descCount
      rw [count]
      exact prev
    · change cur.Runs q'.descCount base ring
      rw [count]
      exact next

theorem map (v : BufInv n s free) (i : IdleInv s) {m : Mapping} (phase : s.sender = .mapping m) :
    IdleInv (s.map m) := by
  obtain ⟨-, refill, -, -, needs, -⟩ := v.mapping phase
  obtain ⟨-, -, base, ring, runs⟩ := i.mapping m phase
  obtain ⟨only, run⟩ := mapTurn_state m.dma m.p.complTag m.frags m.k m.size
    ⟨s.q, m.cur, m.buf, m.mapped⟩
  have only : s.q.OnlyBufs (m.turn s.q).state.q := only
  have next : (m.turn s.q).state.cur.Runs s.q.descCount base ring :=
    run (Nat.zero_lt_of_lt i.use) runs
  obtain ⟨cur, turn⟩ | ⟨q', cur, d, last, turn, -, -, -, -, frame⟩ | ⟨-, -, spent⟩ |
    ⟨f, fs, q', cur, d, b, r, -, -, -, got, turn, -, -, -, -, frame⟩ := mapTurn_cases v.flow rfl
  · exact map_failed v i phase turn
  · rw [turn] at next only
    exact map_last v i phase turn only next frame
  · cases some : free with
    | nil =>
        rw [some] at needs
        exact absurd needs (Nat.not_lt_zero _)
    | cons b rest =>
        rw [some] at refill
        obtain ⟨r, got, -⟩ := refill.get
        rw [got] at spent
        cases spent
  · rw [turn] at next only
    exact map_more v i phase got turn only next frame

/-- A step of the cleaner: what it does not touch, or leaves idle, stays idle. -/
theorem ofCleaner (v : BufInv n s free) (i : IdleInv s) (touched : List Nat)
    (sender : t.sender = s.sender) (use : t.q.nextToUse = s.q.nextToUse)
    (count : t.q.descCount = s.q.descCount) (size : t.q.bufPoolSize = s.q.bufPoolSize)
    (mine : ∀ b ∈ touched, b ∈ s.cleaner.held ++ s.inflight.flatten)
    (same : ∀ b ∉ touched, (t.q.bufs b).type = (s.q.bufs b).type)
    (idle : ∀ b, b ∉ t.owned → b ∈ s.owned ∨ b ∈ touched → (t.q.bufs b).type = .empty) :
    IdleInv t := by
  constructor
  · rw [use, count]
    exact i.use
  · intro b low out
    by_cases inside : b ∈ s.owned ∨ b ∈ touched
    · exact idle b out inside
    · obtain ⟨unowned, untouched⟩ := not_or.mp inside
      rw [same b untouched]
      exact i.idle b (size ▸ low) unowned
  · intro m phase
    rw [sender] at phase
    obtain ⟨empty, prev, base, ring, runs⟩ := i.mapping m phase
    obtain ⟨places, -⟩ := v.mapping phase
    have apart := BufInv.apart places m.buf (List.mem_append_right _ (List.mem_singleton_self _))
    have untouched : m.buf ∉ touched := by
      intro member
      cases List.mem_append.mp (mine _ member) with
      | inl held => exact apart.2.1 held
      | inr fly => exact apart.2.2 fly
    rw [same m.buf untouched, count]
    exact ⟨empty, prev, base, ring, runs⟩

theorem rs (v : BufInv n s free) (i : IdleInv s) (phase : s.cleaner = .idle) {k : Nat}
    {chain : List Nat} (taken : s.inflight[k]? = some chain) : IdleInv (s.rs k chain) := by
  obtain ⟨b, l, rfl, -, type⟩ := v.flight chain (List.mem_of_getElem? taken)
  have fly : b ∈ s.inflight.flatten :=
    List.mem_flatten.mpr ⟨b :: l, List.mem_of_getElem? taken, List.mem_cons_self⟩
  have kept (x : Nat) : x ∈ s.owned →
      x ∈ s.sender.held ++ (b :: l ++ (s.inflight.eraseIdx k).flatten) := by
    have split := flatten_count_eraseIdx taken x
    unfold BufSystem.owned
    rw [phase]
    intro member
    have member : x ∈ s.sender.held ++ s.inflight.flatten := member
    apply List.count_pos_iff.mp
    have some := List.count_pos_iff.mpr member
    simp only [List.count_append] at some split ⊢
    omega
  unfold BufSystem.rs txCleanable
  rw [List.headD_cons]
  cases type with
  | inl plain =>
      dsimp only
      rw [plain]
      apply ofCleaner v i []
      · rfl
      · rfl
      · rfl
      · rfl
      · exact fun x none => absurd none List.not_mem_nil
      · exact fun _ _ => rfl
      · intro x out inside
        cases inside with
        | inl owned => exact absurd (kept x owned) out
        | inr none => exact absurd none List.not_mem_nil
  | inr stamped =>
      dsimp only
      rw [stamped]
      apply ofCleaner v i [b]
      · rfl
      · rfl
      · rfl
      · rfl
      · intro x member
        rw [List.mem_singleton.mp member]
        exact List.mem_append_right _ fly
      · intro x out
        have apart : x ≠ b := fun same => out (List.mem_singleton.mpr same)
        have other : (s.q.modBuf b fun e => { e with type := .skb }).bufs x = s.q.bufs x :=
          TxQueue.modBuf_other _ _ apart
        exact congrArg TxBuf.type other
      · intro x out inside
        cases inside with
        | inl owned => exact absurd (kept x owned) out
        | inr member =>
            rw [List.mem_singleton.mp member] at out
            exact absurd (List.mem_append_right _ List.mem_cons_self) out

theorem post (v : BufInv n s free) (i : IdleInv s) {cur : Nat} {rest : List Nat}
    (phase : s.cleaner = .cleaning cur rest) : IdleInv (s.post cur rest) := by
  obtain ⟨log, done⟩ := completeAndPost_q s.q cur
  have bufs : (s.post cur rest).q.bufs = (s.q.emptied [cur] log).bufs := by
    change (completeAndPost ⟨s.q, {}⟩ cur).q.bufs = _
    rw [done]
  have fields : (s.post cur rest).q.nextToUse = s.q.nextToUse ∧
      (s.post cur rest).q.descCount = s.q.descCount ∧
      (s.post cur rest).q.bufPoolSize = s.q.bufPoolSize := by
    change (completeAndPost ⟨s.q, {}⟩ cur).q.nextToUse = _ ∧
      (completeAndPost ⟨s.q, {}⟩ cur).q.descCount = _ ∧
      (completeAndPost ⟨s.q, {}⟩ cur).q.bufPoolSize = _
    rw [done]
    exact ⟨rfl, rfl, rfl⟩
  have emptied : ((s.q.emptied [cur] log).bufs cur).type = .empty := by
    unfold TxQueue.emptied
    dsimp only
    rw [if_pos (List.mem_singleton_self cur)]
  apply ofCleaner v i [cur]
  · rfl
  · exact fields.1
  · exact fields.2.1
  · exact fields.2.2
  · intro b member
    rw [List.mem_singleton.mp member, phase]
    exact List.mem_append_left _ List.mem_cons_self
  · intro b out
    rw [bufs, TxQueue.emptied_other _ _ out]
  · intro b out inside
    rw [bufs]
    by_cases own : b = cur
    · rw [own]
      exact emptied
    · cases inside with
      | inr member => exact absurd (List.mem_singleton.mp member) own
      | inl owned =>
          apply absurd _ out
          unfold BufSystem.owned at owned ⊢
          rw [phase] at owned
          cases List.mem_append.mp owned with
          | inl sent => exact List.mem_append_left _ sent
          | inr rest =>
              cases List.mem_append.mp rest with
              | inl cleaned =>
                  cases List.mem_cons.mp cleaned with
                  | inl same => exact absurd same own
                  | inr later => exact List.mem_append_right _ (List.mem_append_left _ later)
              | inr fly => exact List.mem_append_right _ (List.mem_append_right _ fly)

theorem next (v : BufInv n s free) (i : IdleInv s) {cur : Nat} {rest : List Nat}
    (phase : s.cleaner = .posted cur rest) : IdleInv (s.next cur rest) := by
  have ok := v.cleaner
  rw [phase] at ok
  have owned : (s.next cur rest).owned = s.owned := by
    unfold BufSystem.next BufSystem.owned
    rw [phase]
    cases rest with
    | nil =>
        have stop : (s.q.bufs cur).next = none := ok.1
        rw [stop]
        rfl
    | cons b rest =>
        have go : (s.q.bufs cur).next = some b := ok.1.1
        rw [go]
        rfl
  have same : (s.next cur rest).q = s.q ∧ (s.next cur rest).sender = s.sender := by
    unfold BufSystem.next
    split
    · exact ⟨rfl, rfl⟩
    · exact ⟨rfl, rfl⟩
  obtain ⟨q, sender⟩ := same
  constructor
  · rw [q]
    exact i.use
  · rw [q, owned]
    exact i.idle
  · rw [q, sender]
    exact i.mapping

theorem step (v : BufInv n s free) (i : IdleInv s) {e : BufEvent} (taken : s.step e = some t) :
    IdleInv t := by
  cases e with
  | send skbId skb env pending thresh =>
      cases phase : s.sender with
      | idle =>
          simp only [BufSystem.step, phase, Option.some.injEq] at taken
          exact taken ▸ i.send phase skbId skb env pending thresh
      | accepted => simp only [BufSystem.step, phase, reduceCtorEq] at taken
      | mapping => simp only [BufSystem.step, phase, reduceCtorEq] at taken
  | turn =>
      cases phase : s.sender with
      | idle => simp only [BufSystem.step, phase, reduceCtorEq] at taken
      | accepted skbId skb tso env =>
          simp only [BufSystem.step, phase, Option.some.injEq] at taken
          exact taken ▸ begin v i phase
      | mapping m =>
          simp only [BufSystem.step, phase, Option.some.injEq] at taken
          exact taken ▸ map v i phase
  | rs k =>
      cases phase : s.cleaner with
      | idle =>
          cases chain : s.inflight[k]? with
          | none => simp only [BufSystem.step, phase, chain, reduceCtorEq] at taken
          | some l =>
              simp only [BufSystem.step, phase, chain, Option.some.injEq] at taken
              exact taken ▸ rs v i phase chain
      | cleaning => simp only [BufSystem.step, phase, reduceCtorEq] at taken
      | posted => simp only [BufSystem.step, phase, reduceCtorEq] at taken
  | post =>
      cases phase : s.cleaner with
      | idle => simp only [BufSystem.step, phase, reduceCtorEq] at taken
      | cleaning cur rest =>
          simp only [BufSystem.step, phase, Option.some.injEq] at taken
          exact taken ▸ post v i phase
      | posted => simp only [BufSystem.step, phase, reduceCtorEq] at taken
  | next =>
      cases phase : s.cleaner with
      | idle => simp only [BufSystem.step, phase, reduceCtorEq] at taken
      | cleaning => simp only [BufSystem.step, phase, reduceCtorEq] at taken
      | posted cur rest =>
          simp only [BufSystem.step, phase, Option.some.injEq] at taken
          exact taken ▸ next v i phase
  | re head =>
      simp only [BufSystem.step, Option.some.injEq] at taken
      exact taken ▸ ⟨i.use, i.idle, i.mapping⟩

theorem reached (run : Reachable BufSystem.step anyStep BufStart s) :
    IdleInv s ∧ ∃ n free, BufInv n s free := by
  apply run.invariant (I := fun s => IdleInv s ∧ ∃ n free, BufInv n s free)
  · exact fun s started => ⟨start started, BufInv.start started⟩
  · intro s e t ⟨i, n, free, v⟩ _ taken
    exact ⟨step v i taken, n, v.step taken⟩

end IdleInv

/-- Between two packets of any run, with the cleaner at any point, a queue is ready for whatever
packet comes. -/
theorem SendCall.ready_of_reached {s : BufSystem} {c : SendCall}
    (run : Reachable BufSystem.step anyStep BufStart s) (rest : s.sender = .idle)
    (own : c.q = s.q) (present : c.ts.released = false) : c.Ready := by
  obtain ⟨i, n, free, v⟩ := IdleInv.reached run
  have refill := v.refill
  rw [rest] at refill
  have once := v.places.nodup_iff.mpr List.nodup_range
  have inside : ∀ b ∈ free, b < n := by
    intro b member
    exact List.mem_range.mp (v.places.mem_iff.mp (List.mem_append_left _ member))
  have length := v.places.length_eq
  rw [List.length_append, List.length_range] at length
  apply ready_of_free
  · rw [own]
    exact i.use
  · rw [own]
    exact v.flow
  · rw [own]
    exact refill
  · exact (List.nodup_append.mp once).1
  · intro b member
    rw [own]
    apply i.idle b (v.pool ▸ inside b member)
    exact fun owned => (List.nodup_append.mp once).2.2 b member b owned rfl
  · rw [own, v.pool]
    omega
  · exact present

/-- The second packet of a queue: its second fragment cannot be mapped. -/
theorem rollback_exact_fragment :
    let c : SendCall := ⟨{ txQueueAlloc 128 65535 8 false with
        nextToUse := 1
        lastRe := 0 },
      .start [0], true, 0, 128, 7, { headlen := 100, frags := [200, 300] },
      { dma := fun k => if k = 2 then none else some 0 }⟩
    c.ids = [0, 1, 2] ∧ c.TakenBack := by
  intro c
  have seen : (c.ids, c.fails, c.bare, c.q.nextToUse, c.q.descCount, c.q.bufPoolSize,
      c.ts.released) = ([0, 1, 2], true, true, 1, 128, 65535, false) := by decide +kernel
  simp only [Prod.mk.injEq] at seen
  obtain ⟨ids, fails, bare, use, count, pool, present⟩ := seen
  have ready : c.Ready := by
    constructor
    · rw [use, count]
      decide
    · rw [ids]
      decide
    · exact fun _ _ => rfl
    · rw [ids, pool]
      decide
    · exact present
  exact ⟨ids, (SendCall.rollback_exact_iff ready fails).mpr bare⟩

/-- The first packet of a queue with a timestamp, its second buffer not mapped: the RE completion
stays charged, `last_re` stays on a descriptor without the bit, and the latch stays in use. -/
theorem rollback_leaves_latch :
    ∃ c : SendCall, c.Ready ∧ c.fails = true ∧ c.q.lastRe = 64 ∧ c.result.q.lastRe = 1 ∧
      c.result.charged = 1 ∧ c.ts.free.length = 1 ∧ c.tsAfter.free = [] ∧ ¬ c.TakenBack := by
  generalize call : SendCall.mk (txQueueAlloc 128 65535 8 false) (.start [0]) true 0 128 7
    { headlen := 100, frags := [200], hwTstamp := true }
    { dma := fun k => if k = 1 then none else some 0 } = c
  have taken : (c.ids, c.fails, c.q.lastRe, c.result.q.lastRe, c.result.charged,
      c.ts.free.length, c.tsAfter.free.length) = ([0, 1], true, 64, 1, 1, 1, 0) := by
    rw [← call]
    decide +kernel
  have fresh : (c.q.nextToUse, c.q.descCount, c.q.bufPoolSize, c.ts.released) =
      (0, 128, 65535, false) := by
    rw [← call]
    rfl
  simp only [Prod.mk.injEq] at taken fresh
  obtain ⟨ids, fails, before, after, charged, free, used⟩ := taken
  obtain ⟨use, count, pool, present⟩ := fresh
  have ready : c.Ready := by
    constructor
    · rw [use, count]
      decide
    · rw [ids]
      decide
    · rw [← call]
      exact fun _ _ => rfl
    · rw [ids, pool]
      decide
    · exact present
  refine ⟨c, ready, fails, before, after, charged, free, List.eq_nil_of_length_eq_zero used, ?_⟩
  intro back
  exact absurd (charged.symm.trans back.charged) Nat.one_ne_zero

end Idpf
