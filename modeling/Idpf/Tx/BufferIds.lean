import Idpf.General.Transition
import Idpf.Tx.Frame
import Idpf.Tx.System

/-! Buffer IDs under concurrency. Sending and cleaning run on different CPUs, so
both are cut into turns that touch the shared refill queue at most once, and the
turns interleave freely. A cleaner posts an ID before it reads the ID's `next`
word; what protects the word is that the sender never takes the youngest ID. -/
namespace Idpf
open General

/-- A transmission inside `idpf_tx_splitq_map`. -/
structure Mapping where
  p : TxParams
  dma : Nat → Option Nat
  frags : List Nat
  k : Nat
  size : Nat
  cur : Cursor
  buf : Nat
  mapped : List (Nat × DmaMap)

def Mapping.held (m : Mapping) : List Nat := m.mapped.map Prod.fst ++ [m.buf]

def Mapping.turn (q : TxQueue) (m : Mapping) : MapTurn :=
  mapTurn m.dma m.p.complTag m.frags m.k m.size ⟨q, m.cur, m.buf, m.mapped⟩

inductive SendPhase where
  | idle
  | accepted (skbId : Nat) (skb : Skb) (tso : Tso) (env : SendEnv)
  | mapping (m : Mapping)

/-- `cur` is the buffer `idpf_tx_clean_bufs` is at, `rest` what follows it. -/
inductive CleanerPhase where
  | idle
  | cleaning (cur : Nat) (rest : List Nat)
  | posted (cur : Nat) (rest : List Nat)

/-- One flow-scheduled queue, its sender, its cleaner, and the chains of the
packets in the device's hands. -/
structure BufSystem where
  q : TxQueue
  sender : SendPhase
  cleaner : CleanerPhase
  inflight : List (List Nat)

inductive BufEvent where
  | send (skbId : Nat) (skb : Skb) (env : SendEnv) (pending thresh : Nat)
  | turn
  | rs (i : Nat)
  | post
  | next
  | re (head : Nat)

namespace BufSystem

def send (s : BufSystem) (skbId : Nat) (skb : Skb) (env : SendEnv) (pending thresh : Nat) :
    BufSystem :=
  match txSplitqAdmit s.q pending thresh skb env with
  | .drop => { s with q := (txDropSkb s.q skbId []).q }
  | .busy => { s with q := { s.q with stopped := true } }
  | .accept skb tso => { s with sender := .accepted skbId skb tso env }

def begin (s : BufSystem) (skbId : Nat) (skb : Skb) (tso : Tso) (env : SendEnv) : BufSystem :=
  let latch := txTstamp env.latch skb tso
  match txSplitqBegin s.q skbId skb tso latch with
  | none =>
    let cur := ctxCursor s.q tso skb.vlanTag latch
    { s with q := (txDropSkb { s.q with ring := cur.ring } skbId cur.slots).q, sender := .idle }
  | some (p, st) =>
    { s with
      q := st.q
      sender := .mapping ⟨p, env.dma, skb.frags, 0, skb.headlen, st.cur, st.buf, st.mapped⟩ }

def map (s : BufSystem) (m : Mapping) : BufSystem :=
  match m.turn s.q with
  | .done r =>
    let f := mapEnd m.p r
    { s with
      q := f.q
      sender := .idle
      inflight :=
        if f.verdict = .sent then s.inflight ++ [f.mapped.map Prod.fst] else s.inflight }
  | .more frags size st =>
    { s with
      q := st.q
      sender := .mapping { m with
        frags, size, k := m.k + 1, cur := st.cur, buf := st.buf, mapped := st.mapped } }

/-- The device completes the `i`-th chain. The flag for miss tags is never set. -/
def rs (s : BufSystem) (i : Nat) (chain : List Nat) : BufSystem :=
  let s := { s with inflight := s.inflight.eraseIdx i }
  match txCleanable s.q (chain.headD 0) with
  | none => s
  | some q => { s with q, cleaner := .cleaning (chain.headD 0) chain.tail }

def post (s : BufSystem) (cur : Nat) (rest : List Nat) : BufSystem :=
  { s with q := (completeAndPost ⟨s.q, {}⟩ cur).q, cleaner := .posted cur rest }

def next (s : BufSystem) (cur : Nat) (rest : List Nat) : BufSystem :=
  match (s.q.bufs cur).next with
  | none => { s with cleaner := .idle }
  | some b => { s with cleaner := .cleaning b rest.tail }

def step (s : BufSystem) : BufEvent → Option BufSystem
  | .send skbId skb env pending thresh =>
    match s.sender with
    | .idle => some (s.send skbId skb env pending thresh)
    | _ => none
  | .turn =>
    match s.sender with
    | .idle => none
    | .accepted skbId skb tso env => some (s.begin skbId skb tso env)
    | .mapping m => some (s.map m)
  | .rs i =>
    match s.cleaner, s.inflight[i]? with
    | .idle, some chain => some (s.rs i chain)
    | _, _ => none
  | .post =>
    match s.cleaner with
    | .cleaning cur rest => some (s.post cur rest)
    | _ => none
  | .next =>
    match s.cleaner with
    | .posted cur rest => some (s.next cur rest)
    | _ => none
  | .re head => some { s with q := (txSplitqCleanDescs s.q head).q }

end BufSystem

def SendPhase.held : SendPhase → List Nat
  | .mapping m => m.held
  | _ => []

def CleanerPhase.held : CleanerPhase → List Nat
  | .idle => []
  | .cleaning cur rest => cur :: rest
  | .posted _ rest => rest

/-- IDs of packets between their first buffer's allocation and its posting. -/
def BufSystem.owned (s : BufSystem) : List Nat :=
  s.sender.held ++ (s.cleaner.held ++ s.inflight.flatten)

def BufSystem.free (s : BufSystem) : List Nat := rflValid s.q.bufPoolSize s.q.refillq

/-- A queue after its setup, for every pool size the driver uses. -/
def BufStart (s : BufSystem) : Prop :=
  ∃ c : TxConfig, s = ⟨txQueueAlloc c.descCount c.poolSize c.txMaxBufs false, .idle, .idle, []⟩

/-- Uninterrupted turns of the sender are the loop of `idpf_tx_splitq_map`. -/
theorem map_turns {s : BufSystem} {m : Mapping} (phase : s.sender = .mapping m) :
    ∃ k t, exec BufSystem.step s (List.replicate k .turn) = some t ∧ t.sender = .idle ∧
      t.q = (mapEnd m.p (txSplitqMapLoop m.dma m.p.complTag m.frags m.k m.size
        ⟨s.q, m.cur, m.buf, m.mapped⟩)).q := by
  generalize frags : m.frags = l
  induction l generalizing s m with
  | nil =>
      rw [txSplitqMapLoop_turn, ← frags]
      have one : s.step .turn = some (s.map m) := by simp only [BufSystem.step, phase]
      refine ⟨1, s.map m, by rw [List.replicate_one, exec_cons one]; rfl, ?_⟩
      unfold BufSystem.map
      cases turned : m.turn s.q with
      | done r => exact ⟨rfl, by rw [show mapTurn .. = _ from turned]⟩
      | more fs f st => rw [mapTurn_more turned] at frags; cases frags
  | cons f l ih =>
      rw [txSplitqMapLoop_turn, ← frags]
      have one : s.step .turn = some (s.map m) := by simp only [BufSystem.step, phase]
      cases turned : m.turn s.q with
      | done r =>
          refine ⟨1, s.map m, by rw [List.replicate_one, exec_cons one]; rfl, ?_⟩
          unfold BufSystem.map
          simp only [turned]
          exact ⟨trivial, by rw [show mapTurn .. = _ from turned]⟩
      | more fs f' st =>
          have same := (mapTurn_more turned).symm.trans frags
          obtain ⟨rfl, rfl⟩ := List.cons.inj same
          obtain ⟨k, t, run, idle, eq⟩ := ih (s := s.map m)
            (m := ⟨m.p, m.dma, fs, m.k + 1, f', st.cur, st.buf, st.mapped⟩)
            (by simp only [BufSystem.map, turned]) rfl
          refine ⟨k + 1, t, by rw [List.replicate_succ, exec_cons one, run], idle, ?_⟩
          rw [eq, show mapTurn .. = _ from turned]
          simp only [BufSystem.map, turned]

/-- An uninterrupted transmission is `idpf_tx_splitq_frame`. -/
theorem frame_turns {s : BufSystem} (phase : s.sender = .idle) (pending thresh skbId : Nat)
    (skb : Skb) (env : SendEnv) :
    ∃ k t, exec BufSystem.step s
        (.send skbId skb env pending thresh :: List.replicate k .turn) = some t ∧
      t.sender = .idle ∧ t.q = (txSplitqFrame s.q pending thresh skbId skb env).q := by
  have first : s.step (.send skbId skb env pending thresh) =
      some (s.send skbId skb env pending thresh) := by simp only [BufSystem.step, phase]
  unfold txSplitqFrame
  cases admission : txSplitqAdmit s.q pending thresh skb env with
  | drop =>
      refine ⟨0, _, by rw [exec_cons first]; rfl, ?_⟩
      simp only [BufSystem.send, admission]
      exact ⟨phase, trivial⟩
  | busy =>
      refine ⟨0, _, by rw [exec_cons first]; rfl, ?_⟩
      simp only [BufSystem.send, admission]
      exact ⟨phase, trivial⟩
  | accept skb' tso =>
      have sent : s.send skbId skb env pending thresh =
          { s with sender := .accepted skbId skb' tso env } := by
        simp only [BufSystem.send, admission]
      rw [sent] at first
      have second : BufSystem.step { s with sender := .accepted skbId skb' tso env } .turn =
          some (BufSystem.begin { s with sender := .accepted skbId skb' tso env }
            skbId skb' tso env) := rfl
      dsimp only
      cases begun : txSplitqBegin s.q skbId skb' tso (txTstamp env.latch skb' tso) with
      | none =>
          refine ⟨1, _, by rw [exec_cons first, List.replicate_one, exec_cons second]; rfl, ?_⟩
          simp only [BufSystem.begin, begun]
          exact ⟨trivial, trivial⟩
      | some r =>
          obtain ⟨k, t, run, idle, eq⟩ := map_turns (s := BufSystem.begin
            { s with sender := .accepted skbId skb' tso env } skbId skb' tso env)
            (m := ⟨r.1, env.dma, skb'.frags, 0, skb'.headlen, r.2.cur, r.2.buf, r.2.mapped⟩)
            (by simp only [BufSystem.begin, begun])
          refine ⟨k + 1, t, by rw [exec_cons first, List.replicate_succ, exec_cons second, run],
            idle, ?_⟩
          rw [eq]
          simp only [BufSystem.begin, begun, txSplitqMap]

def SendPhase.needs : SendPhase → Nat
  | .idle => 0
  | .accepted _ skb _ _ => fragBufs skb.frags + 1
  | .mapping m => fragBufs m.frags

def SendPhase.Refill (r : SwQueue) (free : List Nat) : SendPhase → Prop
  | .mapping m => RflHeld r m.p.prevRefillNtc m.p.prevRefillGen m.held free
  | _ => RflFree r free

def SendPhase.Built (bufs : Nat → TxBuf) : SendPhase → Prop
  | .mapping m => Linked bufs m.held ∧ m.held.head? = some m.p.complTag
  | _ => True

/-- After posting, the cleaner still needs the word of the ID it posted last. -/
def CleanerPhase.Ok (bufs : Nat → TxBuf) (free : List Nat) : CleanerPhase → Prop
  | .idle => True
  | .cleaning cur rest => Chain bufs (cur :: rest)
  | .posted cur rest => Chain bufs (cur :: rest) ∧ free.getLast? = some cur

def InFlight (bufs : Nat → TxBuf) (chain : List Nat) : Prop :=
  ∃ b l, chain = b :: l ∧ Chain bufs chain ∧
    ((bufs b).type = .skb ∨ (bufs b).type = .skbTstamp)

structure BufInv (n : Nat) (s : BufSystem) (free : List Nat) : Prop where
  small : n ≤ 65536
  pool : s.q.bufPoolSize = n
  count : s.q.refillq.descCount = n
  flow : s.q.flowSchEn = true
  places : (free ++ s.owned).Perm (List.range n)
  refill : s.sender.Refill s.q.refillq free
  needs : s.sender.needs < free.length
  built : s.sender.Built s.q.bufs
  cleaner : s.cleaner.Ok s.q.bufs free
  flight : ∀ chain ∈ s.inflight, InFlight s.q.bufs chain

theorem SendPhase.Refill.free {r : SwQueue} {free : List Nat} {ph : SendPhase}
    (h : ph.Refill r free) : RflFree r free := by
  cases ph with
  | idle => exact h
  | accepted => exact h
  | mapping m => exact RflHeld.drop h

theorem SendPhase.Refill.post {r : SwQueue} {free : List Nat} {ph : SendPhase} {b : Nat}
    (h : ph.Refill r free) (space : free.length < r.descCount) (small : b < 65536) :
    ph.Refill (postBufRefill r b) (free ++ [b]) := by
  cases ph with
  | idle => exact RflFree.post h space small
  | accepted => exact RflFree.post h space small
  | mapping m => exact RflHeld.post h space small

theorem SendPhase.Built.congr {bufs bufs' : Nat → TxBuf} {ph : SendPhase} (h : ph.Built bufs)
    (same : ∀ b ∈ ph.held, (bufs' b).next = (bufs b).next) : ph.Built bufs' := by
  cases ph with
  | idle => trivial
  | accepted => trivial
  | mapping m => exact ⟨h.1.congr same, h.2⟩

theorem InFlight.frame {bufs bufs' : Nat → TxBuf} {chain : List Nat} (h : InFlight bufs chain)
    (same : ∀ b ∈ chain, bufs' b = bufs b) : InFlight bufs' chain := by
  obtain ⟨b, l, rfl, linked, head⟩ := h
  refine ⟨b, l, rfl, linked.congr fun x m => by rw [same x m], ?_⟩
  rwa [same b (by simp)]

/-- The cleaner does not notice writes to buffers that are neither its own nor the
youngest free one. -/
theorem CleanerPhase.Ok.frame {bufs bufs' : Nat → TxBuf} {free free' : List Nat}
    {ph : CleanerPhase} (h : ph.Ok bufs free) (last : free'.getLast? = free.getLast?)
    (same : ∀ b, free'.getLast? = some b ∨ b ∈ ph.held → bufs' b = bufs b) :
    ph.Ok bufs' free' := by
  cases ph with
  | idle => trivial
  | cleaning cur rest => exact Chain.congr (fun b m => by rw [same b (.inr m)]) h
  | posted cur rest =>
      have young : free'.getLast? = some cur := last.trans h.2
      refine ⟨h.1.congr fun b m => ?_, young⟩
      rcases List.mem_cons.mp m with rfl | later
      · rw [same b (.inl young)]
      · rw [same b (.inr later)]

/-- A step of the sender: it leaves the others alone if it writes only to buffers
it holds afterwards and keeps the youngest free ID. -/
theorem BufInv.ofSender {n : Nat} {s s' : BufSystem} {free free' : List Nat}
    (v : BufInv n s free) (touched : List Nat) (cleaner : s'.cleaner = s.cleaner)
    (pool : s'.q.bufPoolSize = n) (count : s'.q.refillq.descCount = n)
    (flow : s'.q.flowSchEn = true) (places : (free' ++ s'.owned).Perm (List.range n))
    (refill : s'.sender.Refill s'.q.refillq free') (needs : s'.sender.needs < free'.length)
    (built : s'.sender.Built s'.q.bufs) (last : free'.getLast? = free.getLast?)
    (apart : ∀ b ∈ touched, free'.getLast? ≠ some b ∧ b ∉ s.cleaner.held ∧
      b ∉ s.inflight.flatten)
    (same : ∀ b, b ∉ touched → s'.q.bufs b = s.q.bufs b)
    (flight : ∀ chain ∈ s'.inflight, chain ∈ s.inflight ∨ InFlight s'.q.bufs chain) :
    BufInv n s' free' := by
  refine ⟨v.small, pool, count, flow, places, refill, needs, built, ?_, ?_⟩
  · rw [cleaner]
    refine v.cleaner.frame last fun b member => same b fun wrote => ?_
    rcases member with young | own
    · exact (apart b wrote).1 young
    · exact (apart b wrote).2.1 own
  · intro chain member
    rcases flight chain member with old | new
    · refine (v.flight chain old).frame fun b m => same b fun wrote => ?_
      exact (apart b wrote).2.2 (List.mem_flatten.mpr ⟨chain, old, m⟩)
    · exact new

theorem BufInv.apart {n : Nat} {free held cleaner flight : List Nat}
    (places : (free ++ (held ++ (cleaner ++ flight))).Perm (List.range n)) :
    ∀ b ∈ held, free.getLast? ≠ some b ∧ b ∉ cleaner ∧ b ∉ flight := by
  have nodup := places.nodup_iff.mpr List.nodup_range
  simp only [List.nodup_append, List.mem_append] at nodup
  intro b member
  exact ⟨fun young => nodup.2.2 b (List.mem_of_getLast? young) b (.inl member) rfl,
    fun own => nodup.2.1.2.2 b member b (.inl own) rfl,
    fun fly => nodup.2.1.2.2 b member b (.inr fly) rfl⟩

theorem BufInv.start {s : BufSystem} (h : BufStart s) : ∃ n free, BufInv n s free := by
  obtain ⟨c, rfl⟩ := h
  have pos : 0 < c.poolSize := by unfold TxConfig.poolSize; split <;> decide
  have small : c.poolSize ≤ 65536 := by unfold TxConfig.poolSize; split <;> decide
  refine ⟨c.poolSize, List.range c.poolSize, small, rfl, rfl, rfl, ?_, rflAlloc_free pos small, ?_,
    trivial, trivial, ?_⟩
  · simp [BufSystem.owned, SendPhase.held, CleanerPhase.held]
  · simpa [SendPhase.needs] using pos
  · simp

theorem places_of_count {n : Nat} {l l' : List Nat} (places : l.Perm (List.range n))
    (same : ∀ b, l'.count b = l.count b) : l'.Perm (List.range n) :=
  (List.perm_iff_count.mpr same).trans places

theorem BufInv.send {n : Nat} {s : BufSystem} {free : List Nat} (v : BufInv n s free)
    (idle : s.sender = .idle) (skbId : Nat) (skb : Skb) (env : SendEnv) (pending thresh : Nat) :
    BufInv n (s.send skbId skb env pending thresh) free := by
  have refill := v.refill
  rw [idle] at refill
  unfold BufSystem.send
  cases admission : txSplitqAdmit s.q pending thresh skb env with
  | drop => exact ⟨v.small, v.pool, v.count, v.flow, v.places, v.refill, v.needs, v.built,
      v.cleaner, v.flight⟩
  | busy => exact ⟨v.small, v.pool, v.count, v.flow, v.places, v.refill, v.needs, v.built,
      v.cleaner, v.flight⟩
  | accept skb' tso =>
      obtain ⟨-, rfl, -, -, -, bufs⟩ := admit_accept admission
      have some : free ≠ [] := List.ne_nil_of_length_pos (Nat.zero_lt_of_lt v.needs)
      have count := RflFree.freeBufs refill some (v.count ▸ v.small)
      have cover := txResCountRequired_bufs s.q.txMaxBufs env.linearize skb
      have places := v.places
      simp only [BufSystem.owned, idle, SendPhase.held] at places
      refine ⟨v.small, v.pool, v.count, v.flow, places, refill, ?_, trivial, v.cleaner, v.flight⟩
      simp only [SendPhase.needs]
      omega

/-- The first ID of a packet. -/
theorem txSplitqBegin_get {q : TxQueue} {b : Nat} {r : SwQueue} (flow : q.flowSchEn = true)
    (got : txGetFreeBufId q.refillq = some (b, r)) (skbId : Nat) (skb : Skb) (tso : Tso)
    (latch : Option Nat) :
    ∃ p st, txSplitqBegin q skbId skb tso latch = some (p, st) ∧
      p.complTag = b ∧ p.prevRefillNtc = q.refillq.nextToClean ∧
      p.prevRefillGen = q.refillq.rflGenChk ∧ st.buf = b ∧ st.mapped = [] ∧
      st.q.refillq = r ∧ st.q.bufPoolSize = q.bufPoolSize ∧ st.q.flowSchEn = true ∧
      (∀ x, x ≠ b → st.q.bufs x = q.bufs x) := by
  unfold txSplitqBegin nextBufId
  simp only [if_pos flow, got, Option.map_some]
  exact ⟨_, _, rfl, rfl, rfl, rfl, rfl, rfl, rfl, rfl, flow,
    fun x other => by rw [TxQueue.modBuf_other _ _ other]⟩

theorem BufInv.begin {n : Nat} {s : BufSystem} {free : List Nat} (v : BufInv n s free)
    {skbId : Nat} {skb : Skb} {tso : Tso} {env : SendEnv}
    (phase : s.sender = .accepted skbId skb tso env) :
    ∃ free', BufInv n (s.begin skbId skb tso env) free' := by
  have refill := v.refill
  have needs := v.needs
  have places := v.places
  simp only [BufSystem.owned, phase, SendPhase.held, List.nil_append] at places
  simp only [phase, SendPhase.needs] at needs
  rw [phase] at refill
  obtain ⟨b, free', rfl⟩ := List.exists_cons_of_length_pos (Nat.zero_lt_of_lt needs)
  obtain ⟨r, got, taken, same⟩ := RflHeld.get (RflFree.save refill)
  obtain ⟨p, st, begun, tag, ntc, gen, buf, mapped, rq, pool, flow, frame⟩ :=
    txSplitqBegin_get v.flow got skbId skb tso (txTstamp env.latch skb tso)
  have moved : (free' ++ ([b] ++ (s.cleaner.held ++ s.inflight.flatten))).Perm
      (List.range n) := places_of_count places fun x => by
    simp only [List.count_append, List.count_cons, List.count_nil]
    omega
  refine ⟨free', ?_⟩
  unfold BufSystem.begin
  simp only [begun]
  have held : (Mapping.mk p env.dma skb.frags 0 skb.headlen st.cur st.buf st.mapped).held =
      [b] := by
    rw [Mapping.held, mapped, buf]
    rfl
  refine v.ofSender [b] rfl (pool.trans v.pool) (rq ▸ same.trans v.count) flow ?_ ?_ ?_ ?_ ?_
    (BufInv.apart moved) (fun x other => frame x (by simpa using other)) fun _ m => .inl m
  · rw [BufSystem.owned, SendPhase.held, held]
    exact moved
  · rw [SendPhase.Refill, held, rq, ntc, gen]
    exact taken
  · simpa [SendPhase.needs] using needs
  · rw [SendPhase.Built, held, tag]
    exact ⟨trivial, rfl⟩
  · cases free' with
    | nil => simp at needs
    | cons => rfl

/-- The ways a turn of the loop can end. -/
theorem mapTurn_cases {q : TxQueue} {m : Mapping} {t : MapTurn} (flow : q.flowSchEn = true)
    (turned : m.turn q = t) :
    (∃ cur, t = .done (.failed ⟨q.setNext m.buf none, cur, m.buf, m.mapped⟩)) ∨
    (∃ q' cur d last, t = .done (.mapped ⟨q', cur, m.buf, m.mapped ++ [(m.buf, d)]⟩ last) ∧
      q'.refillq = q.refillq ∧ q'.bufPoolSize = q.bufPoolSize ∧ q'.flowSchEn = true ∧
      (∀ x, (q'.bufs x).next = (q.bufs x).next) ∧ ∀ x, x ≠ m.buf → q'.bufs x = q.bufs x) ∨
    (m.dma m.k ≠ none ∧ m.frags.sum ≠ 0 ∧ txGetFreeBufId q.refillq = none) ∨
    (∃ f fs q' cur d b r, m.dma m.k ≠ none ∧ m.frags = f :: fs ∧ m.frags.sum ≠ 0 ∧
      txGetFreeBufId q.refillq = some (b, r) ∧
      t = .more fs f ⟨q', cur, b, m.mapped ++ [(m.buf, d)]⟩ ∧ q'.refillq = r ∧
      q'.bufPoolSize = q.bufPoolSize ∧ q'.flowSchEn = true ∧
      (q'.bufs m.buf).next = some b ∧ ∀ x, x ≠ m.buf → q'.bufs x = q.bufs x) := by
  subst turned
  unfold Mapping.turn mapTurn
  cases mapping : m.dma m.k with
  | none => exact .inl ⟨_, rfl⟩
  | some addr =>
      have last : ∀ x, ((mapBuf m.p.complTag addr m.size ⟨q, m.cur, m.buf, m.mapped⟩).1.q.bufs
          x).next = (q.bufs x).next := by
        intro x
        by_cases own : x = m.buf
        · subst own
          rw [mapBuf_same]
        · rw [mapBuf_other _ _ _ _ own]
      have frame := fun x => @mapBuf_other m.p.complTag addr m.size ⟨q, m.cur, m.buf, m.mapped⟩ x
      have mapped : some addr ≠ none := nofun
      cases frags : m.frags with
      | nil => exact .inr (.inl ⟨_, _, _, _, rfl, rfl, rfl, flow, last, frame⟩)
      | cons f fs =>
        dsimp only
        by_cases spare : (f :: fs).sum = 0
        · rw [if_pos spare]
          exact .inr (.inl ⟨_, _, _, _, rfl, rfl, rfl, flow, last, frame⟩)
        · rw [if_neg spare]
          simp only [nextBufId, mapBuf_flowSchEn, mapBuf_refillq, flow, if_true]
          cases got : txGetFreeBufId q.refillq with
          | none => exact .inr (.inr (.inl ⟨mapped, spare, rfl⟩))
          | some r =>
              refine .inr (.inr (.inr ⟨f, fs, _, _, _, r.1, r.2, mapped, rfl, spare, rfl, rfl, rfl,
                rfl, rfl, ?_, fun x own => ?_⟩))
              · simp
              · exact (TxQueue.setNext_other _ _ own).trans (frame x own)

/-- Unwinding returns the IDs to the refill queue and touches no other chain. -/
theorem txSplitqPktErrUnmap_chain {q : TxQueue} {l free : List Nat} {first ntc : Nat} {gen : Bool}
    (flow : q.flowSchEn = true) (chain : Chain q.bufs l) (head : l.head? = some first)
    (enough : l.length ≤ q.bufPoolSize) (held : RflHeld q.refillq ntc gen l free)
    (kept : l.length + free.length ≤ q.refillq.descCount) (ntu : Nat) :
    let q' := txSplitqPktErrUnmap q ntu ntc gen first
    RflFree q'.refillq (l ++ free) ∧ q'.refillq.descCount = q.refillq.descCount ∧
      q'.bufPoolSize = q.bufPoolSize ∧ q'.flowSchEn = true ∧
      ∀ x, x ∉ l → q'.bufs x = q.bufs x := by
  obtain ⟨l, rfl⟩ : ∃ l', l = first :: l' := by
    cases l with
    | nil => simp at head
    | cons b l => exact ⟨l, by rw [Option.some.inj head]⟩
  obtain ⟨log, walked⟩ := walk_libethTxComplete chain enough
  have restored := held.restore kept
  unfold txSplitqPktErrUnmap
  simp only [walked, TxQueue.record_flowSchEn, TxQueue.modBuf_flowSchEn,
    TxQueue.emptied_flowSchEn, flow, if_true]
  refine ⟨restored, rfl, rfl, trivial, fun x other => ?_⟩
  · rw [TxQueue.record_bufs, TxQueue.modBuf_other _ _ (by rintro rfl; simp at other),
      TxQueue.emptied_other _ _ other]

theorem Mapping.held_head {m : Mapping} {tag : Nat} (head : m.held.head? = some tag) (b : Nat) :
    (m.held ++ [b]).head? = some tag := by
  rw [List.head?_append, head]
  rfl

/-- What holds while a packet is being mapped. -/
theorem BufInv.mapping {n : Nat} {s : BufSystem} {free : List Nat} (v : BufInv n s free)
    {m : Mapping} (phase : s.sender = .mapping m) :
    (free ++ (m.held ++ (s.cleaner.held ++ s.inflight.flatten))).Perm (List.range n) ∧
      RflHeld s.q.refillq m.p.prevRefillNtc m.p.prevRefillGen m.held free ∧
      Linked s.q.bufs m.held ∧ m.held.head? = some m.p.complTag ∧
      fragBufs m.frags < free.length ∧ m.held.Nodup := by
  have places := v.places
  have refill := v.refill
  have built := v.built
  have needs := v.needs
  simp only [BufSystem.owned, phase, SendPhase.held] at places
  rw [phase] at refill built needs
  have nodup := places.nodup_iff.mpr List.nodup_range
  simp only [List.nodup_append] at nodup
  exact ⟨places, refill, built.1, built.2, needs, nodup.2.1.1⟩

theorem Mapping.older {m : Mapping} (nodup : m.held.Nodup) :
    m.buf ∉ m.mapped.map Prod.fst := by
  rw [Mapping.held, List.nodup_append] at nodup
  exact fun member => nodup.2.2 _ member _ (by simp) rfl

/-- A failed mapping gives every ID of the packet back, oldest first. -/
theorem BufInv.rollback {n : Nat} {s : BufSystem} {free : List Nat} (v : BufInv n s free)
    {m : Mapping} (phase : s.sender = .mapping m) (cur : Cursor) :
    BufInv n { s with
      q := (mapEnd m.p (.failed ⟨s.q.setNext m.buf none, cur, m.buf, m.mapped⟩)).q
      sender := .idle } (m.held ++ free) := by
  obtain ⟨places, held, linked, head, needs, nodup⟩ := v.mapping phase
  have older := m.older nodup
  have len := places.length_eq
  simp only [List.length_append, List.length_range] at len
  have closed : Chain (s.q.setNext m.buf none).bufs m.held :=
    linked.close (fun x old => by rw [TxQueue.setNext_other _ _ (by rintro rfl; exact older old)])
      (by simp)
  have unwound := @txSplitqPktErrUnmap_chain
    { s.q.setNext m.buf none with ring := cur.ring } m.held free m.p.complTag
    m.p.prevRefillNtc m.p.prevRefillGen v.flow closed head
    (by have := v.pool; show _ ≤ s.q.bufPoolSize; omega) held
    (by have := v.count; show _ ≤ s.q.refillq.descCount; omega) m.p.prevNtu
  obtain ⟨refill, count, pool, flow, frame⟩ := unwound
  have moved : (m.held ++ free ++ (s.cleaner.held ++ s.inflight.flatten)).Perm (List.range n) :=
    places_of_count places fun x => by
      simp only [List.count_append]
      omega
  have young : (m.held ++ free).getLast? = free.getLast? :=
    List.getLast?_append_of_ne_nil _ (List.ne_nil_of_length_pos (Nat.zero_lt_of_lt needs))
  refine v.ofSender m.held rfl (pool.trans v.pool) (count.trans v.count) flow moved
    refill ?_ trivial ?_ ?_ ?_ fun _ kept => .inl kept
  · simp only [SendPhase.needs, List.length_append]
    omega
  · exact young
  · rw [young]
    exact BufInv.apart places
  · intro x other
    have own : x ≠ m.buf := by
      rintro rfl
      simp [Mapping.held] at other
    exact (frame x other).trans (TxQueue.setNext_other _ _ own)

/-- A mapped packet goes to the device as a closed chain. -/
theorem BufInv.commit {n : Nat} {s : BufSystem} {free : List Nat} (v : BufInv n s free)
    {m : Mapping} (phase : s.sender = .mapping m) {q' : TxQueue} (cur : Cursor) (d : DmaMap)
    (last : Nat × Nat) (rq : q'.refillq = s.q.refillq) (pool : q'.bufPoolSize = s.q.bufPoolSize)
    (flow : q'.flowSchEn = true) (next : ∀ x, (q'.bufs x).next = (s.q.bufs x).next)
    (frame : ∀ x, x ≠ m.buf → q'.bufs x = s.q.bufs x) :
    BufInv n { s with
      q := (mapEnd m.p (.mapped ⟨q', cur, m.buf, m.mapped ++ [(m.buf, d)]⟩ last)).q
      sender := .idle
      inflight := s.inflight ++ [(m.mapped ++ [(m.buf, d)]).map Prod.fst] } free := by
  obtain ⟨places, held, linked, head, needs, nodup⟩ := v.mapping phase
  have older := m.older nodup
  have chainEq : (m.mapped ++ [(m.buf, d)]).map Prod.fst = m.held := by simp [Mapping.held]
  rw [chainEq]
  have moved : (free ++ (s.cleaner.held ++ (s.inflight ++ [m.held]).flatten)).Perm
      (List.range n) := places_of_count places fun x => by
    simp only [List.count_append, List.flatten_append, List.flatten_singleton]
    omega
  have inside : m.p.complTag ∈ m.held := List.mem_of_head? head
  have touch : ∀ x, x ∉ m.held → (mapEnd m.p
      (.mapped ⟨q', cur, m.buf, m.mapped ++ [(m.buf, d)]⟩ last)).q.bufs x = s.q.bufs x := by
    intro x other
    have notTag : x ≠ m.p.complTag := by rintro rfl; exact other inside
    have notBuf : x ≠ m.buf := by rintro rfl; simp [Mapping.held] at other
    exact (TxQueue.setNext_other _ _ notBuf).trans
      ((TxQueue.modBuf_other _ _ notTag).trans (frame x notBuf))
  refine v.ofSender m.held rfl (pool.trans v.pool)
    ((congrArg SwQueue.descCount rq).trans v.count) flow moved ?_ ?_ trivial rfl
    (BufInv.apart places) touch ?_
  · exact (show q'.refillq = _ from rq) ▸ held.drop
  · simp only [SendPhase.needs]
    omega
  · intro chain member
    rcases List.mem_append.mp member with old | new
    · exact .inl old
    · obtain rfl := List.mem_singleton.mp new
      obtain ⟨l, cons⟩ : ∃ l, m.held = m.p.complTag :: l := by
        cases heldEq : m.held with
        | nil => rw [heldEq] at head; simp at head
        | cons b l => rw [heldEq] at head; exact ⟨l, by rw [Option.some.inj head]⟩
      refine .inr ⟨m.p.complTag, l, cons, ?_, ?_⟩
      · refine linked.close (fun x old => ?_) (by rw [mapEnd, TxQueue.setNext_same])
        have notBuf : x ≠ m.buf := by rintro rfl; exact older old
        rw [mapEnd, TxQueue.setNext_other _ _ notBuf, TxQueue.modBuf_next]
        · exact next x
        · exact fun _ => rfl
      · have tagged : ((mapEnd m.p (.mapped ⟨q', cur, m.buf, m.mapped ++ [(m.buf, d)]⟩
            last)).q.bufs m.p.complTag).type = if m.p.tsyn then .skbTstamp else .skb :=
          (TxQueue.setNext_type _ _ _ _).trans (by rw [TxQueue.modBuf_same])
        rw [tagged]
        cases m.p.tsyn
        · exact .inl rfl
        · exact .inr rfl

/-- The next buffer is linked to the packet's chain. -/
theorem BufInv.extend {n : Nat} {s : BufSystem} {free' : List Nat} {m : Mapping} {f b : Nat}
    {fs : List Nat} (v : BufInv n s (b :: free')) (phase : s.sender = .mapping m)
    (frags : m.frags = f :: fs) (sum : m.frags.sum ≠ 0) {q' : TxQueue} (cur : Cursor)
    (d : DmaMap) {r : SwQueue} (got : txGetFreeBufId s.q.refillq = some (b, r))
    (rq : q'.refillq = r) (pool : q'.bufPoolSize = s.q.bufPoolSize) (flow : q'.flowSchEn = true)
    (next : (q'.bufs m.buf).next = some b) (frame : ∀ x, x ≠ m.buf → q'.bufs x = s.q.bufs x) :
    BufInv n { s with
      q := q'
      sender := .mapping { m with
        frags := fs, size := f, k := m.k + 1, cur, buf := b
        mapped := m.mapped ++ [(m.buf, d)] } } free' := by
  obtain ⟨places, held, linked, head, needs, nodup⟩ := v.mapping phase
  have older := m.older nodup
  obtain ⟨r', got', taken, same⟩ := held.get
  obtain rfl : r' = r := by
    rw [got'] at got
    exact (Prod.mk.inj (Option.some.inj got)).2
  have grown : (Mapping.mk m.p m.dma fs (m.k + 1) f cur b (m.mapped ++ [(m.buf, d)])).held =
      m.held ++ [b] := by simp [Mapping.held]
  have moved : (free' ++ (m.held ++ [b] ++ (s.cleaner.held ++ s.inflight.flatten))).Perm
      (List.range n) := places_of_count places fun x => by
    simp only [List.count_append, List.count_cons, List.count_nil]
    omega
  have needed : fs.length + 1 < free'.length + 1 := by
    rw [fragBufs, if_neg sum, frags] at needs
    exact needs
  have some : free' ≠ [] := List.ne_nil_of_length_pos (by omega)
  have young : free'.getLast? = (b :: free').getLast? := by
    cases free' with
    | nil => exact absurd rfl some
    | cons => rfl
  have apart := BufInv.apart moved
  refine v.ofSender m.held rfl (pool.trans v.pool) (rq ▸ same.trans v.count) flow
    ?_ ?_ ?_ ?_ young (fun x member => apart x (List.mem_append_left _ member)) ?_
    fun _ kept => .inl kept
  · rw [BufSystem.owned, SendPhase.held, grown]
    exact moved
  · rw [SendPhase.Refill, grown, rq]
    exact taken
  · have := fragBufs_le fs
    simp only [SendPhase.needs]
    omega
  · rw [SendPhase.Built, grown]
    refine ⟨linked.snoc (fun x old => ?_) next, Mapping.held_head head b⟩
    rw [frame x (by rintro rfl; exact older old)]
  · intro x other
    exact frame x (by rintro rfl; simp [Mapping.held] at other)

theorem BufInv.map {n : Nat} {s : BufSystem} {free : List Nat} (v : BufInv n s free)
    {m : Mapping} (phase : s.sender = .mapping m) : ∃ free', BufInv n (s.map m) free' := by
  have needs := (v.mapping phase).2.2.2.2.1
  have refill := (v.mapping phase).2.1
  unfold BufSystem.map
  rcases mapTurn_cases (m := m) v.flow rfl with ⟨cur, turn⟩ | ⟨q', cur, d, last, turn, rq, pool,
    flow, next, frame⟩ | ⟨_, _, spent⟩ | ⟨f, fs, q', cur, d, b, r, _, frags, sum, got, turn, rq,
    pool, flow, next, frame⟩
  · simp only [turn]
    exact ⟨_, v.rollback phase cur⟩
  · simp only [turn]
    exact ⟨_, v.commit phase cur d last rq pool flow next frame⟩
  · obtain ⟨b, free', rfl⟩ := List.exists_cons_of_length_pos (Nat.zero_lt_of_lt needs)
    obtain ⟨r, got, -⟩ := refill.get
    rw [got] at spent
    cases spent
  · obtain ⟨b', free', rfl⟩ := List.exists_cons_of_length_pos (Nat.zero_lt_of_lt needs)
    obtain ⟨r', got', -⟩ := refill.get
    obtain ⟨rfl, rfl⟩ := Prod.mk.inj (Option.some.inj (got'.symm.trans got))
    simp only [turn]
    exact ⟨_, v.extend phase frags sum cur d got rq pool flow next frame⟩

theorem flatten_count_eraseIdx {l : List Nat} {ls : List (List Nat)} {i : Nat}
    (at_ : ls[i]? = some l) (b : Nat) :
    ls.flatten.count b = l.count b + (ls.eraseIdx i).flatten.count b := by
  induction ls generalizing i with
  | nil => simp at at_
  | cons x xs ih =>
      cases i with
      | zero =>
          obtain rfl := Option.some.inj at_
          simp
      | succ i =>
          have rest := ih (by simpa using at_)
          simp only [List.flatten_cons, List.eraseIdx_cons_succ, List.count_append]
          omega

/-- An in-flight packet passes the tests at the head of `idpf_tx_clean_bufs`. -/
theorem InFlight.cleanable {q : TxQueue} {chain : List Nat} (h : InFlight q.bufs chain) :
    ∃ q', txCleanable q (chain.headD 0) = some q' ∧ q'.refillq = q.refillq ∧
      q'.bufPoolSize = q.bufPoolSize ∧ q'.flowSchEn = q.flowSchEn ∧
      (∀ x, (q'.bufs x).next = (q.bufs x).next) ∧ ∀ x, x ∉ chain → q'.bufs x = q.bufs x := by
  obtain ⟨b, l, rfl, -, type⟩ := h
  unfold txCleanable
  rw [List.headD_cons]
  rcases type with plain | stamped
  · exact ⟨q, by rw [plain], rfl, rfl, rfl, fun _ => rfl, fun _ _ => rfl⟩
  · refine ⟨q.modBuf b fun e => { e with type := .skb }, by rw [stamped], rfl, rfl, rfl,
      fun x => q.modBuf_next b x fun _ => rfl, fun x other => q.modBuf_other _ ?_⟩
    rintro rfl
    exact other List.mem_cons_self

theorem BufInv.rs {n : Nat} {s : BufSystem} {free : List Nat} (v : BufInv n s free)
    (phase : s.cleaner = .idle) {i : Nat} {chain : List Nat} (at_ : s.inflight[i]? = some chain) :
    BufInv n (s.rs i chain) free := by
  have fly := v.flight chain (List.mem_of_getElem? at_)
  obtain ⟨q', clean, rq, pool, flow, next, frame⟩ := fly.cleanable
  obtain ⟨b, l, rfl, linked, -⟩ := fly
  have places := v.places
  simp only [BufSystem.owned, phase, CleanerPhase.held, List.nil_append] at places
  have moved : (free ++ (s.sender.held ++ (b :: l ++ (s.inflight.eraseIdx i).flatten))).Perm
      (List.range n) := places_of_count places fun x => by
    have split := flatten_count_eraseIdx at_ x
    simp only [List.count_append] at split ⊢
    omega
  have nodup := moved.nodup_iff.mpr List.nodup_range
  simp only [List.nodup_append] at nodup
  unfold BufSystem.rs
  simp only [clean]
  refine ⟨v.small, pool.trans v.pool, (congrArg SwQueue.descCount rq).trans v.count,
    flow.trans v.flow, moved, ?_, v.needs, v.built.congr fun x _ => next x,
    linked.congr fun x _ => next x, ?_⟩
  · exact (show q'.refillq = _ from rq) ▸ v.refill
  · intro other member
    refine (v.flight other (List.mem_of_mem_eraseIdx member)).frame fun x inside => frame x ?_
    intro own
    exact nodup.2.1.2.1.2.2 x own x (List.mem_flatten.mpr ⟨other, member, inside⟩) rfl

theorem completeAndPost_q (q : TxQueue) (b : Nat) :
    ∃ log, (completeAndPost ⟨q, {}⟩ b).q =
      { q.emptied [b] log with refillq := postBufRefill q.refillq (u16 b) } := by
  obtain ⟨log, eq⟩ := libethTxComplete_emptied ⟨q, {}⟩ b
  refine ⟨log ++ [.postBuf ((q.emptied [b] log).bufs b).dma b], ?_⟩
  unfold completeAndPost
  dsimp only
  rw [eq]
  rfl

theorem BufInv.post {n : Nat} {s : BufSystem} {free rest : List Nat} {cur : Nat}
    (v : BufInv n s free) (phase : s.cleaner = .cleaning cur rest) :
    BufInv n (s.post cur rest) (free ++ [cur]) := by
  obtain ⟨log, eq⟩ := completeAndPost_q s.q cur
  have places := v.places
  simp only [BufSystem.owned, phase, CleanerPhase.held] at places
  have len := places.length_eq
  simp only [List.length_append, List.length_cons, List.length_range] at len
  have below : cur < n := List.mem_range.mp (places.mem_iff.mp (by simp))
  have small := v.small
  have count := v.count
  have same : u16 cur = cur := Nat.mod_eq_of_lt (by omega)
  have ok := v.cleaner
  rw [phase] at ok
  have next : ∀ x, ((s.q.emptied [cur] log).bufs x).next = (s.q.bufs x).next :=
    fun x => TxQueue.emptied_next ..
  have moved : (free ++ [cur] ++ (s.sender.held ++ (rest ++ s.inflight.flatten))).Perm
      (List.range n) := places_of_count places fun x => by
    simp only [List.count_append, List.count_cons, List.count_nil]
    omega
  have nodup := places.nodup_iff.mpr List.nodup_range
  simp only [List.nodup_append] at nodup
  unfold BufSystem.post
  rw [eq, same]
  refine ⟨v.small, v.pool, v.count, v.flow, moved, v.refill.post (by omega) (by omega), ?_,
    v.built.congr fun x _ => next x, ⟨Chain.congr (fun x _ => next x) ok, by simp⟩, ?_⟩
  · have := v.needs
    simp only [List.length_append]
    omega
  · intro chain member
    refine (v.flight chain member).frame fun x inside => TxQueue.emptied_other _ log ?_
    intro own
    obtain rfl := List.mem_singleton.mp own
    exact nodup.2.1.2.1.2.2 x List.mem_cons_self x
      (List.mem_flatten.mpr ⟨chain, member, inside⟩) rfl

theorem BufInv.next {n : Nat} {s : BufSystem} {free rest : List Nat} {cur : Nat}
    (v : BufInv n s free) (phase : s.cleaner = .posted cur rest) :
    BufInv n (s.next cur rest) free := by
  have places := v.places
  simp only [BufSystem.owned, phase, CleanerPhase.held] at places
  have ok := v.cleaner
  rw [phase] at ok
  unfold BufSystem.next
  cases rest with
  | nil =>
      simp only [show (s.q.bufs cur).next = none from ok.1]
      exact ⟨v.small, v.pool, v.count, v.flow, places, v.refill, v.needs, v.built, trivial,
        v.flight⟩
  | cons b rest =>
      simp only [show (s.q.bufs cur).next = some b from ok.1.1]
      exact ⟨v.small, v.pool, v.count, v.flow, places, v.refill, v.needs, v.built, ok.1.2,
        v.flight⟩

theorem BufInv.step {n : Nat} {s t : BufSystem} {free : List Nat} {e : BufEvent}
    (v : BufInv n s free) (taken : s.step e = some t) : ∃ free', BufInv n t free' := by
  cases e with
  | send skbId skb env pending thresh =>
      cases phase : s.sender <;> simp only [BufSystem.step, phase, reduceCtorEq,
        Option.some.injEq] at taken
      subst taken
      exact ⟨free, v.send phase skbId skb env pending thresh⟩
  | turn =>
      cases phase : s.sender <;> simp only [BufSystem.step, phase, reduceCtorEq,
        Option.some.injEq] at taken
      · subst taken
        exact v.begin phase
      · subst taken
        exact v.map phase
  | rs i =>
      cases phase : s.cleaner <;> cases at_ : s.inflight[i]? <;>
        simp only [BufSystem.step, phase, at_, reduceCtorEq, Option.some.injEq] at taken
      subst taken
      exact ⟨free, v.rs phase at_⟩
  | post =>
      cases phase : s.cleaner <;> simp only [BufSystem.step, phase, reduceCtorEq,
        Option.some.injEq] at taken
      subst taken
      exact ⟨_, v.post phase⟩
  | next =>
      cases phase : s.cleaner <;> simp only [BufSystem.step, phase, reduceCtorEq,
        Option.some.injEq] at taken
      subst taken
      exact ⟨free, v.next phase⟩
  | re head =>
      simp only [BufSystem.step, Option.some.injEq] at taken
      subst taken
      exact ⟨free, v.small, v.pool, v.count, v.flow, v.places, v.refill, v.needs, v.built,
        v.cleaner, v.flight⟩

theorem BufInv.reached {s : BufSystem} (run : Reachable BufSystem.step anyStep BufStart s) :
    ∃ n free, BufInv n s free :=
  run.invariant (I := fun s => ∃ n free, BufInv n s free) (fun _ => BufInv.start)
    fun _ _ _ ⟨n, _, v⟩ _ taken => ⟨n, v.step taken⟩

/-- In every interleaving each ID below the pool size is either in the valid
region of the refill queue or in exactly one packet's chain, the chains in
flight are the ones their `next` words spell out, and a call for a free ID
succeeds at every moment with an ID that no packet owns. -/
theorem buffer_ids_exclusive {s : BufSystem}
    (run : Reachable BufSystem.step anyStep BufStart s) :
    (s.free ++ s.owned).Perm (List.range s.q.bufPoolSize) ∧
      (∀ chain ∈ s.inflight, Chain s.q.bufs chain) ∧
      ∃ b r, txGetFreeBufId s.q.refillq = some (b, r) ∧ b ∉ s.owned := by
  obtain ⟨n, free, v⟩ := BufInv.reached run
  have len := v.places.length_eq
  simp only [List.length_append, List.length_range] at len
  have valid : s.free = free := by
    have pool := v.pool
    exact rflValid_eq v.refill.free (by omega)
  rw [valid, v.pool]
  refine ⟨v.places, fun chain member => ?_, ?_⟩
  · obtain ⟨b, l, rfl, linked, -⟩ := v.flight chain member
    exact linked
  · obtain ⟨b, free', rfl⟩ := List.exists_cons_of_length_pos (Nat.zero_lt_of_lt v.needs)
    obtain ⟨r, got, -⟩ := v.refill.free.get
    have nodup := v.places.nodup_iff.mpr List.nodup_range
    simp only [List.cons_append, List.nodup_cons, List.mem_append] at nodup
    exact ⟨b, r, got, fun owned => nodup.1 (.inr owned)⟩

/-- A packet of two buffers sent, another refused by the device's mapping, the
first completed up to its second buffer. -/
theorem buffer_ids_exclusive_run :
    let c : TxConfig := ⟨1, 128, 256, 8, false, fun _ => false, by decide, by decide, by decide,
      by decide⟩
    let start : BufSystem :=
      ⟨txQueueAlloc c.descCount c.poolSize c.txMaxBufs false, .idle, .idle, []⟩
    let skb : Skb := { headlen := 100, frags := [200] }
    let run := exec BufSystem.step start
      [.send 1 skb {} 0 128, .turn, .turn, .turn, .send 2 skb { dma := fun _ => none } 0 128,
        .turn, .rs 0, .turn, .post]
    ∃ s, run = some s ∧ s.owned = [1] ∧
      (s.free ++ s.owned).Perm (List.range s.q.bufPoolSize) ∧
      (∀ chain ∈ s.inflight, Chain s.q.bufs chain) ∧
      ∃ b r, txGetFreeBufId s.q.refillq = some (b, r) ∧ b ∉ s.owned := by
  intro c start skb run
  have owned : run.map BufSystem.owned = some [1] := by decide
  obtain ⟨s, reached, owned⟩ := Option.map_eq_some_iff.mp owned
  exact ⟨s, reached, owned, buffer_ids_exclusive (Reachable.exec (.start ⟨c, rfl⟩) reached)⟩

end Idpf
