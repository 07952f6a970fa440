import Idpf.Tx.Rollback

/-! The end of a packet's life: the IDs it has taken, what its buffers hold until it is completed,
and what `idpf_tx_clean_bufs` then does to memory and to the refill queue. -/
namespace Idpf
open General

/-- Memory that has been written to the log and mapped, and nothing else. -/
def Mem.OnlyLog (m m' : Mem) : Prop := m' = { m with log := m'.log, nextMap := m'.nextMap }

namespace Mem.OnlyLog

theorem trans {m m' m'' : Mem} (first : m.OnlyLog m') (second : m'.OnlyLog m'') :
    m.OnlyLog m'' := by
  unfold Mem.OnlyLog at *
  rw [second]
  rw [first]

theorem useAfterFree {m m' : Mem} (h : m.OnlyLog m') : m'.useAfterFree = m.useAfterFree := by
  rw [show m' = _ from h]

end Mem.OnlyLog

theorem libethTxComplete_onlyLog (s : Cleaning) (b : Nat) :
    s.q.mem.OnlyLog (libethTxComplete s b).q.mem := by
  rw [libethTxComplete_log]
  rfl

theorem walkChain_onlyLog {f : Cleaning → Nat → Cleaning}
    (one : ∀ (s : Cleaning) b, s.q.mem.OnlyLog (f s b).q.mem) (fuel : Nat) (s : Cleaning)
    (b : Nat) : s.q.mem.OnlyLog (walkChain f fuel s b).q.mem := by
  induction fuel generalizing s b with
  | zero => rfl
  | succ fuel ih =>
      unfold walkChain
      dsimp only
      split
      · exact one s b
      · exact (one s b).trans (ih ..)

theorem nextBufId_eq {q q' : TxQueue} {i id : Nat} (got : nextBufId q i = some (id, q')) :
    q' = { q with refillq := q'.refillq } := by
  rw [nextBufId_take] at got
  obtain ⟨r, -, eq⟩ := Option.map_eq_some_iff.mp got
  obtain ⟨-, rfl⟩ := Prod.mk.inj eq
  rfl

theorem mapTurn_onlyLog (dma : Nat → Option Nat) (tag : Nat) (frags : List Nat) (k size : Nat)
    (st : MapState) : st.q.mem.OnlyLog (mapTurn dma tag frags k size st).state.q.mem := by
  unfold mapTurn
  cases dma k with
  | none => rfl
  | some addr =>
      cases frags with
      | nil => rfl
      | cons f fs =>
          dsimp only
          split
          · rfl
          · split
            · rfl
            · next id q got =>
              change st.q.mem.OnlyLog q.mem
              rw [nextBufId_eq got]
              rfl

theorem txSplitqMapLoop_onlyLog (dma : Nat → Option Nat) (tag : Nat) (frags : List Nat)
    (k size : Nat) (st : MapState) :
    st.q.mem.OnlyLog (txSplitqMapLoop dma tag frags k size st).state.q.mem := by
  refine txSplitqMapLoop_induct (P := fun _ _ _ st r => st.q.mem.OnlyLog r.state.q.mem) ?_ ?_ ..
  · intro frags k size st r turned
    have one := mapTurn_onlyLog dma tag frags k size st
    rw [turned] at one
    exact one
  · intro f fs k size st st' r turned rest
    have one := mapTurn_onlyLog dma tag (f :: fs) k size st
    rw [turned] at one
    exact one.trans rest

theorem txSplitqFrame_onlyLog (q : TxQueue) (pending thresh skbId : Nat) (skb : Skb)
    (env : SendEnv) : q.mem.OnlyLog (txSplitqFrame q pending thresh skbId skb env).q.mem := by
  unfold txSplitqFrame
  cases txSplitqAdmit q pending thresh skb env with
  | drop => rfl
  | busy => rfl
  | accept skb' tso =>
      dsimp only
      split
      · rfl
      · next p st begun =>
        have opened : st.q.mem = q.mem := by
          unfold txSplitqBegin at begun
          obtain ⟨r, got, eq⟩ := Option.map_eq_some_iff.mp begun
          obtain ⟨-, rfl⟩ := Prod.mk.inj eq
          have same := congrArg TxQueue.mem (nextBufId_eq got)
          exact same
        have looped := txSplitqMapLoop_onlyLog env.dma p.complTag skb'.frags 0 skb'.headlen st
        rw [opened] at looped
        unfold txSplitqMap
        cases result : txSplitqMapLoop env.dma p.complTag skb'.frags 0 skb'.headlen st with
        | failed st' =>
            rw [result] at looped
            have walked := walkChain_onlyLog libethTxComplete_onlyLog st'.q.bufPoolSize
              ⟨{ st'.q with ring := st'.cur.ring }, {}⟩ p.complTag
            exact looped.trans (walked.trans rfl)
        | mapped st' last =>
            rw [result] at looped
            exact looped

/-- The IDs that the loop takes come off the front of the refill queue. -/
theorem txSplitqMapLoop_free (n tag : Nat) (dma : Nat → Option Nat) (frags : List Nat)
    (k size i : Nat) (st : MapState) {free : List Nat} (flow : st.q.flowSchEn = true)
    (f : RflFree st.q.refillq free) :
    ∃ rest, free = mapIds true n dma frags k size st.q.refillq i ++ rest ∧
      RflFree (txSplitqMapLoop dma tag frags k size st).state.q.refillq rest ∧
      (txSplitqMapLoop dma tag frags k size st).state.q.refillq.descCount =
        st.q.refillq.descCount := by
  induction frags generalizing k size i st free with
  | nil =>
      cases mapping : dma k with
      | none =>
          rw [mapIds_failed mapping, txSplitqMapLoop_failed mapping]
          exact ⟨free, rfl, f, rfl⟩
      | some addr =>
          rw [mapIds_last mapping rfl, txSplitqMapLoop_last mapping rfl]
          exact ⟨free, rfl, f, rfl⟩
  | cons x fs ih =>
      cases mapping : dma k with
      | none =>
          rw [mapIds_failed mapping, txSplitqMapLoop_failed mapping]
          exact ⟨free, rfl, f, rfl⟩
      | some addr =>
          by_cases last : (x :: fs).sum = 0
          · rw [mapIds_last mapping last, txSplitqMapLoop_last mapping last]
            exact ⟨free, rfl, f, rfl⟩
          · rw [mapIds_next mapping last, txSplitqMapLoop_next mapping last, flow, takeId, takeId,
              if_pos rfl, if_pos rfl]
            cases free with
            | nil =>
                simp only [f.get_none, Option.elim_none, List.nil_append]
                exact ⟨[], rfl, f, rfl⟩
            | cons b free =>
                obtain ⟨r', got, rest, count⟩ := f.get
                simp only [got, Option.elim_some]
                obtain ⟨left, split, f', count'⟩ := ih (k + 1) x (i + bufDescs addr size)
                  (mapNext tag addr size st b r') flow rest
                refine ⟨left, ?_, f', count'.trans count⟩
                rw [List.cons_append, split]
                rfl

section frame

variable {q : TxQueue} {pending thresh skbId : Nat} {skb skb' : Skb} {env : SendEnv} {tso : Tso}

/-- How a packet comes to be handed over. -/
theorem frame_mapped (accepted : txSplitqAdmit q pending thresh skb env = .accept skb' tso)
    (sent : (txSplitqFrame q pending thresh skbId skb env).verdict = .sent) :
    ∃ p st st' last,
      txSplitqBegin q skbId skb' tso (txTstamp env.latch skb' tso) = some (p, st) ∧
      txSplitqMapLoop env.dma p.complTag skb'.frags 0 skb'.headlen st = .mapped st' last ∧
      txSplitqFrame q pending thresh skbId skb env = mapEnd p (.mapped st' last) := by
  unfold txSplitqFrame at sent ⊢
  rw [accepted] at sent ⊢
  dsimp only at sent ⊢
  cases begun : txSplitqBegin q skbId skb' tso (txTstamp env.latch skb' tso) with
  | none =>
      rw [begun] at sent
      cases sent
  | some x =>
      obtain ⟨p, st⟩ := x
      rw [begun] at sent
      dsimp only at sent ⊢
      unfold txSplitqMap at sent ⊢
      cases looped : txSplitqMapLoop env.dma p.complTag skb'.frags 0 skb'.headlen st with
      | failed st' =>
          rw [looped] at sent
          cases sent
      | mapped st' last => exact ⟨p, st, st', last, rfl, looped, rfl⟩

/-- The IDs of a packet that is handed over have left the refill queue. -/
theorem frame_free {free : List Nat} (flow : q.flowSchEn = true) (f : RflFree q.refillq free)
    (accepted : txSplitqAdmit q pending thresh skb env = .accept skb' tso)
    (sent : (txSplitqFrame q pending thresh skbId skb env).verdict = .sent) :
    let r := txSplitqFrame q pending thresh skbId skb env
    ∃ rest, free = frameIds q env skb' tso ++ rest ∧
      RflFree r.q.refillq rest ∧ r.q.refillq.descCount = q.refillq.descCount := by
  obtain ⟨p, st, st', last, begun, looped, framed⟩ := frame_mapped accepted sent
  cases free with
  | nil =>
      unfold txSplitqBegin nextBufId at begun
      simp only [flow, if_true, f.get_none, Option.map_none, reduceCtorEq] at begun
  | cons b free =>
      obtain ⟨rq, got, f', count⟩ := f.get
      have taken (i : Nat) : takeId q.flowSchEn q.refillq i = some (b, rq) := by
        rw [takeId, flow, if_pos rfl]
        exact got
      obtain ⟨p', st'', begun', o, -⟩ := txSplitqBegin_opened skbId (taken _)
      obtain ⟨rfl, rfl⟩ := Prod.mk.inj (Option.some.inj (begun.symm.trans begun'))
      have opened : RflFree st.q.refillq free := by
        rw [o.refillq]
        exact f'
      obtain ⟨rest, split, left, count'⟩ := txSplitqMapLoop_free q.descCount p.complTag env.dma
        skb'.frags 0 skb'.headlen (q.nextToUse + ctxCount env skb' tso) st
        (o.chained.flow.trans flow) opened
      rw [looped] at left count'
      rw [o.refillq] at count'
      rw [framed]
      refine ⟨rest, ?_, left, count'.trans count⟩
      unfold frameIds
      dsimp only
      rw [taken, split, flow, o.refillq]
      rfl

end frame

/-- The queue after some buffers have been completed and their IDs posted. -/
def TxQueue.settled (q : TxQueue) (l : List Nat) (log : List Effect) : TxQueue :=
  { q.emptied l log with refillq := l.foldl (fun r b => postBufRefill r (u16 b)) q.refillq }

theorem TxQueue.settled_other (q : TxQueue) {l : List Nat} (log : List Effect) {b : Nat}
    (other : b ∉ l) : (q.settled l log).bufs b = q.bufs b := q.emptied_other log other

theorem TxQueue.settled_next (q : TxQueue) (l : List Nat) (log : List Effect) (b : Nat) :
    ((q.settled l log).bufs b).next = (q.bufs b).next := q.emptied_next l log b

theorem TxQueue.settled_settled (q : TxQueue) (l l' : List Nat) (log log' : List Effect) :
    (q.settled l log).settled l' log' = q.settled (l ++ l') log' := by
  have bufs := congrArg TxQueue.bufs (q.emptied_emptied l l' log log')
  have posted : l'.foldl (fun r b => postBufRefill r (u16 b)) (q.settled l log).refillq =
      (l ++ l').foldl (fun r b => postBufRefill r (u16 b)) q.refillq := by
    rw [List.foldl_append]
    rfl
  exact congrArg₂ (fun bufs refillq =>
    ({ q with bufs, refillq, mem := { q.mem with log := log' } } : TxQueue)) bufs posted

theorem completeAndPost_settled (s : Cleaning) (b : Nat) :
    (completeAndPost s b).q = s.q.settled [b] (s.q.mem.log ++ ((s.q.bufs b).effects ++
      [.postBuf (s.q.bufs b).dma b])) := by
  have one := libethTxComplete_log s b
  have same : ((libethTxComplete s b).q.bufs b).dma = (s.q.bufs b).dma := by
    rw [one]
    unfold TxQueue.emptied
    dsimp only
    split
    · rfl
    · rfl
  unfold completeAndPost TxQueue.postBuf
  dsimp only
  rw [same, one, ← List.append_assoc]
  rfl

theorem foldl_completeAndPost {l : List Nat} (once : l.Nodup) (s : Cleaning) :
    (l.foldl completeAndPost s).q = s.q.settled l (s.q.mem.log ++
      l.flatMap fun b => (s.q.bufs b).effects ++ [.postBuf (s.q.bufs b).dma b]) := by
  induction l generalizing s with
  | nil =>
      simp only [List.foldl_nil, List.flatMap_nil, List.append_nil, TxQueue.settled,
        TxQueue.emptied, List.not_mem_nil, if_false]
  | cons b l ih =>
      obtain ⟨new, once⟩ := List.nodup_cons.mp once
      have one := completeAndPost_settled s b
      have same (x : Nat) (member : x ∈ l) : (completeAndPost s b).q.bufs x = s.q.bufs x := by
        rw [one]
        exact s.q.settled_other _ fun own => new (List.mem_singleton.mp own ▸ member)
      have rest : (l.flatMap fun x => ((completeAndPost s b).q.bufs x).effects ++
            [.postBuf ((completeAndPost s b).q.bufs x).dma x]) =
          l.flatMap fun x => (s.q.bufs x).effects ++ [.postBuf (s.q.bufs x).dma x] := by
        apply List.flatMap_congr
        intro x member
        rw [same x member]
      rw [List.foldl_cons, ih once, rest, one, TxQueue.settled_settled, List.flatMap_cons]
      exact congrArg (s.q.settled (b :: l)) (List.append_assoc _ _ _)

theorem foldl_completeAndPost_ss {l : List Nat} (once : l.Nodup) (s : Cleaning)
    (frags : ∀ b ∈ l, (s.q.bufs b).type = .frag) : (l.foldl completeAndPost s).ss = s.ss := by
  induction l generalizing s with
  | nil => rfl
  | cons b l ih =>
      obtain ⟨new, once⟩ := List.nodup_cons.mp once
      have one : (completeAndPost s b).ss = s.ss := by
        have type := frags b List.mem_cons_self
        unfold completeAndPost libethTxComplete
        simp only [type, reduceCtorEq, if_false]
      rw [List.foldl_cons, ih once, one]
      intro x member
      have apart : x ∉ [b] := fun own => new (List.mem_singleton.mp own ▸ member)
      rw [completeAndPost_settled, s.q.settled_other _ apart]
      exact frags x (List.mem_cons_of_mem b member)

theorem TxQueue.settled_modBuf (q : TxQueue) {l : List Nat} (log : List Effect) {b : Nat}
    (own : b ∈ l) (type : SqeType) :
    (q.modBuf b fun e => { e with type }).settled l log = q.settled l log := by
  have bufs : ((q.modBuf b fun e => { e with type }).settled l log).bufs =
      (q.settled l log).bufs := by
    funext x
    unfold TxQueue.settled TxQueue.emptied
    dsimp only
    by_cases same : x = b
    · rw [same, if_pos own, if_pos own, TxQueue.modBuf_same]
    · rw [TxQueue.modBuf_other _ _ same]
  exact congrArg (fun bufs => { q.settled l log with bufs }) bufs

/-- The device may still read the buffers: neither the RS nor the miss completion has come. -/
def Rem.reading : Rem → Bool
  | .fresh | .exception | .awaitMiss => true
  | .awaitReinject | .done => false

namespace Pkt

def ids (p : Pkt) : List Nat := p.bufs.map Prod.fst

def owned (p : Pkt) : List Nat := if p.rem.reading then p.ids else []

/-- What has to happen to memory on behalf of the packet. -/
def settlement (p : Pkt) : List Effect :=
  .consumeSkb p.skb :: p.bufs.flatMap fun x => [.unmap x.2, .postBuf x.2 x.1]

/-- The packet's buffers are as they were when it was handed over, but for a mark on the first. -/
structure Held (bufs : Nat → TxBuf) (p : Pkt) : Prop where
  some : p.bufs ≠ []
  chain : Chain bufs p.ids
  first : ∀ x ∈ p.bufs.head?, ((bufs x.1).type = .skb ∨ (bufs x.1).type = .skbTstamp ∨
    (bufs x.1).type = .reinject) ∧ (bufs x.1).skb = p.skb ∧ (bufs x.1).dma = x.2
  rest : ∀ x ∈ p.bufs.tail, (bufs x.1).type = .frag ∧ (bufs x.1).dma = x.2

namespace Held

variable {q : TxQueue} {p : Pkt}

theorem tag_mem {bufs : Nat → TxBuf} (h : p.Held bufs) : p.tag ∈ p.ids := by
  obtain ⟨skb, bufs, last, rem⟩ := p
  cases bufs with
  | nil => exact absurd rfl h.some
  | cons x bufs => exact List.mem_cons_self

theorem tag_type {bufs : Nat → TxBuf} (h : p.Held bufs) : (bufs p.tag).type = .skb ∨
    (bufs p.tag).type = .skbTstamp ∨ (bufs p.tag).type = .reinject := by
  obtain ⟨skb, bufs, last, rem⟩ := p
  cases bufs with
  | nil => exact absurd rfl h.some
  | cons x bufs => exact (h.first x rfl).1

theorem retype (h : p.Held q.bufs) (once : p.ids.Nodup) {type : SqeType}
    (mark : type = .skb ∨ type = .skbTstamp ∨ type = .reinject) :
    p.Held (q.modBuf p.tag fun e => { e with type }).bufs := by
  have next (b : Nat) := q.modBuf_next p.tag b (f := fun e => { e with type }) fun _ => rfl
  obtain ⟨skb, bufs, last, rem⟩ := p
  obtain ⟨some, chain, first, rest⟩ := h
  cases bufs with
  | nil => exact absurd rfl some
  | cons x bufs =>
      constructor
      · exact some
      · exact chain.congr fun b _ => next b
      · intro y member
        obtain rfl := Option.some.inj member
        rw [show Pkt.tag ⟨skb, x :: bufs, last, rem⟩ = x.1 from rfl, TxQueue.modBuf_same]
        exact ⟨mark, (first x rfl).2⟩
      · intro y member
        have apart : y.1 ≠ x.1 := by
          intro same
          exact (List.nodup_cons.mp once).1 (same ▸ List.mem_map_of_mem member)
        rw [show Pkt.tag ⟨skb, x :: bufs, last, rem⟩ = x.1 from rfl, TxQueue.modBuf_other _ _ apart]
        exact rest y member

end Held

end Pkt

theorem walk_completeAndPost {q : TxQueue} {p : Pkt} (h : p.Held q.bufs) (once : p.ids.Nodup)
    (enough : p.ids.length ≤ q.bufPoolSize) (plain : (q.bufs p.tag).type = .skb) :
    let s := walkChain completeAndPost q.bufPoolSize ⟨q, {}⟩ p.tag
    (∃ log, s.q = q.settled p.ids (q.mem.log ++ log) ∧ log.Perm p.settlement) ∧
      s.ss.bytes = u32 (q.bufs p.tag).bytes := by
  have keeps (s : Cleaning) (c x : Nat) :
      ((completeAndPost s c).q.bufs x).next = (s.q.bufs x).next := by
    rw [completeAndPost_settled]
    exact s.q.settled_next ..
  obtain ⟨skb, bufs, last, rem⟩ := p
  obtain ⟨some, chain, first, rest⟩ := h
  cases bufs with
  | nil => exact absurd rfl some
  | cons x bufs =>
      obtain ⟨-, own, dma⟩ := first x rfl
      have head : (q.bufs x.1).effects ++ [Effect.postBuf (q.bufs x.1).dma x.1] =
          [.unmap x.2, .consumeSkb skb, .postBuf x.2 x.1] := by
        rw [TxBuf.effects, show (q.bufs x.1).type = .skb from plain, own, dma]
        rfl
      have tail : ((bufs.map Prod.fst).flatMap fun b =>
            (q.bufs b).effects ++ [Effect.postBuf (q.bufs b).dma b]) =
          bufs.flatMap fun x => [.unmap x.2, .postBuf x.2 x.1] := by
        rw [List.flatMap_map]
        apply List.flatMap_congr
        intro y member
        obtain ⟨type, dma⟩ := rest y member
        rw [TxBuf.effects, type, dma]
        rfl
      have short : (bufs.map Prod.fst).length < q.bufPoolSize := enough
      have walked : walkChain completeAndPost q.bufPoolSize ⟨q, {}⟩ x.1 =
          (x.1 :: bufs.map Prod.fst).foldl completeAndPost ⟨q, {}⟩ :=
        walkChain_eq keeps chain short
      constructor
      · refine ⟨_, (congrArg Cleaning.q walked).trans (foldl_completeAndPost once ⟨q, {}⟩), ?_⟩
        change List.Perm ((_ ++ _) ++ List.flatMap _ (bufs.map Prod.fst)) _
        rw [head, tail]
        exact List.Perm.swap ..
      · obtain ⟨new, once'⟩ := List.nodup_cons.mp once
        have counted : (completeAndPost ⟨q, {}⟩ x.1).ss.bytes = u32 (q.bufs x.1).bytes := by
          unfold completeAndPost libethTxComplete
          simp only [show (q.bufs x.1).type = .skb from plain, reduceCtorEq, if_false, Nat.zero_add]
        refine (congrArg (fun s : Cleaning => s.ss.bytes) walked).trans ?_
        rw [List.foldl_cons, foldl_completeAndPost_ss once', counted]
        · rfl
        · intro b member
          obtain ⟨y, later, rfl⟩ := List.mem_map.mp member
          have apart : y.1 ∉ [x.1] := fun own => new (List.mem_singleton.mp own ▸ member)
          rw [completeAndPost_settled, TxQueue.settled_other _ _ apart]
          exact (rest y later).1

/-- Cleaning a packet that no reinject completion has marked. -/
theorem txCleanBufs_held {q : TxQueue} {p : Pkt} (h : p.Held q.bufs) (once : p.ids.Nodup)
    (enough : p.ids.length ≤ q.bufPoolSize) (unmarked : (q.bufs p.tag).type ≠ .reinject) :
    (∃ log, (txCleanBufs q p.tag).q = q.settled p.ids (q.mem.log ++ log) ∧
      log.Perm p.settlement) ∧ (txCleanBufs q p.tag).ss.bytes = u32 (q.bufs p.tag).bytes := by
  have own := h.tag_mem
  unfold txCleanBufs txCleanable
  rcases h.tag_type with plain | stamped | marked
  · rw [plain]
    exact walk_completeAndPost h once enough plain
  · rw [stamped]
    obtain ⟨⟨log, eq, all⟩, counted⟩ := walk_completeAndPost (h.retype once (.inl rfl)) once enough
      (by rw [TxQueue.modBuf_same])
    rw [TxQueue.modBuf_same] at counted
    exact ⟨⟨log, eq.trans (q.settled_modBuf _ own .skb), all⟩, counted⟩
  · exact absurd marked unmarked

theorem Pkt.Held.congr {bufs bufs' : Nat → TxBuf} {p : Pkt} (h : p.Held bufs)
    (same : ∀ b ∈ p.ids, bufs' b = bufs b) : p.Held bufs' := by
  constructor
  · exact h.some
  · exact h.chain.congr fun b member => by rw [same b member]
  · intro x member
    rw [same x.1 (List.mem_map_of_mem (List.mem_of_mem_head? member))]
    exact h.first x member
  · intro x member
    rw [same x.1 (List.mem_map_of_mem (List.mem_of_mem_tail member))]
    exact h.rest x member

theorem Pkt.Held.tag_eq {bufs : Nat → TxBuf} {p : Pkt} (h : p.Held bufs) {b : Nat}
    (own : b ∈ p.ids) (whole : (bufs b).type ≠ .frag) : p.tag = b := by
  obtain ⟨skb, list, last, rem⟩ := p
  cases list with
  | nil => exact absurd rfl h.some
  | cons x list =>
      rcases List.mem_cons.mp own with rfl | later
      · rfl
      · obtain ⟨y, member, rfl⟩ := List.mem_map.mp later
        exact absurd (h.rest y member).1 whole

theorem Pkt.Held.unmissed {bufs : Nat → TxBuf} {p : Pkt} (h : p.Held bufs) {b : Nat}
    (own : b ∈ p.ids) : (bufs b).type ≠ .miss := by
  intro missed
  obtain ⟨skb, list, last, rem⟩ := p
  cases list with
  | nil => exact absurd rfl h.some
  | cons x list =>
      rcases List.mem_cons.mp own with rfl | later
      · rcases (h.first x rfl).1 with type | type | type <;> rw [type] at missed <;> cases missed
      · obtain ⟨y, member, rfl⟩ := List.mem_map.mp later
        rw [(h.rest y member).1] at missed
        cases missed

end Idpf
