import Idpf.Tx.Frame

/-! The buffers of a packet while it is mapped: which are taken, what is written into them, and what
completing them does to memory. -/
namespace Idpf
open General

def TxBuf.effects (e : TxBuf) : List Effect :=
  match e.type with
  | .skb => [.unmap e.dma, .consumeSkb e.skb]
  | .frag => [.unmap e.dma]
  | .slab => [.unmap e.dma, .kfree e.skb]
  | _ => []

theorem libethTxComplete_log (s : Cleaning) (b : Nat) :
    (libethTxComplete s b).q = s.q.emptied [b] (s.q.mem.log ++ (s.q.bufs b).effects) := by
  have spread : Function.update s.q.bufs b { s.q.bufs b with type := .empty } =
      fun x => if x ∈ [b] then { s.q.bufs x with type := .empty } else s.q.bufs x := by
    funext x
    by_cases same : x = b
    · subst x
      simp
    · simp [same]
  have whole (log : List Effect) : s.q.emptied [b] log =
      { s.q with
        bufs := Function.update s.q.bufs b { s.q.bufs b with type := .empty }
        mem := { s.q.mem with log } } := by
    rw [spread]
    rfl
  rw [whole]
  cases type : (s.q.bufs b).type with
  | empty =>
      have kept : Function.update s.q.bufs b { s.q.bufs b with type := .empty } = s.q.bufs := by
        rw [← type]
        exact Function.update_eq_self b s.q.bufs
      rw [libethTxComplete_empty type, kept, TxBuf.effects, type, List.append_nil]
  | skb =>
      simp only [libethTxComplete, TxBuf.effects, TxBuf.mapped, type, reduceCtorEq, if_false,
        if_true, TxQueue.modBuf, TxQueue.record, List.append_assoc, List.cons_append,
        List.nil_append]
  | slab =>
      simp only [libethTxComplete, TxBuf.effects, TxBuf.mapped, type, reduceCtorEq, if_false,
        if_true, TxQueue.modBuf, TxQueue.record, List.append_assoc, List.cons_append,
        List.nil_append]
  | frag =>
      simp only [libethTxComplete, TxBuf.effects, TxBuf.mapped, type, reduceCtorEq, if_false,
        if_true, TxQueue.modBuf, TxQueue.record]
  | _ =>
      simp only [libethTxComplete, TxBuf.effects, TxBuf.mapped, type, reduceCtorEq, if_false,
        Bool.false_eq_true, TxQueue.modBuf, List.append_nil]

theorem foldl_libethTxComplete_log {l : List Nat} (once : l.Nodup) (s : Cleaning) :
    (l.foldl libethTxComplete s).q =
      s.q.emptied l (s.q.mem.log ++ l.flatMap fun b => (s.q.bufs b).effects) := by
  induction l generalizing s with
  | nil =>
      simp only [List.foldl_nil, List.flatMap_nil, List.append_nil, TxQueue.emptied,
        List.not_mem_nil, if_false]
  | cons b l ih =>
      obtain ⟨new, once⟩ := List.nodup_cons.mp once
      have one := libethTxComplete_log s b
      have same : (l.flatMap fun x => ((libethTxComplete s b).q.bufs x).effects) =
          l.flatMap fun x => (s.q.bufs x).effects := by
        rw [one]
        apply List.flatMap_congr
        intro x member
        rw [TxQueue.emptied_other]
        intro own
        exact new (List.mem_singleton.mp own ▸ member)
      rw [List.foldl_cons, ih once, same, one, TxQueue.emptied_emptied, List.flatMap_cons,
        ← List.append_assoc]
      rfl

/-- Completing a chain of distinct buffers from its first one. -/
theorem walk_libethTxComplete_log {q : TxQueue} {fuel b : Nat} {l : List Nat}
    (chain : Chain q.bufs (b :: l)) (once : (b :: l).Nodup) (enough : l.length < fuel) :
    (walkChain libethTxComplete fuel ⟨q, {}⟩ b).q =
      q.emptied (b :: l) (q.mem.log ++ (b :: l).flatMap fun b => (q.bufs b).effects) := by
  have keeps : ∀ s c x, ((libethTxComplete s c).q.bufs x).next = (s.q.bufs x).next := by
    intro s c x
    obtain ⟨log, eq⟩ := libethTxComplete_emptied s c
    rw [eq, TxQueue.emptied_next]
  rw [walkChain_eq keeps chain enough]
  exact foldl_libethTxComplete_log once ⟨q, {}⟩

def takeId (flow : Bool) (r : SwQueue) (i : Nat) : Option (Nat × SwQueue) :=
  if flow then txGetFreeBufId r else some (i, r)

theorem nextBufId_take (q : TxQueue) (i : Nat) :
    nextBufId q i =
      (takeId q.flowSchEn q.refillq i).map fun x => (x.1, { q with refillq := x.2 }) := by
  unfold nextBufId takeId
  by_cases flow : q.flowSchEn = true
  · rw [if_pos flow, if_pos flow]
  · rw [if_neg flow, if_neg flow]
    rfl

/-- The buffers that are taken behind the first one; `i` is the position of the first descriptor. -/
def mapIds (flow : Bool) (n : Nat) (dma : Nat → Option Nat) :
    List Nat → Nat → Nat → SwQueue → Nat → List Nat
  | frags, k, size, r, i =>
    match dma k with
    | none => []
    | some addr =>
      match frags with
      | [] => []
      | f :: fs =>
        if (f :: fs).sum = 0 then []
        else
          let next := i + bufDescs addr size
          match takeId flow r (next % n) with
          | none => []
          | some (id, r') => id :: mapIds flow n dma fs (k + 1) f r' next

section turns

variable {flow : Bool} {n k size i addr tag : Nat} {dma : Nat → Option Nat} {frags : List Nat}
  {r : SwQueue} {st : MapState}

theorem mapIds_failed (failed : dma k = none) : mapIds flow n dma frags k size r i = [] := by
  unfold mapIds
  rw [failed]

theorem mapIds_last (mapping : dma k = some addr) (last : frags.sum = 0) :
    mapIds flow n dma frags k size r i = [] := by
  unfold mapIds
  rw [mapping]
  cases frags with
  | nil => rfl
  | cons f fs => exact if_pos last

theorem mapIds_next {f : Nat} {fs : List Nat} (mapping : dma k = some addr)
    (more : (f :: fs).sum ≠ 0) :
    mapIds flow n dma (f :: fs) k size r i =
      match takeId flow r ((i + bufDescs addr size) % n) with
      | none => []
      | some (id, r') => id :: mapIds flow n dma fs (k + 1) f r' (i + bufDescs addr size) := by
  rw [mapIds, mapping]
  exact if_neg more

theorem txSplitqMapLoop_failed (failed : dma k = none) :
    txSplitqMapLoop dma tag frags k size st =
      .failed { st with q := st.q.setNext st.buf none } := by
  unfold txSplitqMapLoop
  rw [failed]

theorem txSplitqMapLoop_last (mapping : dma k = some addr) (last : frags.sum = 0) :
    txSplitqMapLoop dma tag frags k size st =
      .mapped (mapBuf tag addr size st).1 (mapBuf tag addr size st).2 := by
  unfold txSplitqMapLoop
  rw [mapping]
  cases frags with
  | nil => rfl
  | cons f fs => exact if_pos last

/-- The cursor behind a buffer that is not the last one. -/
def mapCursor (tag addr size : Nat) (st : MapState) : Cursor :=
  let b := mapBuf tag addr size st
  b.1.cur.put b.1.q.descCount (.data b.2.1 b.2.2 tag false false)

def mapNext (tag addr size : Nat) (st : MapState) (id : Nat) (r : SwQueue) : MapState :=
  let b := (mapBuf tag addr size st).1
  { q := ({ b.q with refillq := r } : TxQueue).setNext st.buf (some id)
    cur := mapCursor tag addr size st
    buf := id
    mapped := b.mapped }

theorem txSplitqMapLoop_next {f : Nat} {fs : List Nat} (mapping : dma k = some addr)
    (more : (f :: fs).sum ≠ 0) :
    txSplitqMapLoop dma tag (f :: fs) k size st =
      let b := (mapBuf tag addr size st).1
      (takeId st.q.flowSchEn st.q.refillq (mapCursor tag addr size st).i).elim
        (.failed { b with q := b.q.setNext st.buf none, cur := mapCursor tag addr size st })
        fun x => txSplitqMapLoop dma tag fs (k + 1) f (mapNext tag addr size st x.1 x.2) := by
  have next := nextBufId_take (mapBuf tag addr size st).1.q (mapCursor tag addr size st).i
  rw [mapBuf_flowSchEn, mapBuf_refillq] at next
  rw [txSplitqMapLoop]
  rw [mapping]
  dsimp only
  rw [if_neg more]
  unfold mapCursor at next ⊢
  rw [next]
  cases takeId st.q.flowSchEn st.q.refillq _ with
  | none => rfl
  | some r' => rfl

end turns

def MapState.held (st : MapState) : List Nat := st.mapped.map Prod.fst ++ [st.buf]

theorem Chain.linked {bufs : Nat → TxBuf} {l : List Nat} (chain : Chain bufs l) :
    Linked bufs l := by
  induction l with
  | nil => trivial
  | cons b l ih =>
      cases l with
      | nil => trivial
      | cons b' l => exact ⟨chain.1, ih chain.2⟩

theorem TxQueue.setNext_fields (q : TxQueue) (b : Nat) (next : Option Nat) (x : Nat) :
    ((q.setNext b next).bufs x).type = (q.bufs x).type ∧
      ((q.setNext b next).bufs x).dma = (q.bufs x).dma ∧
      ((q.setNext b next).bufs x).skb = (q.bufs x).skb ∧
      ((q.setNext b next).bufs x).rsIdx = (q.bufs x).rsIdx := by
  by_cases own : x = b
  · subst own
    rw [setNext_same]
    exact ⟨rfl, rfl, rfl, rfl⟩
  · rw [setNext_other _ _ own]
    exact ⟨rfl, rfl, rfl, rfl⟩

/-- IDs have been taken out of a refill queue, and nothing else has happened to it. -/
structure OnlyTaken (flow : Bool) (r r' : SwQueue) : Prop where
  back : rflRestore r' r.nextToClean r.rflGenChk = r
  idle : flow = false → r' = r

theorem OnlyTaken.refl (flow : Bool) (r : SwQueue) : OnlyTaken flow r r := ⟨rfl, fun _ => rfl⟩

theorem OnlyTaken.trans {flow : Bool} {r r' r'' : SwQueue} (first : OnlyTaken flow r r')
    (second : OnlyTaken flow r' r'') : OnlyTaken flow r r'' := by
  constructor
  · rw [← first.back]
    have back := congrArg (fun x => rflRestore x r.nextToClean r.rflGenChk) second.back
    exact back
  · intro idle
    exact (second.idle idle).trans (first.idle idle)

theorem takeId_onlyTaken {flow : Bool} {r r' : SwQueue} {i id : Nat}
    (got : takeId flow r i = some (id, r')) : OnlyTaken flow r r' := by
  unfold takeId at got
  cases flow with
  | true =>
      rw [if_pos rfl] at got
      unfold txGetFreeBufId at got
      dsimp only at got
      split at got
      · cases got
      · obtain ⟨-, rfl⟩ := Prod.mk.inj (Option.some.inj got)
        exact ⟨rfl, fun this => Bool.noConfusion this⟩
  | false =>
      obtain ⟨-, rfl⟩ := Prod.mk.inj (Option.some.inj got)
      exact .refl _ _

/-- The buffers `held` of a packet of which `mapped` have been mapped; `q` is the queue before the
packet and `q'` the queue now. -/
structure Chained (q : TxQueue) (skbId first : Nat) (held : List Nat)
    (mapped : List (Nat × DmaMap)) (q' : TxQueue) : Prop where
  head : held.head? = some first
  linked : Linked q'.bufs held
  frag : ∀ x ∈ mapped, (q'.bufs x.1).type = .frag ∧ (q'.bufs x.1).dma = x.2
  skb : (q'.bufs first).skb = skbId
  log : q'.mem.log = q.mem.log
  serials : (mapped.map fun x => x.2.serial) = List.range' q.mem.nextMap mapped.length
  nextMap : q'.mem.nextMap = q.mem.nextMap + mapped.length
  other : ∀ b ∉ held, q'.bufs b = q.bufs b
  words : ∀ b, (q'.bufs b).rsIdx = (q.bufs b).rsIdx
  flow : q'.flowSchEn = q.flowSchEn
  refill : OnlyTaken q.flowSchEn q.refillq q'.refillq

namespace Chained

variable {q q' : TxQueue} {skbId first : Nat} {held : List Nat} {mapped : List (Nat × DmaMap)}

/-- The last buffer is mapped. -/
theorem map {st : MapState} (c : Chained q skbId first st.held st.mapped st.q)
    (once : st.held.Nodup) (tag addr size : Nat) :
    Chained q skbId first st.held (mapBuf tag addr size st).1.mapped
      (mapBuf tag addr size st).1.q := by
  have kept (b : Nat) : ((mapBuf tag addr size st).1.q.bufs b).next = (st.q.bufs b).next ∧
      ((mapBuf tag addr size st).1.q.bufs b).skb = (st.q.bufs b).skb ∧
      ((mapBuf tag addr size st).1.q.bufs b).rsIdx = (st.q.bufs b).rsIdx := by
    by_cases own : b = st.buf
    · subst own
      rw [mapBuf_same]
      exact ⟨rfl, rfl, rfl⟩
    · rw [mapBuf_other _ _ _ _ own]
      exact ⟨rfl, rfl, rfl⟩
  have fresh : st.buf ∉ st.mapped.map Prod.fst := by
    intro old
    exact (List.nodup_append.mp once).2.2 _ old _ (List.mem_singleton_self _) rfl
  constructor
  · exact c.head
  · exact c.linked.congr fun b _ => (kept b).1
  · intro x member
    rw [mapBuf_mapped] at member
    cases List.mem_append.mp member with
    | inl old =>
        rw [mapBuf_other _ _ _ _ fun same => fresh (same ▸ List.mem_map_of_mem old)]
        exact c.frag x old
    | inr new =>
        obtain rfl := List.mem_singleton.mp new
        rw [mapBuf_same]
        exact ⟨rfl, rfl⟩
  · exact (kept first).2.1.trans c.skb
  · exact c.log
  · rw [mapBuf_mapped, List.map_append, c.serials, List.length_append, List.length_singleton,
      List.range'_concat, Nat.one_mul, ← c.nextMap]
    rfl
  · rw [mapBuf_mapped, List.length_append, List.length_singleton, ← Nat.add_assoc, ← c.nextMap]
    rfl
  · intro b out
    have apart : b ≠ st.buf := by
      rintro rfl
      exact out (List.mem_append_right _ (List.mem_singleton_self _))
    rw [mapBuf_other _ _ _ _ apart]
    exact c.other b out
  · intro b
    exact (kept b).2.2.trans (c.words b)
  · exact c.flow
  · exact c.refill

/-- The last buffer is linked to a new one. -/
theorem extend {front : List Nat} {buf id : Nat} {r : SwQueue}
    (c : Chained q skbId first (front ++ [buf]) mapped q')
    (once : (front ++ [buf] ++ [id]).Nodup) (taken : OnlyTaken q.flowSchEn q'.refillq r) :
    Chained q skbId first (front ++ [buf] ++ [id]) mapped
      (({ q' with refillq := r } : TxQueue).setNext buf (some id)) := by
  have fields := ({ q' with refillq := r } : TxQueue).setNext_fields buf (some id)
  have older : buf ∉ front := by
    intro old
    have apart := (List.nodup_append.mp once).1
    exact (List.nodup_append.mp apart).2.2 _ old _ (List.mem_singleton_self _) rfl
  constructor
  · rw [List.head?_append, c.head]
    rfl
  · apply c.linked.snoc
    · intro x old
      rw [TxQueue.setNext_other _ _ fun same : x = buf => older (same ▸ old)]
    · rw [TxQueue.setNext_same]
  · intro x member
    rw [(fields x.1).1, (fields x.1).2.1]
    exact c.frag x member
  · exact (fields first).2.2.1.trans c.skb
  · exact c.log
  · exact c.serials
  · exact c.nextMap
  · intro b out
    have apart : b ≠ buf := by
      rintro rfl
      exact out (List.mem_append_left _ (List.mem_append_right _ (List.mem_singleton_self _)))
    rw [TxQueue.setNext_other _ _ apart]
    exact c.other b fun held => out (List.mem_append_left _ held)
  · intro b
    exact (fields b).2.2.2.trans (c.words b)
  · exact c.flow
  · exact c.refill.trans taken

/-- The last buffer is marked as the last one. -/
theorem close {front : List Nat} {buf : Nat}
    (c : Chained q skbId first (front ++ [buf]) mapped q') (once : (front ++ [buf]).Nodup) :
    Chained q skbId first (front ++ [buf]) mapped (q'.setNext buf none) ∧
      Chain (q'.setNext buf none).bufs (front ++ [buf]) := by
  have fields := q'.setNext_fields buf none
  have older : ∀ x ∈ front, x ≠ buf := by
    rintro x old rfl
    exact (List.nodup_append.mp once).2.2 _ old _ (List.mem_singleton_self _) rfl
  have same : ∀ x ∈ front, ((q'.setNext buf none).bufs x).next = (q'.bufs x).next := by
    intro x old
    rw [TxQueue.setNext_other _ _ (older x old)]
  have chain : Chain (q'.setNext buf none).bufs (front ++ [buf]) := by
    apply c.linked.close same
    rw [TxQueue.setNext_same]
  refine ⟨?_, chain⟩
  constructor
  · exact c.head
  · exact chain.linked
  · intro x member
    rw [(fields x.1).1, (fields x.1).2.1]
    exact c.frag x member
  · exact (fields first).2.2.1.trans c.skb
  · exact c.log
  · exact c.serials
  · exact c.nextMap
  · intro b out
    have apart : b ≠ buf := by
      rintro rfl
      exact out (List.mem_append_right _ (List.mem_singleton_self _))
    rw [TxQueue.setNext_other _ _ apart]
    exact c.other b out
  · intro b
    exact (fields b).2.2.2.trans (c.words b)
  · exact c.flow
  · exact c.refill

end Chained

/-- The buffers `l` of a packet behind the last turn; all of them are mapped but perhaps the last one
of a packet that failed, which then is idle. -/
structure Ended (q : TxQueue) (skbId first : Nat) (l : List Nat) (whole : Bool) (st : MapState) :
    Prop where
  chained : Chained q skbId first l st.mapped st.q
  last : ∃ front, l = front ++ [st.buf]
  closed : whole = false → Chain st.q.bufs l
  mapped : l = st.mapped.map Prod.fst ∨
    whole = false ∧ l = st.mapped.map Prod.fst ++ [st.buf] ∧ (st.q.bufs st.buf).type = .empty

theorem Cursor.putAll_place {n i : Nat} (pos : 0 < n) {c : Cursor} (place : c.i = i % n)
    (ds : List TxDesc) : (c.putAll n ds).i = (i + ds.length) % n := by
  induction ds generalizing c i with
  | nil => exact place
  | cons d ds ih =>
      have one : (c.put n d).i = (i + 1) % n := by
        change bump n c.i = _
        rw [place]
        exact bump_mod pos i
      have rest : ((c.put n d).putAll n ds).i = (i + 1 + ds.length) % n := ih one
      rw [List.length_cons, Nat.add_comm ds.length 1, ← Nat.add_assoc]
      exact rest

theorem mapCursor_place {n i tag addr size : Nat} {st : MapState} (pos : 0 < n)
    (count : st.q.descCount = n) (place : st.cur.i = i % n) :
    (mapCursor tag addr size st).i = (i + bufDescs addr size) % n := by
  have written : ((bufChunks size (firstMaxData addr) addr size).1.map fun c =>
      TxDesc.data c.1 c.2 tag false false).length + 1 = bufDescs addr size := by
    rw [List.length_map]
    exact bufChunks_length addr size
  rw [← written, ← Nat.add_assoc]
  change bump st.q.descCount (st.cur.putAll st.q.descCount _).i = _
  rw [count, Cursor.putAll_place pos place]
  exact bump_mod pos _

section loop

variable {q : TxQueue} {skbId first n tag : Nat} {dma : Nat → Option Nat} {frags : List Nat}
  {k size i addr : Nat} {st : MapState}

/-- The buffer at hand cannot be mapped. -/
theorem ended_failed (chained : Chained q skbId first st.held st.mapped st.q)
    (idle : (st.q.bufs st.buf).type = .empty) (once : st.held.Nodup) (failed : dma k = none) :
    Ended q skbId first st.held (txSplitqMapLoop dma tag frags k size st).ok
      (txSplitqMapLoop dma tag frags k size st).state := by
  rw [txSplitqMapLoop_failed failed]
  obtain ⟨closed, chain⟩ := chained.close once
  have same := (st.q.setNext_fields st.buf none st.buf).1
  exact ⟨closed, ⟨_, rfl⟩, fun _ => chain, .inr ⟨rfl, rfl, same.trans idle⟩⟩

theorem mapBuf_held (tag addr size : Nat) (st : MapState) :
    st.held = (mapBuf tag addr size st).1.mapped.map Prod.fst := by
  rw [mapBuf_mapped, List.map_append]
  rfl

/-- The buffer at hand is the last one. -/
theorem ended_last (chained : Chained q skbId first st.held st.mapped st.q)
    (once : st.held.Nodup) (mapping : dma k = some addr) (last : frags.sum = 0) :
    Ended q skbId first st.held (txSplitqMapLoop dma tag frags k size st).ok
      (txSplitqMapLoop dma tag frags k size st).state := by
  rw [txSplitqMapLoop_last mapping last]
  exact ⟨chained.map once tag addr size, ⟨_, rfl⟩, fun this => Bool.noConfusion this,
    .inl (mapBuf_held tag addr size st)⟩

/-- The loop takes the buffers that are foreseen. -/
theorem txSplitqMapLoop_ended (chained : Chained q skbId first st.held st.mapped st.q)
    (idle : (st.q.bufs st.buf).type = .empty) (pos : 0 < n) (count : st.q.descCount = n)
    (place : st.cur.i = i % n)
    (once : (st.held ++ mapIds st.q.flowSchEn n dma frags k size st.q.refillq i).Nodup)
    (spare : ∀ b ∈ mapIds st.q.flowSchEn n dma frags k size st.q.refillq i,
      (q.bufs b).type = .empty) :
    Ended q skbId first (st.held ++ mapIds st.q.flowSchEn n dma frags k size st.q.refillq i)
      (txSplitqMapLoop dma tag frags k size st).ok
      (txSplitqMapLoop dma tag frags k size st).state := by
  induction frags generalizing k size st i with
  | nil =>
      have held := (List.nodup_append.mp once).1
      cases mapping : dma k with
      | none =>
          rw [mapIds_failed mapping, List.append_nil]
          exact ended_failed chained idle held mapping
      | some addr =>
          rw [mapIds_last mapping rfl, List.append_nil]
          exact ended_last chained held mapping rfl
  | cons f fs ih =>
      have held := (List.nodup_append.mp once).1
      cases mapping : dma k with
      | none =>
          rw [mapIds_failed mapping, List.append_nil]
          exact ended_failed chained idle held mapping
      | some addr =>
          by_cases last : (f :: fs).sum = 0
          · rw [mapIds_last mapping last, List.append_nil]
            exact ended_last chained held mapping last
          · have next : (mapCursor tag addr size st).i = (i + bufDescs addr size) % n :=
              mapCursor_place pos count place
            have grown := chained.map held tag addr size
            rw [mapIds_next mapping last] at once spare ⊢
            rw [txSplitqMapLoop_next mapping last, next]
            cases got : takeId st.q.flowSchEn st.q.refillq ((i + bufDescs addr size) % n) with
            | none =>
                rw [List.append_nil]
                obtain ⟨closed, chain⟩ := grown.close held
                exact ⟨closed, ⟨_, rfl⟩, fun _ => chain, .inl (mapBuf_held tag addr size st)⟩
            | some x =>
                obtain ⟨id, r'⟩ := x
                rw [got] at once spare
                dsimp only at once spare
                rw [Option.elim_some]
                have one : (st.held ++ [id]).Nodup := by
                  rw [List.append_cons] at once
                  exact (List.nodup_append.mp once).1
                have more : Chained q skbId first (st.held ++ [id])
                    (mapNext tag addr size st id r').mapped (mapNext tag addr size st id r').q :=
                  grown.extend one (chained.flow ▸ takeId_onlyTaken got)
                have held' : (mapNext tag addr size st id r').held = st.held ++ [id] := by
                  rw [mapBuf_held tag addr size st]
                  rfl
                have new : id ∉ st.held := by
                  intro old
                  exact (List.nodup_append.mp one).2.2 _ old _ (List.mem_singleton_self _) rfl
                have away : id ≠ st.buf := by
                  rintro rfl
                  exact new (List.mem_append_right _ (List.mem_singleton_self _))
                have idle' : ((mapNext tag addr size st id r').q.bufs id).type = .empty := by
                  change ((TxQueue.setNext _ st.buf (some id)).bufs id).type = _
                  rw [TxQueue.setNext_type]
                  change ((mapBuf tag addr size st).1.q.bufs id).type = _
                  rw [mapBuf_other _ _ _ _ away, chained.other id new]
                  exact spare id List.mem_cons_self
                rw [List.append_cons, ← held'] at once ⊢
                rw [← held'] at more
                exact ih more idle' count next once fun b member =>
                  spare b (List.mem_cons_of_mem id member)

end loop

theorem Ended.effects {q : TxQueue} {skbId first : Nat} {l : List Nat} {whole : Bool}
    {st : MapState} (e : Ended q skbId first l whole st) :
    (l.flatMap fun b => (st.q.bufs b).effects) = st.mapped.map fun x => .unmap x.2 := by
  have mapped : ((st.mapped.map Prod.fst).flatMap fun b => (st.q.bufs b).effects) =
      st.mapped.map fun x => .unmap x.2 := by
    rw [List.flatMap_map, ← List.flatMap_pure_eq_map]
    apply List.flatMap_congr
    intro x member
    obtain ⟨type, dma⟩ := e.chained.frag x member
    rw [TxBuf.effects, type, dma]
    rfl
  cases e.mapped with
  | inl all =>
      rw [all]
      exact mapped
  | inr cut =>
      obtain ⟨-, all, idle⟩ := cut
      have none : (st.q.bufs st.buf).effects = [] := by
        rw [TxBuf.effects, idle]
      rw [all, List.flatMap_append, List.flatMap_singleton, none, List.append_nil]
      exact mapped

/-- A packet is taken back: its buffers `l` are idle again, the mappings made are undone in their
order, and the skb is freed. -/
structure Rewound (q : TxQueue) (skbId : Nat) (l : List Nat) (q' : TxQueue) : Prop where
  log : ∃ maps : List DmaMap, q'.mem.log = q.mem.log ++ maps.map .unmap ++ [.consumeSkb skbId] ∧
    maps.map DmaMap.serial = List.range' q.mem.nextMap maps.length ∧
    q'.mem.nextMap = q.mem.nextMap + maps.length
  idle : ∀ b ∈ l, (q'.bufs b).type = .empty
  other : ∀ b ∉ l, q'.bufs b = q.bufs b
  words : ∀ b, (q'.bufs b).rsIdx = (q.bufs b).rsIdx
  refill : q'.refillq = q.refillq

theorem mapEnd_rewound {q : TxQueue} {skbId : Nat} {l : List Nat} {st : MapState} {p : TxParams}
    (e : Ended q skbId p.complTag l false st) (once : l.Nodup)
    (pool : l.length ≤ st.q.bufPoolSize) (ntc : p.prevRefillNtc = q.refillq.nextToClean)
    (gen : p.prevRefillGen = q.refillq.rflGenChk) :
    Rewound q skbId l (mapEnd p (.failed st)).q := by
  obtain ⟨rest, rfl⟩ : ∃ rest, l = p.complTag :: rest := by
    cases l with
    | nil => cases e.chained.head
    | cons b rest => exact ⟨rest, by rw [Option.some.inj e.chained.head]⟩
  have walked : (walkChain libethTxComplete st.q.bufPoolSize ⟨{ st.q with ring := st.cur.ring }, {}⟩
      p.complTag).q = _ := walk_libethTxComplete_log (e.closed rfl) once pool
  have effects := e.effects
  have result : (mapEnd p (.failed st)).q.bufs = Function.update
      (({ st.q with ring := st.cur.ring } : TxQueue).emptied (p.complTag :: rest)
        st.q.mem.log).bufs p.complTag
      { st.q.bufs p.complTag with
        type := .empty
        skb := 0 } := by
    change ((walkChain libethTxComplete st.q.bufPoolSize ⟨{ st.q with ring := st.cur.ring }, {}⟩
      p.complTag).q.modBuf p.complTag fun e => { e with skb := 0 }).bufs = _
    rw [walked]
    unfold TxQueue.modBuf TxQueue.emptied
    dsimp only
    rw [if_pos List.mem_cons_self]
  have memory : (mapEnd p (.failed st)).q.mem = { st.q.mem with
      log := st.q.mem.log ++ (st.mapped.map fun x => .unmap x.2) ++ [.consumeSkb skbId] } := by
    have skb := e.chained.skb
    change ((walkChain libethTxComplete st.q.bufPoolSize ⟨{ st.q with ring := st.cur.ring }, {}⟩
      p.complTag).q.record (.consumeSkb (st.q.bufs p.complTag).skb)).mem = _
    rw [walked, skb, ← effects]
    rfl
  constructor
  · refine ⟨st.mapped.map Prod.snd, ?_, ?_, ?_⟩
    · rw [memory, List.map_map, e.chained.log]
      rfl
    · rw [List.map_map, List.length_map]
      exact e.chained.serials
    · rw [memory, List.length_map]
      exact e.chained.nextMap
  · intro b member
    rw [result]
    by_cases first : b = p.complTag
    · rw [first, Function.update_self]
    · rw [Function.update_of_ne first]
      unfold TxQueue.emptied
      dsimp only
      rw [if_pos member]
  · intro b out
    have apart : b ≠ p.complTag := fun same => out (same ▸ List.mem_cons_self)
    rw [result, Function.update_of_ne apart, TxQueue.emptied_other _ _ out]
    exact e.chained.other b out
  · intro b
    rw [result, ← e.chained.words b]
    by_cases first : b = p.complTag
    · rw [first, Function.update_self]
    · rw [Function.update_of_ne first]
      unfold TxQueue.emptied
      dsimp only
      split
      · rfl
      · rfl
  · have final : (mapEnd p (.failed st)).q.refillq =
        if st.q.flowSchEn then rflRestore st.q.refillq q.refillq.nextToClean q.refillq.rflGenChk
        else st.q.refillq := by
      rw [← ntc, ← gen]
      change (if (TxQueue.record _ _).flowSchEn then _ else (TxQueue.record _ _).refillq) = _
      rw [TxQueue.record_flowSchEn, TxQueue.modBuf_flowSchEn, walked]
      rfl
    rw [final, e.chained.flow]
    cases flow : q.flowSchEn with
    | true => exact e.chained.refill.back
    | false => exact e.chained.refill.idle flow

/-- A packet is in the hands of the device: `l` are its buffers and `i` is its last slot. -/
structure HandedOver (q : TxQueue) (skbId : Nat) (tsyn : Bool) (l : List Nat) (i : Nat)
    (mapped : List (Nat × DmaMap)) (q' : TxQueue) : Prop where
  bufs : mapped.map Prod.fst = l
  chain : Chain q'.bufs l
  first : ∀ x ∈ mapped.head?, (q'.bufs x.1).type = (if tsyn then .skbTstamp else .skb) ∧
    (q'.bufs x.1).skb = skbId ∧ (q'.bufs x.1).dma = x.2 ∧ (q'.bufs x.1).rsIdx = i
  rest : ∀ x ∈ mapped.tail, (q'.bufs x.1).type = .frag ∧ (q'.bufs x.1).dma = x.2
  log : q'.mem.log = q.mem.log
  serials : (mapped.map fun x => x.2.serial) = List.range' q.mem.nextMap mapped.length
  nextMap : q'.mem.nextMap = q.mem.nextMap + mapped.length
  other : ∀ b ∉ l, q'.bufs b = q.bufs b
  words : ∀ b, (q'.bufs b).rsIdx = i ∨ (q'.bufs b).rsIdx = (q.bufs b).rsIdx

theorem mapEnd_handedOver {q : TxQueue} {skbId : Nat} {l : List Nat} {st : MapState}
    {p : TxParams} {last : Nat × Nat} (e : Ended q skbId p.complTag l true st) (once : l.Nodup) :
    HandedOver q skbId p.tsyn l st.cur.i st.mapped (mapEnd p (.mapped st last)).q := by
  have all : l = st.mapped.map Prod.fst := by
    cases e.mapped with
    | inl all => exact all
    | inr cut => exact Bool.noConfusion cut.1
  obtain ⟨front, ends⟩ := e.last
  generalize tagged : (st.q.modBuf p.complTag fun e =>
    { e with type := if p.tsyn then .skbTstamp else .skb, rsIdx := st.cur.i }) = q₁
  have bufs : (mapEnd p (.mapped st last)).q.bufs = (q₁.setNext st.buf none).bufs := by
    rw [← tagged]
    rfl
  have first : q₁.bufs p.complTag = { st.q.bufs p.complTag with
      type := if p.tsyn then .skbTstamp else .skb, rsIdx := st.cur.i } := by
    rw [← tagged, TxQueue.modBuf_same]
  have rest : ∀ b ≠ p.complTag, q₁.bufs b = st.q.bufs b := by
    intro b apart
    rw [← tagged, TxQueue.modBuf_other _ _ apart]
  have fields := q₁.setNext_fields st.buf none
  constructor
  · exact all.symm
  · rw [bufs, ends]
    have linked : Linked q₁.bufs (front ++ [st.buf]) := by
      rw [← ends]
      apply e.chained.linked.congr
      intro b _
      by_cases own : b = p.complTag
      · rw [own, first]
      · rw [rest b own]
    apply linked.close
    · intro x old
      rw [TxQueue.setNext_other]
      rintro rfl
      rw [ends] at once
      exact (List.nodup_append.mp once).2.2 _ old _ (List.mem_singleton_self _) rfl
    · rw [TxQueue.setNext_same]
  · intro x member
    have tag : x.1 = p.complTag := by
      have head := e.chained.head
      rw [all, List.head?_map, member] at head
      exact Option.some.inj head
    obtain ⟨-, dma⟩ := e.chained.frag x (List.mem_of_mem_head? member)
    obtain ⟨type, map, skb, word⟩ := fields x.1
    rw [bufs, type, map, skb, word, tag, first]
    rw [tag] at dma
    exact ⟨rfl, e.chained.skb, dma, rfl⟩
  · intro x member
    have apart : x.1 ≠ p.complTag := by
      cases mapped : st.mapped with
      | nil =>
          rw [mapped] at member
          cases member
      | cons y ys =>
          have head := e.chained.head
          rw [mapped] at member
          rw [all, mapped, List.map_cons] at once head
          have new := (List.nodup_cons.mp once).1
          rw [← Option.some.inj head]
          exact fun same => new (same ▸ List.mem_map_of_mem member)
    obtain ⟨type, map, -⟩ := fields x.1
    rw [bufs, type, map, rest x.1 apart]
    exact e.chained.frag x (List.mem_of_mem_tail member)
  · exact e.chained.log
  · exact e.chained.serials
  · exact e.chained.nextMap
  · intro b out
    have apart : b ≠ p.complTag := by
      rintro rfl
      exact out (List.mem_of_head? e.chained.head)
    have other : b ≠ st.buf := by
      rintro rfl
      exact out (ends ▸ List.mem_append_right _ (List.mem_singleton_self _))
    rw [bufs, TxQueue.setNext_other _ _ other, rest b apart]
    exact e.chained.other b out
  · intro b
    obtain ⟨-, -, -, word⟩ := fields b
    rw [bufs, word]
    by_cases own : b = p.complTag
    · rw [own, first]
      exact .inl rfl
    · rw [rest b own]
      exact .inr (e.chained.words b)

def frameIds (q : TxQueue) (env : SendEnv) (skb : Skb) (tso : Tso) : List Nat :=
  let i := q.nextToUse + ctxCount env skb tso
  match takeId q.flowSchEn q.refillq (i % q.descCount) with
  | none => []
  | some (id, r) =>
    id :: mapIds q.flowSchEn q.descCount env.dma skb.frags 0 skb.headlen r i

section frame

variable {q : TxQueue} {pending thresh skbId : Nat} {skb skb' : Skb} {env : SendEnv} {tso : Tso}

/-- How the mapping of a packet begins. -/
structure Opened (q : TxQueue) (skbId first : Nat) (r : SwQueue) (tsyn : Bool) (p : TxParams)
    (st : MapState) : Prop where
  tag : p.complTag = first
  tsyn : p.tsyn = tsyn
  ntc : p.prevRefillNtc = q.refillq.nextToClean
  gen : p.prevRefillGen = q.refillq.rflGenChk
  held : st.held = [first]
  chained : Chained q skbId first [first] st.mapped st.q
  refillq : st.q.refillq = r
  pool : st.q.bufPoolSize = q.bufPoolSize
  count : st.q.descCount = q.descCount
  use : st.q.nextToUse = q.nextToUse
  prevNtu : p.prevNtu = q.nextToUse
  type : ∀ b, (st.q.bufs b).type = (q.bufs b).type

theorem txSplitqBegin_opened (skbId : Nat) {first : Nat} {r : SwQueue} {latch : Option Nat}
    (got : takeId q.flowSchEn q.refillq (ctxCursor q tso skb.vlanTag latch).i = some (first, r)) :
    ∃ p st, txSplitqBegin q skbId skb tso latch = some (p, st) ∧
      Opened q skbId first r latch.isSome p st ∧
      st.cur = ctxCursor q tso skb.vlanTag latch := by
  unfold txSplitqBegin
  dsimp only
  rw [nextBufId_take, got]
  refine ⟨_, _, rfl, ?_, rfl⟩
  constructor
  · rfl
  · rfl
  · rfl
  · rfl
  · rfl
  · constructor
    · rfl
    · trivial
    · intro x member
      cases member
    · rw [TxQueue.modBuf_same]
    · rfl
    · rfl
    · rfl
    · intro b out
      rw [TxQueue.modBuf_other _ _ fun same : b = first => out (List.mem_singleton.mpr same)]
    · intro b
      by_cases own : b = first
      · rw [own, TxQueue.modBuf_same]
      · rw [TxQueue.modBuf_other _ _ own]
    · rfl
    · exact takeId_onlyTaken got
  · rfl
  · rfl
  · rfl
  · rfl
  · rfl
  · intro b
    by_cases own : b = first
    · rw [own, TxQueue.modBuf_same]
    · rw [TxQueue.modBuf_other _ _ own]

/-- A packet that is accepted and finds its buffers idle: it is taken back or handed over. -/
theorem frame_buffers (use : q.nextToUse < q.descCount)
    (accepted : txSplitqAdmit q pending thresh skb env = .accept skb' tso)
    (some : frameIds q env skb' tso ≠ []) (once : (frameIds q env skb' tso).Nodup)
    (idle : ∀ b ∈ frameIds q env skb' tso, (q.bufs b).type = .empty)
    (pool : (frameIds q env skb' tso).length ≤ q.bufPoolSize) (skbId : Nat) :
    let r := txSplitqFrame q pending thresh skbId skb env
    (r.verdict = .rolledBack ∧ Rewound q skbId (frameIds q env skb' tso) r.q) ∨
      (r.verdict = .sent ∧ ∃ i, HandedOver q skbId (txTstamp env.latch skb' tso).isSome
        (frameIds q env skb' tso) i r.mapped r.q ∧ r.slots.getLast? = Option.some i) := by
  intro result
  have pos : 0 < q.descCount := Nat.zero_lt_of_lt use
  have place : (ctxCursor q tso skb'.vlanTag (txTstamp env.latch skb' tso)).i =
      (q.nextToUse + ctxCount env skb' tso) % q.descCount := rePos_eq use env skb' tso
  cases got : takeId q.flowSchEn q.refillq
      ((q.nextToUse + ctxCount env skb' tso) % q.descCount) with
  | none =>
      have none : frameIds q env skb' tso = [] := by
        unfold frameIds
        dsimp only
        rw [got]
      exact absurd none some
  | some x =>
      obtain ⟨first, r⟩ := x
      rw [← place] at got
      obtain ⟨p, st, begun, o, cur⟩ := txSplitqBegin_opened skbId got
      rw [place] at got
      have ids : frameIds q env skb' tso = st.held ++ mapIds st.q.flowSchEn q.descCount env.dma
          skb'.frags 0 skb'.headlen st.q.refillq (q.nextToUse + ctxCount env skb' tso) := by
        unfold frameIds
        dsimp only
        rw [got, o.held, o.chained.flow, o.refillq]
        rfl
      have mapped : result = txSplitqMap p skb' env.dma st := by
        change txSplitqFrame q pending thresh skbId skb env = _
        unfold txSplitqFrame
        rw [accepted]
        dsimp only
        rw [begun]
      rw [ids] at once idle pool ⊢
      have chained : Chained q skbId p.complTag st.held st.mapped st.q := by
        rw [o.tag, o.held]
        exact o.chained
      have idle' : (st.q.bufs st.buf).type = .empty := by
        rw [o.type]
        exact idle _ (List.mem_append_left _ (List.mem_append_right _ (List.mem_singleton_self _)))
      have ended : Ended q skbId p.complTag _
          (txSplitqMapLoop env.dma p.complTag skb'.frags 0 skb'.headlen st).ok
          (txSplitqMapLoop env.dma p.complTag skb'.frags 0 skb'.headlen st).state :=
        txSplitqMapLoop_ended chained idle' pos o.count ((congrArg Cursor.i cur).trans place) once
          fun b member => idle b (List.mem_append_right _ member)
      rw [mapped]
      unfold txSplitqMap
      cases looped : txSplitqMapLoop env.dma p.complTag skb'.frags 0 skb'.headlen st with
      | failed st' =>
          rw [looped] at ended
          have only := (txSplitqMapLoop_state env.dma p.complTag skb'.frags 0 skb'.headlen st).1
          rw [looped] at only
          have size : st'.q.bufPoolSize = q.bufPoolSize := only.same.bufPoolSize.trans o.pool
          exact .inl ⟨rfl, mapEnd_rewound ended once (size ▸ pool) o.ntc o.gen⟩
      | mapped st' last =>
          rw [looped] at ended
          refine .inr ⟨rfl, st'.cur.i, ?_, ?_⟩
          · rw [← o.tsyn]
            exact mapEnd_handedOver ended once
          · change (st'.cur.slots ++ [st'.cur.i]).getLast? = _
            rw [List.getLast?_append, List.getLast?_singleton]
            rfl

end frame

end Idpf
