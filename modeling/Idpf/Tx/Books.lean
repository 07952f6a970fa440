import Idpf.Tx.Settlement

/-! The books of a queue in flow scheduling mode: which packets have which buffer IDs, and what has
happened to memory on their behalf. One lemma for each thing that can happen to a queue. -/
namespace Idpf
open General

def Effect.Old (serial skb : Nat) : Effect → Prop
  | .unmap m | .postBuf m _ => m.serial < serial
  | .consumeSkb s => s < skb
  | .kfree _ => True

theorem Effect.Old.mono {e : Effect} {serial serial' skb skb' : Nat} (h : e.Old serial skb)
    (mapped : serial ≤ serial') (sent : skb ≤ skb') : e.Old serial' skb' := by
  cases e with
  | unmap m => exact Nat.lt_of_lt_of_le h mapped
  | postBuf m b => exact Nat.lt_of_lt_of_le h mapped
  | consumeSkb s => exact Nat.lt_of_lt_of_le h sent
  | kfree raw => trivial

/-- A queue with a pool of `n` buffers and the packets it has handed over so far; `k` is the next
skb and `free` are the IDs in the refill queue. -/
structure TxBooks (n k : Nat) (q : TxQueue) (pkts : List Pkt) (free : List Nat) : Prop where
  small : n ≤ 65536
  pool : q.bufPoolSize = n
  count : q.refillq.descCount = n
  flow : q.flowSchEn = true
  untagged : q.missTagEn = false
  plain : q.xdp = false
  refill : RflFree q.refillq free
  places : (free ++ pkts.flatMap Pkt.owned).Perm (List.range n)
  idle : ∀ b ∈ free, (q.bufs b).type = .empty
  unmissed : ∀ b, (q.bufs b).type ≠ .miss
  held : ∀ p ∈ pkts, p.rem.reading = true → p.Held q.bufs
  once : (pkts.flatMap Pkt.settlement).Nodup
  paid : ∀ p ∈ pkts, ∀ e ∈ p.settlement, q.mem.log.count e = if p.rem.reading then 0 else 1
  logged : ∀ e ∈ q.mem.log, e.Old q.mem.nextMap k
  known : ∀ e ∈ pkts.flatMap Pkt.settlement, e.Old q.mem.nextMap k
  sound : q.mem.useAfterFree = false

/-- What the books are about is as it was. -/
structure TxQueue.Untouched (q q' : TxQueue) : Prop where
  bufs : q'.bufs = q.bufs
  refillq : q'.refillq = q.refillq
  pool : q'.bufPoolSize = q.bufPoolSize
  flow : q'.flowSchEn = q.flowSchEn
  tag : q'.missTagEn = q.missTagEn
  xdp : q'.xdp = q.xdp
  log : q'.mem.log = q.mem.log
  nextMap : q'.mem.nextMap = q.mem.nextMap
  useAfterFree : q'.mem.useAfterFree = q.mem.useAfterFree

theorem pkts_split {pkts : List Pkt} {i : Nat} {p : Pkt} (at_ : pkts[i]? = some p) :
    ∃ front back, pkts = front ++ p :: back ∧ ∀ p', pkts.set i p' = front ++ p' :: back := by
  obtain ⟨low, rfl⟩ := List.getElem?_eq_some_iff.mp at_
  refine ⟨pkts.take i, pkts.drop (i + 1), ?_, fun p' => ?_⟩
  · rw [List.getElem_cons_drop, List.take_append_drop]
  · rw [List.set_eq_take_append_cons_drop, if_pos low]

theorem RflFree.posted {r : SwQueue} {free l : List Nat} (f : RflFree r free)
    (space : free.length + l.length ≤ r.descCount) (small : ∀ b ∈ l, b < 65536) :
    RflFree (l.foldl (fun r b => postBufRefill r (u16 b)) r) (free ++ l) ∧
      (l.foldl (fun r b => postBufRefill r (u16 b)) r).descCount = r.descCount := by
  induction l generalizing r free with
  | nil =>
      rw [List.append_nil]
      exact ⟨f, rfl⟩
  | cons b l ih =>
      rw [List.length_cons] at space
      have low := small b List.mem_cons_self
      have same : u16 b = b := Nat.mod_eq_of_lt low
      have one := f.post (b := b) (by omega) low
      have rest := ih one (by
        rw [List.length_append, List.length_singleton]
        change _ ≤ r.descCount
        omega) fun x member => small x (List.mem_cons_of_mem b member)
      rw [List.foldl_cons, same, List.append_cons]
      exact rest

namespace TxBooks

variable {n k k' : Nat} {q q' : TxQueue} {pkts front back : List Pkt}
  {free : List Nat} {p : Pkt}

theorem congr (v : TxBooks n k q pkts free) (later : k ≤ k') (same : q.Untouched q') :
    TxBooks n k' q' pkts free := by
  obtain ⟨bufs, refillq, pool, flow, tag, xdp, log, nextMap, useAfterFree⟩ := same
  constructor
  · exact v.small
  · exact pool.trans v.pool
  · rw [refillq]
    exact v.count
  · exact flow.trans v.flow
  · exact tag.trans v.untagged
  · exact xdp.trans v.plain
  · rw [refillq]
    exact v.refill
  · exact v.places
  · rw [bufs]
    exact v.idle
  · rw [bufs]
    exact v.unmissed
  · rw [bufs]
    exact v.held
  · exact v.once
  · rw [log]
    exact v.paid
  · rw [log, nextMap]
    exact fun e member => (v.logged e member).mono le_rfl later
  · rw [nextMap]
    exact fun e member => (v.known e member).mono le_rfl later
  · exact useAfterFree.trans v.sound

theorem forall_put {P : Pkt → Prop} (old : ∀ p' ∈ front ++ back, P p') (new : P p) :
    ∀ p' ∈ front ++ p :: back, P p' := by
  rw [List.forall_mem_append] at old ⊢
  exact ⟨old.1, List.forall_mem_cons.mpr ⟨new, old.2⟩⟩

theorem mem_put {p' : Pkt} (other : p' ∈ front ++ back) (p : Pkt) : p' ∈ front ++ p :: back := by
  rcases List.mem_append.mp other with before | behind
  · exact List.mem_append_left _ before
  · exact List.mem_append_right _ (List.mem_cons_of_mem p behind)

theorem settlement_put (rem : Rem) : (front ++ { p with rem } :: back).flatMap Pkt.settlement =
    (front ++ p :: back).flatMap Pkt.settlement := by
  rw [List.flatMap_append, List.flatMap_append, List.flatMap_cons, List.flatMap_cons]
  rfl

theorem nodup (v : TxBooks n k q pkts free) : (free ++ pkts.flatMap Pkt.owned).Nodup :=
  v.places.nodup_iff.mpr List.nodup_range

theorem mem_owned (member : p ∈ pkts) (reading : p.rem.reading = true) {b : Nat}
    (own : b ∈ p.ids) : b ∈ pkts.flatMap Pkt.owned := by
  refine List.mem_flatMap.mpr ⟨p, member, ?_⟩
  rw [Pkt.owned, if_pos reading]
  exact own

theorem ids_nodup (v : TxBooks n k q pkts free) (member : p ∈ pkts)
    (reading : p.rem.reading = true) : p.ids.Nodup := by
  have owned := (List.nodup_flatMap.mp (List.nodup_append.mp v.nodup).2.1).1 p member
  rw [Pkt.owned, if_pos reading] at owned
  exact owned

theorem relabel (v : TxBooks n k q (front ++ p :: back) free) {rem : Rem}
    (same : rem.reading = p.rem.reading) :
    TxBooks n k q (front ++ { p with rem } :: back) free := by
  have owned : Pkt.owned { p with rem } = p.owned := by
    unfold Pkt.owned
    dsimp only
    rw [same]
    rfl
  have owned' : (front ++ { p with rem } :: back).flatMap Pkt.owned =
      (front ++ p :: back).flatMap Pkt.owned := by
    rw [List.flatMap_append, List.flatMap_append, List.flatMap_cons, List.flatMap_cons, owned]
  have here : p ∈ front ++ p :: back := List.mem_append_right _ List.mem_cons_self
  constructor
  · exact v.small
  · exact v.pool
  · exact v.count
  · exact v.flow
  · exact v.untagged
  · exact v.plain
  · exact v.refill
  · rw [owned']
    exact v.places
  · exact v.idle
  · exact v.unmissed
  · refine forall_put (fun p' other => v.held p' (mem_put other p)) fun reading => ?_
    rw [same] at reading
    obtain ⟨some, chain, first, rest⟩ := v.held p here reading
    exact ⟨some, chain, first, rest⟩
  · rw [settlement_put]
    exact v.once
  · refine forall_put (fun p' other => v.paid p' (mem_put other p)) fun e member => ?_
    rw [same]
    exact v.paid p here e member
  · exact v.logged
  · rw [settlement_put]
    exact v.known
  · exact v.sound

/-- The first buffer of whichever packet has it now is marked, or loses its mark. -/
theorem mark (v : TxBooks n k q pkts free) {b : Nat}
    (whole : (q.bufs b).type = .skb ∨ (q.bufs b).type = .reinject) {type : SqeType}
    (marked : type = .skb ∨ type = .reinject) :
    TxBooks n k (q.modBuf b fun e => { e with type }) pkts free := by
  constructor
  · exact v.small
  · exact v.pool
  · exact v.count
  · exact v.flow
  · exact v.untagged
  · exact v.plain
  · exact v.refill
  · exact v.places
  · intro x member
    have apart : x ≠ b := by
      rintro rfl
      rw [v.idle x member] at whole
      rcases whole with type | type <;> cases type
    rw [TxQueue.modBuf_other _ _ apart]
    exact v.idle x member
  · intro x missed
    by_cases same : x = b
    · rw [same, TxQueue.modBuf_same] at missed
      rcases marked with rfl | rfl <;> cases missed
    · rw [TxQueue.modBuf_other _ _ same] at missed
      exact v.unmissed x missed
  · intro p member reading
    have held := v.held p member reading
    by_cases own : b ∈ p.ids
    · rw [← held.tag_eq own fun frag => by
        rw [frag] at whole
        rcases whole with type | type <;> cases type]
      exact held.retype (v.ids_nodup member reading) (marked.imp_right .inr)
    · refine held.congr fun x inside => q.modBuf_other _ ?_
      rintro rfl
      exact own inside
  · exact v.once
  · exact v.paid
  · exact v.logged
  · exact v.known
  · exact v.sound

theorem settlement_apart (v : TxBooks n k q (front ++ p :: back) free) {p' : Pkt}
    (other : p' ∈ front ++ back) {e : Effect} (due : e ∈ p'.settlement) : e ∉ p.settlement := by
  have once := v.once
  rw [List.flatMap_append, List.flatMap_cons] at once
  obtain ⟨-, once', apart⟩ := List.nodup_append.mp once
  intro own
  rcases List.mem_append.mp other with before | behind
  · exact apart e (List.mem_flatMap.mpr ⟨p', before, due⟩) e (List.mem_append_left _ own) rfl
  · exact (List.nodup_append.mp once').2.2 e own e (List.mem_flatMap.mpr ⟨p', behind, due⟩) rfl

/-- A packet is settled: its buffers are completed and posted. -/
theorem settle (v : TxBooks n k q (front ++ p :: back) free) (reading : p.rem.reading = true)
    {rem : Rem} (read : rem.reading = false) {log : List Effect} (due : log.Perm p.settlement) :
    TxBooks n k (q.settled p.ids (q.mem.log ++ log)) (front ++ { p with rem } :: back)
      (free ++ p.ids) := by
  have here : p ∈ front ++ p :: back := List.mem_append_right _ List.mem_cons_self
  have places : (free ++ p.ids ++ (front ++ back).flatMap Pkt.owned).Perm (List.range n) := by
    refine places_of_count v.places fun b => ?_
    have own : p.owned = p.ids := if_pos reading
    simp only [List.flatMap_append, List.flatMap_cons, List.count_append, own]
    omega
  have nodup := places.nodup_iff.mpr List.nodup_range
  have len := places.length_eq
  simp only [List.length_append, List.length_range] at len
  have low : ∀ b ∈ p.ids, b < 65536 := by
    intro b own
    have below := List.mem_range.mp (places.mem_iff.mp
      (List.mem_append_left _ (List.mem_append_right _ own)))
    exact Nat.lt_of_lt_of_le below v.small
  obtain ⟨refill, count⟩ := v.refill.posted (l := p.ids) (by have := v.count; omega) low
  have apart {p' : Pkt} (other : p' ∈ front ++ back) (reading' : p'.rem.reading = true) :
      ∀ b ∈ p'.ids, b ∉ p.ids := by
    intro b inside own
    exact (List.nodup_append.mp nodup).2.2 b (List.mem_append_right _ own) b
      (mem_owned other reading' inside) rfl
  constructor
  · exact v.small
  · exact v.pool
  · exact count.trans v.count
  · exact v.flow
  · exact v.untagged
  · exact v.plain
  · exact refill
  · have owned : (front ++ { p with rem } :: back).flatMap Pkt.owned =
        (front ++ back).flatMap Pkt.owned := by
      have none : Pkt.owned { p with rem } = [] := by
        unfold Pkt.owned
        exact if_neg (Bool.eq_false_iff.mp read)
      rw [List.flatMap_append, List.flatMap_append, List.flatMap_cons, none, List.nil_append]
    rw [owned]
    exact places
  · intro b member
    unfold TxQueue.settled TxQueue.emptied
    dsimp only
    split
    · rfl
    · next out =>
      rcases List.mem_append.mp member with old | own
      · exact v.idle b old
      · exact absurd own out
  · intro b
    unfold TxQueue.settled TxQueue.emptied
    dsimp only
    split
    · exact fun this => SqeType.noConfusion this
    · exact v.unmissed b
  · refine forall_put (fun p' other reading' => ?_) fun reading' => ?_
    · refine (v.held p' (mem_put other p) reading').congr fun b inside => q.settled_other _ ?_
      exact apart other reading' b inside
    · rw [read] at reading'
      cases reading'
  · rw [settlement_put]
    exact v.once
  · refine forall_put (fun p' other e member => ?_) fun e member => ?_
    · have new : log.count e = 0 :=
        List.count_eq_zero.mpr fun found => v.settlement_apart other member (due.mem_iff.mp found)
      change (q.mem.log ++ log).count e = _
      rw [List.count_append, new]
      exact v.paid p' (mem_put other p) e member
    · have before := v.paid p here e member
      rw [if_pos reading] at before
      have own : p.settlement.Nodup := (List.nodup_flatMap.mp v.once).1 p here
      have now : log.count e = 1 := by
        rw [due.count_eq]
        exact List.count_eq_one_of_mem own member
      change (q.mem.log ++ log).count e = _
      rw [List.count_append, before, now, if_neg (Bool.eq_false_iff.mp read)]
  · intro e member
    rcases List.mem_append.mp member with old | new
    · exact v.logged e old
    · exact v.known e (List.mem_flatMap.mpr ⟨p, here, due.mem_iff.mp new⟩)
  · rw [settlement_put]
    exact v.known
  · exact v.sound

/-- A packet comes to nothing: buffers among the free ones are idle again, and what happened to
memory concerns that packet alone. -/
theorem spend (v : TxBooks n k q pkts free) {l : List Nat} {log : List Effect} (later : k ≤ k')
    (same : q.Same q') (refillq : q'.refillq = q.refillq) (among : l ⊆ free)
    (idle : ∀ b ∈ l, (q'.bufs b).type = .empty) (other : ∀ b ∉ l, q'.bufs b = q.bufs b)
    (memory : q.mem.OnlyLog q'.mem) (logged : q'.mem.log = q.mem.log ++ log)
    (mapped : q.mem.nextMap ≤ q'.mem.nextMap)
    (new : ∀ e ∈ log, ¬ e.Old q.mem.nextMap k ∧ e.Old q'.mem.nextMap k') :
    TxBooks n k' q' pkts free := by
  have apart {p : Pkt} (member : p ∈ pkts) (reading : p.rem.reading = true) :
      ∀ b ∈ p.ids, q'.bufs b = q.bufs b := by
    refine fun b own => other b fun touched => ?_
    exact (List.nodup_append.mp v.nodup).2.2 b (among touched) b (mem_owned member reading own) rfl
  constructor
  · exact v.small
  · exact same.bufPoolSize.trans v.pool
  · rw [refillq]
    exact v.count
  · exact same.flowSchEn.trans v.flow
  · exact same.missTagEn.trans v.untagged
  · exact same.xdp.trans v.plain
  · rw [refillq]
    exact v.refill
  · exact v.places
  · intro b member
    by_cases touched : b ∈ l
    · exact idle b touched
    · rw [other b touched]
      exact v.idle b member
  · intro b missed
    by_cases touched : b ∈ l
    · rw [idle b touched] at missed
      cases missed
    · rw [other b touched] at missed
      exact v.unmissed b missed
  · exact fun p member reading => (v.held p member reading).congr (apart member reading)
  · exact v.once
  · intro p member e due
    have apart : log.count e = 0 := List.count_eq_zero.mpr fun found =>
      (new e found).1 (v.known e (List.mem_flatMap.mpr ⟨p, member, due⟩))
    rw [logged, List.count_append, apart]
    exact v.paid p member e due
  · intro e member
    rw [logged] at member
    rcases List.mem_append.mp member with old | found
    · exact (v.logged e old).mono mapped later
    · exact (new e found).2
  · exact fun e member => (v.known e member).mono mapped later
  · exact memory.useAfterFree.trans v.sound

end TxBooks

theorem settlement_nodup {p : Pkt} (apart : (p.bufs.map fun x => x.2.serial).Nodup) :
    p.settlement.Nodup := by
  refine List.nodup_cons.mpr ⟨fun member => ?_, List.nodup_flatMap.mpr ⟨fun x _ => ?_, ?_⟩⟩
  · obtain ⟨x, -, found⟩ := List.mem_flatMap.mp member
    simp only [List.mem_cons, List.not_mem_nil, reduceCtorEq, or_false] at found
  · simp only [List.nodup_cons, List.mem_singleton, reduceCtorEq, not_false_eq_true,
      List.not_mem_nil, List.nodup_nil, and_self]
  · refine (List.pairwise_map.mp apart).imp fun {x y} differ => ?_
    intro e one two
    simp only [List.mem_cons, List.not_mem_nil, or_false] at one two
    rcases one with rfl | rfl
    · rcases two with same | same
      · exact differ (congrArg DmaMap.serial (Effect.unmap.inj same))
      · cases same
    · rcases two with same | same
      · cases same
      · exact differ (congrArg DmaMap.serial (Effect.postBuf.inj same).1)

namespace TxBooks

variable {n k : Nat} {q : TxQueue} {pkts : List Pkt} {free : List Nat}

/-- A packet is handed over to the device. -/
theorem handOver (v : TxBooks n k q pkts free) {q' : TxQueue} {tsyn : Bool} {l rest : List Nat}
    {i last : Nat} {mapped : List (Nat × DmaMap)} (same : q.Same q')
    (h : HandedOver q k tsyn l i mapped q') (some : l ≠ []) (split : free = l ++ rest)
    (refill : RflFree q'.refillq rest) (count : q'.refillq.descCount = q.refillq.descCount)
    (memory : q.mem.OnlyLog q'.mem) :
    TxBooks n (k + 1) q' (pkts ++ [⟨k, mapped, last, .fresh⟩]) rest := by
  subst split
  have nodup := v.nodup
  have apart {p : Pkt} (member : p ∈ pkts) (reading : p.rem.reading = true) :
      ∀ b ∈ p.ids, q'.bufs b = q.bufs b := by
    intro b own
    refine h.other b fun taken => ?_
    exact (List.nodup_append.mp nodup).2.2 b (List.mem_append_left _ taken) b
      (mem_owned member reading own) rfl
  have mapped' : q.mem.nextMap ≤ q'.mem.nextMap := h.nextMap ▸ Nat.le_add_right ..
  have new : ∀ e ∈ Pkt.settlement ⟨k, mapped, last, .fresh⟩,
      ¬ e.Old q.mem.nextMap k ∧ e.Old q'.mem.nextMap (k + 1) := by
    intro e due
    rcases List.mem_cons.mp due with rfl | due
    · exact ⟨Nat.lt_irrefl k, Nat.lt_succ_self k⟩
    · obtain ⟨x, member, found⟩ := List.mem_flatMap.mp due
      have serial : x.2.serial ∈ List.range' q.mem.nextMap mapped.length := by
        rw [← h.serials]
        exact List.mem_map_of_mem member
      rw [List.mem_range'_1] at serial
      have range : ¬ x.2.serial < q.mem.nextMap ∧ x.2.serial < q'.mem.nextMap := by
        rw [h.nextMap]
        omega
      simp only [List.mem_cons, List.not_mem_nil, or_false] at found
      rcases found with rfl | rfl
      · exact range
      · exact range
  have held : Pkt.Held q'.bufs ⟨k, mapped, last, .fresh⟩ := by
    constructor
    · rintro rfl
      exact some h.bufs.symm
    · rw [Pkt.ids, h.bufs]
      exact h.chain
    · intro x member
      obtain ⟨type, own, dma, -⟩ := h.first x member
      refine ⟨?_, own, dma⟩
      rw [type]
      cases tsyn with
      | false => exact .inl rfl
      | true => exact .inr (.inl rfl)
    · exact h.rest
  have settlements : (pkts ++ [(⟨k, mapped, last, .fresh⟩ : Pkt)]).flatMap Pkt.settlement =
      pkts.flatMap Pkt.settlement ++ Pkt.settlement ⟨k, mapped, last, .fresh⟩ := by
    rw [List.flatMap_append, List.flatMap_singleton]
  constructor
  · exact v.small
  · exact same.bufPoolSize.trans v.pool
  · exact count.trans v.count
  · exact same.flowSchEn.trans v.flow
  · exact same.missTagEn.trans v.untagged
  · exact same.xdp.trans v.plain
  · exact refill
  · refine places_of_count v.places fun b => ?_
    have own : Pkt.owned ⟨k, mapped, last, .fresh⟩ = l := h.bufs
    simp only [List.flatMap_append, List.flatMap_singleton, List.count_append, own]
    omega
  · intro b member
    have out : b ∉ l := by
      intro taken
      exact (List.nodup_append.mp (List.nodup_append.mp nodup).1).2.2 b taken b member rfl
    rw [h.other b out]
    exact v.idle b (List.mem_append_right _ member)
  · intro b missed
    by_cases taken : b ∈ l
    · rw [← h.bufs] at taken
      exact held.unmissed taken missed
    · rw [h.other b taken] at missed
      exact v.unmissed b missed
  · rw [List.forall_mem_append]
    refine ⟨fun p member reading => (v.held p member reading).congr (apart member reading), ?_⟩
    rw [List.forall_mem_singleton]
    exact fun _ => held
  · rw [settlements]
    refine List.nodup_append.mpr ⟨v.once, settlement_nodup ?_, ?_⟩
    · rw [h.serials]
      exact List.nodup_range'
    · rintro e old e' due rfl
      exact (new e due).1 (v.known e old)
  · rw [h.log, List.forall_mem_append, List.forall_mem_singleton]
    refine ⟨v.paid, fun e due => ?_⟩
    exact List.count_eq_zero.mpr fun found => (new e due).1 (v.logged e found)
  · rw [h.log]
    exact fun e member => (v.logged e member).mono mapped' (Nat.le_succ k)
  · rw [settlements, List.forall_mem_append]
    exact ⟨fun e old => (v.known e old).mono mapped' (Nat.le_succ k), fun e due => (new e due).2⟩
  · exact memory.useAfterFree.trans v.sound

theorem send (v : TxBooks n k q pkts free) (use : q.nextToUse < q.descCount)
    (pending thresh tail : Nat) (skb : Skb) (env : SendEnv) :
    let r := txSplitqFrame q pending thresh k skb env
    ∃ free', TxBooks n (k + 1) r.q
      (if r.verdict = .sent then pkts ++ [⟨k, r.mapped, tail + r.slots.length - 1, .fresh⟩]
        else pkts) free' := by
  intro r
  have memory : q.mem.OnlyLog r.q.mem := txSplitqFrame_onlyLog q pending thresh k skb env
  have freed : ∀ e ∈ [Effect.consumeSkb k],
      ¬ e.Old q.mem.nextMap k ∧ e.Old q.mem.nextMap (k + 1) := by
    rw [List.forall_mem_singleton]
    exact ⟨Nat.lt_irrefl k, Nat.lt_succ_self k⟩
  have dropped {ring : Nat → TxDesc} (after : r.q = { q with ring }.record (.consumeSkb k)) :
      TxBooks n (k + 1) r.q pkts free := by
    rw [after] at memory ⊢
    exact v.spend (l := []) (Nat.le_succ k) (by constructor <;> rfl) rfl (List.nil_subset free)
      (fun b none => absurd none List.not_mem_nil) (fun b _ => rfl) memory rfl le_rfl freed
  by_cases accepted : ∃ skb' tso, txSplitqAdmit q pending thresh skb env = .accept skb' tso
  · obtain ⟨skb', tso, accepted⟩ := accepted
    obtain ⟨verdict, -, -, -, -, ⟨ring, after⟩, -⟩ | ⟨carried, more, -⟩ :=
      frame_accepted use accepted k
    · rw [if_neg (by rw [show r.verdict = .dropped from verdict]; decide)]
      exact ⟨free, dropped after⟩
    · have some := SendCall.frameIds_ne_nil more env skb' tso
      have first : frameIds q env skb' tso <+: free := SendCall.frameIds_free v.flow v.refill
      have nodup := (List.nodup_append.mp v.nodup).1
      have room : (frameIds q env skb' tso).length ≤ q.bufPoolSize := by
        have len := v.places.length_eq
        rw [List.length_append, List.length_range] at len
        have short := first.length_le
        rw [v.pool]
        omega
      obtain ⟨rolled, back⟩ | ⟨sent, i, handed, -⟩ := frame_buffers use accepted some
        (nodup.sublist first.sublist) (fun b taken => v.idle b (first.subset taken)) room k
      · obtain ⟨maps, logged, serials, nextMap⟩ := back.log
        rw [if_neg (by rw [show r.verdict = .rolledBack from rolled]; decide)]
        refine ⟨free, v.spend (Nat.le_succ k) carried.same back.refill first.subset back.idle
          back.other memory (logged.trans (List.append_assoc ..)) (nextMap ▸ Nat.le_add_right ..)
          ?_⟩
        rw [List.forall_mem_append]
        constructor
        · intro e member
          obtain ⟨m, mapped, rfl⟩ := List.mem_map.mp member
          have serial : m.serial ∈ List.range' q.mem.nextMap maps.length := by
            rw [← serials]
            exact List.mem_map_of_mem mapped
          rw [List.mem_range'_1] at serial
          change ¬ m.serial < _ ∧ m.serial < r.q.mem.nextMap
          rw [nextMap]
          omega
        · rw [List.forall_mem_singleton]
          exact ⟨Nat.lt_irrefl k, Nat.lt_succ_self k⟩
      · obtain ⟨rest, split, refill, count⟩ := frame_free v.flow v.refill accepted sent
        rw [if_pos sent]
        exact ⟨rest, v.handOver carried.same handed some split refill count memory⟩
  · obtain ⟨-, -, -, -, ⟨verdict, after⟩ | ⟨verdict, -, after⟩⟩ :=
      frame_refused (fun skb' tso same => accepted ⟨skb', tso, same⟩) k
    · rw [if_neg (by rw [show r.verdict = .dropped from verdict]; decide)]
      exact ⟨free, dropped after⟩
    · rw [if_neg (by rw [show r.verdict = .busy from verdict]; decide)]
      rw [show r.q = _ from after]
      exact ⟨free, v.congr (Nat.le_succ k) (by constructor <;> rfl)⟩

end TxBooks

/-- Whether a completion loses nothing if this is the type of its packet's first buffer. The first
completion of a packet on the exception path has to be the reinject completion, which leaves a mark,
unless the miss completion finds no memory for a timer. Where xa_store is what fails, the timer has
been armed and is freed so: the buffers are settled, but it must not run out any more. -/
def ComplKind.settles (kind : ComplKind) (type : SqeType) (env : TimerEnv) : Bool :=
  match kind with
  | .rs => type != .reinject
  | .miss => type == .reinject || !env.kzalloc || !env.xaStore
  | .reinject => true

namespace TxBooks

variable {n k : Nat} {q q' : TxQueue} {front back : List Pkt}
  {free : List Nat} {p : Pkt}

theorem addCleaned_untouched (s : Cleaning) : s.q.Untouched (addCleaned s) := by
  constructor <;> rfl

/-- The packet at hand is cleaned. -/
theorem clean (v : TxBooks n k q (front ++ p :: back) free) (reading : p.rem.reading = true)
    {rem : Rem} (read : rem.reading = false) (unmarked : (q.bufs p.tag).type ≠ .reinject) :
    TxBooks n k (txCleanBufs q p.tag).q (front ++ { p with rem } :: back) (free ++ p.ids) ∧
      (txCleanBufs q p.tag).ss.bytes = u32 (q.bufs p.tag).bytes := by
  have here : p ∈ front ++ p :: back := List.mem_append_right _ List.mem_cons_self
  have enough : p.ids.length ≤ q.bufPoolSize := by
    have inside := (v.ids_nodup here reading).subperm fun b own =>
      v.places.mem_iff.mp (List.mem_append_right free (mem_owned here reading own))
    rw [v.pool]
    exact inside.length_le.trans (List.length_range ..).le
  obtain ⟨⟨log, eq, due⟩, counted⟩ := txCleanBufs_held (v.held p here reading)
    (v.ids_nodup here reading) enough unmarked
  refine ⟨?_, counted⟩
  rw [eq]
  exact v.settle reading read due

theorem rs (v : TxBooks n k q (front ++ p :: back) free) (fresh : p.rem = .fresh)
    (unmarked : (q.bufs p.tag).type ≠ .reinject) (env : TimerEnv) :
    let s := txHandleRsCompletion q p.tag env
    TxBooks n k s.q (front ++ { p with rem := .done } :: back) (free ++ p.ids) ∧
      s.ss.bytes = u32 (q.bufs p.tag).bytes := by
  unfold txHandleRsCompletion
  rw [v.untagged, Bool.false_and, if_neg Bool.false_ne_true]
  exact v.clean (by rw [fresh]; rfl) rfl unmarked

/-- A miss completion that starts no timer. -/
theorem miss (v : TxBooks n k q (front ++ p :: back) free) (reading : p.rem.reading = true)
    {rem : Rem} (read : rem.reading = false) {env : TimerEnv}
    (ok : (q.bufs p.tag).type = .reinject ∨ env.kzalloc = false ∨ env.xaStore = false) :
    let s := txHandleMissCompletion q p.tag env
    TxBooks n k s.q (front ++ { p with rem } :: back) (free ++ p.ids) ∧
      s.ss.bytes = u32 (q.bufs p.tag).bytes := by
  unfold txHandleMissCompletion
  by_cases marked : (q.bufs p.tag).type = .reinject
  · rw [if_pos marked]
    have cleaned := (v.mark (.inr marked) (.inl rfl)).clean reading read (by
      rw [TxQueue.modBuf_same]
      exact fun this => SqeType.noConfusion this)
    rw [TxQueue.modBuf_same] at cleaned
    exact cleaned
  · rw [if_neg marked]
    unfold txStartReinjectTimer
    cases alloc : env.kzalloc with
    | false => exact v.clean reading read marked
    | true =>
        have lost : env.xaStore = false := by
          rcases ok with ok | ok | ok
          · exact absurd ok marked
          · rw [alloc] at ok
            cases ok
          · exact ok
        rw [lost]
        have same : q.Untouched { q with mem := freeTimer { q.mem with
            nextTimer := q.mem.nextTimer + 1
            timers := Function.update q.mem.timers q.mem.nextTimer ⟨(q.bufs p.tag).skb,
              (q.bufs p.tag).bytes, (q.bufs p.tag).packets, true, false⟩ } q.mem.nextTimer } := by
          constructor
          · rfl
          · rfl
          · rfl
          · rfl
          · rfl
          · rfl
          · rfl
          · rfl
          · simp only [freeTimer, Function.update_self, Bool.or_false]
        exact (v.congr le_rfl same).clean reading read marked

theorem reinject (v : TxBooks n k q (front ++ p :: back) free) {rem : Rem}
    (same : rem.reading = p.rem.reading) :
    let s := txHandleReinjectCompletion q p.tag
    TxBooks n k s.q (front ++ { p with rem } :: back) free ∧ s.ss.bytes = 0 := by
  unfold txHandleReinjectCompletion
  dsimp only
  rw [if_neg (v.unmissed p.tag)]
  split
  · next whole =>
    have marked := v.mark (.inl whole) (.inr rfl)
    exact ⟨(marked.congr le_rfl (by constructor <;> rfl)).relabel same, rfl⟩
  · exact ⟨v.relabel same, rfl⟩

/-- A completion of a packet: the device reads on and no bytes are counted, or it has read the
packet and its bytes are. -/
theorem compl (v : TxBooks n k q (front ++ p :: back) free) {kind : ComplKind} {rem : Rem}
    (delivered : p.rem.deliver kind = some rem) {env : TimerEnv}
    (ok : kind.settles (q.bufs p.tag).type env = true) :
    let s := txHandleCompl q (some kind.ctype) p.tag env
    (∃ free', TxBooks n k (addCleaned s) (front ++ { p with rem } :: back) free') ∧
      (kind = .reinject ∧ rem.reading = p.rem.reading ∧ s.ss.bytes = 0 ∨
        kind ≠ .reinject ∧ s.ss.bytes = u32 (q.bufs p.tag).bytes) := by
  have keep {s : Cleaning} {free' : List Nat} {pkts : List Pkt}
      (v : TxBooks n k s.q pkts free') : TxBooks n k (addCleaned s) pkts free' :=
    v.congr le_rfl (addCleaned_untouched s)
  cases kind with
  | rs =>
      obtain ⟨fresh, rfl⟩ : p.rem = .fresh ∧ rem = .done := by
        cases was : p.rem <;> rw [was] at delivered <;> cases delivered
        exact ⟨rfl, rfl⟩
      obtain ⟨v', counted⟩ := v.rs fresh (bne_iff_ne.mp ok) env
      exact ⟨⟨_, keep v'⟩, .inr ⟨fun this => ComplKind.noConfusion this, counted⟩⟩
  | miss =>
      obtain ⟨reading, read⟩ : p.rem.reading = true ∧ rem.reading = false := by
        cases was : p.rem <;> rw [was] at delivered <;> cases delivered <;> exact ⟨rfl, rfl⟩
      have lost : (q.bufs p.tag).type = .reinject ∨ env.kzalloc = false ∨ env.xaStore = false := by
        simpa only [ComplKind.settles, Bool.or_eq_true, beq_iff_eq, Bool.not_eq_true', or_assoc]
          using ok
      obtain ⟨v', counted⟩ := v.miss reading read lost
      exact ⟨⟨_, keep v'⟩, .inr ⟨fun this => ComplKind.noConfusion this, counted⟩⟩
  | reinject =>
      have same : rem.reading = p.rem.reading := by
        cases was : p.rem <;> rw [was] at delivered <;> cases delivered <;> rfl
      obtain ⟨v', counted⟩ := v.reinject same
      exact ⟨⟨free, keep v'⟩, .inl ⟨rfl, same, counted⟩⟩

end TxBooks

end Idpf
