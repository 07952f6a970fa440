import Idpf.Tx.Singleq
import Mathlib.Data.List.Induction
import Mathlib.Data.List.Perm.Basic

/-! What sends and cleaning passes do to the ring of a single queue Tx queue. The slots of a
packet are read off the ring one after the other, so both are described by what they do to a
stretch of slots. -/
namespace Idpf
open General

def unmapOf : Option SqMapping → List SqEffect
  | some m => [.unmap m.dma m.len]
  | none => []

def SlotHolds (e : TxBuf) : Option SqMapping → Prop
  | some m => e.type = .frag ∧ e.dma = m.dma ∧ e.len = m.len
  | none => e.type = .empty

theorem SlotHolds.effects {e : TxBuf} {x : Option SqMapping} (h : SlotHolds e x) :
    sqeEffects e = unmapOf x := by
  cases x with
  | none =>
      have idle : e.type = .empty := h
      rw [sqeEffects, idle]
      rfl
  | some m =>
      obtain ⟨type, dma, len⟩ := h
      rw [sqeEffects, type, dma, len]
      rfl

/-- The slots from position `p` on hold `l`. -/
def Laid (n : Nat) (bufs : Nat → TxBuf) : Nat → List (Option SqMapping) → Prop
  | _, [] => True
  | p, x :: l => SlotHolds (bufs (p % n)) x ∧ Laid n bufs (p + 1) l

/-- Completing the slots from position `p` on gives back what `l` tells. -/
def Gives (n : Nat) (bufs : Nat → TxBuf) : Nat → List (Option SqMapping) → Prop
  | _, [] => True
  | p, x :: l => sqeEffects (bufs (p % n)) = unmapOf x ∧ Gives n bufs (p + 1) l

section Laid

variable {n p : Nat} {bufs bufs' : Nat → TxBuf} {l l' : List (Option SqMapping)}

theorem Laid.congr (same : ∀ c ∈ ringSlots n p l.length, bufs' c = bufs c)
    (h : Laid n bufs p l) : Laid n bufs' p l := by
  induction l generalizing p with
  | nil => trivial
  | cons x l ih =>
      rw [List.length_cons, ringSlots_cons] at same
      refine ⟨?_, ih (fun c m => same c (List.mem_cons_of_mem _ m)) h.2⟩
      rw [same _ List.mem_cons_self]
      exact h.1

theorem Laid.append : Laid n bufs p (l ++ l') ↔ Laid n bufs p l ∧ Laid n bufs (p + l.length) l' := by
  induction l generalizing p with
  | nil => simp [Laid]
  | cons x l ih =>
      rw [List.cons_append, Laid, Laid, ih, List.length_cons, and_assoc, Nat.add_assoc,
        Nat.add_comm 1]

theorem Laid.gives (h : Laid n bufs p l) : Gives n bufs p l := by
  induction l generalizing p with
  | nil => trivial
  | cons x l ih => exact ⟨h.1.effects, ih h.2⟩

theorem Gives.congr (same : ∀ c ∈ ringSlots n p l.length, bufs' c = bufs c)
    (h : Gives n bufs p l) : Gives n bufs' p l := by
  induction l generalizing p with
  | nil => trivial
  | cons x l ih =>
      rw [List.length_cons, ringSlots_cons] at same
      refine ⟨?_, ih (fun c m => same c (List.mem_cons_of_mem _ m)) h.2⟩
      rw [same _ List.mem_cons_self]
      exact h.1

theorem Gives.append :
    Gives n bufs p (l ++ l') ↔ Gives n bufs p l ∧ Gives n bufs (p + l.length) l' := by
  induction l generalizing p with
  | nil => simp [Gives]
  | cons x l ih =>
      rw [List.cons_append, Gives, Gives, ih, List.length_cons, and_assoc, Nat.add_assoc,
        Nat.add_comm 1]

end Laid

/-- `q'` is `q` with the slots of `l` emptied and `effects` given back. -/
structure Emptied (q q' : SingleqTxq) (l : List Nat) (effects : List SqEffect) : Prop where
  only : q' = { q with bufs := q'.bufs, log := q.log ++ effects }
  within : ∀ c ∈ l, (q'.bufs c).type = .empty
  outside : ∀ c, c ∉ l → q'.bufs c = q.bufs c

theorem Emptied.trans {q q' q'' : SingleqTxq} {l l' : List Nat} {effects effects' : List SqEffect}
    (first : Emptied q q' l effects) (second : Emptied q' q'' l' effects') :
    Emptied q q'' (l ++ l') (effects ++ effects') := by
  refine ⟨?_, fun c member => ?_, fun c out => ?_⟩
  · rw [second.only, first.only, List.append_assoc]
  · by_cases later : c ∈ l'
    · exact second.within c later
    · rw [second.outside c later]
      exact first.within c ((List.mem_append.mp member).resolve_right later)
  · rw [second.outside c (fun m => out (List.mem_append_right l m)),
      first.outside c (fun m => out (List.mem_append_left l' m))]

theorem complete_emptied (q : SingleqTxq) (i : Nat) :
    Emptied q (q.complete i) [i] (sqeEffects (q.bufs i)) := by
  refine ⟨rfl, fun c member => ?_, fun c out => ?_⟩
  · rw [List.mem_singleton.mp member]
    simp [SingleqTxq.complete, SingleqTxq.modBuf]
  · have ne : c ≠ i := fun same => out (List.mem_singleton.mpr same)
    simp [SingleqTxq.complete, SingleqTxq.modBuf, ne]

theorem ringPrev_mod {n p : Nat} (pos : 0 < n) : ringPrev n ((p + 1) % n) = p % n := by
  have inside := Nat.mod_lt p pos
  have step := bump_mod pos p
  unfold bump at step
  unfold ringPrev
  split at step
  · rw [← step, if_pos rfl]
    omega
  · rw [← step, if_neg (by omega)]
    omega

/-- Unwinding from the last slot of `l` back to the first gives back all of `l`. -/
theorem singleqUnwind_spec {n p fuel : Nat} {x : Option SqMapping} {l : List (Option SqMapping)}
    {q : SingleqTxq} (count : q.descCount = n) (lap : l.length + 1 ≤ n)
    (enough : l.length + 1 ≤ fuel) (gives : Gives n q.bufs p (l ++ [x])) :
    let r := singleqUnwind (p % n) fuel q ((p + l.length) % n)
    r.2 = p % n ∧
      Emptied q r.1 (ringSlots n p (l.length + 1)).reverse ((l ++ [x]).reverse.flatMap unmapOf) := by
  induction l using List.reverseRecOn generalizing q fuel x with
  | nil =>
      obtain ⟨fuel, rfl⟩ := Nat.exists_eq_succ_of_ne_zero (Nat.ne_of_gt enough)
      have one := complete_emptied q (p % n)
      rw [gives.1] at one
      rw [List.length_nil, Nat.add_zero, singleqUnwind]
      dsimp only
      rw [if_pos rfl, ringSlots_cons]
      simpa using one
  | append_singleton l y ih =>
      obtain ⟨fuel, rfl⟩ := Nat.exists_eq_succ_of_ne_zero (n := fuel) (by omega)
      rw [List.length_append, List.length_singleton] at lap enough ⊢
      have last : (p + (l.length + 1)) % n ∉ ringSlots n p (l.length + 1) :=
        ringSlots_next p (by omega)
      have other : (p + (l.length + 1)) % n ≠ p % n := fun same =>
        last (by rw [ringSlots_cons, same]; exact List.mem_cons_self)
      obtain ⟨front, back⟩ := Gives.append.mp gives
      have one := complete_emptied q ((p + (l.length + 1)) % n)
      rw [List.length_append, List.length_singleton] at back
      rw [back.1] at one
      have kept : Gives n (q.complete ((p + (l.length + 1)) % n)).bufs p (l ++ [y]) := by
        refine front.congr fun c member => one.outside c fun same => last ?_
        rw [← List.mem_singleton.mp same]
        rwa [List.length_append, List.length_singleton] at member
      obtain ⟨stop, rest⟩ := @ih fuel y (q.complete ((p + (l.length + 1)) % n))
        count (by omega) (by omega) kept
      have go : singleqUnwind (p % n) (fuel + 1) q ((p + (l.length + 1)) % n) =
          singleqUnwind (p % n) fuel (q.complete ((p + (l.length + 1)) % n))
            ((p + l.length) % n) := by
        rw [singleqUnwind, if_neg other]
        congr 1
        change ringPrev q.descCount _ = _
        rw [count, ← Nat.add_assoc, ringPrev_mod (by omega)]
      rw [go]
      refine ⟨stop, ?_⟩
      rw [ringSlots_snoc, List.reverse_append, List.reverse_append, List.flatMap_append]
      simpa using one.trans rest

def mapsOf (slots : List (Option SqMapping)) : List SqMapping := slots.filterMap id

/-- How far the map function has come with a packet whose first slot is at position `f`,
on the queue `q`. -/
structure Mapped (q : SingleqTxq) (f : Nat) (st : SqMapState) : Prop where
  only : st.q = { q with bufs := st.q.bufs, ring := st.q.ring, nextMap := st.q.nextMap }
  laid : Laid q.descCount st.q.bufs f st.slots
  bufs : ∀ c ∉ ringSlots q.descCount f st.slots.length, st.q.bufs c = q.bufs c
  ring : ∀ c ∉ ringSlots q.descCount f st.slots.length, st.q.ring c = q.ring c
  skb : ∀ c, (st.q.bufs c).skb = (q.bufs c).skb
  serials : (mapsOf st.slots).map (fun m => m.dma.serial) =
    List.range' q.nextMap (mapsOf st.slots).length
  next : st.q.nextMap = q.nextMap + (mapsOf st.slots).length

namespace Mapped

variable {q : SingleqTxq} {f : Nat} {st : SqMapState}

theorem count (v : Mapped q f st) : st.q.descCount = q.descCount := by rw [v.only]

/-- One more slot is taken. -/
theorem put (v : Mapped q f st) (room : st.slots.length < q.descCount) {x : Option SqMapping}
    {e : TxBuf} (holds : SlotHolds e x)
    (skb : e.skb = (st.q.bufs ((f + st.slots.length) % q.descCount)).skb) {r : Nat → BaseTxDesc}
    (kept : ∀ c ∉ ringSlots q.descCount f (st.slots.length + 1), r c = st.q.ring c)
    {nextMap : Nat} (serial : ∀ m ∈ x, m.dma.serial = st.q.nextMap)
    (next : nextMap = st.q.nextMap + x.toList.length) (i : Nat) :
    Mapped q f ⟨{ st.q with
        bufs := Function.update st.q.bufs ((f + st.slots.length) % q.descCount) e
        ring := r, nextMap }, i, st.slots ++ [x]⟩ := by
  have new := ringSlots_next f room
  have maps : mapsOf (st.slots ++ [x]) = mapsOf st.slots ++ x.toList := by
    rw [mapsOf, List.filterMap_append]
    cases x <;> rfl
  refine ⟨?_, ?_, fun c out => ?_, fun c out => ?_, fun c => ?_, ?_, ?_⟩
  · dsimp only
    rw [v.only]
  · refine Laid.append.mpr ⟨v.laid.congr fun c member => ?_, ?_, trivial⟩
    · have ne : c ≠ (f + st.slots.length) % q.descCount := fun same => by
        rw [same] at member
        exact new member
      exact Function.update_of_ne ne _ _
    · dsimp only
      rw [Function.update_self]
      exact holds
  · rw [List.length_append, List.length_singleton] at out
    have ne : c ≠ (f + st.slots.length) % q.descCount := fun same => by
      rw [same] at out
      exact out (mem_ringSlots_last ..)
    dsimp only
    rw [Function.update_of_ne ne]
    exact v.bufs c fun m => out (ringSlots_subset (Nat.le_succ _) m)
  · rw [List.length_append, List.length_singleton] at out
    exact (kept c out).trans (v.ring c fun m => out (ringSlots_subset (Nat.le_succ _) m))
  · by_cases own : c = (f + st.slots.length) % q.descCount
    · subst own
      dsimp only
      rw [Function.update_self]
      exact skb.trans (v.skb _)
    · dsimp only
      rw [Function.update_of_ne own]
      exact v.skb c
  · rw [maps, List.map_append, v.serials, List.length_append]
    cases x with
    | none => simp
    | some m =>
        have mine : m.dma.serial = q.nextMap + (mapsOf st.slots).length :=
          (serial m rfl).trans v.next
        rw [Option.toList_some, List.map_singleton, List.length_singleton, mine,
          ← List.range'_append_1]
        rfl
  · rw [maps, List.length_append, ← Nat.add_assoc, ← v.next]
    exact next

/-- Further descriptors of a large part. -/
theorem putChunks (chunks : List (Nat × Nat)) {k : Nat} (v : Mapped q f st)
    (length : st.slots.length = k + 1) (here : st.i = (f + k) % q.descCount)
    (room : k + 1 + chunks.length ≤ q.descCount) :
    Mapped q f (singleqPutChunks chunks st) ∧
      (singleqPutChunks chunks st).i = (f + (k + chunks.length)) % q.descCount ∧
      (singleqPutChunks chunks st).slots = st.slots ++ List.replicate chunks.length none := by
  induction chunks generalizing st k with
  | nil => exact ⟨v, here, (List.append_nil _).symm⟩
  | cons c cs ih =>
      rw [List.length_cons] at room
      have slot : bump st.q.descCount st.i = (f + st.slots.length) % q.descCount := by
        rw [v.count, here, bump_mod (by omega), length, Nat.add_assoc]
      have inside : st.i ∈ ringSlots q.descCount f (st.slots.length + 1) := by
        rw [here, length]
        exact ringSlots_subset (Nat.le_succ _) (mem_ringSlots_last ..)
      have one := v.put (x := none) (by omega)
        (e := { st.q.bufs ((f + st.slots.length) % q.descCount) with type := .empty }) rfl rfl
        (r := Function.update st.q.ring st.i (.data c.1 c.2 false false))
        (fun d out => Function.update_of_ne (fun same => out (by rw [same]; exact inside)) _ _)
        nofun (Nat.add_zero _).symm ((f + (k + 1)) % q.descCount)
      have go : singleqPutChunks (c :: cs) st = singleqPutChunks cs
          ⟨{ st.q with
              bufs := Function.update st.q.bufs ((f + st.slots.length) % q.descCount)
                { st.q.bufs ((f + st.slots.length) % q.descCount) with type := .empty }
              ring := Function.update st.q.ring st.i (.data c.1 c.2 false false) },
            (f + (k + 1)) % q.descCount, st.slots ++ [none]⟩ := by
        rw [singleqPutChunks]
        dsimp only
        rw [slot, length]
        rfl
      obtain ⟨rest, stop, slots⟩ := ih one
        (by rw [List.length_append, List.length_singleton, length]) rfl (by omega)
      rw [go]
      refine ⟨rest, ?_, ?_⟩
      · rw [stop, List.length_cons, Nat.add_assoc k, Nat.add_comm 1]
      · rw [slots, List.append_assoc, List.length_cons, List.replicate_succ]
        rfl

theorem part (v : Mapped q f st) (here : st.i = (f + st.slots.length) % q.descCount)
    {addr size : Nat} (room : st.slots.length + bufDescs addr size ≤ q.descCount) :
    let r := (singleqMapPart addr size st).1
    Mapped q f r ∧ r.i = (f + (r.slots.length - 1)) % q.descCount ∧
      r.slots.length = st.slots.length + bufDescs addr size ∧
      ∃ rest, r.slots = st.slots ++ some ⟨⟨addr, st.q.nextMap⟩, size⟩ :: rest := by
  have chunks := bufChunks_length addr size
  have one := v.put (x := some ⟨⟨addr, st.q.nextMap⟩, size⟩) (by omega)
    (e := { st.q.bufs ((f + st.slots.length) % q.descCount) with
      type := .frag, dma := ⟨addr, st.q.nextMap⟩, len := size })
    ⟨rfl, rfl, rfl⟩ rfl (fun _ _ => rfl) (fun m same => by rw [← Option.some.inj same]) rfl st.i
  rw [← here] at one
  have spec : Mapped q f (singleqMapPart addr size st).1 ∧
      (singleqMapPart addr size st).1.i = (f + (st.slots.length +
        (bufChunks size (firstMaxData addr) addr size).1.length)) % q.descCount ∧
      (singleqMapPart addr size st).1.slots = st.slots ++ [some ⟨⟨addr, st.q.nextMap⟩, size⟩] ++
        List.replicate (bufChunks size (firstMaxData addr) addr size).1.length none :=
    one.putChunks (bufChunks size (firstMaxData addr) addr size).1 (k := st.slots.length)
      (by rw [List.length_append, List.length_singleton]) here (by omega)
  obtain ⟨all, stop, slots⟩ := spec
  have length := congrArg List.length slots
  simp only [List.length_append, List.length_singleton, List.length_replicate] at length
  refine ⟨all, ?_, by omega, _, slots.trans (List.append_assoc ..)⟩
  rw [stop, length]
  congr 2
  omega

/-- The next part begins in the next slot. -/
theorem bump {m : SqMapState} (v : Mapped q f m) {k : Nat} (length : m.slots.length = k + 1)
    (here : m.i = (f + (m.slots.length - 1)) % q.descCount) (pos : 0 < q.descCount)
    (d : BaseTxDesc) :
    Mapped q f { m with q := m.q.putDesc m.i d, i := General.bump m.q.descCount m.i } ∧
      General.bump m.q.descCount m.i = (f + m.slots.length) % q.descCount := by
  rw [length, Nat.add_sub_cancel] at here
  refine ⟨⟨?_, v.laid, v.bufs, fun c out => ?_, v.skb, v.serials, v.next⟩, ?_⟩
  · rw [SingleqTxq.putDesc]
    dsimp only
    rw [v.only]
  · have ne : c ≠ m.i := fun same => by
      rw [same, here] at out
      dsimp only at out
      rw [length] at out
      exact out (mem_ringSlots_last ..)
    exact (Function.update_of_ne ne _ _).trans (v.ring c out)
  · rw [v.count, here, bump_mod pos, length, Nat.add_assoc]

end Mapped

/-- What the fragment loop makes of the plan of its parts. -/
def LoopSpec (q : SingleqTxq) (f : Nat) (st : SqMapState) (plan : List (Nat × Nat) × Bool) :
    SqMapResult → Prop
  | .failed m => plan.2 = false ∧ Mapped q f m ∧
      m.slots.length = st.slots.length + planDescs plan.1 ∧
      m.i = (f + m.slots.length) % q.descCount
  | .mapped m _ => plan.2 = true ∧ Mapped q f m ∧
      m.slots.length = st.slots.length + planDescs plan.1 ∧
      m.i = (f + (m.slots.length - 1)) % q.descCount ∧
      ∃ x rest, m.slots = st.slots ++ some x :: rest

theorem txSingleqMapLoop_spec {q : SingleqTxq} {f : Nat} (dma : Nat → Option Nat)
    (frags : List Nat) {k size : Nat} {st : SqMapState} (v : Mapped q f st)
    (here : st.i = (f + st.slots.length) % q.descCount) (r : SwQueue)
    (room : st.slots.length + planDescs (mapPlan false dma frags k size r).1 ≤ q.descCount) :
    LoopSpec q f st (mapPlan false dma frags k size r) (txSingleqMapLoop dma frags k size st) := by
  induction frags generalizing k size st with
  | nil =>
      unfold mapPlan at room ⊢
      unfold txSingleqMapLoop
      cases mapped : dma k with
      | none => exact ⟨rfl, v, rfl, here⟩
      | some addr =>
          rw [mapped] at room
          simp only [planDescs, List.map_cons, List.map_nil, List.sum_cons, List.sum_nil,
            Nat.add_zero] at room
          obtain ⟨all, stop, length, rest, slots⟩ := v.part here room
          refine ⟨rfl, all, ?_, stop, _, rest, slots⟩
          simpa [planDescs] using length
  | cons g gs ih =>
      unfold mapPlan at room ⊢
      unfold txSingleqMapLoop
      cases mapped : dma k with
      | none => exact ⟨rfl, v, rfl, here⟩
      | some addr =>
          rw [mapped] at room
          dsimp only at room ⊢
          by_cases last : (g :: gs).sum = 0
          · rw [if_pos last] at room ⊢
            rw [if_pos last]
            simp only [planDescs, List.map_cons, List.map_nil, List.sum_cons, List.sum_nil,
              Nat.add_zero] at room
            obtain ⟨all, stop, length, rest, slots⟩ := v.part here room
            refine ⟨rfl, all, ?_, stop, _, rest, slots⟩
            simpa [planDescs] using length
          · rw [if_neg last] at room ⊢
            rw [if_neg last]
            have refill : nextRefill false r = some r := rfl
            rw [refill] at room ⊢
            dsimp only at room ⊢
            simp only [planDescs, List.map_cons, List.sum_cons] at room
            obtain ⟨all, stop, length, rest, slots⟩ :=
              v.part here (show _ + bufDescs addr size ≤ _ by omega)
            have some_ := bufDescs_pos addr size
            obtain ⟨next, begin_⟩ := all.bump
              (k := st.slots.length + bufDescs addr size - 1) (by omega) stop (by omega)
              (.data (singleqMapPart addr size st).2.1 (singleqMapPart addr size st).2.2 false false)
            have spec := @ih (k + 1) g _ next begin_ (by
              dsimp only
              simp only [planDescs]
              omega)
            revert spec
            cases txSingleqMapLoop dma gs (k + 1) g _ with
            | failed m =>
                rintro ⟨bad, all, total, stop⟩
                refine ⟨bad, all, ?_, stop⟩
                simp only [planDescs, List.map_cons, List.sum_cons] at total ⊢
                omega
            | mapped m l =>
                rintro ⟨good, all, total, stop, x, rest', slots'⟩
                refine ⟨good, all, ?_, stop, ⟨⟨addr, st.q.nextMap⟩, size⟩, rest ++ some x :: rest',
                  slots'.trans ?_⟩
                · simp only [planDescs, List.map_cons, List.sum_cons] at total ⊢
                  omega
                · dsimp only
                  rw [slots, List.append_assoc]
                  rfl

/-- A packet the device has not given back, or whose slots have been cleaned. `ctx` tells
whether a context descriptor lies before its slots. -/
structure SqPacket where
  skb : Nat
  ctx : Bool
  slots : List (Option SqMapping)
  done : Bool
  deriving DecidableEq, Repr

def SqPacket.size (p : SqPacket) : Nat := p.ctx.toNat + p.slots.length

def flightSize (l : List SqPacket) : Nat := (l.map SqPacket.size).sum

def SqPacket.gives (p : SqPacket) : List SqEffect := .freeSkb p.skb :: p.slots.flatMap unmapOf

/-- The slots of a packet from its first on. -/
structure HeadAt (q : SingleqTxq) (f : Nat) (p : SqPacket) (m : SqMapping)
    (rest : List (Option SqMapping)) : Prop where
  slots : p.slots = some m :: rest
  type : (q.bufs (f % q.descCount)).type = .skb
  skb : (q.bufs (f % q.descCount)).skb = p.skb
  dma : (q.bufs (f % q.descCount)).dma = m.dma
  len : (q.bufs (f % q.descCount)).len = m.len
  rsIdx : (q.bufs (f % q.descCount)).rsIdx = (f + rest.length) % q.descCount
  laid : Laid q.descCount q.bufs (f + 1) rest
  done : (q.ring ((f + rest.length) % q.descCount)).done = p.done

def PacketAt (q : SingleqTxq) (a : Nat) (p : SqPacket) : Prop :=
  (p.ctx = true → (q.bufs (a % q.descCount)).type = .ctx) ∧
    ∃ m rest, HeadAt q (a + p.ctx.toNat) p m rest

/-- The packets of `l` lie one behind the other from position `a` on. -/
def Flight (q : SingleqTxq) : Nat → List SqPacket → Prop
  | _, [] => True
  | a, p :: l => PacketAt q a p ∧ Flight q (a + p.size) l

theorem flightSize_cons (p : SqPacket) (l : List SqPacket) :
    flightSize (p :: l) = p.size + flightSize l := by
  rw [flightSize, List.map_cons, List.sum_cons, flightSize]

theorem flightSize_append (l l' : List SqPacket) :
    flightSize (l ++ l') = flightSize l + flightSize l' := by
  rw [flightSize, List.map_append, List.sum_append, flightSize, flightSize]

/-- `q'` has the slots of `l` in common with `q`. -/
structure SameSlots (q q' : SingleqTxq) (l : List Nat) : Prop where
  count : q'.descCount = q.descCount
  bufs : ∀ c ∈ l, q'.bufs c = q.bufs c
  ring : ∀ c ∈ l, q'.ring c = q.ring c

theorem SameSlots.mono {q q' : SingleqTxq} {l l' : List Nat} (same : SameSlots q q' l)
    (sub : l' ⊆ l) : SameSlots q q' l' :=
  ⟨same.count, fun c m => same.bufs c (sub m), fun c m => same.ring c (sub m)⟩

theorem HeadAt.congr {q q' : SingleqTxq} {f : Nat} {p : SqPacket} {m : SqMapping}
    {rest : List (Option SqMapping)} (h : HeadAt q f p m rest)
    (same : SameSlots q q' (ringSlots q.descCount f (rest.length + 1))) : HeadAt q' f p m rest := by
  have head : q'.bufs (f % q.descCount) = q.bufs (f % q.descCount) :=
    same.bufs _ (by rw [ringSlots_cons]; exact List.mem_cons_self)
  have last := same.ring _ (mem_ringSlots_last q.descCount f rest.length)
  have laid : Laid q.descCount q'.bufs (f + 1) rest := h.laid.congr fun c member =>
    same.bufs c (by rw [ringSlots_cons]; exact List.mem_cons_of_mem _ member)
  constructor
  · exact h.slots
  all_goals rw [same.count]
  · rw [head, h.type]
  · rw [head, h.skb]
  · rw [head, h.dma]
  · rw [head, h.len]
  · rw [head, h.rsIdx]
  · exact laid
  · rw [last, h.done]

theorem PacketAt.congr {q q' : SingleqTxq} {a : Nat} {p : SqPacket} (h : PacketAt q a p)
    (same : SameSlots q q' (ringSlots q.descCount a p.size)) : PacketAt q' a p := by
  obtain ⟨ctx, m, rest, head⟩ := h
  have length : p.slots.length = rest.length + 1 := by rw [head.slots, List.length_cons]
  refine ⟨fun some_ => ?_, m, rest, head.congr (same.mono ?_)⟩
  · have first : a % q.descCount ∈ ringSlots q.descCount a p.size := by
      rw [SqPacket.size, length, ← Nat.add_assoc, ringSlots_cons]
      exact List.mem_cons_self
    rw [same.count, same.bufs _ first]
    exact ctx some_
  · rw [SqPacket.size, length, ringSlots_append q.descCount a]
    exact List.subset_append_right _ _

theorem Flight.congr {q q' : SingleqTxq} {a : Nat} {l : List SqPacket} (h : Flight q a l)
    (same : SameSlots q q' (ringSlots q.descCount a (flightSize l))) : Flight q' a l := by
  induction l generalizing a with
  | nil => trivial
  | cons p l ih =>
      rw [flightSize_cons, ringSlots_append] at same
      exact ⟨h.1.congr (same.mono (List.subset_append_left _ _)),
        ih h.2 (same.mono (List.subset_append_right _ _))⟩

theorem Flight.append {q : SingleqTxq} {a : Nat} {l l' : List SqPacket} :
    Flight q a (l ++ l') ↔ Flight q a l ∧ Flight q (a + flightSize l) l' := by
  induction l generalizing a with
  | nil => simp [Flight, flightSize]
  | cons p l ih =>
      rw [List.cons_append, Flight, Flight, ih, flightSize_cons, and_assoc, Nat.add_assoc]

/-- The slots behind the first of a packet have a length just where they have a mapping. -/
def clearSlots (n : Nat) (bufs : Nat → TxBuf) : Nat → List (Option SqMapping) → Bool
  | _, [] => true
  | p, none :: l => (bufs (p % n)).len == 0 && clearSlots n bufs (p + 1) l
  | p, some m :: l => m.len != 0 && clearSlots n bufs (p + 1) l

theorem clearSlots_congr {n p : Nat} {bufs bufs' : Nat → TxBuf} {l : List (Option SqMapping)}
    (same : ∀ c ∈ ringSlots n p l.length, bufs' c = bufs c) :
    clearSlots n bufs' p l = clearSlots n bufs p l := by
  induction l generalizing p with
  | nil => rfl
  | cons x l ih =>
      rw [List.length_cons, ringSlots_cons] at same
      have rest := ih fun c m => same c (List.mem_cons_of_mem _ m)
      cases x with
      | none => rw [clearSlots, clearSlots, rest, same _ List.mem_cons_self]
      | some m => rw [clearSlots, clearSlots, rest]

/-- The inner loop gives back the mappings behind the first. -/
theorem singleqCleanRest_spec {rest : List (Option SqMapping)} {n f fuel : Nat} {q : SingleqTxq}
    (count : q.descCount = n) (short : rest.length < n) (enough : rest.length < fuel)
    (laid : Laid n q.bufs (f + 1) rest) (clear : clearSlots n q.bufs (f + 1) rest = true) :
    let r := singleqCleanRest ((f + rest.length) % n) fuel q (f % n)
    r.2 = (f + rest.length) % n ∧
      Emptied q r.1 (ringSlots n (f + 1) rest.length) (rest.flatMap unmapOf) := by
  induction rest generalizing f fuel q with
  | nil =>
      obtain ⟨fuel, rfl⟩ := Nat.exists_eq_succ_of_ne_zero (Nat.ne_of_gt enough)
      rw [List.length_nil, Nat.add_zero, singleqCleanRest, if_pos rfl]
      exact ⟨rfl, by simp, nofun, fun _ _ => rfl⟩
  | cons x rest ih =>
      obtain ⟨fuel, rfl⟩ := Nat.exists_eq_succ_of_ne_zero (n := fuel) (by omega)
      rw [List.length_cons] at short enough ⊢
      have further : f % n ≠ (f + (rest.length + 1)) % n :=
        mod_ne_of_near (by omega) (by omega)
      have next : bump n (f % n) = (f + 1) % n := bump_mod (by omega) f
      have log : (if (q.bufs ((f + 1) % n)).len ≠ 0 then
          q.log ++ [.unmap (q.bufs ((f + 1) % n)).dma (q.bufs ((f + 1) % n)).len] else q.log) =
          q.log ++ unmapOf x := by
        cases x with
        | none =>
            have bare : (q.bufs ((f + 1) % n)).len = 0 := by
              rw [clearSlots, Bool.and_eq_true, beq_iff_eq] at clear
              exact clear.1
            rw [if_neg (not_not.mpr bare)]
            exact (List.append_nil _).symm
        | some m =>
            obtain ⟨-, dma, len⟩ := laid.1
            have some_ : (q.bufs ((f + 1) % n)).len ≠ 0 := by
              rw [clearSlots, Bool.and_eq_true, bne_iff_ne] at clear
              rw [len]
              exact clear.1
            rw [if_pos some_, dma, len]
            rfl
      have left : clearSlots n q.bufs (f + 1 + 1) rest = true := by
        cases x <;> (rw [clearSlots, Bool.and_eq_true] at clear; exact clear.2)
      let q₁ : SingleqTxq :=
        { q.modBuf ((f + 1) % n) fun e => { e with type := .empty, len := 0 } with
          log := q.log ++ unmapOf x }
      have one : Emptied q q₁ [(f + 1) % n] (unmapOf x) := by
        refine ⟨rfl, fun c member => ?_, fun c out => ?_⟩
        · rw [List.mem_singleton.mp member]
          simp [q₁, SingleqTxq.modBuf]
        · have ne : c ≠ (f + 1) % n := fun same => out (List.mem_singleton.mpr same)
          simp [q₁, SingleqTxq.modBuf, ne]
      have apart : ∀ c ∈ ringSlots n (f + 1 + 1) rest.length, q₁.bufs c = q.bufs c := by
        intro c member
        refine one.outside c fun own => ?_
        have nodup := ringSlots_nodup (n := n) (k := rest.length + 1) (f + 1) (by omega)
        rw [ringSlots_cons] at nodup
        rw [List.mem_singleton.mp own] at member
        exact (List.nodup_cons.mp nodup).1 member
      have go : singleqCleanRest ((f + (rest.length + 1)) % n) (fuel + 1) q (f % n) =
          singleqCleanRest ((f + 1 + rest.length) % n) fuel q₁ ((f + 1) % n) := by
        rw [singleqCleanRest, if_neg further]
        dsimp only
        rw [count, next, log, Nat.add_assoc, Nat.add_comm 1]
      obtain ⟨stop, all⟩ := @ih (f + 1) fuel q₁ count (by omega) (by omega)
        (laid.2.congr apart) ((clearSlots_congr apart).trans left)
      rw [go]
      refine ⟨stop.trans (by rw [Nat.add_assoc, Nat.add_comm 1]), ?_⟩
      rw [ringSlots_cons, List.flatMap_cons]
      exact one.trans all

/-- The packets a pass with this budget cleans, and those it leaves. It gets past the context
descriptor of the first packet that is not done. -/
def reap : Nat → List SqPacket → List SqPacket × List SqPacket
  | 0, l => ([], l)
  | _ + 1, [] => ([], [])
  | budget + 1, p :: l =>
    if p.done then (p :: (reap budget l).1, (reap budget l).2) else ([], { p with ctx := false } :: l)

/-- A pass meets no length left over from an earlier lap, no part without a length, and behind
the last packet no context slot. -/
def passOk (q : SingleqTxq) : Nat → Nat → List SqPacket → Bool
  | 0, _, _ => true
  | _ + 1, a, [] => (q.bufs (a % q.descCount)).type != .ctx
  | budget + 1, a, p :: l =>
    if p.done then
      clearSlots q.descCount q.bufs (a + p.ctx.toNat + 1) p.slots.tail &&
        passOk q budget (a + p.size) l
    else true

theorem passOk_congr {q q' : SingleqTxq} {budget a : Nat} {l : List SqPacket}
    (count : q'.descCount = q.descCount) (sized : ∀ p ∈ l, p.slots ≠ [])
    (same : ∀ c ∈ ringSlots q.descCount a (flightSize l + 1), q'.bufs c = q.bufs c) :
    passOk q' budget a l = passOk q budget a l := by
  induction l generalizing budget a with
  | nil =>
      cases budget with
      | zero => rfl
      | succ budget =>
          rw [passOk, passOk, count, same (a % q.descCount) (mem_ringSlots_last q.descCount a 0)]
  | cons p l ih =>
      cases budget with
      | zero => rfl
      | succ budget =>
          obtain ⟨x, rest, slots⟩ := List.exists_cons_of_ne_nil (sized p List.mem_cons_self)
          have size : p.size = p.ctx.toNat + 1 + rest.length := by
            rw [SqPacket.size, slots, List.length_cons]
            omega
          rw [flightSize_cons, Nat.add_assoc] at same
          have front : ∀ c ∈ ringSlots q.descCount (a + p.ctx.toNat + 1) rest.length,
              q'.bufs c = q.bufs c := fun c member => same c (by
            rw [size, ringSlots_append, ringSlots_append, List.append_assoc]
            exact List.mem_append_right _ (List.mem_append_left _ member))
          have back := @ih budget (a + p.size)
            (fun p m => sized p (List.mem_cons_of_mem _ m)) fun c member => same c (by
              rw [ringSlots_append]
              exact List.mem_append_right _ member)
          rw [passOk, passOk, count, slots, List.tail_cons, clearSlots_congr front, back]

section Turn

variable {s : SqCleaning} {n f fuel : Nat} {p : SqPacket} {m : SqMapping}
  {rest : List (Option SqMapping)}

/-- A context slot is passed. -/
theorem cleanTurn_ctx (ctx : (s.q.bufs s.ntc).type = .ctx) (fuel : Nat) :
    ∃ s' : SqCleaning, singleqCleanTurns (fuel + 1) s = singleqCleanTurns fuel s' ∧
      s'.budget = s.budget ∧ s'.ntc = bump s.q.descCount s.ntc ∧
      Emptied s.q s'.q [s.ntc] [] := by
  refine ⟨{ s with
      q := s.q.modBuf s.ntc fun e => { e with type := .empty }
      ntc := bump s.q.descCount s.ntc }, ?_, rfl, rfl, ?_⟩
  · rw [singleqCleanTurns]
    dsimp only
    rw [ctx]
  · refine ⟨?_, fun c member => ?_, fun c out => ?_⟩
    · simp [SingleqTxq.modBuf]
    · rw [List.mem_singleton.mp member]
      simp [SingleqTxq.modBuf]
    · have ne : c ≠ s.ntc := fun same => out (List.mem_singleton.mpr same)
      simp [SingleqTxq.modBuf, ne]

theorem cleanTurn_wait (here : s.ntc = f % s.q.descCount) (head : HeadAt s.q f p m rest)
    (waits : p.done = false) (fuel : Nat) : singleqCleanTurns (fuel + 1) s = s := by
  rw [singleqCleanTurns]
  dsimp only
  rw [here, head.type, head.rsIdx, head.done, waits]
  rfl

/-- A done packet is cleaned. -/
theorem cleanTurn_done (here : s.ntc = f % s.q.descCount) (head : HeadAt s.q f p m rest)
    (short : rest.length < s.q.descCount) (done : p.done = true)
    (clear : clearSlots s.q.descCount s.q.bufs (f + 1) rest = true) (fuel : Nat) :
    ∃ s' : SqCleaning,
      singleqCleanTurns (fuel + 1) s = (if s'.budget = 0 then s' else singleqCleanTurns fuel s') ∧
      s'.budget = s.budget - 1 ∧ s'.ntc = (f + (rest.length + 1)) % s.q.descCount ∧
      Emptied s.q s'.q (ringSlots s.q.descCount f (rest.length + 1)) p.gives := by
  let q₁ : SingleqTxq :=
    { s.q.modBuf (f % s.q.descCount) fun e => { e with type := .empty } with
      log := s.q.log ++ [.freeSkb p.skb, .unmap m.dma m.len] }
  have one : Emptied s.q q₁ [f % s.q.descCount] [.freeSkb p.skb, .unmap m.dma m.len] := by
    refine ⟨rfl, fun c member => ?_, fun c out => ?_⟩
    · rw [List.mem_singleton.mp member]
      simp [q₁, SingleqTxq.modBuf]
    · have ne : c ≠ f % s.q.descCount := fun same => out (List.mem_singleton.mpr same)
      simp [q₁, SingleqTxq.modBuf, ne]
  have apart : ∀ c ∈ ringSlots s.q.descCount (f + 1) rest.length, q₁.bufs c = s.q.bufs c := by
    intro c member
    refine one.outside c fun own => ?_
    have nodup := ringSlots_nodup (n := s.q.descCount) (k := rest.length + 1) f short
    rw [ringSlots_cons] at nodup
    rw [List.mem_singleton.mp own] at member
    exact (List.nodup_cons.mp nodup).1 member
  obtain ⟨stop, all⟩ := singleqCleanRest_spec (q := q₁) (n := s.q.descCount) rfl short
    short (head.laid.congr apart) ((clearSlots_congr apart).trans clear)
  have final : (singleqCleanRest ((f + rest.length) % s.q.descCount) s.q.descCount q₁
      (f % s.q.descCount)).1.descCount = s.q.descCount := by
    rw [all.only]
    rfl
  let r := singleqCleanRest ((f + rest.length) % s.q.descCount) s.q.descCount q₁
    (f % s.q.descCount)
  refine ⟨⟨r.1, bump r.1.descCount r.2, s.budget - 1,
    u32 (s.pkts + (s.q.bufs (f % s.q.descCount)).packets),
    u32 (s.bytes + (s.q.bufs (f % s.q.descCount)).bytes)⟩, ?_, rfl, ?_, ?_⟩
  · rw [singleqCleanTurns]
    dsimp only
    rw [here, head.type, head.rsIdx, head.done, done, head.skb, head.dma, head.len]
    rfl
  · dsimp only
    rw [final, stop, bump_mod (by omega), Nat.add_assoc]
  · have both := one.trans all
    rw [ringSlots_cons]
    have effects : p.gives = [.freeSkb p.skb, .unmap m.dma m.len] ++ rest.flatMap unmapOf := by
      rw [SqPacket.gives, head.slots]
      rfl
    rw [effects]
    exact both

end Turn

theorem Emptied.sameSlots {q q' : SingleqTxq} {l l' : List Nat} {effects : List SqEffect}
    (v : Emptied q q' l effects) (apart : ∀ c ∈ l', c ∉ l) : SameSlots q q' l' :=
  ⟨by rw [v.only], fun c member => v.outside c (apart c member), fun _ _ => by rw [v.only]⟩

/-- The slots behind `j` others are apart from them, on less than a lap. -/
theorem ringSlots_apart {n p j k : Nat} (lap : j + k ≤ n) :
    ∀ c ∈ ringSlots n (p + j) k, c ∉ ringSlots n p j := by
  have nodup := ringSlots_nodup p lap
  rw [ringSlots_append] at nodup
  exact fun c later former => List.disjoint_of_nodup_append nodup former later

theorem Flight.sized {q : SingleqTxq} {a : Nat} {l : List SqPacket} (h : Flight q a l) :
    ∀ p ∈ l, p.slots ≠ [] := by
  induction l generalizing a with
  | nil => exact nofun
  | cons p l ih =>
      intro x member
      rcases List.mem_cons.mp member with rfl | later
      · obtain ⟨-, m, rest, head⟩ := h.1
        rw [head.slots]
        exact List.cons_ne_nil _ _
      · exact ih h.2 x later

/-- What a pass does: it gives back the packets it cleans and stops before those it leaves. -/
def PassSpec (n a : Nat) (s : SqCleaning) (l : List SqPacket) (r : SqCleaning) : Prop :=
  ∃ d, d + flightSize (reap s.budget l).2 = flightSize l ∧ r.ntc = (a + d) % n ∧
    Emptied s.q r.q (ringSlots n a d) ((reap s.budget l).1.flatMap SqPacket.gives)

theorem PassSpec.nothing {n a : Nat} {s : SqCleaning} {l : List SqPacket} (here : s.ntc = a % n)
    (cleaned : (reap s.budget l).1 = []) (left : flightSize (reap s.budget l).2 = flightSize l) :
    PassSpec n a s l s := by
  refine ⟨0, by omega, here, ?_⟩
  rw [cleaned]
  exact ⟨by simp, nofun, fun _ _ => rfl⟩

/-- The pass after a context slot, if there was one. -/
theorem singleqCleanTurns_ctx {s : SqCleaning} {a : Nat} {p : SqPacket} (fuel : Nat)
    (here : s.ntc = a % s.q.descCount) (pos : 0 < s.q.descCount)
    (ctx : p.ctx = true → (s.q.bufs (a % s.q.descCount)).type = .ctx) :
    ∃ s' : SqCleaning, singleqCleanTurns (fuel + p.ctx.toNat) s = singleqCleanTurns fuel s' ∧
      s'.budget = s.budget ∧ s'.ntc = (a + p.ctx.toNat) % s.q.descCount ∧
      Emptied s.q s'.q (ringSlots s.q.descCount a p.ctx.toNat) [] := by
  cases some_ : p.ctx with
  | false => exact ⟨s, rfl, rfl, here, by simp, nofun, fun _ _ => rfl⟩
  | true =>
      have type := ctx some_
      rw [← here] at type
      obtain ⟨s', go, budget, next, one⟩ := cleanTurn_ctx type fuel
      refine ⟨s', go, budget, ?_, ?_⟩
      · rw [next, here, bump_mod pos]
        rfl
      · rw [here] at one
        exact one

theorem singleqCleanTurns_spec {l : List SqPacket} {n a fuel : Nat} {s : SqCleaning}
    (count : s.q.descCount = n) (here : s.ntc = a % n) (budget : s.budget ≠ 0)
    (flight : Flight s.q a l) (short : flightSize l < n) (enough : flightSize l < fuel)
    (ok : passOk s.q s.budget a l = true)
    (stop : (s.q.bufs ((a + flightSize l) % n)).type ≠ .skb) :
    PassSpec n a s l (singleqCleanTurns fuel s) := by
  subst count
  induction l generalizing a fuel s with
  | nil =>
      obtain ⟨fuel, rfl⟩ := Nat.exists_eq_succ_of_ne_zero (Nat.ne_of_gt (Nat.zero_lt_of_lt enough))
      obtain ⟨b, some_⟩ := Nat.exists_eq_succ_of_ne_zero budget
      have idle : singleqCleanTurns (fuel + 1) s = s := by
        rw [some_, passOk, bne_iff_ne] at ok
        rw [flightSize, List.map_nil, List.sum_nil, Nat.add_zero] at stop
        rw [singleqCleanTurns]
        dsimp only
        rw [here]
        split
        · next ctx => exact absurd ctx ok
        · next skb => exact absurd skb stop
        · rfl
      rw [idle]
      exact .nothing here (by rw [some_]; rfl) (by rw [some_]; rfl)
  | cons p l ih =>
      obtain ⟨⟨ctx, m, rest, head⟩, later⟩ := flight
      have length : p.slots.length = rest.length + 1 := by rw [head.slots, List.length_cons]
      have size : p.size = p.ctx.toNat + (rest.length + 1) := by rw [SqPacket.size, length]
      rw [flightSize_cons] at short enough stop
      obtain ⟨fuel, rfl⟩ := Nat.exists_eq_add_of_le
        (show 1 + p.ctx.toNat ≤ fuel by omega)
      obtain ⟨s₁, go, budget₁, here₁, passed⟩ := singleqCleanTurns_ctx (fuel + 1) here
        (by omega) ctx
      have shift : 1 + p.ctx.toNat + fuel = fuel + 1 + p.ctx.toNat := by omega
      have count₁ : s₁.q.descCount = s.q.descCount := by rw [passed.only]
      have same₁ : SameSlots s.q s₁.q
          (ringSlots s.q.descCount (a + p.ctx.toNat) (rest.length + 1 + flightSize l + 1)) :=
        passed.sameSlots (ringSlots_apart (by omega))
      have head₁ := head.congr (same₁.mono (ringSlots_subset (by omega)))
      rw [← count₁] at here₁
      obtain ⟨b, some_⟩ := Nat.exists_eq_succ_of_ne_zero budget
      rw [shift, go]
      rw [some_, passOk] at ok
      cases done : p.done with
      | false =>
          rw [cleanTurn_wait here₁ head₁ done]
          have reaped : reap s.budget (p :: l) = ([], { p with ctx := false } :: l) := by
            rw [some_, reap, done]
            rfl
          refine ⟨p.ctx.toNat, ?_, by rw [here₁, count₁], ?_⟩
          · rw [reaped, flightSize_cons, flightSize_cons, SqPacket.size, SqPacket.size]
            simp only [Bool.toNat_false]
            omega
          · rw [reaped]
            exact passed
      | true =>
          rw [done, if_pos rfl, Bool.and_eq_true] at ok
          obtain ⟨clear, okLater⟩ := ok
          rw [head.slots, List.tail_cons] at clear
          have clear₁ : clearSlots s₁.q.descCount s₁.q.bufs (a + p.ctx.toNat + 1) rest = true := by
            rw [count₁, clearSlots_congr fun c member => same₁.bufs c ?_]
            · exact clear
            · rw [show rest.length + 1 + flightSize l + 1 = 1 + rest.length + (flightSize l + 1) by
                omega, ringSlots_append, ringSlots_append]
              exact List.mem_append_left _ (List.mem_append_right _ member)
          obtain ⟨s₂, go₂, budget₂, here₂, cleaned⟩ := cleanTurn_done here₁ head₁
            (by rw [count₁]; omega) done clear₁ fuel
          rw [count₁] at here₂ cleaned
          have both : Emptied s.q s₂.q (ringSlots s.q.descCount a p.size) p.gives := by
            rw [size, ringSlots_append]
            exact passed.trans cleaned
          have count₂ : s₂.q.descCount = s.q.descCount := by rw [both.only]
          have here₂ : s₂.ntc = (a + p.size) % s.q.descCount := by
            rw [here₂, size, Nat.add_assoc]
          have left : s₂.budget = b := by rw [budget₂, budget₁, some_]; rfl
          have reaped : reap s.budget (p :: l) = (p :: (reap b l).1, (reap b l).2) := by
            rw [some_, reap, done, if_pos rfl]
          rw [go₂]
          by_cases spent : s₂.budget = 0
          · rw [if_pos spent]
            have none_ : b = 0 := left.symm.trans spent
            refine ⟨p.size, ?_, here₂, ?_⟩
            · rw [reaped, none_, reap, flightSize_cons]
            · rw [reaped, none_, reap, List.flatMap_cons, List.flatMap_nil, List.append_nil]
              exact both
          · rw [if_neg spent]
            have same₂ : SameSlots s.q s₂.q
                (ringSlots s.q.descCount (a + p.size) (flightSize l + 1)) :=
              both.sameSlots (ringSlots_apart (by omega))
            have spec := ih (s := s₂) (a := a + p.size) spent
              (later.congr (same₂.mono (ringSlots_subset (Nat.le_succ _))))
              (show flightSize l < fuel by omega)
              (by rw [left, passOk_congr count₂ later.sized same₂.bufs]; exact okLater)
              (by rw [count₂]; exact here₂) (by rw [count₂]; omega)
              (by
                rw [count₂, same₂.bufs _ (mem_ringSlots_last ..), Nat.add_assoc]
                exact stop)
            rw [count₂] at spec
            obtain ⟨d, total, here₃, all⟩ := spec
            rw [left] at total all
            refine ⟨p.size + d, ?_, ?_, ?_⟩
            · rw [reaped, flightSize_cons]
              dsimp only
              omega
            · rw [here₃, Nat.add_assoc]
            · rw [reaped, ringSlots_append, List.flatMap_cons]
              exact both.trans all

/-- The plan of the parts of a packet. There is no refill queue in the single queue model. -/
def singleqPlan (dma : Nat → Option Nat) (skb : Skb) : List (Nat × Nat) × Bool :=
  mapPlan false dma skb.frags 0 skb.headlen (rflAlloc 0)

def singleqTaken (dma : Nat → Option Nat) (skb : Skb) : Nat :=
  skb.gso.isSome.toNat + planDescs (singleqPlan dma skb).1 + (!(singleqPlan dma skb).2).toNat

def IdleBuf (e : TxBuf) : Prop := e.type = .empty ∨ e.type = .ctx

theorem IdleBuf.effects {e : TxBuf} (idle : IdleBuf e) : sqeEffects e = [] := by
  rcases idle with type | type <;> rw [sqeEffects, type]

/-- What a packet put on the ring at position `a` leaves of the queue. -/
structure SqSent (q : SingleqTxq) (a : Nat) (p : SqPacket) (q' : SingleqTxq) : Prop where
  only : q' = { q with
    bufs := q'.bufs, ring := q'.ring, nextMap := q'.nextMap, nextToUse := q'.nextToUse }
  use : q'.nextToUse = (a + p.size) % q.descCount
  packet : PacketAt q' a p
  bufs : ∀ c ∉ ringSlots q.descCount a p.size, q'.bufs c = q.bufs c
  ring : ∀ c ∉ ringSlots q.descCount a p.size, q'.ring c = q.ring c
  serials : (mapsOf p.slots).map (fun m => m.dma.serial) =
    List.range' q.nextMap (mapsOf p.slots).length
  next : q'.nextMap = q.nextMap + (mapsOf p.slots).length

/-- What a packet whose parts could not all be mapped leaves; `k` slots from position `a` on
were touched. -/
structure SqUndone (q : SingleqTxq) (a k id : Nat) (slots : List (Option SqMapping))
    (q' : SingleqTxq) : Prop where
  only : q' = { q with bufs := q'.bufs, ring := q'.ring, nextMap := q'.nextMap, log := q'.log }
  log : q'.log = q.log ++ slots.reverse.flatMap unmapOf ++ [.freeSkb id]
  bufs : ∀ c ∉ ringSlots q.descCount a k, q'.bufs c = q.bufs c
  ring : ∀ c ∉ ringSlots q.descCount a k, q'.ring c = q.ring c
  idle : ∀ c ∈ ringSlots q.descCount a k, (q'.bufs c).type = .empty ∨
    (c = a % q.descCount ∧ (q'.bufs c).type = .ctx)
  serials : (mapsOf slots).map (fun m => m.dma.serial) = List.range' q.nextMap (mapsOf slots).length
  next : q'.nextMap = q.nextMap + (mapsOf slots).length

/-- The queue when the map function is entered: a context slot has been taken where `ctx` is
one, and the skb is recorded. -/
structure SqBegun (q : SingleqTxq) (a ctx id : Nat) (q' : SingleqTxq) : Prop where
  only : q' = { q with bufs := q'.bufs, ring := q'.ring, nextToUse := q'.nextToUse }
  use : q'.nextToUse = (a + ctx) % q.descCount
  bufs : ∀ c ∉ ringSlots q.descCount a (ctx + 1), q'.bufs c = q.bufs c
  ring : ∀ c ∉ ringSlots q.descCount a (ctx + 1), q'.ring c = q.ring c
  type : ctx = 1 → (q'.bufs (a % q.descCount)).type = .ctx
  idle : IdleBuf (q'.bufs ((a + ctx) % q.descCount))
  skb : (q'.bufs ((a + ctx) % q.descCount)).skb = id

theorem SqBegun.record {q q₁ : SingleqTxq} {a ctx id : Nat}
    (only : q₁ = { q with bufs := q₁.bufs, ring := q₁.ring, nextToUse := q₁.nextToUse })
    (use : q₁.nextToUse = (a + ctx) % q.descCount) (short : ctx + 1 ≤ q.descCount)
    (bufs : ∀ c ∉ ringSlots q.descCount a ctx, q₁.bufs c = q.bufs c)
    (ring : ∀ c ∉ ringSlots q.descCount a ctx, q₁.ring c = q.ring c)
    (type : ctx = 1 → (q₁.bufs (a % q.descCount)).type = .ctx)
    (idle : IdleBuf (q.bufs ((a + ctx) % q.descCount))) {g : TxBuf → TxBuf}
    (kind : ∀ e, (g e).type = e.type) (skb : ∀ e, (g e).skb = id) :
    SqBegun q a ctx id (q₁.modBuf q₁.nextToUse g) := by
  have first := ringSlots_next a (show ctx < q.descCount by omega)
  refine ⟨?_, use, fun c out => ?_, fun c out => ?_, fun some_ => ?_, ?_, ?_⟩
  · rw [SingleqTxq.modBuf]
    dsimp only
    rw [only]
  · have ne : c ≠ q₁.nextToUse := fun same => by
      rw [same, use] at out
      exact out (mem_ringSlots_last ..)
    have rest : c ∉ ringSlots q.descCount a ctx := fun m =>
      out (ringSlots_subset (Nat.le_succ ctx) m)
    rw [SingleqTxq.modBuf]
    dsimp only
    rw [Function.update_of_ne ne]
    exact bufs c rest
  · exact ring c fun m => out (ringSlots_subset (Nat.le_succ ctx) m)
  · have ne : a % q.descCount ≠ q₁.nextToUse := by
      rw [use, some_]
      exact mod_ne_of_near (by omega) (by omega)
    rw [SingleqTxq.modBuf]
    dsimp only
    rw [Function.update_of_ne ne]
    exact type some_
  · rw [SingleqTxq.modBuf, ← use]
    dsimp only
    rw [Function.update_self, IdleBuf, kind, use, bufs _ first]
    exact idle
  · rw [SingleqTxq.modBuf, ← use]
    dsimp only
    rw [Function.update_self, skb]

/-- The outcome of `idpf_tso` agrees with the skb. -/
def TsoOf (skb : Skb) : Tso → Prop
  | .off => skb.gso = none
  | .error => False
  | .on g => skb.gso = some g

/-- The queue `idpf_tx_singleq_frame` hands to the map function. -/
def singleqBegin (q : SingleqTxq) (id : Nat) (skb : Skb) (tso : Tso) : SingleqTxq :=
  let q := match tso with
    | .on _ => txSingleqGetCtxDesc q
    | _ => q
  q.modBuf q.nextToUse fun e => match tso with
    | .on g => { e with skb := id, packets := g.segs, bytes := u32 (skb.len + (g.segs - 1) * g.hdrLen) }
    | _ => { e with skb := id, packets := 1, bytes := max skb.len ethZlen }

theorem txSingleqPut_eq (q : SingleqTxq) (id : Nat) (skb : Skb) (tso : Tso)
    (dma : Nat → Option Nat) : txSingleqPut q id skb tso dma =
      txSingleqMap (singleqBegin q id skb tso) id skb dma (singleqBegin q id skb tso).nextToUse := by
  cases tso <;> rfl

theorem singleqBegin_begun {q : SingleqTxq} {a : Nat} {skb : Skb} {tso : Tso} (id : Nat)
    (tsoOf : TsoOf skb tso) (use : q.nextToUse = a % q.descCount)
    (short : skb.gso.isSome.toNat + 1 < q.descCount)
    (idle : IdleBuf (q.bufs ((a + skb.gso.isSome.toNat) % q.descCount))) :
    SqBegun q a skb.gso.isSome.toNat id (singleqBegin q id skb tso) := by
  cases tso with
  | error => exact tsoOf.elim
  | off =>
      have none_ : skb.gso = none := tsoOf
      rw [none_] at short idle ⊢
      change SqBegun q a 0 id (q.modBuf q.nextToUse fun e =>
        { e with skb := id, packets := 1, bytes := max skb.len ethZlen })
      exact .record rfl use (Nat.le_of_lt short) (fun _ _ => rfl) (fun _ _ => rfl) nofun idle
        (fun _ => rfl) fun _ => rfl
  | on g =>
      have some_ : skb.gso = some g := tsoOf
      rw [some_] at short idle ⊢
      have first : ringSlots q.descCount a 1 = [q.nextToUse] := by rw [use]; rfl
      show SqBegun q a 1 id ((txSingleqGetCtxDesc q).modBuf (txSingleqGetCtxDesc q).nextToUse fun e =>
        { e with
          skb := id, packets := g.segs, bytes := u32 (skb.len + (g.segs - 1) * g.hdrLen) })
      refine .record rfl ?_ (Nat.le_of_lt short) (fun c out => ?_) (fun c out => ?_) (fun _ => ?_)
        idle (fun _ => rfl) fun _ => rfl
      · change bump q.descCount q.nextToUse = _
        rw [use]
        exact bump_mod (by omega) a
      · have ne : c ≠ q.nextToUse := fun same => out (by
          change c ∈ ringSlots q.descCount a 1
          rw [first, same]
          exact List.mem_singleton_self _)
        exact Function.update_of_ne ne _ _
      · have ne : c ≠ q.nextToUse := fun same => out (by
          change c ∈ ringSlots q.descCount a 1
          rw [first, same]
          exact List.mem_singleton_self _)
        exact Function.update_of_ne ne _ _
      · rw [← use, txSingleqGetCtxDesc, SingleqTxq.modBuf, SingleqTxq.putDesc]
        dsimp only
        rw [Function.update_self]

def PutSpec (q : SingleqTxq) (a k id : Nat) (ctx : Bool) (r : SqSend) : Prop :=
  match r.verdict with
  | .sent slots => SqSent q a ⟨id, ctx, slots, false⟩ r.q ∧ ctx.toNat + slots.length = k
  | .failed slots => SqUndone q a k id slots r.q
  | _ => False

theorem unmapOf_none_reverse (l : List (Option SqMapping)) :
    (l ++ [none]).reverse.flatMap unmapOf = l.reverse.flatMap unmapOf := by
  rw [List.reverse_append, List.flatMap_append]
  rfl

/-- The slots of a packet from position `a` on once the unwinding has gone back through `k` of
them, the failing one included. -/
structure Unwound (q : SingleqTxq) (a k : Nat) (slots : List (Option SqMapping))
    (q' : SingleqTxq) : Prop where
  only : q' = { q with
    bufs := q'.bufs, ring := q'.ring, nextToUse := q'.nextToUse, nextMap := q'.nextMap
    log := q'.log }
  log : q'.log = q.log ++ slots.reverse.flatMap unmapOf
  bufs : ∀ c ∉ ringSlots q.descCount a k, q'.bufs c = q.bufs c
  ring : ∀ c ∉ ringSlots q.descCount a k, q'.ring c = q.ring c
  idle : ∀ c ∈ ringSlots q.descCount a k, (q'.bufs c).type = .empty ∨
    (c = a % q.descCount ∧ (q'.bufs c).type = .ctx)
  serials : (mapsOf slots).map (fun m => m.dma.serial) = List.range' q.nextMap (mapsOf slots).length
  next : q'.nextMap = q.nextMap + (mapsOf slots).length

section Unwinding

variable {q q₁ : SingleqTxq} {a id : Nat} {gso : Bool} {st : SqMapState}

/-- The slot whose mapping failed has nothing to give back. -/
theorem failing_idle (begun : SqBegun q a gso.toNat id q₁) (v : Mapped q₁ (a + gso.toNat) st)
    (room : gso.toNat + st.slots.length + 1 < q.descCount)
    (idle : ∀ k < gso.toNat + st.slots.length + 1, IdleBuf (q.bufs ((a + k) % q.descCount))) :
    sqeEffects (st.q.bufs ((a + gso.toNat + st.slots.length) % q.descCount)) = [] := by
  have count : q₁.descCount = q.descCount := by rw [begun.only]
  have bufs := v.bufs
  rw [count] at bufs
  rw [bufs _ (ringSlots_next _ (by omega))]
  by_cases head : st.slots = []
  · rw [head]
    exact begun.idle.effects
  · have behind : 0 < st.slots.length := List.length_pos_iff.mpr head
    have out : (a + gso.toNat + st.slots.length) % q.descCount ∉
        ringSlots q.descCount a (gso.toNat + 1) := fun member => by
      have far := ringSlots_next (n := q.descCount) (k := gso.toNat + st.slots.length) a (by omega)
      rw [← Nat.add_assoc] at far
      exact far (ringSlots_subset (by omega) member)
    rw [begun.bufs _ out, Nat.add_assoc]
    exact (idle _ (by omega)).effects

theorem singleqUnwind_unwound (begun : SqBegun q a gso.toNat id q₁)
    (v : Mapped q₁ (a + gso.toNat) st) (room : gso.toNat + st.slots.length + 1 < q.descCount)
    (idle : ∀ k < gso.toNat + st.slots.length + 1, IdleBuf (q.bufs ((a + k) % q.descCount))) :
    let r := singleqUnwind ((a + gso.toNat) % q.descCount) q.descCount st.q
      ((a + gso.toNat + st.slots.length) % q.descCount)
    r.2 = (a + gso.toNat) % q.descCount ∧
      Unwound q a (gso.toNat + st.slots.length + 1) st.slots r.1 := by
  have count : q₁.descCount = q.descCount := by rw [begun.only]
  have maps : q₁.nextMap = q.nextMap := by rw [begun.only]
  have laid := v.laid
  have bufs := v.bufs
  have ring := v.ring
  have serials := v.serials
  have next := v.next
  rw [count] at laid bufs ring
  rw [maps] at serials next
  have gives : Gives q.descCount st.q.bufs (a + gso.toNat) (st.slots ++ [none]) :=
    Gives.append.mpr ⟨laid.gives, failing_idle begun v room idle, trivial⟩
  obtain ⟨stop, undone⟩ := singleqUnwind_spec (v.count.trans count) (by omega)
    (show st.slots.length + 1 ≤ q.descCount by omega) gives
  rw [unmapOf_none_reverse] at undone
  have inside : ringSlots q.descCount (a + gso.toNat) (st.slots.length + 1) ⊆
      ringSlots q.descCount a (gso.toNat + st.slots.length + 1) := by
    rw [Nat.add_assoc, ringSlots_append q.descCount a]
    exact List.subset_append_right _ _
  generalize singleqUnwind ((a + gso.toNat) % q.descCount) q.descCount st.q
    ((a + gso.toNat + st.slots.length) % q.descCount) = r at stop undone
  refine ⟨stop, ?_, ?_, fun c out => ?_, fun c out => ?_, fun c member => ?_, serials, ?_⟩
  · have all := undone.only
    rw [v.only, begun.only] at all
    rw [all]
  · rw [undone.only, v.only, begun.only]
  · rw [undone.outside c fun m => out (inside (List.mem_reverse.mp m)),
      bufs c fun m => out (inside (ringSlots_subset (Nat.le_succ _) m)),
      begun.bufs c fun m => out (ringSlots_subset (by omega) m)]
  · rw [undone.only]
    dsimp only
    rw [ring c fun m => out (inside (ringSlots_subset (Nat.le_succ _) m)),
      begun.ring c fun m => out (ringSlots_subset (by omega) m)]
  · rw [Nat.add_assoc, ringSlots_append] at member
    rcases List.mem_append.mp member with before | behind
    · cases some_ : gso with
      | false =>
          rw [some_] at before
          exact absurd before nofun
      | true =>
          rw [some_] at before
          obtain rfl : c = a % q.descCount := List.mem_singleton.mp before
          have apart : a % q.descCount ∉
              ringSlots q.descCount (a + gso.toNat) (st.slots.length + 1) := by
            have nodup := ringSlots_nodup (n := q.descCount)
              (k := gso.toNat + (st.slots.length + 1)) a (by omega)
            rw [ringSlots_append, some_] at nodup
            rw [some_]
            exact List.disjoint_of_nodup_append nodup (List.mem_singleton_self _)
          rw [some_] at undone apart bufs
          refine .inr ⟨rfl, ?_⟩
          rw [undone.outside _ fun m => apart (List.mem_reverse.mp m),
            bufs _ fun m => apart (ringSlots_subset (Nat.le_succ _) m)]
          exact begun.type (by rw [some_]; rfl)
    · exact .inl (undone.within c (List.mem_reverse.mpr behind))
  · rw [undone.only]
    exact next

/-- A failed mapping leaves `next_to_use` where it was before the packet. -/
theorem txSingleqDmaMapError_spec (begun : SqBegun q a gso.toNat id q₁)
    (use : q.nextToUse = a % q.descCount) (v : Mapped q₁ (a + gso.toNat) st)
    (here : st.i = (a + gso.toNat + st.slots.length) % q₁.descCount)
    (room : gso.toNat + st.slots.length + 1 < q.descCount)
    (idle : ∀ k < gso.toNat + st.slots.length + 1, IdleBuf (q.bufs ((a + k) % q.descCount))) :
    SqUndone q a (gso.toNat + st.slots.length + 1) id st.slots
      (txSingleqDmaMapError st.q id gso q₁.nextToUse st.i) := by
  have count : q₁.descCount = q.descCount := by rw [begun.only]
  obtain ⟨stop, w⟩ := singleqUnwind_unwound begun v room idle
  rw [txSingleqDmaMapError, begun.use, v.count, count, here, count]
  generalize singleqUnwind ((a + gso.toNat) % q.descCount) q.descCount st.q
    ((a + gso.toNat + st.slots.length) % q.descCount) = r at stop w
  obtain ⟨q₂, idx⟩ := r
  dsimp only at stop w ⊢
  subst stop
  have count₂ : q₂.descCount = q.descCount := by rw [w.only]
  have first : (a + gso.toNat) % q.descCount ∈
      ringSlots q.descCount a (gso.toNat + st.slots.length + 1) :=
    ringSlots_subset (by omega) (mem_ringSlots_last _ a gso.toNat)
  have final : ∃ ring : Nat → BaseTxDesc,
      { (if gso = true then q₂.putDesc ((a + gso.toNat) % q.descCount) .blank else q₂).modBuf
          ((a + gso.toNat) % q.descCount) (fun e => { e with skb := 0 }) with
        log := (if gso = true then q₂.putDesc ((a + gso.toNat) % q.descCount) .blank
          else q₂).log ++ [SqEffect.freeSkb id]
        nextToUse := if gso = true then ringPrev (if gso = true then
            q₂.putDesc ((a + gso.toNat) % q.descCount) .blank else q₂).descCount
              ((a + gso.toNat) % q.descCount)
          else (a + gso.toNat) % q.descCount } =
        { q₂.modBuf ((a + gso.toNat) % q.descCount) (fun e => { e with skb := 0 }) with
          ring, log := q₂.log ++ [SqEffect.freeSkb id], nextToUse := a % q.descCount } ∧
        ∀ c, c ≠ (a + gso.toNat) % q.descCount → ring c = q₂.ring c := by
    cases gso with
    | false => exact ⟨q₂.ring, rfl, fun _ _ => rfl⟩
    | true =>
        have back : ringPrev q₂.descCount ((a + 1) % q.descCount) = a % q.descCount := by
          rw [count₂, ringPrev_mod (by omega)]
        refine ⟨Function.update q₂.ring ((a + 1) % q.descCount) .blank, ?_,
          fun c ne => Function.update_of_ne ne _ _⟩
        simp only [if_true, SingleqTxq.putDesc, SingleqTxq.modBuf, Bool.toNat_true, back]
  obtain ⟨ring, final, others⟩ := final
  rw [final]
  refine ⟨?_, ?_, fun c out => ?_, fun c out => ?_, fun c member => ?_, w.serials, w.next⟩
  · rw [SingleqTxq.modBuf]
    dsimp only
    rw [w.only, ← use]
  · dsimp only
    rw [w.log]
  · have ne : c ≠ (a + gso.toNat) % q.descCount := fun same => out (same ▸ first)
    exact (Function.update_of_ne ne _ _).trans (w.bufs c out)
  · have ne : c ≠ (a + gso.toNat) % q.descCount := fun same => out (same ▸ first)
    exact (others c ne).trans (w.ring c out)
  · have type : ((Function.update q₂.bufs ((a + gso.toNat) % q.descCount)
        { q₂.bufs ((a + gso.toNat) % q.descCount) with skb := 0 }) c).type = (q₂.bufs c).type := by
      by_cases own : c = (a + gso.toNat) % q.descCount
      · rw [own, Function.update_self]
      · rw [Function.update_of_ne own]
    rw [SingleqTxq.modBuf]
    dsimp only
    rw [type]
    exact w.idle c member

/-- All parts mapped: the last descriptor carries the end of the packet, and the first slot
becomes the packet's. -/
theorem singleqMap_sent (begun : SqBegun q a gso.toNat id q₁) (v : Mapped q₁ (a + gso.toNat) st)
    {m : SqMapping} {rest : List (Option SqMapping)} (slots : st.slots = some m :: rest)
    (here : st.i = (a + gso.toNat + rest.length) % q.descCount)
    (room : gso.toNat + st.slots.length < q.descCount) (last : Nat × Nat) :
    SqSent q a ⟨id, gso, st.slots, false⟩
      { (st.q.putDesc st.i (.data last.1 last.2 true false)).modBuf q₁.nextToUse fun e =>
          { e with type := .skb, rsIdx := st.i } with
        nextToUse := bump st.q.descCount st.i } := by
  have count : q₁.descCount = q.descCount := by rw [begun.only]
  have maps : q₁.nextMap = q.nextMap := by rw [begun.only]
  have laid := v.laid
  have bufs := v.bufs
  have ring := v.ring
  have serials := v.serials
  have next := v.next
  rw [count] at laid bufs ring
  rw [maps] at serials next
  have length : st.slots.length = rest.length + 1 := by rw [slots, List.length_cons]
  have size : SqPacket.size ⟨id, gso, st.slots, false⟩ = gso.toNat + (rest.length + 1) := by
    rw [SqPacket.size, length]
  have inside : ringSlots q.descCount (a + gso.toNat) (rest.length + 1) ⊆
      ringSlots q.descCount a (gso.toNat + (rest.length + 1)) := by
    rw [ringSlots_append q.descCount a]
    exact List.subset_append_right _ _
  have first : (a + gso.toNat) % q.descCount ∈
      ringSlots q.descCount (a + gso.toNat) (rest.length + 1) := by
    rw [ringSlots_cons]
    exact List.mem_cons_self
  have end_ := mem_ringSlots_last q.descCount (a + gso.toNat) rest.length
  rw [slots] at laid
  rw [length] at bufs ring
  rw [begun.use, v.count, count, here, SingleqTxq.modBuf, SingleqTxq.putDesc]
  refine ⟨?_, ?_, ⟨fun some_ => ?_, m, rest, ?_⟩, fun c out => ?_, fun c out => ?_, serials, next⟩
  · dsimp only
    rw [v.only, begun.only]
  · dsimp only
    rw [bump_mod (by omega), size]
    congr 1
    omega
  · obtain rfl : gso = true := some_
    have apart : a % q.descCount ∉ ringSlots q.descCount (a + 1) (rest.length + 1) := by
      have nodup := ringSlots_nodup (n := q.descCount) (k := 1 + (rest.length + 1)) a
        (by rw [Bool.toNat_true] at room; omega)
      rw [ringSlots_append] at nodup
      exact List.disjoint_of_nodup_append nodup (List.mem_singleton_self _)
    have ne : a % q.descCount ≠ (a + 1) % q.descCount := fun same =>
      apart (by rw [same]; exact first)
    dsimp only
    rw [v.count, count]
    exact (congrArg TxBuf.type ((Function.update_of_ne ne _ _).trans (bufs _ apart))).trans
      (begun.type rfl)
  · obtain ⟨-, dma, len⟩ := laid.1
    have nodup := ringSlots_nodup (n := q.descCount) (k := rest.length + 1) (a + gso.toNat)
      (by omega)
    rw [ringSlots_cons] at nodup
    have behind : ∀ c ∈ ringSlots q.descCount (a + gso.toNat + 1) rest.length,
        c ≠ (a + gso.toNat) % q.descCount := fun c member same =>
      (List.nodup_cons.mp nodup).1 (same ▸ member)
    constructor
    · exact slots
    all_goals dsimp only
    all_goals rw [v.count, count]
    · rw [Function.update_self]
    · rw [Function.update_self]
      exact (v.skb _).trans begun.skb
    · rw [Function.update_self]
      exact dma
    · rw [Function.update_self]
      exact len
    · rw [Function.update_self]
    · exact laid.2.congr fun c member => Function.update_of_ne (behind c member) _ _
    · rw [Function.update_self]
      rfl
  · rw [size] at out
    have ne : c ≠ (a + gso.toNat) % q.descCount := fun same => out (inside (same ▸ first))
    refine (Function.update_of_ne ne _ _).trans ?_
    rw [bufs c fun member => out (inside member),
      begun.bufs c fun member => out (ringSlots_subset (by omega) member)]
  · rw [size] at out
    have ne : c ≠ (a + gso.toNat + rest.length) % q.descCount := fun same =>
      out (inside (same ▸ end_))
    refine (Function.update_of_ne ne _ _).trans ?_
    rw [ring c fun member => out (inside member),
      begun.ring c fun member => out (ringSlots_subset (by omega) member)]

end Unwinding

theorem singleqTaken_pos (dma : Nat → Option Nat) (skb : Skb) :
    skb.gso.isSome.toNat < singleqTaken dma skb := by
  have some_ : 0 < planDescs (singleqPlan dma skb).1 + (!(singleqPlan dma skb).2).toNat := by
    unfold singleqPlan mapPlan
    cases dma 0 with
    | none => exact Nat.one_pos
    | some addr =>
        have head := bufDescs_pos addr skb.headlen
        dsimp only
        split
        · simp only [planDescs, List.map_cons, List.map_nil, List.sum_cons, List.sum_nil]
          omega
        · split
          · simp only [planDescs, List.map_cons, List.map_nil, List.sum_cons, List.sum_nil]
            omega
          · rw [nextRefill, if_neg Bool.false_ne_true]
            simp only [planDescs, List.map_cons, List.sum_cons]
            omega
  rw [singleqTaken]
  omega

theorem Mapped.nil (q : SingleqTxq) (f i : Nat) : Mapped q f ⟨q, i, []⟩ :=
  ⟨rfl, trivial, fun _ _ => rfl, fun _ _ => rfl, fun _ => rfl, rfl, rfl⟩

theorem txSingleqPut_spec {q : SingleqTxq} {a : Nat} {skb : Skb} {tso : Tso} (id : Nat)
    (dma : Nat → Option Nat) (tsoOf : TsoOf skb tso) (use : q.nextToUse = a % q.descCount)
    (room : singleqTaken dma skb < q.descCount)
    (idle : ∀ k < singleqTaken dma skb, IdleBuf (q.bufs ((a + k) % q.descCount))) :
    PutSpec q a (singleqTaken dma skb) id skb.gso.isSome (txSingleqPut q id skb tso dma) := by
  have touched := singleqTaken_pos dma skb
  have begun := singleqBegin_begun id tsoOf use (by omega) (idle _ touched)
  rw [txSingleqPut_eq]
  generalize singleqBegin q id skb tso = q₁ at begun
  have count : q₁.descCount = q.descCount := by rw [begun.only]
  have taken : singleqTaken dma skb = skb.gso.isSome.toNat +
      planDescs (singleqPlan dma skb).1 + (!(singleqPlan dma skb).2).toNat := rfl
  have spec := @txSingleqMapLoop_spec _ _ dma skb.frags 0 skb.headlen _
    (.nil q₁ (a + skb.gso.isSome.toNat) q₁.nextToUse)
    (by rw [begun.use, count]; rfl) (rflAlloc 0) (by
      change 0 + planDescs (singleqPlan dma skb).1 ≤ _
      omega)
  have plan : mapPlan false dma skb.frags 0 skb.headlen (rflAlloc 0) = singleqPlan dma skb := rfl
  rw [plan] at spec
  rw [txSingleqMap]
  revert spec
  cases txSingleqMapLoop dma skb.frags 0 skb.headlen ⟨q₁, q₁.nextToUse, []⟩ with
  | failed st =>
      rintro ⟨bad, v, length, here⟩
      have total : skb.gso.isSome.toNat + st.slots.length + 1 = singleqTaken dma skb := by
        rw [taken, bad, length]
        simp
      have undone := txSingleqDmaMapError_spec begun use v here (by omega) (by rwa [total])
      rw [total] at undone
      exact undone
  | mapped st last =>
      rintro ⟨good, v, length, here, m, rest, slots⟩
      rw [List.nil_append] at slots
      have rest_ : st.slots.length = rest.length + 1 := by rw [slots, List.length_cons]
      have total : skb.gso.isSome.toNat + st.slots.length = singleqTaken dma skb := by
        rw [taken, good, length]
        simp
      rw [rest_, Nat.add_sub_cancel, count] at here
      exact ⟨singleqMap_sent begun v slots here (by omega) last, total⟩

end Idpf
