import Idpf.Tx.SingleqSteps
import Idpf.General.Transition
import Mathlib.Data.List.Perm.Basic

/-! What a single queue Tx ring owes and gives back over whole runs. -/
namespace Idpf
open General

/-- The queue with its device: the packets between `next_to_clean` and `next_to_use`, those
cleaned, the mappings made for packets that were not sent, and the skbs dropped. -/
structure SqSystem where
  q : SingleqTxq
  inflight : List SqPacket
  finished : List SqPacket
  undone : List SqMapping
  dropped : List Nat
  nextSkb : Nat

inductive SqEvent where
  | send (skb : Skb) (env : SqEnv)
  | done
  | clean (budget : Nat) (carrier : Bool)

def BaseTxDesc.writeBack : BaseTxDesc → BaseTxDesc
  | .data addr size eop _ => .data addr size eop true
  | _ => .data 0 0 false true

/-- The device is done with the first packet from position `a` on that it was not done with. -/
def deviceDone (q : SingleqTxq) : Nat → List SqPacket → Option (SingleqTxq × List SqPacket)
  | _, [] => none
  | a, p :: l =>
    if p.done then (deviceDone q (a + p.size) l).map fun r => (r.1, p :: r.2)
    else
      let eop := (a + p.size - 1) % q.descCount
      some (q.putDesc eop (q.ring eop).writeBack, { p with done := true } :: l)

namespace SqSystem

def send (s : SqSystem) (skb : Skb) (env : SqEnv) : SqSystem :=
  let r := txSingleqFrame s.q s.nextSkb skb env
  match r.verdict with
  | .busy => { s with q := r.q }
  | .dropped => { s with q := r.q, dropped := s.dropped ++ [s.nextSkb], nextSkb := s.nextSkb + 1 }
  | .failed slots =>
    { s with
      q := r.q
      undone := s.undone ++ mapsOf slots
      dropped := s.dropped ++ [s.nextSkb]
      nextSkb := s.nextSkb + 1 }
  | .sent slots =>
    { s with
      q := r.q
      inflight := s.inflight ++ [⟨s.nextSkb, skb.gso.isSome, slots, false⟩]
      nextSkb := s.nextSkb + 1 }

def clean (s : SqSystem) (budget : Nat) (carrier : Bool) : SqSystem :=
  { s with
    q := txSingleqClean s.q budget carrier
    inflight := (reap budget s.inflight).2
    finished := s.finished ++ (reap budget s.inflight).1 }

/-- Packets are sent, the device is done with them in order, and passes run with any budget,
which the driver never sets to zero. -/
def step (s : SqSystem) : SqEvent → Option SqSystem
  | .send skb env => some (s.send skb env)
  | .done =>
    (deviceDone s.q s.q.nextToClean s.inflight).map fun r => { s with q := r.1, inflight := r.2 }
  | .clean budget carrier => if budget = 0 then none else some (s.clean budget carrier)

end SqSystem

/-- A queue of `n` descriptors that has just been set up. -/
def singleqInit (n txMaxBufs : Nat) : SqSystem where
  q :=
    { descCount := n, nextToUse := 0, nextToClean := 0, txMaxBufs
      bufs := fun _ => {}, ring := fun _ => .blank, stopped := false, nextMap := 0, log := [] }
  inflight := []
  finished := []
  undone := []
  dropped := []
  nextSkb := 1

def SqStart (s : SqSystem) : Prop :=
  ∃ n txMaxBufs, minTxqDesc ≤ n ∧ n ≤ maxDescs ∧ s = singleqInit n txMaxBufs

def singleqMaps (q : SingleqTxq) (skb : Skb) (env : SqEnv) : Bool :=
  let c := txResCountRequired q.txMaxBufs env.linearize skb
  c.count != 0 && decide (c.count + txDescsPerCacheLine + txDescsForCtx ≤ q.descUnused) &&
    txTso env.cowHead c.skb != .error && env.csum

/-- Steps that go well: a packet takes no more slots than are unused, and a pass meets nothing
left over. -/
def singleqOk (s : SqSystem) : SqEvent → Bool
  | .send skb env =>
    !singleqMaps s.q skb env || decide (singleqTaken env.dma
      (txResCountRequired s.q.txMaxBufs env.linearize skb).skb ≤ s.q.descUnused)
  | .done => true
  | .clean budget _ => passOk s.q budget s.q.nextToClean s.inflight

def sqUnmapped (log : List SqEffect) : List SqMapping :=
  log.filterMap fun e => match e with
    | .unmap dma len => some ⟨dma, len⟩
    | _ => none

def sqFreed (log : List SqEffect) : List Nat :=
  log.filterMap fun e => match e with
    | .freeSkb skb => some skb
    | _ => none

def mapsIn (l : List SqPacket) : List SqMapping := l.flatMap fun p => mapsOf p.slots

/-- Each mapping made for a packet that was cleaned or not sent has been undone once, with its
address and length, each such skb freed once, and cleaned packets were done; mappings and skbs of
packets on the ring are others. `next_to_use` lies behind `next_to_clean` by what the packets on
the ring take, which is less than the ring. -/
structure SqConserved (s : SqSystem) : Prop where
  unmapped : (sqUnmapped s.q.log).Perm (s.undone ++ mapsIn s.finished)
  freed : (sqFreed s.q.log).Perm (s.dropped ++ s.finished.map SqPacket.skb)
  maps : ((s.undone ++ mapsIn s.finished ++ mapsIn s.inflight).map fun m => m.dma.serial).Nodup
  skbs : (s.dropped ++ s.finished.map SqPacket.skb ++ s.inflight.map SqPacket.skb).Nodup
  done : ∀ p ∈ s.finished, p.done = true
  use : s.q.nextToUse = (s.q.nextToClean + flightSize s.inflight) % s.q.descCount
  room : flightSize s.inflight < s.q.descCount

/-- The books: what was undone and freed, and that mappings and skbs are told apart. -/
structure SqBook (log : List SqEffect) (nextMap nextSkb : Nat) (undone : List SqMapping)
    (dropped : List Nat) (finished inflight : List SqPacket) : Prop where
  unmapped : (sqUnmapped log).Perm (undone ++ mapsIn finished)
  freed : (sqFreed log).Perm (dropped ++ finished.map SqPacket.skb)
  maps : ((undone ++ mapsIn finished ++ mapsIn inflight).map fun m => m.dma.serial).Nodup
  serials : ∀ m ∈ undone ++ mapsIn finished ++ mapsIn inflight, m.dma.serial < nextMap
  skbs : (dropped ++ finished.map SqPacket.skb ++ inflight.map SqPacket.skb).Nodup
  below : ∀ b ∈ dropped ++ finished.map SqPacket.skb ++ inflight.map SqPacket.skb, b < nextSkb
  done : ∀ p ∈ finished, p.done = true

theorem sqUnmapped_append (l l' : List SqEffect) :
    sqUnmapped (l ++ l') = sqUnmapped l ++ sqUnmapped l' := List.filterMap_append

theorem sqFreed_append (l l' : List SqEffect) : sqFreed (l ++ l') = sqFreed l ++ sqFreed l' :=
  List.filterMap_append

theorem mapsIn_append (l l' : List SqPacket) : mapsIn (l ++ l') = mapsIn l ++ mapsIn l' :=
  List.flatMap_append

theorem sqUnmapped_unmapOf (slots : List (Option SqMapping)) :
    sqUnmapped (slots.flatMap unmapOf) = mapsOf slots := by
  induction slots with
  | nil => rfl
  | cons x slots ih =>
      rw [List.flatMap_cons, sqUnmapped_append, ih]
      cases x <;> rfl

theorem sqFreed_unmapOf (slots : List (Option SqMapping)) :
    sqFreed (slots.flatMap unmapOf) = [] := by
  induction slots with
  | nil => rfl
  | cons x slots ih =>
      rw [List.flatMap_cons, sqFreed_append, ih]
      cases x <;> rfl

theorem mapsOf_reverse (slots : List (Option SqMapping)) :
    mapsOf slots.reverse = (mapsOf slots).reverse := List.filterMap_reverse

theorem sqUnmapped_gives (l : List SqPacket) : sqUnmapped (l.flatMap SqPacket.gives) = mapsIn l := by
  induction l with
  | nil => rfl
  | cons p l ih =>
      have own : sqUnmapped p.gives = mapsOf p.slots := sqUnmapped_unmapOf p.slots
      rw [List.flatMap_cons, sqUnmapped_append, ih, own]
      rfl

theorem sqFreed_gives (l : List SqPacket) :
    sqFreed (l.flatMap SqPacket.gives) = l.map SqPacket.skb := by
  induction l with
  | nil => rfl
  | cons p l ih =>
      have own : sqFreed p.gives = p.skb :: sqFreed (p.slots.flatMap unmapOf) := rfl
      rw [List.flatMap_cons, sqFreed_append, ih, own, sqFreed_unmapOf]
      rfl

/-- A pass cuts the packets in two; of the second part it may have passed a context slot. -/
theorem reap_append (budget : Nat) (l : List SqPacket) :
    mapsIn (reap budget l).1 ++ mapsIn (reap budget l).2 = mapsIn l ∧
      (reap budget l).1.map SqPacket.skb ++ (reap budget l).2.map SqPacket.skb =
        l.map SqPacket.skb ∧
      ∀ p ∈ (reap budget l).1, p.done = true := by
  induction l generalizing budget with
  | nil => cases budget <;> exact ⟨rfl, rfl, fun _ member => absurd member List.not_mem_nil⟩
  | cons p l ih =>
      cases budget with
      | zero => exact ⟨rfl, rfl, fun _ member => absurd member List.not_mem_nil⟩
      | succ budget =>
          rw [reap]
          cases done : p.done with
          | false => exact ⟨rfl, rfl, fun _ member => absurd member List.not_mem_nil⟩
          | true =>
              obtain ⟨maps, skbs, all⟩ := ih budget
              rw [if_pos rfl]
              refine ⟨?_, ?_, fun x member => ?_⟩
              · change mapsOf p.slots ++ mapsIn (reap budget l).1 ++ _ = mapsOf p.slots ++ mapsIn l
                rw [List.append_assoc, maps]
              · rw [List.map_cons, List.cons_append, skbs, List.map_cons]
              · rcases List.mem_cons.mp member with rfl | later
                · exact done
                · exact all x later

namespace SqBook

variable {log : List SqEffect} {nextMap nextSkb : Nat} {undone : List SqMapping}
  {dropped : List Nat} {finished inflight : List SqPacket}

/-- New serials are apart from the old ones. -/
theorem fresh (v : SqBook log nextMap nextSkb undone dropped finished inflight)
    {new : List SqMapping}
    (serials : new.map (fun m => m.dma.serial) = List.range' nextMap new.length) :
    ((undone ++ mapsIn finished ++ mapsIn inflight ++ new).map fun m => m.dma.serial).Nodup ∧
      ∀ m ∈ undone ++ mapsIn finished ++ mapsIn inflight ++ new,
        m.dma.serial < nextMap + new.length := by
  have range : ∀ m ∈ new, nextMap ≤ m.dma.serial ∧ m.dma.serial < nextMap + new.length := by
    intro m member
    have here : m.dma.serial ∈ List.range' nextMap new.length := by
      rw [← serials]
      exact List.mem_map_of_mem member
    exact List.mem_range'_1.mp here
  refine ⟨?_, fun m member => ?_⟩
  · rw [List.map_append]
    refine List.Nodup.append v.maps ?_ fun x old late => ?_
    · rw [serials]
      exact List.nodup_range'
    · obtain ⟨m, member, rfl⟩ := List.mem_map.mp old
      obtain ⟨m', member', same⟩ := List.mem_map.mp late
      have := v.serials m member
      have := (range m' member').1
      omega
  · rcases List.mem_append.mp member with old | late
    · exact Nat.lt_of_lt_of_le (v.serials m old) (Nat.le_add_right _ _)
    · exact (range m late).2

/-- A new skb is apart from the old ones. -/
theorem freshSkb (v : SqBook log nextMap nextSkb undone dropped finished inflight) :
    (nextSkb :: (dropped ++ finished.map SqPacket.skb ++ inflight.map SqPacket.skb)).Nodup ∧
      ∀ b ∈ nextSkb :: (dropped ++ finished.map SqPacket.skb ++ inflight.map SqPacket.skb),
        b < nextSkb + 1 := by
  refine ⟨List.nodup_cons.mpr ⟨fun old => absurd (v.below _ old) (Nat.lt_irrefl _), v.skbs⟩,
    fun b member => ?_⟩
  rcases List.mem_cons.mp member with rfl | old
  · exact Nat.lt_succ_self _
  · exact Nat.lt_succ_of_lt (v.below b old)

/-- A packet is put on the ring. -/
theorem sent (v : SqBook log nextMap nextSkb undone dropped finished inflight) {ctx : Bool}
    {slots : List (Option SqMapping)}
    (serials : (mapsOf slots).map (fun m => m.dma.serial) =
      List.range' nextMap (mapsOf slots).length) :
    SqBook log (nextMap + (mapsOf slots).length) (nextSkb + 1) undone dropped finished
      (inflight ++ [⟨nextSkb, ctx, slots, false⟩]) := by
  have maps : mapsIn (inflight ++ [⟨nextSkb, ctx, slots, false⟩]) =
      mapsIn inflight ++ mapsOf slots := by
    rw [mapsIn_append]
    exact congrArg (mapsIn inflight ++ ·) (List.append_nil _)
  obtain ⟨nodup, below⟩ := v.fresh serials
  obtain ⟨nodup', below'⟩ := v.freshSkb
  have order : (dropped ++ finished.map SqPacket.skb ++
      (inflight ++ [(⟨nextSkb, ctx, slots, false⟩ : SqPacket)]).map SqPacket.skb).Perm
      (nextSkb :: (dropped ++ finished.map SqPacket.skb ++ inflight.map SqPacket.skb)) := by
    rw [List.map_append, ← List.append_assoc]
    exact List.perm_append_singleton nextSkb _
  refine ⟨v.unmapped, v.freed, ?_, ?_, order.nodup_iff.mpr nodup',
    fun b member => below' b (order.subset member), v.done⟩
  · rw [maps, ← List.append_assoc]
    exact nodup
  · rw [maps, ← List.append_assoc]
    exact below

/-- A packet is given up; what was mapped for it has been undone. -/
theorem giveUp (v : SqBook log nextMap nextSkb undone dropped finished inflight)
    {slots : List (Option SqMapping)}
    (serials : (mapsOf slots).map (fun m => m.dma.serial) =
      List.range' nextMap (mapsOf slots).length) :
    SqBook (log ++ slots.reverse.flatMap unmapOf ++ [.freeSkb nextSkb])
      (nextMap + (mapsOf slots).length) (nextSkb + 1) (undone ++ mapsOf slots)
      (dropped ++ [nextSkb]) finished inflight := by
  obtain ⟨nodup, below⟩ := v.fresh serials
  obtain ⟨nodup', below'⟩ := v.freshSkb
  have order : (undone ++ mapsOf slots ++ mapsIn finished ++ mapsIn inflight).Perm
      (undone ++ mapsIn finished ++ mapsIn inflight ++ mapsOf slots) := by
    simp only [List.append_assoc]
    exact (List.perm_append_comm.trans (by rw [List.append_assoc])).append_left undone
  have order' : (dropped ++ [nextSkb] ++ finished.map SqPacket.skb ++
      inflight.map SqPacket.skb).Perm
      (nextSkb :: (dropped ++ finished.map SqPacket.skb ++ inflight.map SqPacket.skb)) := by
    simp only [List.append_assoc, List.singleton_append]
    exact List.perm_middle
  refine ⟨?_, ?_, (order.map _).nodup_iff.mpr nodup, fun m member => below m (order.subset member),
    order'.nodup_iff.mpr nodup', fun b member => below' b (order'.subset member), v.done⟩
  · have undo : sqUnmapped (log ++ slots.reverse.flatMap unmapOf ++ [.freeSkb nextSkb]) =
        sqUnmapped log ++ (mapsOf slots).reverse := by
      rw [sqUnmapped_append, sqUnmapped_append, sqUnmapped_unmapOf, mapsOf_reverse]
      exact List.append_nil _
    rw [undo]
    refine (v.unmapped.append (List.reverse_perm _)).trans ?_
    rw [List.append_assoc, List.append_assoc]
    exact List.perm_append_comm.append_left undone
  · have free : sqFreed (log ++ slots.reverse.flatMap unmapOf ++ [.freeSkb nextSkb]) =
        sqFreed log ++ [nextSkb] := by
      rw [sqFreed_append, sqFreed_append, sqFreed_unmapOf, List.append_nil]
      rfl
    rw [free]
    refine (v.freed.append_right [nextSkb]).trans ?_
    rw [List.append_assoc, List.append_assoc]
    exact List.perm_append_comm.append_left dropped

theorem clean (v : SqBook log nextMap nextSkb undone dropped finished inflight) (budget : Nat) :
    SqBook (log ++ (reap budget inflight).1.flatMap SqPacket.gives) nextMap nextSkb undone dropped
      (finished ++ (reap budget inflight).1) (reap budget inflight).2 := by
  obtain ⟨maps, skbs, done⟩ := reap_append budget inflight
  have allMaps : undone ++ mapsIn (finished ++ (reap budget inflight).1) ++
      mapsIn (reap budget inflight).2 = undone ++ mapsIn finished ++ mapsIn inflight := by
    rw [mapsIn_append, ← List.append_assoc, List.append_assoc _ (mapsIn (reap budget inflight).1),
      maps]
  have allSkbs : dropped ++ (finished ++ (reap budget inflight).1).map SqPacket.skb ++
      (reap budget inflight).2.map SqPacket.skb =
      dropped ++ finished.map SqPacket.skb ++ inflight.map SqPacket.skb := by
    rw [List.map_append, ← List.append_assoc, List.append_assoc _
      ((reap budget inflight).1.map SqPacket.skb), skbs]
  refine ⟨?_, ?_, allMaps ▸ v.maps, allMaps ▸ v.serials, allSkbs ▸ v.skbs, allSkbs ▸ v.below,
    fun p member => ?_⟩
  · rw [sqUnmapped_append, sqUnmapped_gives, mapsIn_append, ← List.append_assoc]
    exact v.unmapped.append_right _
  · rw [sqFreed_append, sqFreed_gives, List.map_append, ← List.append_assoc]
    exact v.freed.append_right _
  · rcases List.mem_append.mp member with old | new
    · exact v.done p old
    · exact done p new

end SqBook

theorem singleq_descUnused {q : SingleqTxq} {k : Nat} (clean : q.nextToClean < q.descCount)
    (use : q.nextToUse = (q.nextToClean + k) % q.descCount) (room : k < q.descCount) :
    q.descUnused + k + 1 = q.descCount := by
  have far := ringDist_mod (n := q.descCount) (c := q.nextToClean) (p := q.nextToClean + k)
    (by omega) (by omega)
  have inside := Nat.mod_lt (q.nextToClean + k) (show 0 < q.descCount by omega)
  rw [Nat.mod_eq_of_lt clean, ← use, ringDist] at far
  rw [← use] at inside
  rw [SingleqTxq.descUnused]
  split at far <;> split <;> omega

structure SqInv (s : SqSystem) : Prop where
  clean : s.q.nextToClean < s.q.descCount
  flight : Flight s.q s.q.nextToClean s.inflight
  use : s.q.nextToUse = (s.q.nextToClean + flightSize s.inflight) % s.q.descCount
  room : flightSize s.inflight < s.q.descCount
  idle : ∀ k, flightSize s.inflight + k < s.q.descCount →
    (s.q.bufs ((s.q.nextToClean + flightSize s.inflight + k) % s.q.descCount)).type = .empty ∨
      (k = 0 ∧ (s.q.bufs ((s.q.nextToClean + flightSize s.inflight + k) %
        s.q.descCount)).type = .ctx)
  book : SqBook s.q.log s.q.nextMap s.nextSkb s.undone s.dropped s.finished s.inflight

theorem SqBook.drop {log : List SqEffect} {nextMap nextSkb : Nat} {undone : List SqMapping}
    {dropped : List Nat} {finished inflight : List SqPacket}
    (v : SqBook log nextMap nextSkb undone dropped finished inflight) :
    SqBook (log ++ [.freeSkb nextSkb]) nextMap (nextSkb + 1) undone (dropped ++ [nextSkb]) finished
      inflight := by
  have given := @giveUp _ _ _ _ _ _ _ v [] rfl
  simpa [mapsOf] using given

namespace SqInv

variable {s s' : SqSystem}

/-- A packet put on the ring. -/
theorem sent (v : SqInv s) {ctx : Bool} {slots : List (Option SqMapping)} {q : SingleqTxq}
    (put : SqSent s.q (s.q.nextToClean + flightSize s.inflight) ⟨s.nextSkb, ctx, slots, false⟩ q)
    (fits : flightSize s.inflight + (ctx.toNat + slots.length) < s.q.descCount) :
    SqInv { s with
      q, inflight := s.inflight ++ [⟨s.nextSkb, ctx, slots, false⟩], nextSkb := s.nextSkb + 1 } := by
  have size : SqPacket.size ⟨s.nextSkb, ctx, slots, false⟩ = ctx.toNat + slots.length := rfl
  have total : flightSize (s.inflight ++ [⟨s.nextSkb, ctx, slots, false⟩]) =
      flightSize s.inflight + (ctx.toNat + slots.length) := by
    rw [flightSize_append, flightSize_cons, size]
    rfl
  have count : q.descCount = s.q.descCount := by rw [put.only]
  have head : q.nextToClean = s.q.nextToClean := by rw [put.only]
  have log : q.log = s.q.log := by rw [put.only]
  have bufs := put.bufs
  rw [size] at bufs
  have same : SameSlots s.q q
      (ringSlots s.q.descCount s.q.nextToClean (flightSize s.inflight)) := by
    have apart := ringSlots_apart (n := s.q.descCount) (p := s.q.nextToClean)
      (j := flightSize s.inflight) (k := ctx.toNat + slots.length) (by omega)
    exact ⟨count, fun c member => bufs c fun new => apart c new member,
      fun c member => put.ring c fun new => apart c new member⟩
  have free : ∀ k, flightSize s.inflight + (ctx.toNat + slots.length) + k < s.q.descCount →
      (q.bufs ((s.q.nextToClean + (flightSize s.inflight + (ctx.toNat + slots.length)) + k) %
        s.q.descCount)).type = .empty := by
    intro k inside
    have far := ringSlots_next (n := s.q.descCount)
      (p := s.q.nextToClean + flightSize s.inflight) (k := ctx.toNat + slots.length + k) (by omega)
    have place : s.q.nextToClean + (flightSize s.inflight + (ctx.toNat + slots.length)) + k =
        s.q.nextToClean + flightSize s.inflight + (ctx.toNat + slots.length + k) := by omega
    have some_ : 0 < slots.length := by
      obtain ⟨-, m, rest, at_⟩ := put.packet
      rw [show slots = some m :: rest from at_.slots]
      exact Nat.succ_pos _
    rw [place, bufs _ fun member => far (ringSlots_subset (Nat.le_add_right _ k) member)]
    rcases v.idle (ctx.toNat + slots.length + k) (by omega) with empty | ⟨zero, -⟩
    · exact empty
    · omega
  refine ⟨?_, ?_, ?_, ?_, fun k inside => ?_, ?_⟩
  · rw [head, count]
    exact v.clean
  · refine Flight.append.mpr ⟨?_, ?_, trivial⟩
    · dsimp only
      rw [head]
      exact v.flight.congr same
    · dsimp only
      rw [head]
      exact put.packet
  · dsimp only
    rw [put.use, head, count, total, size, Nat.add_assoc]
  · dsimp only
    rw [count, total]
    exact fits
  · dsimp only at inside ⊢
    rw [count, total] at inside
    rw [count, head, total]
    exact .inl (free k inside)
  · dsimp only
    rw [log, put.next]
    exact v.book.sent put.serials

/-- A packet given up after a failed mapping. -/
theorem failed (v : SqInv s) {k : Nat} {slots : List (Option SqMapping)} {q : SingleqTxq}
    (undone : SqUndone s.q (s.q.nextToClean + flightSize s.inflight) k s.nextSkb slots q)
    (fits : flightSize s.inflight + k < s.q.descCount) :
    SqInv { s with
      q
      undone := s.undone ++ mapsOf slots
      dropped := s.dropped ++ [s.nextSkb]
      nextSkb := s.nextSkb + 1 } := by
  have count : q.descCount = s.q.descCount := by rw [undone.only]
  have head : q.nextToClean = s.q.nextToClean := by rw [undone.only]
  have use : q.nextToUse = s.q.nextToUse := by rw [undone.only]
  have same : SameSlots s.q q
      (ringSlots s.q.descCount s.q.nextToClean (flightSize s.inflight)) := by
    have apart := ringSlots_apart (n := s.q.descCount) (p := s.q.nextToClean)
      (j := flightSize s.inflight) (k := k) (by omega)
    exact ⟨count, fun c member => undone.bufs c fun new => apart c new member,
      fun c member => undone.ring c fun new => apart c new member⟩
  refine ⟨?_, ?_, ?_, ?_, fun j inside => ?_, ?_⟩
  · dsimp only
    rw [head, count]
    exact v.clean
  · dsimp only
    rw [head]
    exact v.flight.congr same
  · dsimp only
    rw [use, head, count]
    exact v.use
  · dsimp only
    rw [count]
    exact v.room
  · dsimp only at inside ⊢
    rw [count] at inside
    rw [count, head]
    by_cases touched : (s.q.nextToClean + flightSize s.inflight + j) % s.q.descCount ∈
        ringSlots s.q.descCount (s.q.nextToClean + flightSize s.inflight) k
    · rcases undone.idle _ touched with empty | ⟨first, ctx⟩
      · exact .inl empty
      · refine .inr ⟨?_, ctx⟩
        have at_ := mod_inj_of_near (Nat.le_add_right _ j) (by omega) first.symm
        omega
    · rw [undone.bufs _ touched]
      exact v.idle j inside
  · dsimp only
    rw [undone.log, undone.next]
    exact v.book.giveUp undone.serials

theorem ofLog (v : SqInv s) {q : SingleqTxq} {undone : List SqMapping} {dropped : List Nat}
    {nextSkb : Nat}
    (only : q = { s.q with log := q.log, stopped := q.stopped })
    (book : SqBook q.log s.q.nextMap nextSkb undone dropped s.finished s.inflight) :
    SqInv { s with q, undone, dropped, nextSkb } := by
  have count : q.descCount = s.q.descCount := by rw [only]
  have head : q.nextToClean = s.q.nextToClean := by rw [only]
  have use : q.nextToUse = s.q.nextToUse := by rw [only]
  have bufs : q.bufs = s.q.bufs := by rw [only]
  have ring : q.ring = s.q.ring := by rw [only]
  have maps : q.nextMap = s.q.nextMap := by rw [only]
  refine ⟨?_, ?_, ?_, ?_, ?_, ?_⟩
  all_goals dsimp only
  · rw [head, count]
    exact v.clean
  · rw [head]
    exact v.flight.congr ⟨count, fun c _ => by rw [bufs], fun c _ => by rw [ring]⟩
  · rw [use, head, count]
    exact v.use
  · rw [count]
    exact v.room
  · rw [count, head, bufs]
    exact v.idle
  · rw [maps]
    exact book

end SqInv

theorem txResCountRequired_gso (txMaxBufs : Nat) (linearize : Bool) (skb : Skb) :
    (txResCountRequired txMaxBufs linearize skb).skb.gso = skb.gso := by
  unfold txResCountRequired
  dsimp only
  generalize (if skb.headlen = 0 then 0 else 1) = head
  split
  · rfl
  · split
    · split <;> rfl
    · rfl

theorem txTso_of {cowHead : Bool} {skb : Skb} (fine : txTso cowHead skb ≠ .error) :
    TsoOf skb (txTso cowHead skb) := by
  unfold txTso at fine ⊢
  cases gso : skb.gso with
  | none => exact gso
  | some g =>
      rw [gso] at fine
      dsimp only at fine ⊢
      cases good : cowHead && g.supported with
      | true => exact gso
      | false =>
          rw [good] at fine
          exact absurd rfl fine

/-- A packet that does not reach the map function is dropped or refused. -/
theorem txSingleqFrame_refused {q : SingleqTxq} {skb : Skb} {env : SqEnv} (id : Nat)
    (refused : singleqMaps q skb env = false) :
    txSingleqFrame q id skb env = q.drop id ∨
      txSingleqFrame q id skb env = ⟨{ q with stopped := true }, .busy⟩ := by
  unfold singleqMaps at refused
  unfold txSingleqFrame
  dsimp only at refused ⊢
  generalize txResCountRequired q.txMaxBufs env.linearize skb = c at refused
  by_cases none_ : c.count = 0
  · exact .inl (if_pos none_)
  · rw [if_neg none_]
    by_cases full : q.descUnused < c.count + txDescsPerCacheLine + txDescsForCtx
    · exact .inr (if_pos full)
    · rw [if_neg full]
      refine .inl ?_
      cases tso : txTso env.cowHead c.skb with
      | error => rfl
      | off | on g =>
          have csum : env.csum = false := by
            rw [Bool.eq_false_iff]
            intro sum
            rw [tso, sum] at refused
            simp [none_, Nat.le_of_not_lt full] at refused
          dsimp only
          rw [csum]
          rfl

theorem txSingleqFrame_maps {q : SingleqTxq} {skb : Skb} {env : SqEnv} (id : Nat)
    (maps : singleqMaps q skb env = true) :
    let c := txResCountRequired q.txMaxBufs env.linearize skb
    TsoOf c.skb (txTso env.cowHead c.skb) ∧
      txSingleqFrame q id skb env = txSingleqPut q id c.skb (txTso env.cowHead c.skb) env.dma := by
  unfold singleqMaps at maps
  unfold txSingleqFrame
  dsimp only at maps ⊢
  generalize txResCountRequired q.txMaxBufs env.linearize skb = c at maps
  simp only [Bool.and_eq_true, bne_iff_ne, decide_eq_true_eq] at maps
  obtain ⟨⟨⟨some_, room⟩, fine⟩, csum⟩ := maps
  refine ⟨txTso_of fine, ?_⟩
  rw [if_neg some_, if_neg (Nat.not_lt.mpr room), csum]
  cases tso : txTso env.cowHead c.skb with
  | error => exact absurd tso fine
  | off | on g => rfl

namespace SqInv

variable {s s' : SqSystem}

theorem send (v : SqInv s) {skb : Skb} {env : SqEnv}
    (ok : singleqOk s (.send skb env) = true) : SqInv (s.send skb env) := by
  rw [singleqOk, Bool.or_eq_true, Bool.not_eq_true', decide_eq_true_eq] at ok
  cases maps : singleqMaps s.q skb env with
  | false =>
      rcases txSingleqFrame_refused s.nextSkb maps with drop | busy
      · rw [SqSystem.send, drop]
        exact v.ofLog rfl v.book.drop
      · rw [SqSystem.send, busy]
        exact v.ofLog rfl v.book
  | true =>
      have taken := ok.resolve_left (by rw [maps]; exact Bool.noConfusion)
      obtain ⟨tsoOf, put⟩ := txSingleqFrame_maps s.nextSkb maps
      have unused := singleq_descUnused v.clean v.use v.room
      have spec := txSingleqPut_spec s.nextSkb env.dma tsoOf v.use (by omega)
        fun k inside => by
          rcases v.idle k (by omega) with empty | ⟨-, ctx⟩
          · exact .inl empty
          · exact .inr ctx
      rw [txResCountRequired_gso, ← put] at spec
      rw [SqSystem.send]
      revert spec
      rcases txSingleqFrame s.q s.nextSkb skb env with ⟨q, verdict⟩
      cases verdict with
      | busy => exact False.elim
      | dropped => exact False.elim
      | failed slots => exact fun spec => v.failed spec (by omega)
      | sent slots => exact fun ⟨sent, total⟩ => v.sent sent (by omega)

end SqInv

/-- The device touches one descriptor of the packets it is given. -/
structure DeviceDone (q : SingleqTxq) (a : Nat) (l : List SqPacket) (q' : SingleqTxq)
    (l' : List SqPacket) : Prop where
  only : q' = { q with ring := q'.ring }
  flight : Flight q' a l'
  size : flightSize l' = flightSize l
  ring : ∀ c ∉ ringSlots q.descCount a (flightSize l), q'.ring c = q.ring c
  maps : mapsIn l' = mapsIn l
  skbs : l'.map SqPacket.skb = l.map SqPacket.skb

theorem HeadAt.deviceDone {q : SingleqTxq} {f : Nat} {p : SqPacket} {m : SqMapping}
    {rest : List (Option SqMapping)} (h : HeadAt q f p m rest) :
    let eop := (f + rest.length) % q.descCount
    HeadAt (q.putDesc eop (q.ring eop).writeBack) f { p with done := true } m rest := by
  refine ⟨h.slots, h.type, h.skb, h.dma, h.len, h.rsIdx, h.laid, ?_⟩
  rw [SingleqTxq.putDesc]
  dsimp only
  rw [Function.update_self]
  cases q.ring ((f + rest.length) % q.descCount) <;> rfl

theorem deviceDone_spec {q q' : SingleqTxq} {a : Nat} {l l' : List SqPacket} (flight : Flight q a l)
    (room : flightSize l ≤ q.descCount) (go : deviceDone q a l = some (q', l')) :
    DeviceDone q a l q' l' := by
  induction l generalizing a l' with
  | nil => exact absurd go nofun
  | cons p l ih =>
      rw [flightSize_cons] at room
      obtain ⟨⟨ctx, m, rest, head⟩, later⟩ := flight
      have length : p.slots.length = rest.length + 1 := by rw [head.slots, List.length_cons]
      have apart := ringSlots_apart (n := q.descCount) (p := a) (j := p.size) (k := flightSize l)
        room
      rw [deviceDone] at go
      cases done : p.done with
      | true =>
          rw [done, if_pos rfl] at go
          obtain ⟨⟨q₁, l₁⟩, found, same⟩ := Option.map_eq_some_iff.mp go
          obtain ⟨rfl, rfl⟩ : q₁ = q' ∧ p :: l₁ = l' := Prod.mk.inj same
          have r := ih later (by omega) found
          have count : q₁.descCount = q.descCount := by rw [r.only]
          refine ⟨r.only, ⟨PacketAt.congr ⟨ctx, m, rest, head⟩ ⟨count, fun c _ => by rw [r.only],
            fun c member => r.ring c fun new => apart c new member⟩, r.flight⟩, ?_,
            fun c out => r.ring c fun member => out ?_, ?_, ?_⟩
          · rw [flightSize_cons, flightSize_cons, r.size]
          · rw [flightSize_cons, ringSlots_append]
            exact List.mem_append_right _ member
          · exact congrArg (mapsOf p.slots ++ ·) r.maps
          · rw [List.map_cons, List.map_cons, r.skbs]
      | false =>
          rw [done, if_neg Bool.false_ne_true] at go
          obtain ⟨rfl, rfl⟩ := Prod.mk.inj (Option.some.inj go)
          have last : a + p.size - 1 = a + p.ctx.toNat + rest.length := by
            rw [SqPacket.size, length]
            omega
          rw [last]
          have mine : (a + p.ctx.toNat + rest.length) % q.descCount ∈
              ringSlots q.descCount a p.size := by
            rw [SqPacket.size, length, ringSlots_append]
            exact List.mem_append_right _ (mem_ringSlots_last ..)
          refine ⟨rfl, ⟨⟨ctx, m, rest, head.deviceDone⟩, ?_⟩, rfl, fun c out => ?_, rfl, rfl⟩
          · refine later.congr ⟨rfl, fun _ _ => rfl, fun c member => ?_⟩
            have ne : c ≠ (a + p.ctx.toNat + rest.length) % q.descCount := fun same =>
              apart c member (same ▸ mine)
            exact Function.update_of_ne ne _ _
          · have ne : c ≠ (a + p.ctx.toNat + rest.length) % q.descCount := fun same => out (by
              rw [flightSize_cons, ringSlots_append, same]
              exact List.mem_append_left _ mine)
            exact Function.update_of_ne ne _ _

/-- What the whole pass does to the queue. -/
theorem txSingleqClean_spec {q : SingleqTxq} {budget : Nat} {l : List SqPacket} (carrier : Bool)
    (clean : q.nextToClean < q.descCount) (some_ : budget ≠ 0) (flight : Flight q q.nextToClean l)
    (room : flightSize l < q.descCount) (ok : passOk q budget q.nextToClean l = true)
    (stop : (q.bufs ((q.nextToClean + flightSize l) % q.descCount)).type ≠ .skb) :
    ∃ d, d + flightSize (reap budget l).2 = flightSize l ∧
      (txSingleqClean q budget carrier).nextToClean = (q.nextToClean + d) % q.descCount ∧
      ∃ q₁, Emptied q q₁ (ringSlots q.descCount q.nextToClean d)
          ((reap budget l).1.flatMap SqPacket.gives) ∧
        txSingleqClean q budget carrier = { q₁ with
          nextToClean := (txSingleqClean q budget carrier).nextToClean
          stopped := (txSingleqClean q budget carrier).stopped } := by
  obtain ⟨d, total, here, all⟩ := @singleqCleanTurns_spec _ _ _ (q.descCount + 1)
    ⟨q, q.nextToClean, budget, 0, 0⟩ rfl (Nat.mod_eq_of_lt clean).symm some_ flight room
    (show flightSize l < q.descCount + 1 by omega) ok stop
  refine ⟨d, total, ?_, _, all, ?_⟩
  · rw [txSingleqClean, ← here]
    dsimp only
    split <;> rfl
  · rw [txSingleqClean]
    dsimp only
    split <;> rfl

theorem Laid.mod {n p p' : Nat} {bufs : Nat → TxBuf} {l : List (Option SqMapping)}
    (same : p' % n = p % n) (h : Laid n bufs p l) : Laid n bufs p' l := by
  induction l generalizing p p' with
  | nil => trivial
  | cons x l ih => exact ⟨same ▸ h.1, ih (Nat.ModEq.add_right 1 same) h.2⟩

theorem HeadAt.mod {q : SingleqTxq} {f f' : Nat} {p : SqPacket} {m : SqMapping}
    {rest : List (Option SqMapping)} (same : f' % q.descCount = f % q.descCount)
    (h : HeadAt q f p m rest) : HeadAt q f' p m rest := by
  have last : (f' + rest.length) % q.descCount = (f + rest.length) % q.descCount :=
    Nat.ModEq.add_right rest.length same
  constructor
  · exact h.slots
  · rw [same, h.type]
  · rw [same, h.skb]
  · rw [same, h.dma]
  · rw [same, h.len]
  · rw [same, last, h.rsIdx]
  · exact h.laid.mod (Nat.ModEq.add_right 1 same)
  · rw [last, h.done]

theorem Flight.mod {q : SingleqTxq} {a a' : Nat} {l : List SqPacket}
    (same : a' % q.descCount = a % q.descCount) (h : Flight q a l) : Flight q a' l := by
  induction l generalizing a a' with
  | nil => trivial
  | cons p l ih =>
      obtain ⟨⟨ctx, m, rest, head⟩, later⟩ := h
      exact ⟨⟨fun some_ => by rw [same]; exact ctx some_, m, rest,
        head.mod (Nat.ModEq.add_right p.ctx.toNat same)⟩, ih (Nat.ModEq.add_right p.size same) later⟩

theorem Flight.reap {q : SingleqTxq} {a : Nat} {l : List SqPacket} (flight : Flight q a l)
    (budget : Nat) :
    ∃ d, d + flightSize (reap budget l).2 = flightSize l ∧ Flight q (a + d) (reap budget l).2 := by
  induction l generalizing a budget with
  | nil => cases budget <;> exact ⟨0, rfl, trivial⟩
  | cons p l ih =>
      cases budget with
      | zero => exact ⟨0, Nat.zero_add _, flight⟩
      | succ budget =>
          rw [Idpf.reap]
          by_cases done : p.done = true
          · rw [if_pos done]
            have rest := ih flight.2 budget
            obtain ⟨d, total, left⟩ := rest
            refine ⟨p.size + d, ?_, ?_⟩
            · dsimp only
              rw [flightSize_cons]
              omega
            · rw [← Nat.add_assoc]
              exact left
          · rw [if_neg done]
            obtain ⟨⟨-, m, rest, head⟩, later⟩ := flight
            refine ⟨p.ctx.toNat, ?_, ⟨⟨fun some_ => absurd some_ Bool.false_ne_true, m, rest, ?_⟩, ?_⟩⟩
            · rw [flightSize_cons, flightSize_cons, SqPacket.size, SqPacket.size]
              simp only [Bool.toNat_false]
              omega
            · exact ⟨head.slots, head.type, head.skb, head.dma, head.len, head.rsIdx, head.laid,
                head.done⟩
            · have place : a + p.ctx.toNat + SqPacket.size { p with ctx := false } = a + p.size := by
                rw [SqPacket.size, SqPacket.size]
                simp only [Bool.toNat_false]
                omega
              rw [place]
              exact later

namespace SqInv

variable {s s' : SqSystem}

theorem deviceDone (v : SqInv s) {q : SingleqTxq} {l : List SqPacket}
    (go : Idpf.deviceDone s.q s.q.nextToClean s.inflight = some (q, l)) :
    SqInv { s with q, inflight := l } := by
  have r := deviceDone_spec v.flight (Nat.le_of_lt v.room) go
  have count : q.descCount = s.q.descCount := by rw [r.only]
  have head : q.nextToClean = s.q.nextToClean := by rw [r.only]
  have use : q.nextToUse = s.q.nextToUse := by rw [r.only]
  have bufs : q.bufs = s.q.bufs := by rw [r.only]
  have log : q.log = s.q.log := by rw [r.only]
  have maps : q.nextMap = s.q.nextMap := by rw [r.only]
  refine ⟨?_, ?_, ?_, ?_, ?_, ?_⟩
  all_goals dsimp only
  · rw [head, count]
    exact v.clean
  · rw [head]
    exact r.flight
  · rw [use, head, count, r.size]
    exact v.use
  · rw [count, r.size]
    exact v.room
  · rw [count, head, bufs, r.size]
    exact v.idle
  · have book := v.book
    rw [log, maps]
    refine ⟨book.unmapped, book.freed, ?_, ?_, ?_, ?_, book.done⟩
    · rw [r.maps]
      exact book.maps
    · rw [r.maps]
      exact book.serials
    · rw [r.skbs]
      exact book.skbs
    · rw [r.skbs]
      exact book.below

theorem pass (v : SqInv s) {budget : Nat} {carrier : Bool} (some_ : budget ≠ 0)
    (ok : singleqOk s (.clean budget carrier) = true) : SqInv (s.clean budget carrier) := by
  have last := v.idle 0 v.room
  rw [Nat.add_zero] at last
  have stop : (s.q.bufs ((s.q.nextToClean + flightSize s.inflight) % s.q.descCount)).type ≠ .skb := by
    rcases last with type | ⟨-, type⟩ <;> rw [type] <;> exact nofun
  obtain ⟨d, total, here, q₁, all, same⟩ := txSingleqClean_spec carrier v.clean some_
    v.flight v.room ok stop
  obtain ⟨d', total', left⟩ := v.flight.reap budget
  obtain rfl : d = d' := by omega
  rw [SqSystem.clean]
  generalize txSingleqClean s.q budget carrier = q at here same
  have count : q.descCount = s.q.descCount := by rw [same, all.only]
  have use : q.nextToUse = s.q.nextToUse := by rw [same, all.only]
  have bufs : q.bufs = q₁.bufs := by rw [same]
  have ring : q.ring = s.q.ring := by rw [same, all.only]
  have log : q.log = s.q.log ++ (reap budget s.inflight).1.flatMap SqPacket.gives := by
    rw [same, all.only]
  have maps : q.nextMap = s.q.nextMap := by rw [same, all.only]
  have room := v.room
  have keep : SameSlots s.q q (ringSlots s.q.descCount (s.q.nextToClean + d)
      (flightSize (reap budget s.inflight).2)) := by
    have apart := ringSlots_apart (n := s.q.descCount) (p := s.q.nextToClean) (j := d)
      (k := flightSize (reap budget s.inflight).2) (by omega)
    exact ⟨count, fun c member => by rw [bufs, all.outside c (apart c member)], fun _ _ => by
      rw [ring]⟩
  refine ⟨?_, ?_, ?_, ?_, fun k inside => ?_, ?_⟩
  all_goals dsimp only
  · rw [here, count]
    exact Nat.mod_lt _ (by omega)
  · refine (left.congr keep).mod ?_
    rw [here, count, Nat.mod_mod]
  · rw [use, here, count, Nat.mod_add_mod, Nat.add_assoc, total]
    exact v.use
  · rw [count]
    omega
  · dsimp only at inside
    rw [count] at inside
    have place : (q.nextToClean + flightSize (reap budget s.inflight).2 + k) % q.descCount =
        (s.q.nextToClean + (flightSize s.inflight + k)) % s.q.descCount := by
      rw [here, count, Nat.add_assoc, Nat.mod_add_mod, ← total]
      congr 1
      omega
    rw [place, bufs]
    by_cases free : flightSize s.inflight + k < s.q.descCount
    · have far := ringSlots_next s.q.nextToClean free
      rw [all.outside _ fun member => far (ringSlots_subset (by omega) member), ← Nat.add_assoc]
      exact v.idle k free
    · refine .inl (all.within _ ?_)
      obtain ⟨j, past⟩ := Nat.exists_eq_add_of_le (Nat.le_of_not_lt free)
      rw [past, Nat.add_left_comm, Nat.add_mod_left]
      exact ringSlots_subset (show j + 1 ≤ d by omega) (mem_ringSlots_last ..)
  · rw [log, maps]
    exact v.book.clean budget

theorem start (h : SqStart s) : SqInv s := by
  obtain ⟨n, txMaxBufs, low, -, rfl⟩ := h
  have pos : 0 < n := Nat.lt_of_lt_of_le (by decide) low
  exact ⟨pos, trivial, (Nat.zero_mod n).symm, pos, fun _ _ => .inl rfl,
    .refl _, .refl _, List.nodup_nil, nofun, List.nodup_nil, nofun, nofun⟩

theorem step {e : SqEvent} (v : SqInv s) (ok : singleqOk s e = true) (go : s.step e = some s') :
    SqInv s' := by
  cases e with
  | send skb env =>
      obtain rfl := Option.some.inj go
      exact v.send ok
  | done =>
      obtain ⟨r, found, rfl⟩ := Option.map_eq_some_iff.mp go
      exact v.deviceDone found
  | clean budget carrier =>
      rw [SqSystem.step] at go
      split at go
      · exact absurd go nofun
      · next some_ =>
        obtain rfl := Option.some.inj go
        exact v.pass some_ ok

theorem conserved (v : SqInv s) : SqConserved s :=
  ⟨v.book.unmapped, v.book.freed, v.book.maps, v.book.skbs, v.book.done, v.use, v.room⟩

end SqInv

end Idpf
