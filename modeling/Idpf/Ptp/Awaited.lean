import Idpf.Ptp.Latches

/-! Tx timestamp latches in a run: each one in use is awaited by a packet in flight or by a read. -/
namespace Idpf
open General
namespace TsVport

/-- The invariant until the release. The buffers of the latches in use are those of the packets in
flight and those that the tracker follows; `extra` is what a message asked for whose reply is being
handled. -/
structure Live (extra : List (Nat × Nat)) (s : TsVport) : Prop where
  present : s.released = false
  latches : ((s.free ++ s.inUse).map TsLatch.id).Perm (List.range s.numEntries)
  tracker : s.status.length = s.numEntries
  idle : ∀ l ∈ s.free, l.skb = none
  refs : ((s.inUse.map TsLatch.skb : List (Option Nat)) : Multiset (Option Nat)) =
    s.refs.map some
  skbs : (s.inUse.map TsLatch.skb).Nodup
  idxs : (s.inUse.map TsLatch.idx).Nodup
  pkts : (s.inUse.map TsLatch.pkt).Nodup
  numbered : ∀ l ∈ s.inUse, l.pkt < s.sent
  holders : (s.inUse.map TsLatch.skb).Perm
    (s.flight.map (fun x => some x.1) ++ TsStatus.followed s.status)
  flown : ∀ l ∈ s.inUse, ∀ x ∈ s.flight, l.skb = some x.1 → l.pkt = x.2
  work : ∀ x, ⟨x, .request⟩ ∈ s.status → s.queued = true
  asked : ∀ l ∈ s.inUse, ⟨l.skb, .readValue⟩ ∈ s.status →
    (∃ asked ∈ s.reads, (l.idx, l.pkt) ∈ asked) ∨ (l.idx, l.pkt) ∈ extra
  stamped : ∀ x ∈ s.stamps, x.1 < s.sent ∧ ∀ l ∈ s.inUse, l.pkt ≠ x.1
  own : ∀ x ∈ s.stamps, x.1 = x.2
  once : (s.stamps.map Prod.fst).Nodup
  untouched : s.touched = false

structure Gone (s : TsVport) : Prop where
  released : s.released = true
  free : s.free = []
  inUse : s.inUse = []
  refs : s.refs = 0
  own : ∀ x ∈ s.stamps, x.1 = x.2
  once : (s.stamps.map Prod.fst).Nodup
  untouched : s.touched = false

def Inv (s : TsVport) : Prop := s.Live [] ∨ s.Gone

variable {s t : TsVport} {extra : List (Nat × Nat)} {l : TsLatch}

theorem Live.followedOnce (inv : s.Live extra) : (TsStatus.followed s.status).Nodup :=
  (inv.holders.nodup_iff.mp inv.skbs).of_append_right

theorem Live.cases (inv : s.Live extra) (used : l ∈ s.inUse) :
    (∃ p, l.skb = some p ∧ (p, l.pkt) ∈ s.flight) ∨
      (∃ state, state ≠ .free ∧ ⟨l.skb, state⟩ ∈ s.status) := by
  have holder := inv.holders.mem_iff.mp (List.mem_map.mpr ⟨l, used, rfl⟩)
  cases List.mem_append.mp holder with
  | inl flying =>
      obtain ⟨x, inside, same⟩ := List.mem_map.mp flying
      have pkt := inv.flown l used x inside same.symm
      exact .inl ⟨x.1, same.symm, pkt ▸ inside⟩
  | inr followed => exact .inr (TsStatus.mem_followed.mp followed)

theorem Live.awaited (inv : s.Live []) (used : l ∈ s.inUse) : s.Awaited l := by
  cases inv.cases used with
  | inl flying => exact .inl flying
  | inr followed =>
      obtain ⟨state, taken, inside⟩ := followed
      cases state with
      | free => exact absurd rfl taken
      | request => exact .inr (.inl ⟨inv.work _ inside, inside⟩)
      | readValue =>
          cases inv.asked l used inside with
          | inl asked => exact .inr (.inr ⟨inside, asked⟩)
          | inr none => exact absurd none List.not_mem_nil

theorem Live.kept (inv : s.Live []) : s.Kept where
  latches := by
    rw [inv.present]
    exact inv.latches
  refs := inv.refs
  idle := inv.idle
  awaited := fun _ used => inv.awaited used
  undrained := by
    intro landed unqueued unasked
    apply List.eq_nil_iff_forall_not_mem.mpr
    intro l used
    rcases inv.awaited used with ⟨p, -, flying⟩ | ⟨queued, -⟩ | ⟨-, asked, waiting, -⟩
    · rw [landed] at flying
      exact List.not_mem_nil flying
    · exact Bool.noConfusion (unqueued.symm.trans queued)
    · rw [unasked] at waiting
      exact List.not_mem_nil waiting
  own := inv.own
  once := inv.once
  untouched := inv.untouched

theorem Gone.kept (gone : s.Gone) : s.Kept where
  latches := by
    rw [gone.released, gone.free, gone.inUse]
    exact .nil
  refs := by
    rw [gone.inUse, gone.refs]
    rfl
  idle := by
    rw [gone.free]
    exact fun l inside => absurd inside List.not_mem_nil
  awaited := by
    rw [gone.inUse]
    exact fun l inside => absurd inside List.not_mem_nil
  undrained := fun _ _ _ => gone.inUse
  own := gone.own
  once := gone.once
  untouched := gone.untouched

theorem Live.held (inv : s.Live extra) {p : Nat} (inside : some p ∈ s.inUse.map TsLatch.skb) :
    p ∈ s.refs := by
  have member : some p ∈ s.refs.map some := inv.refs ▸ Multiset.mem_coe.mpr inside
  obtain ⟨q, held, same⟩ := Multiset.mem_map.mp member
  exact Option.some.inj same ▸ held

/-- A latch is taken. -/
theorem Live.requestTs (inv : s.Live []) {skb : Nat} (away : skb ∉ s.flight.map Prod.fst)
    (unheld : skb ∉ s.refs)
    (fine : (s.free.head?.all fun l => l.idx ∉ s.inUse.map TsLatch.idx) = true) :
    (s.requestTs skb).Live [] := by
  unfold TsVport.requestTs
  rw [if_neg (Bool.eq_false_iff.mp inv.present)]
  cases free : s.free with
  | nil => exact inv
  | cons l rest =>
      rw [free] at fine
      have unused : l.idx ∉ s.inUse.map TsLatch.idx := of_decide_eq_true fine
      have new : some skb ∉ s.inUse.map TsLatch.skb := fun inside => unheld (inv.held inside)
      have unfollowed : ∀ state, state ≠ .free → ⟨some skb, state⟩ ∉ s.status :=
        fun state taken inside => new (inv.holders.mem_iff.mpr
          (List.mem_append_right _ (TsStatus.mem_followed.mpr ⟨state, taken, inside⟩)))
      have old : ∀ x ∈ s.flight, x.1 ≠ skb := by
        rintro x inside rfl
        exact away (List.mem_map.mpr ⟨x, inside, rfl⟩)
      constructor
      · exact inv.present
      · have before := inv.latches
        rw [free] at before
        apply List.Perm.trans _ before
        rw [List.map_append, List.map_append]
        exact List.perm_middle
      · exact inv.tracker
      · intro k inside
        exact inv.idle k (free ▸ List.mem_cons_of_mem _ inside)
      · rw [List.map_cons, ← Multiset.cons_coe, inv.refs, Multiset.map_cons]
      · exact List.nodup_cons.mpr ⟨new, inv.skbs⟩
      · exact List.nodup_cons.mpr ⟨unused, inv.idxs⟩
      · apply List.nodup_cons.mpr ⟨_, inv.pkts⟩
        intro inside
        obtain ⟨k, used, same⟩ := List.mem_map.mp inside
        exact absurd same (Nat.ne_of_lt (inv.numbered k used))
      · intro k used
        cases List.mem_cons.mp used with
        | inl here =>
            rw [here]
            exact Nat.lt_succ_self _
        | inr rest => exact Nat.lt_succ_of_lt (inv.numbered k rest)
      · exact inv.holders.cons (some skb)
      · intro k used x flying same
        cases List.mem_cons.mp used with
        | inl here =>
            subst here
            cases List.mem_cons.mp flying with
            | inl this => rw [this]
            | inr before => exact absurd (Option.some.inj same).symm (old x before)
        | inr rest =>
            cases List.mem_cons.mp flying with
            | inl this =>
                rw [this] at same
                exact absurd (List.mem_map.mpr ⟨k, rest, same⟩) new
            | inr before => exact inv.flown k rest x before same
      · exact inv.work
      · intro k used inside
        cases List.mem_cons.mp used with
        | inl here =>
            subst here
            exact absurd inside (unfollowed _ TsState.readValue_ne_free)
        | inr rest => exact inv.asked k rest inside
      · intro x given
        obtain ⟨below, other⟩ := inv.stamped x given
        constructor
        · exact Nat.lt_succ_of_lt below
        · intro k used
          cases List.mem_cons.mp used with
          | inl here =>
              rw [here]
              exact (Nat.ne_of_lt below).symm
          | inr rest => exact other k rest
      · exact inv.own
      · exact inv.once
      · exact inv.untouched

theorem Live.length (inv : s.Live extra) : s.inUse.length ≤ s.numEntries := by
  have lengths := inv.latches.length_eq
  rw [List.length_map, List.length_append, List.length_range] at lengths
  omega

theorem flight_split {i : Nat} {x : Nat × Nat} (at_i : s.flight[i]? = some x) :
    s.flight.Perm (x :: s.flight.eraseIdx i) := by
  obtain ⟨low, rfl⟩ := List.getElem?_eq_some_iff.mp at_i
  exact (List.getElem_cons_eraseIdx_perm low).symm

theorem Live.room (inv : s.Live extra) {i : Nat} {x : Nat × Nat} (at_i : s.flight[i]? = some x) :
    TsStatus.claim x.1 s.status ≠ none := by
  intro full
  have followed := TsStatus.followed_length full
  have counted := inv.holders.length_eq
  have flying := (flight_split at_i).length_eq
  have used := inv.length
  have tracker := inv.tracker
  simp only [List.length_append, List.length_map, List.length_cons] at counted flying
  omega

theorem Live.complete (inv : s.Live []) {i : Nat} {x : Nat × Nat} (at_i : s.flight[i]? = some x) :
    ({ s with flight := s.flight.eraseIdx i }.readTstamp x.1).Live [] := by
  unfold readTstamp
  rw [if_neg (Bool.eq_false_iff.mp inv.present)]
  cases found : TsStatus.claim x.1 s.status with
  | none => exact absurd found (inv.room at_i)
  | some status =>
      have split := flight_split at_i
      constructor
      · exact inv.present
      · exact inv.latches
      · exact (TsStatus.claim_length found).trans inv.tracker
      · exact inv.idle
      · exact inv.refs
      · exact inv.skbs
      · exact inv.idxs
      · exact inv.pkts
      · exact inv.numbered
      · calc List.Perm (s.inUse.map TsLatch.skb)
              (s.flight.map (fun x => some x.1) ++ TsStatus.followed s.status) := inv.holders
          List.Perm _ (some x.1 :: ((s.flight.eraseIdx i).map (fun x => some x.1) ++
              TsStatus.followed s.status)) := (split.map fun x => some x.1).append_right _
          List.Perm _ ((s.flight.eraseIdx i).map (fun x => some x.1) ++
              some x.1 :: TsStatus.followed s.status) := List.perm_middle.symm
          List.Perm _ ((s.flight.eraseIdx i).map (fun x => some x.1) ++
              TsStatus.followed status) := (TsStatus.followed_claim found).symm.append_left _
      · intro l used y flying
        exact inv.flown l used y (List.mem_of_mem_eraseIdx flying)
      · exact fun _ _ => rfl
      · intro l used inside
        cases TsStatus.mem_claim found inside with
        | inl new => exact TsState.noConfusion (congrArg TsStatus.state new)
        | inr old => exact inv.asked l used old
      · exact inv.stamped
      · exact inv.own
      · exact inv.once
      · exact inv.untouched

theorem collect_length (ls : List TsLatch) (status : List TsStatus) :
    (collect ls status).1.length = status.length := by
  induction ls generalizing status with
  | nil => rfl
  | cons l ls ih =>
      unfold collect
      cases found : TsStatus.update l.skb .request .readValue status with
      | none => exact ih status
      | some status' => exact (ih status').trans (TsStatus.update_length found)

theorem collect_followed (ls : List TsLatch) (status : List TsStatus) :
    TsStatus.followed (collect ls status).1 = TsStatus.followed status := by
  induction ls generalizing status with
  | nil => rfl
  | cons l ls ih =>
      unfold collect
      cases found : TsStatus.update l.skb .request .readValue status with
      | none => exact ih status
      | some status' =>
          exact (ih status').trans (TsStatus.followed_update TsState.request_ne_free
            TsState.readValue_ne_free found)

/-- What is in the state of a read was so before, or is asked for. -/
theorem collect_readValue {ls : List TsLatch} {status : List TsStatus} {x : Option Nat}
    (once : (TsStatus.followed status).Nodup) (inside : ⟨x, .readValue⟩ ∈ (collect ls status).1) :
    ⟨x, .readValue⟩ ∈ status ∨
      ∃ l ∈ ls, l.skb = x ∧ (l.idx, l.pkt) ∈ (collect ls status).2 := by
  induction ls generalizing status with
  | nil => exact .inl inside
  | cons l ls ih =>
      unfold collect at inside ⊢
      cases found : TsStatus.update l.skb .request .readValue status with
      | none =>
          rw [found] at inside
          cases ih once inside with
          | inl before => exact .inl before
          | inr new =>
              obtain ⟨k, member, same, asked⟩ := new
              exact .inr ⟨k, List.mem_cons_of_mem _ member, same, asked⟩
      | some status' =>
          rw [found] at inside
          have kept := TsStatus.followed_update TsState.request_ne_free
            TsState.readValue_ne_free found
          cases ih (kept ▸ once) inside with
          | inl before =>
              cases TsStatus.mem_update once TsState.request_ne_free found before with
              | inl here =>
                  have same : x = l.skb := congrArg TsStatus.skb here
                  exact .inr ⟨l, List.mem_cons_self, same.symm, List.mem_cons_self⟩
              | inr old => exact .inl old.1
          | inr new =>
              obtain ⟨k, member, same, asked⟩ := new
              exact .inr ⟨k, List.mem_cons_of_mem _ member, same, List.mem_cons_of_mem _ asked⟩

theorem collect_request {ls : List TsLatch} {status : List TsStatus} {x : Option Nat}
    (once : (TsStatus.followed status).Nodup) (inside : ⟨x, .request⟩ ∈ (collect ls status).1) :
    ⟨x, .request⟩ ∈ status ∧ x ∉ ls.map TsLatch.skb := by
  induction ls generalizing status with
  | nil => exact ⟨inside, List.not_mem_nil⟩
  | cons l ls ih =>
      unfold collect at inside
      cases found : TsStatus.update l.skb .request .readValue status with
      | none =>
          rw [found] at inside
          obtain ⟨before, away⟩ := ih once inside
          have other : x ≠ l.skb := fun same => TsStatus.update_none found (same ▸ before)
          exact ⟨before, List.not_mem_cons_of_ne_of_not_mem other away⟩
      | some status' =>
          rw [found] at inside
          have kept := TsStatus.followed_update TsState.request_ne_free
            TsState.readValue_ne_free found
          obtain ⟨before, away⟩ := ih (kept ▸ once) inside
          cases TsStatus.mem_update once TsState.request_ne_free found before with
          | inl here => exact TsState.noConfusion (congrArg TsStatus.state here)
          | inr old =>
              have other : x ≠ l.skb := old.2 TsState.request_ne_free
              exact ⟨old.1, List.not_mem_cons_of_ne_of_not_mem other away⟩

theorem Live.unrequested (inv : s.Live extra) (x : Option Nat) :
    ⟨x, .request⟩ ∉ (collect s.inUse s.status).1 := by
  intro inside
  obtain ⟨before, away⟩ := collect_request inv.followedOnce inside
  have followed : x ∈ TsStatus.followed s.status :=
    TsStatus.mem_followed.mpr ⟨_, TsState.request_ne_free, before⟩
  exact away (inv.holders.mem_iff.mpr (List.mem_append_right _ followed))

theorem Live.eq_of_skb (inv : s.Live extra) {k : TsLatch} (left : l ∈ s.inUse) (right : k ∈ s.inUse)
    (same : l.skb = k.skb) : l = k := List.inj_on_of_nodup_map inv.skbs left right same

theorem Live.dequeue (inv : s.Live []) (none : ∀ x, ⟨x, .request⟩ ∉ s.status) :
    { s with queued := false }.Live [] where
  __ := inv
  work := fun x inside => absurd inside (none x)

theorem collect_nothing {ls : List TsLatch} {status : List TsStatus}
    (none : ∀ x, ⟨x, .request⟩ ∉ status) : collect ls status = (status, []) := by
  induction ls with
  | nil => rfl
  | cons l ls ih =>
      unfold collect
      cases found : TsStatus.update l.skb .request .readValue status with
      | none => exact ih
      | some status' =>
          obtain ⟨before, after, rfl, -⟩ := TsStatus.update_spec found
          exact absurd (List.mem_append_right _ List.mem_cons_self) (none l.skb)

theorem Live.sendRequests (inv : s.Live []) :
    ({ s with queued := false }.getTxTstamp true true).Live [] where
  present := inv.present
  latches := inv.latches
  tracker := (collect_length s.inUse s.status).trans inv.tracker
  idle := inv.idle
  refs := inv.refs
  skbs := inv.skbs
  idxs := inv.idxs
  pkts := inv.pkts
  numbered := inv.numbered
  holders := by
    change List.Perm _ (_ ++ TsStatus.followed (collect s.inUse s.status).1)
    rw [collect_followed]
    exact inv.holders
  flown := inv.flown
  work := fun x inside => absurd inside (inv.unrequested x)
  asked := by
    intro l used inside
    apply Or.inl
    cases collect_readValue inv.followedOnce inside with
    | inl before =>
        cases inv.asked l used before with
        | inl waiting =>
            obtain ⟨asked, member, this⟩ := waiting
            exact ⟨asked, List.mem_append_left _ member, this⟩
        | inr none => exact absurd none List.not_mem_nil
    | inr new =>
        obtain ⟨k, other, same, asked⟩ := new
        obtain rfl := inv.eq_of_skb other used same
        exact ⟨_, List.mem_append_right _ List.mem_cons_self, asked⟩
  stamped := inv.stamped
  own := inv.own
  once := inv.once
  untouched := inv.untouched

theorem Live.task (inv : s.Live []) {alloc sent : Bool}
    (fine : s.ok (.task alloc sent) = true) :
    ({ s with queued := false }.getTxTstamp alloc sent).Live [] := by
  have fine : (alloc && sent || s.status.all fun t => t.state ≠ .request) = true := fine
  cases good : alloc && sent with
  | true =>
      obtain ⟨rfl, rfl⟩ := Bool.and_eq_true_iff.mp good
      exact inv.sendRequests
  | false =>
      rw [good, Bool.false_or, List.all_eq_true] at fine
      have none : ∀ x, ⟨x, .request⟩ ∉ s.status := fun x inside =>
        of_decide_eq_true (fine _ inside) rfl
      cases alloc with
      | false => exact inv.dequeue none
      | true =>
          obtain rfl : sent = false := good
          have idle := inv.dequeue none
          unfold getTxTstamp
          dsimp only
          rw [collect_nothing none]
          exact idle

theorem map_consume {skb : Option Nat} {refs : Multiset Nat} {rest : Multiset (Option Nat)}
    (held : skb ::ₘ rest = refs.map some) : rest = (consume refs skb).map some := by
  have member : skb ∈ refs.map some := held ▸ Multiset.mem_cons_self skb rest
  obtain ⟨p, inside, rfl⟩ := Multiset.mem_map.mp member
  apply (Multiset.cons_inj_right (some p)).mp
  calc some p ::ₘ rest = refs.map some := held
    _ = (p ::ₘ refs.erase p).map some := by rw [Multiset.cons_erase inside]
    _ = some p ::ₘ (consume refs (some p)).map some := Multiset.map_cons _ _ _

/-- The vport once a latch in use has given its timestamp to its packet. -/
def stampedBy (s : TsVport) (l : TsLatch) (status : List TsStatus) : TsVport :=
  { s with
    inUse := s.inUse.erase l
    status := status
    stamps := (l.pkt, l.pkt) :: s.stamps
    refs := consume s.refs l.skb
    free := emptied l :: s.free }

theorem getTstampValue_found {status : List TsStatus}
    (found : TsStatus.update l.skb .readValue .free s.status = some status) :
    { s with inUse := s.inUse.erase l }.getTstampValue l l.pkt = (s.stampedBy l status, true) := by
  unfold getTstampValue
  simp only [found]
  rfl

theorem Live.stamp (inv : s.Live extra) (used : l ∈ s.inUse) {status : List TsStatus}
    (found : TsStatus.update l.skb .readValue .free s.status = some status) :
    (s.stampedBy l status).Live extra := by
  have split : s.inUse.Perm (l :: s.inUse.erase l) := List.perm_cons_erase used
  have rest {k : TsLatch} (inside : k ∈ s.inUse.erase l) : k ∈ s.inUse :=
    List.mem_of_mem_erase inside
  have taken := TsState.readValue_ne_free
  have old {x : Option Nat} {state : TsState} (busy : state ≠ .free)
      (inside : ⟨x, state⟩ ∈ status) : ⟨x, state⟩ ∈ s.status := by
    cases TsStatus.mem_update inv.followedOnce taken found inside with
    | inl here => exact absurd (congrArg TsStatus.state here) busy
    | inr before => exact before.1
  have pkts := (split.map TsLatch.pkt).nodup_iff.mp inv.pkts
  constructor
  · exact inv.present
  · apply List.Perm.trans _ inv.latches
    rw [List.map_append, List.map_append]
    apply List.Perm.trans List.perm_middle.symm
    exact ((split.map TsLatch.id).symm).append_left _
  · exact (TsStatus.update_length found).trans inv.tracker
  · intro k inside
    cases List.mem_cons.mp inside with
    | inl here =>
        rw [here]
        rfl
    | inr before => exact inv.idle k before
  · apply map_consume
    exact (Multiset.coe_eq_coe.mpr (split.map TsLatch.skb)).symm.trans inv.refs
  · exact ((split.map TsLatch.skb).nodup_iff.mp inv.skbs).of_cons
  · exact ((split.map TsLatch.idx).nodup_iff.mp inv.idxs).of_cons
  · exact pkts.of_cons
  · exact fun k inside => inv.numbered k (rest inside)
  · apply (List.perm_cons l.skb).mp
    calc List.Perm (l.skb :: (s.inUse.erase l).map TsLatch.skb) (s.inUse.map TsLatch.skb) :=
          (split.map TsLatch.skb).symm
      List.Perm _ (s.flight.map (fun x => some x.1) ++ TsStatus.followed s.status) := inv.holders
      List.Perm _ (s.flight.map (fun x => some x.1) ++ l.skb :: TsStatus.followed status) :=
          (TsStatus.followed_freed taken found).append_left _
      List.Perm _ (l.skb :: (s.flight.map (fun x => some x.1) ++ TsStatus.followed status)) :=
          List.perm_middle
  · exact fun k inside => inv.flown k (rest inside)
  · exact fun x inside => inv.work x (old TsState.request_ne_free inside)
  · exact fun k inside before => inv.asked k (rest inside) (old taken before)
  · intro x given
    cases List.mem_cons.mp given with
    | inl here =>
        rw [here]
        constructor
        · exact inv.numbered l used
        · intro k inside same
          exact (List.nodup_cons.mp pkts).1 (List.mem_map.mpr ⟨k, inside, same⟩)
    | inr before =>
        obtain ⟨below, other⟩ := inv.stamped x before
        exact ⟨below, fun k inside => other k (rest inside)⟩
  · intro x given
    cases List.mem_cons.mp given with
    | inl here => rw [here]
    | inr before => exact inv.own x before
  · apply List.nodup_cons.mpr ⟨_, inv.once⟩
    intro given
    obtain ⟨x, before, same⟩ := List.mem_map.mp given
    exact (inv.stamped x before).2 l used same.symm
  · exact inv.untouched

theorem fits_iff {e : TsEntry} : s.fits e = true ↔ (e.valid = true → ∀ l ∈ s.inUse,
    l.idx = e.index → l.pkt = e.measured ∧ ⟨l.skb, .readValue⟩ ∈ s.status) := by
  unfold fits
  simp only [Bool.or_eq_true, Bool.not_eq_true', List.all_eq_true, Bool.and_eq_true,
    decide_eq_true_eq]
  constructor
  · intro either valid l used same
    cases either with
    | inl no => exact Bool.noConfusion (no.symm.trans valid)
    | inr all => exact (all l used).resolve_left fun other => other same
  · intro all
    cases valid : e.valid with
    | false => exact .inl rfl
    | true =>
        apply Or.inr
        intro l used
        by_cases same : l.idx = e.index
        · exact .inr (all valid l used same)
        · exact .inl same

theorem Live.fits_stampedBy (inv : s.Live extra) (used : l ∈ s.inUse) {status : List TsStatus}
    (found : TsStatus.update l.skb .readValue .free s.status = some status) {e : TsEntry}
    (fits : s.fits e = true) : (s.stampedBy l status).fits e = true := by
  apply fits_iff.mpr
  intro valid k inside same
  have before : k ∈ s.inUse := List.mem_of_mem_erase inside
  obtain ⟨measured, reading⟩ := fits_iff.mp fits valid k before same
  have other : k.skb ≠ l.skb := by
    intro alike
    obtain rfl := inv.eq_of_skb before used alike
    exact inv.skbs.of_map.not_mem_erase inside
  exact ⟨measured, TsStatus.mem_update_of_ne found reading other⟩

/-- What the handler leaves: the invariant, and no latch in use that an entry was about. -/
structure Handled (extra : List (Nat × Nat)) (s t : TsVport) (es : List TsEntry) : Prop where
  live : t.Live extra
  used : ∀ l ∈ t.inUse, l ∈ s.inUse
  answered : ∀ e ∈ es, e.valid = true → ∀ l ∈ t.inUse, l.idx ≠ e.index

theorem Handled.cons {e : TsEntry} {es : List TsEntry} (handled : Handled extra s t es)
    (none : e.valid = true → ∀ l ∈ t.inUse, l.idx ≠ e.index) : Handled extra s t (e :: es) where
  live := handled.live
  used := handled.used
  answered := by
    intro d member valid l inside
    cases List.mem_cons.mp member with
    | inl here =>
        subst here
        exact none valid l inside
    | inr rest => exact handled.answered d rest valid l inside

theorem Live.handle (inv : s.Live extra) {es : List TsEntry} (fits : ∀ e ∈ es, s.fits e = true) :
    Handled extra s (s.handle es) es := by
  induction es generalizing s with
  | nil => exact ⟨inv, fun _ inside => inside, fun e none => absurd none List.not_mem_nil⟩
  | cons e es ih =>
      have here := fits_iff.mp (fits e List.mem_cons_self)
      have rest : ∀ d ∈ es, s.fits d = true := fun d inside =>
        fits d (List.mem_cons_of_mem _ inside)
      unfold TsVport.handle
      cases valid : e.valid with
      | false => exact (ih inv rest).cons fun this => Bool.noConfusion (valid.symm.trans this)
      | true =>
          cases empty : s.inUse.isEmpty with
          | true =>
              have nothing := List.isEmpty_iff.mp empty
              exact ⟨inv, fun _ inside => inside, fun _ _ _ l inside =>
                absurd (nothing ▸ inside) List.not_mem_nil⟩
          | false =>
              cases found : s.inUse.find? fun l => l.idx = e.index with
              | none =>
                  have handled := ih inv rest
                  apply handled.cons
                  intro _ l inside same
                  have absent := List.find?_eq_none.mp found l (handled.used l inside)
                  exact absurd (decide_eq_true same) absent
              | some l =>
                  have used := List.mem_of_find?_eq_some found
                  have match_index := List.find?_some found
                  have index : l.idx = e.index := of_decide_eq_true match_index
                  obtain ⟨measured, reading⟩ := here valid l used index
                  cases changed : TsStatus.update l.skb .readValue .free s.status with
                  | none => exact absurd reading (TsStatus.update_none changed)
                  | some status =>
                      have handled := ih (inv.stamp used changed) fun d inside =>
                        inv.fits_stampedBy used changed (rest d inside)
                      have gone : ∀ k ∈ s.inUse.erase l, k.idx ≠ e.index := by
                        intro k inside same
                        have before := List.mem_of_mem_erase inside
                        obtain rfl := List.inj_on_of_nodup_map inv.idxs before used
                          (same.trans index.symm)
                        exact inv.skbs.of_map.not_mem_erase inside
                      rw [← measured]
                      simp only [Bool.not_true, Bool.false_eq_true, if_false,
                        getTstampValue_found changed, if_true]
                      constructor
                      · exact handled.live
                      · exact fun k inside => List.mem_of_mem_erase (handled.used k inside)
                      · exact (handled.cons fun _ k inside =>
                          gone k (handled.used k inside)).answered

/-- A reply has come to message `k`: what it asked for is no longer waited for. -/
theorem Live.settle (inv : s.Live extra) (none : ∀ l ∈ s.inUse, (l.idx, l.pkt) ∉ extra) :
    s.Live [] where
  __ := inv
  asked := fun l used inside => .inl ((inv.asked l used inside).resolve_right (none l used))

theorem Live.unlist (inv : s.Live []) (k : Nat) :
    { s with reads := s.reads.eraseIdx k }.Live ((s.reads[k]?).getD []) where
  __ := inv
  asked := by
    intro l used inside
    obtain ⟨asked, member, this⟩ := (inv.asked l used inside).resolve_right List.not_mem_nil
    obtain ⟨j, at_j⟩ := List.mem_iff_getElem?.mp member
    by_cases here : j = k
    · rw [here] at at_j
      rw [at_j]
      exact .inr this
    · have kept : asked ∈ s.reads.eraseIdx k :=
        List.mem_eraseIdx_iff_getElem?.mpr ⟨j, here, at_j⟩
      exact .inl ⟨asked, kept, this⟩

theorem settled_iff {k : Nat} {answered : Nat → Bool} : s.settled k answered = true ↔
    ∀ l ∈ s.inUse, answered l.idx = false → (l.idx, l.pkt) ∉ (s.reads[k]?).getD [] := by
  unfold settled
  simp only [List.all_eq_true, Bool.or_eq_true, decide_eq_true_eq]
  constructor
  · intro either l used waiting member
    have others := (either l used).resolve_right fun done =>
      Bool.noConfusion (waiting.symm.trans done)
    exact others _ member rfl
  · intro all l used
    cases waiting : answered l.idx with
    | true => exact .inr rfl
    | false => exact .inl fun asked member same => all l used waiting (same ▸ member)

theorem Live.reply (inv : s.Live []) {k : Nat} {entries : List TsEntry}
    (fits : ∀ e ∈ entries, s.fits e = true)
    (complete : s.settled k (fun index => entries.any fun e => e.valid && e.index = index) = true) :
    ({ s with reads := s.reads.eraseIdx k }.handle entries).Live [] := by
  have handled := (inv.unlist k).handle fits
  apply handled.live.settle
  intro l inside
  apply settled_iff.mp complete l (handled.used l inside)
  apply Bool.eq_false_iff.mpr
  intro answered
  obtain ⟨e, member, this⟩ := List.any_eq_true.mp answered
  obtain ⟨valid, index⟩ := Bool.and_eq_true_iff.mp this
  exact handled.answered e member valid l inside (of_decide_eq_true index).symm

theorem Live.lost (inv : s.Live []) {k : Nat} (none : s.settled k (fun _ => false) = true) :
    { s with reads := s.reads.eraseIdx k }.Live [] :=
  (inv.unlist k).settle fun l used => settled_iff.mp none l used rfl

theorem consume_all (ls : List TsLatch) (refs : Multiset Nat)
    (held : ((ls.map TsLatch.skb : List (Option Nat)) : Multiset (Option Nat)) = refs.map some) :
    ls.foldl (fun refs l => consume refs l.skb) refs = 0 := by
  induction ls generalizing refs with
  | nil => exact Multiset.map_eq_zero.mp held.symm
  | cons l ls ih => exact ih _ (map_consume held)

theorem Live.gone (inv : s.Live []) : s.release.Gone where
  released := rfl
  free := rfl
  inUse := rfl
  refs := consume_all s.inUse s.refs inv.refs
  own := inv.own
  once := inv.once
  untouched := inv.untouched

theorem Gone.step {op : TsOp} (gone : s.Gone) (fine : s.ok op = true)
    (stepped : s.step op = some t) : t.Gone := by
  have released := gone.released
  cases op with
  | xmit skb =>
      unfold ok at fine
      dsimp only at fine
      rw [released] at fine
      exact Bool.noConfusion fine
  | complete i =>
      unfold ok at fine
      dsimp only at fine
      rw [released] at fine
      exact Bool.noConfusion fine
  | leave i =>
      obtain ⟨-, same⟩ := Option.ite_none_right_eq_some.mp stepped
      obtain rfl := Option.some.inj same
      exact { gone with }
  | task alloc sent =>
      obtain ⟨present, -⟩ := Option.ite_none_left_eq_some.mp stepped
      exact absurd released present
  | reply k entries =>
      obtain ⟨-, same⟩ := Option.ite_none_right_eq_some.mp stepped
      obtain rfl := Option.some.inj same
      rw [if_pos released]
      exact { gone with }
  | lost k =>
      obtain ⟨-, same⟩ := Option.ite_none_right_eq_some.mp stepped
      obtain rfl := Option.some.inj same
      exact { gone with }
  | release =>
      obtain rfl := Option.some.inj stepped
      rw [if_pos released]
      exact gone

theorem Live.step {op : TsOp} (inv : s.Live []) (fine : s.ok op = true)
    (stepped : s.step op = some t) : t.Inv := by
  have present := inv.present
  cases op with
  | xmit skb =>
      obtain ⟨new, same⟩ := Option.ite_none_left_eq_some.mp stepped
      obtain ⟨away, unheld⟩ := not_or.mp new
      obtain rfl := Option.some.inj same
      exact .inl (inv.requestTs away unheld (Bool.and_eq_true_iff.mp fine).2)
  | complete i =>
      unfold TsVport.step at stepped
      dsimp only at stepped
      cases at_i : s.flight[i]? with
      | none =>
          rw [at_i] at stepped
          exact absurd stepped.symm (Option.some_ne_none t)
      | some x =>
          rw [at_i] at stepped
          obtain rfl := Option.some.inj stepped
          exact .inl (inv.complete at_i)
  | leave i => exact Bool.noConfusion (present.symm.trans fine)
  | task alloc sent =>
      obtain ⟨-, same⟩ := Option.ite_none_left_eq_some.mp stepped
      obtain rfl := Option.some.inj same
      exact .inl (inv.task fine)
  | reply k entries =>
      obtain ⟨-, same⟩ := Option.ite_none_right_eq_some.mp stepped
      obtain rfl := Option.some.inj same
      unfold ok at fine
      dsimp only at fine
      rw [present, Bool.false_or] at fine
      obtain ⟨fits, complete⟩ := Bool.and_eq_true_iff.mp fine
      rw [if_neg (Bool.eq_false_iff.mp present)]
      exact .inl (inv.reply (List.all_eq_true.mp fits) complete)
  | lost k =>
      obtain ⟨-, same⟩ := Option.ite_none_right_eq_some.mp stepped
      obtain rfl := Option.some.inj same
      unfold ok at fine
      dsimp only at fine
      rw [present, Bool.false_or] at fine
      exact .inl (inv.lost fine)
  | release =>
      obtain rfl := Option.some.inj stepped
      rw [if_neg (Bool.eq_false_iff.mp present)]
      exact .inr inv.gone

/-- Where a run begins: the latches that the device has given, whatever their indexes. -/
def Init (s : TsVport) : Prop := ∃ indexes, s = start indexes

theorem start_live (indexes : List Nat) : (start indexes).Live [] where
  present := rfl
  latches := by
    have ids : (indexes.mapIdx fun i index => (⟨i, index, none, 0⟩ : TsLatch)).map TsLatch.id =
        List.range indexes.length := by
      apply List.ext_getElem
      · simp only [List.length_map, List.length_mapIdx, List.length_range]
      · intro i _ _
        simp only [List.getElem_map, List.getElem_mapIdx, List.getElem_range]
    change (((indexes.mapIdx fun i index => (⟨i, index, none, 0⟩ : TsLatch)).reverse ++ []).map
      TsLatch.id).Perm (List.range indexes.length)
    rw [List.append_nil, List.map_reverse, ids]
    exact List.reverse_perm _
  tracker := List.length_replicate
  idle := by
    intro l inside
    obtain ⟨i, low, rfl⟩ := List.mem_mapIdx.mp (List.mem_reverse.mp inside)
    rfl
  refs := rfl
  skbs := List.nodup_nil
  idxs := List.nodup_nil
  pkts := List.nodup_nil
  numbered := fun _ none => absurd none List.not_mem_nil
  holders := by
    have unfollowed : TsStatus.followed (List.replicate indexes.length ⟨none, .free⟩) = [] := by
      apply List.eq_nil_iff_forall_not_mem.mpr
      intro x followed
      obtain ⟨state, taken, inside⟩ := TsStatus.mem_followed.mp followed
      exact taken (congrArg TsStatus.state (List.eq_of_mem_replicate inside))
    change List.Perm [] ([] ++ TsStatus.followed (List.replicate indexes.length ⟨none, .free⟩))
    rw [unfollowed]
    exact .nil
  flown := fun _ none => absurd none List.not_mem_nil
  work := by
    intro x inside
    exact TsState.noConfusion (congrArg TsStatus.state (List.eq_of_mem_replicate inside))
  asked := fun _ none => absurd none List.not_mem_nil
  stamped := fun _ none => absurd none List.not_mem_nil
  own := fun _ none => absurd none List.not_mem_nil
  once := List.nodup_nil
  untouched := rfl

/-- In a run whose steps all meet the condition each latch is accounted for in every state. -/
theorem latches_kept (run : Reachable step (fun s op => s.ok op = true) Init s) : s.Kept := by
  have inv : s.Inv := run.invariant
    (fun _ init => by
      obtain ⟨indexes, rfl⟩ := init
      exact .inl (start_live indexes))
    fun _ _ _ inv fine stepped => by
      cases inv with
      | inl live => exact live.step fine stepped
      | inr gone => exact .inr (gone.step fine stepped)
  cases inv with
  | inl live => exact live.kept
  | inr gone => exact gone.kept

/-- Two packets are timed with two latches, one after the other is back, and the vport is released
while a third is under way and a message is without its reply. -/
theorem latches_kept_run : ∃ s, Reachable step (fun s op => s.ok op = true) Init s ∧
    s.stamps = [(1, 1), (0, 0)] ∧ s.Kept := by
  obtain ⟨s, run, stamps⟩ : ∃ s, execIf step ok (start [4, 7])
      [.xmit 10, .xmit 11, .complete 1, .task true true, .complete 0, .task true true,
        .reply 0 [⟨7, true, 0⟩, ⟨9, false, 0⟩], .xmit 10, .reply 0 [⟨4, true, 1⟩], .xmit 11,
        .complete 0, .task true true, .release, .leave 0, .reply 0 [⟨4, true, 3⟩]] = some s ∧
        s.stamps = [(1, 1), (0, 0)] := by
    apply Option.map_eq_some_iff.mp
    decide +kernel
  have init : Init (start [4, 7]) := ⟨[4, 7], rfl⟩
  have reached := Reachable.execIf (.start init) run
  exact ⟨s, reached, stamps, latches_kept reached⟩

/-- A packet is dropped after its latch was taken: no refill buffer is there for it. The latch stays
in use for good. -/
theorem dropped_packet_keeps_latch :
    ¬ ∀ s, Reachable step anyStep Init s → s.Kept := by
  intro claim
  obtain ⟨s, run, landed, unqueued, unasked, used⟩ : ∃ s, exec step (start [4])
      [.xmit 10, .leave 0] = some s ∧ s.flight = [] ∧ s.queued = false ∧ s.reads = [] ∧
        s.inUse = [⟨0, 4, some 10, 0⟩] := by
    refine ⟨_, rfl, ?_⟩
    decide +kernel
  have init : Init (start [4]) := ⟨[4], rfl⟩
  have kept := claim s (Reachable.exec (.start init) run)
  exact absurd (used.symm.trans (kept.undrained landed unqueued unasked)) (List.cons_ne_nil _ _)

end TsVport

end Idpf
