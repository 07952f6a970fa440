import Idpf.Vport.Open

/-! Which opens of a vport succeed. -/
namespace Idpf
open General

namespace MsgEnd

def accepts : MsgEnd → Bool
  | .accepted => true
  | .failed _ => false

end MsgEnd

namespace OpenRun

/-- The device takes on the queues and the vport, and RSS can be set up. -/
def enables (r : OpenRun) : Bool := r.enableQueues.accepts && (r.enableVport.accepts && r.rss)

def maps (r : OpenRun) : Bool :=
  let c := r.rsrc
  c.numTxqs + c.numComplq ≠ 0 && (r.configTx && (c.numRxqs + c.numBufq ≠ 0 && (r.configRx &&
    (c.numMapped ≠ 0 && (r.map.okay mapsPerMsg c.numMapped && r.enables)))))

def inits (r : OpenRun) : Bool :=
  r.ids && (r.vecIdx && r.intrRegs && r.irqsGranted && (r.queueRegs &&
    (!r.failsIn r.rsrc.rxBufsAllocs && r.bufs && r.maps)))

def succeeds (r : OpenRun) : Bool :=
  r.rsrc.numQVectors ≠ 0 && (!r.failsIn r.rsrc.intrAllocs &&
    (!r.failsIn r.rsrc.queueAllocs && r.inits))

end OpenRun

namespace VportSizes

variable {c : VportSizes} {fail : Option VportPtr} {held : List VportPtr}

def spared (fail : Option VportPtr) (ps : List VportPtr) : Bool := ps.all fun p => some p ≠ fail

theorem spared_append (ps qs : List VportPtr) :
    spared fail (ps ++ qs) = (spared fail ps && spared fail qs) :=
  List.all_append

theorem spared_eq (fail : Option VportPtr) (ps : List VportPtr) :
    spared fail ps = !fail.any fun p => p ∈ ps := by
  rw [Bool.eq_iff_iff, spared, List.all_eq_true, Bool.not_eq_true']
  cases fail with
  | none => simp
  | some q =>
      rw [Option.any_some, decide_eq_false_iff_not]
      constructor
      · exact fun spared member => of_decide_eq_true (spared q member) rfl
      · intro absent p member
        refine decide_eq_true fun same => absent ?_
        exact Option.some.inj same ▸ member

theorem alloc_snd (ps : List VportPtr) : (alloc ps fail held).2 = spared fail ps := rfl

/-- A function that releases what it has got when it fails. -/
theorem ite_snd (r : List VportPtr × Bool) (rest : List VportPtr) :
    (if r.2 then r else (rest, false)).2 = r.2 := by
  split
  · rfl
  · next failed => exact (Bool.eq_false_iff.mpr failed).symm

theorem queueGrpAllocAll_snd (c : VportSizes) : (c.queueGrpAllocAll fail held).2 =
    (spared fail c.txqGroupAllocs && spared fail c.rxqGroupAllocs) := by
  have tx : (c.txqGroupAlloc fail held).2 = spared fail c.txqGroupAllocs := ite_snd ..
  unfold queueGrpAllocAll
  dsimp only
  rw [tx]
  cases spared fail c.txqGroupAllocs with
  | false => rfl
  | true => exact (ite_snd ..).trans (ite_snd ..)

theorem queueAllocAll_snd (c : VportSizes) :
    (c.queueAllocAll fail held).2 = spared fail c.queueAllocs := by
  rw [queueAllocs, spared_append, spared_append, spared_append, spared_append]
  unfold queueAllocAll
  dsimp only
  rw [queueGrpAllocAll_snd]
  cases spared fail c.txqGroupAllocs && spared fail c.rxqGroupAllocs with
  | false => rfl
  | true =>
  rw [if_neg (Bool.not_true ▸ Bool.false_ne_true), txDescAllocAll, alloc_snd, Bool.true_and]
  cases spared fail c.txDescAllocsAll with
  | false => rfl
  | true =>
  have rx (held : List VportPtr) :
      (c.rxDescAllocAll fail held).2 = spared fail c.rxDescAllocsAll := ite_snd ..
  rw [if_neg (Bool.not_true ▸ Bool.false_ne_true), rx, Bool.true_and]
  cases spared fail c.rxDescAllocsAll with
  | false => rfl
  | true => exact ite_snd ..

theorem intrAlloc_snd (c : VportSizes) :
    (c.intrAlloc fail held).2 = spared fail c.intrAllocs := by
  unfold intrAlloc
  split
  · next first =>
    rw [first, spared_eq, Option.any_some]
    have member : VportPtr.qVectors ∈ c.intrAllocs := List.mem_cons_self
    rw [decide_eq_true member]
    rfl
  · exact ite_snd ..

theorem traps_mem {p : VportPtr} (traps : c.traps p = true) : p ∈ c.queueAllocs := by
  unfold queueAllocs
  cases p with
  | txqs i =>
      obtain ⟨inside, -⟩ := Bool.and_eq_true_iff.mp traps
      have member : VportPtr.txqs i ∈ c.txqGroupAllocs :=
        List.mem_cons_of_mem _ (List.mem_flatMap.mpr
          ⟨i, List.mem_range.mpr (of_decide_eq_true inside), List.mem_cons_self⟩)
      simp [member]
  | refillqs i j =>
      simp only [VportSizes.traps, Bool.and_eq_true, decide_eq_true_eq] at traps
      obtain ⟨⟨⟨split, inside⟩, place⟩, -⟩ := traps
      have member : VportPtr.refillqs i j ∈ c.rxqGroupAllocs := by
        refine List.mem_cons_of_mem _ (List.mem_flatMap.mpr
          ⟨i, List.mem_range.mpr inside, List.mem_append_right _ ?_⟩)
        rw [if_pos split]
        exact List.mem_cons_of_mem _ (List.mem_flatMap.mpr
          ⟨j, List.mem_range.mpr place, List.mem_cons_self⟩)
      simp [member]
  | _ => exact Bool.noConfusion traps

theorem traps_spared {fail : Option VportPtr} (done : spared fail c.queueAllocs = true) :
    fail.any c.traps = false := by
  rw [spared_eq, Bool.not_eq_true'] at done
  cases fail with
  | none => rfl
  | some p =>
      rw [Option.any_some, decide_eq_false_iff_not] at done
      exact Bool.eq_false_iff.mpr fun traps => done (traps_mem traps)

end VportSizes

namespace OpenVport

variable {s : OpenVport} {r : OpenRun}

/-- How an open ends that succeeds, or does not: then the vport is as far from up as before. -/
def Ends (ok : Bool) (t : OpenVport) : Prop :=
  if ok then t.ret = .opened ∧ t.up = true ∧ t.stuck = false else t.ret ≠ .opened ∧ t.up = false

/-- A vport that is being opened. -/
structure Opening (s : OpenVport) : Prop where
  ret : s.ret ≠ .opened
  up : s.up = false
  stuck : s.stuck = false

/-- What the device is told does not matter for it. -/
theorem Opening.told (o : s.Opening) (mapped : Nat → Bool) (enabled vportOn : Bool)
    (filters : Nat → Bool) :
    { s with
      mapped := mapped
      enabled := enabled
      vportOn := vportOn
      filters := filters }.Opening :=
  ⟨o.ret, o.up, o.stuck⟩

theorem Opening.hang (o : s.Opening) : Ends false s.hang := ⟨o.ret, o.up⟩

theorem Opening.toQueuesRel (o : s.up = false) : Ends false s.toQueuesRel :=
  ⟨OpenRet.noConfusion, o⟩

theorem intrDeinit_ends (s : OpenVport) :
    s.intrDeinit.ret = s.ret ∧ s.intrDeinit.up = s.up ∧ s.intrDeinit.stuck =
      (s.stuck || (List.range s.rsrc.numQVectors).any fun v => s.napi v ≠ .enabled) := by
  unfold OpenVport.intrDeinit
  dsimp only
  split
  · next disabled =>
    rw [disabled, Bool.or_true]
    exact ⟨rfl, rfl, rfl⟩
  · next enabled =>
    rw [Bool.eq_false_iff.mpr enabled, Bool.or_false]
    exact ⟨rfl, rfl, rfl⟩

theorem Opening.toIntrDeinit (o : s.Opening) : Ends false s.toIntrDeinit := by
  obtain ⟨ret, up, -⟩ := s.intrDeinit_ends
  unfold OpenVport.toIntrDeinit
  dsimp only
  split
  · exact ⟨ret.trans_ne o.ret, up.trans o.up⟩
  · exact Opening.toQueuesRel (up.trans o.up)

theorem Opening.toUnmap (o : s.Opening) (u : UndoMsgs) : Ends false (s.toUnmap u) :=
  Opening.toIntrDeinit (o.told _ s.enabled s.vportOn s.filters)

theorem Opening.toDisableQueues (o : s.Opening) (u : UndoMsgs) :
    Ends false (s.toDisableQueues u) :=
  Opening.toUnmap (o.told s.mapped _ s.vportOn s.filters) u

theorem Opening.toDisableVport (o : s.Opening) (u : UndoMsgs) :
    Ends false (s.toDisableVport u) :=
  Opening.toDisableQueues (o.told s.mapped s.enabled _ s.filters) u

theorem Opening.openFinish (o : s.Opening) (r : OpenRun) : Ends r.rss (s.openFinish r) := by
  unfold OpenVport.openFinish
  dsimp only
  cases r.rss with
  | true => exact ⟨rfl, rfl, o.stuck⟩
  | false => exact Opening.toDisableVport (o.told s.mapped s.enabled s.vportOn _) r.undo

theorem Opening.openEnable (o : s.Opening) (r : OpenRun) : Ends r.enables (s.openEnable r) := by
  unfold OpenVport.openEnable OpenRun.enables
  cases r.enableQueues with
  | failed done => exact Opening.toUnmap (o.told s.mapped _ s.vportOn s.filters) r.undo
  | accepted =>
      cases r.enableVport with
      | failed done => exact Opening.toDisableQueues (o.told s.mapped true _ s.filters) r.undo
      | accepted => exact Opening.openFinish (o.told s.mapped true true s.filters) r

theorem Opening.openMap (o : s.Opening) (rsrc : s.rsrc = r.rsrc) :
    Ends r.maps (s.openMap r) := by
  unfold OpenVport.openMap OpenRun.maps
  dsimp only
  rw [← rsrc]
  split
  next none =>
    rw [decide_eq_false (not_not.mpr none)]
    exact o.hang
  next txqs =>
  rw [decide_eq_true txqs, Bool.true_and]
  cases r.configTx with
  | false => exact o.toIntrDeinit
  | true =>
  rw [if_neg (Bool.not_true ▸ Bool.false_ne_true), Bool.true_and]
  split
  next none =>
    rw [decide_eq_false (not_not.mpr none)]
    exact o.hang
  next rxqs =>
  rw [decide_eq_true rxqs, Bool.true_and]
  cases r.configRx with
  | false => exact o.toIntrDeinit
  | true =>
  rw [if_neg (Bool.not_true ▸ Bool.false_ne_true), Bool.true_and]
  split
  next none =>
    rw [decide_eq_false (not_not.mpr none)]
    exact o.hang
  next mapped =>
  rw [decide_eq_true mapped, Bool.true_and]
  cases r.map.okay mapsPerMsg s.rsrc.numMapped with
  | false => exact Opening.toIntrDeinit (o.told _ s.enabled s.vportOn s.filters)
  | true => exact Opening.openEnable (o.told _ s.enabled s.vportOn s.filters) r

/-- Setting up vectors and interrupts changes neither what is reported nor whether the vport is
up. -/
structure Same (s t : OpenVport) : Prop where
  rsrc : t.rsrc = s.rsrc
  ret : t.ret = s.ret
  up : t.up = s.up
  stuck : t.stuck = s.stuck

theorem intrReqIrq_ends (s : OpenVport) (fails : Option Nat) :
    (s.intrReqIrq fails).2 =
        (fails.all fun v => !(v < s.rsrc.numQVectors && s.rsrc.used v)) ∧
      s.Same (s.intrReqIrq fails).1 := by
  unfold OpenVport.intrReqIrq
  cases fails with
  | none => exact ⟨rfl, rfl, rfl, rfl, rfl⟩
  | some v =>
      dsimp only
      rw [Option.all_some]
      split
      · next refused =>
        rw [refused]
        exact ⟨rfl, rfl, rfl, rfl, rfl⟩
      · next granted =>
        rw [Bool.eq_false_iff.mpr granted]
        exact ⟨rfl, rfl, rfl, rfl, rfl⟩

theorem intrInit_ends (s : OpenVport) (r : OpenRun) (rsrc : s.rsrc = r.rsrc) :
    (s.intrInit r).2 = (r.vecIdx && r.intrRegs && r.irqsGranted) ∧
      s.Same (s.intrInit r).1 := by
  obtain ⟨granted, same⟩ := (s.setNapi .disabled).intrReqIrq_ends r.irqFails
  have irqs : (s.setNapi .disabled).rsrc = r.rsrc := rsrc
  rw [irqs] at granted
  unfold OpenVport.intrInit OpenRun.irqsGranted
  rw [← granted]
  cases r.vecIdx with
  | false => exact ⟨rfl, rfl, rfl, rfl, rfl⟩
  | true =>
  cases r.intrRegs with
  | false => exact ⟨rfl, rfl, rfl, rfl, rfl⟩
  | true =>
  dsimp only
  rw [if_neg (Bool.not_true ▸ Bool.false_ne_true), if_neg (Bool.not_true ▸ Bool.false_ne_true)]
  split
  · exact ⟨rfl, same.rsrc, same.ret, same.up, same.stuck⟩
  · next refused =>
    exact ⟨(Bool.eq_false_iff.mpr refused).symm, same.rsrc, same.ret, same.up, same.stuck⟩

theorem xdpInit_same (s : OpenVport) (r : OpenRun) : s.Same (s.xdpInit r).intrEna := by
  unfold OpenVport.xdpInit
  split
  · exact ⟨rfl, rfl, rfl, rfl⟩
  · split
    · exact ⟨rfl, rfl, rfl, rfl⟩
    · exact ⟨rfl, rfl, rfl, rfl⟩

theorem Opening.same {t : OpenVport} (o : s.Opening) (same : s.Same t) : t.Opening :=
  ⟨same.ret.trans_ne o.ret, same.up.trans o.up, same.stuck.trans o.stuck⟩

theorem Opening.holds (o : s.Opening) (held : List VportPtr) :
    { s with held := held }.Opening :=
  ⟨o.ret, o.up, o.stuck⟩

theorem failsIn_eq (r : OpenRun) (ps : List VportPtr) :
    (!r.failsIn ps) = VportSizes.spared r.fail ps :=
  (VportSizes.spared_eq r.fail ps).symm

theorem Opening.openInit (o : s.Opening) (rsrc : s.rsrc = r.rsrc) :
    Ends r.inits (s.openInit r) := by
  obtain ⟨granted, same⟩ := s.intrInit_ends r rsrc
  have init := o.same same
  unfold OpenVport.openInit OpenRun.inits
  dsimp only
  rw [← granted, failsIn_eq, ← rsrc, VportSizes.alloc_snd]
  cases r.ids with
  | false => exact Opening.toQueuesRel o.up
  | true =>
  cases (s.intrInit r).2 with
  | false => exact Opening.toQueuesRel init.up
  | true =>
  cases r.queueRegs with
  | false => exact init.toIntrDeinit
  | true =>
  cases VportSizes.spared r.fail s.rsrc.rxBufsAllocs && r.bufs with
  | false => exact (init.holds _).toIntrDeinit
  | true =>
      have ready := { (s.intrInit r).1 with held := (VportSizes.alloc s.rsrc.rxBufsAllocs r.fail
        (s.intrInit r).1.held).1 }.xdpInit_same r
      exact ((init.holds _).same ready).openMap (ready.rsrc.trans (same.rsrc.trans rsrc))

/-- An open of a vport that is down succeeds exactly where nothing fails. -/
theorem openVport_ends (r : OpenRun) (down : s.up = false) (ret : s.ret ≠ .opened)
    (back : s.stuck = false) : Ends r.succeeds (s.openVport r) := by
  have opening (held : List VportPtr) : { s with
      rsrc := r.rsrc
      held := held
      pools := false
      macFilter := r.macFilter
      numMacs := r.numMacs
      carrier := false }.Opening := ⟨ret, down, back⟩
  unfold OpenVport.openVport OpenRun.succeeds
  rw [if_neg (down ▸ Bool.false_ne_true), failsIn_eq, failsIn_eq]
  dsimp only
  rw [VportSizes.intrAlloc_snd]
  split
  · next none =>
    rw [decide_eq_false (not_not.mpr none.2)]
    exact (opening s.held).hang
  next vectors =>
  cases vecs : VportSizes.spared r.fail r.rsrc.intrAllocs with
  | false =>
      rw [Bool.false_and, Bool.and_false]
      exact ⟨OpenRet.noConfusion, down⟩
  | true =>
  have some : r.rsrc.numQVectors ≠ 0 := by
    refine fun none => vectors ⟨?_, none⟩
    rintro first
    rw [VportSizes.spared_eq, first] at vecs
    have member : VportPtr.qVectors ∈ r.rsrc.intrAllocs := List.mem_cons_self
    rw [Option.any_some, decide_eq_true member] at vecs
    cases vecs
  rw [decide_eq_true some, Bool.true_and, Bool.true_and,
    if_neg (Bool.not_true ▸ Bool.false_ne_true)]
  cases queues : VportSizes.spared r.fail r.rsrc.queueAllocs with
  | false =>
      split
      · exact (opening _).hang
      · rw [VportSizes.queueAllocAll_snd, queues]
        exact ⟨OpenRet.noConfusion, down⟩
  | true =>
      rw [VportSizes.traps_spared queues, if_neg Bool.false_ne_true, VportSizes.queueAllocAll_snd,
        queues]
      exact (opening _).openInit rfl

def released (s : OpenVport) : OpenVport :=
  let s := s.intrDeinit
  if s.stuck then s else { s with held := s.rsrc.intrRel (s.rsrc.queuesRel s.pools s.held) }

theorem released_ends (s : OpenVport) : s.released.up = s.up ∧ s.released.ret = s.ret ∧
    s.released.stuck =
      (s.stuck || (List.range s.rsrc.numQVectors).any fun v => s.napi v ≠ .enabled) := by
  obtain ⟨ret, up, stuck⟩ := s.intrDeinit_ends
  unfold released
  dsimp only
  split
  · exact ⟨up, ret, stuck⟩
  · exact ⟨up, ret, stuck⟩

theorem stop_ends (r : StopRun) (up : s.up = true) :
    (s.stop r).up = false ∧ (s.stop r).ret = .none ∧ (s.stop r).stuck =
      (s.stuck || (List.range s.rsrc.numQVectors).any fun v => s.napi v ≠ .enabled) := by
  unfold OpenVport.stop
  dsimp only
  rw [if_neg (by rw [up]; exact Bool.noConfusion)]
  cases r.corer with
  | true => exact released_ends _
  | false => exact released_ends _

end OpenVport

end Idpf
