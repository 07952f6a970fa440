import Idpf.General.Heap
import Idpf.General.Transition

/-! The interrupts that a guest asks for: for each vector an eventfd, a name and a requested
interrupt, which are there together or not at all. -/
namespace Idpf
open General

/-- What is held for a vector: the name, the reference to the eventfd and the interrupt line; and
the array of contexts. -/
inductive IrqRes where
  | ctx
  | name (v : Nat)
  | trigger (v : Nat)
  | irq (line : Nat)
  deriving DecidableEq, Repr

/-- `struct idpf_vdcm` as far as it is about interrupts. `numVectors` and `line` are what
`idpf_adi_get_irq_num` reads, and `trig` has the descriptors of the eventfds. -/
structure VdcmIrqs where
  heap : Heap IrqRes
  refcnt : Nat
  msix : Bool
  numCtx : Nat
  trig : Nat → Option Int
  numVectors : Nat
  line : Nat → Nat

/-- The data of `struct vfio_irq_set` for the MSI-X index and the trigger action: nothing, a Boolean
for each vector, or a descriptor for each. -/
inductive IrqSetData where
  | none (count : Nat)
  | bool (count : Nat)
  | eventfd (fds : List Int)
  deriving DecidableEq, Repr

def IrqSetData.count : IrqSetData → Nat
  | .none count => count
  | .bool count => count
  | .eventfd fds => fds.length

/-- The kernel's `vfio_set_irqs_validate_and_prepare`: what it lets through lies within the
interrupts that there are. -/
structure VfioValidate where
  ok : Nat → Nat → Nat → Bool
  inside : ∀ start count total, ok start count total = true → start + count ≤ total

namespace VdcmIrqs

variable (g : Grants) (s : VdcmIrqs)

/-- `idpf_adi_get_irq_num` -/
def getIrqNum (v : Nat) : Option Nat := if v < s.numVectors then some (s.line v) else none

/-- The first half of `idpf_vdcm_dev_set_vector_signal`: what is registered goes. -/
def unsetTrigger (v irq : Nat) : VdcmIrqs :=
  match s.trig v with
  | none => s
  | some _ =>
    { s with
      heap := ((s.heap.free (.irq irq)).free (.name v)).free (.trigger v)
      trig := Function.update s.trig v none }

def takeTrigger (v irq : Nat) : Heap IrqRes → Heap IrqRes × Bool :=
  Heap.andThen
    (Heap.andThen (Heap.alloc g (.name v)) (Heap.alloc g (.trigger v)) (Heap.free (.name v)))
    (Heap.alloc g (.irq irq)) fun h => (h.free (.trigger v)).free (.name v)

/-- `idpf_vdcm_dev_set_vector_signal`, with whether it returns 0. -/
def setVectorSignal (v : Nat) (fd : Int) : VdcmIrqs × Bool :=
  match s.getIrqNum v with
  | none => (s, false)
  | some irq =>
    let s := s.unsetTrigger v irq
    if fd < 0 then (s, true)
    else
      let r := takeTrigger g v irq s.heap
      if r.2 then
        ({ s with
          heap := r.1
          trig := Function.update s.trig v (some fd) }, true)
      else ({ s with heap := r.1 }, false)

/-- The loop of `idpf_vdcm_dev_set_vector_signals` from vector `j` on, with the one that fails. -/
def signalAll : List Int → Nat → VdcmIrqs → VdcmIrqs × Option Nat
  | [], _, s => (s, none)
  | fd :: fds, j, s =>
    let r := s.setVectorSignal g j fd
    if r.2 then signalAll fds (j + 1) r.1 else (r.1, some j)

/-- Its loop after a failure, from `start + n - 1` down to `start`. -/
def unsignal (start : Nat) : Nat → VdcmIrqs → VdcmIrqs
  | 0, s => s
  | n + 1, s => unsignal start n (s.setVectorSignal g (start + n) (-1)).1

/-- `idpf_vdcm_dev_set_vector_signals` -/
def setVectorSignals (start : Nat) (fds : List Int) : VdcmIrqs × Bool :=
  if s.numCtx ≤ start ∨ s.numCtx < start + fds.length then (s, false)
  else
    match signalAll g fds start s with
    | (s, none) => (s, true)
    | (s, some j) => (unsignal g start (j + 1 - start) s, false)

/-- `idpf_vdcm_dev_msix_enable` -/
def msixEnable (nvec : Nat) : VdcmIrqs × Bool :=
  if nvec < 1 then (s, false)
  else
    let r := s.heap.alloc g .ctx
    if r.2 then
      ({ s with
        heap := r.1
        msix := true
        numCtx := nvec
        trig := fun _ => none }, true)
    else ({ s with heap := r.1 }, false)

/-- `idpf_vdcm_dev_msix_disable` -/
def msixDisable : VdcmIrqs :=
  let s := (s.setVectorSignals g 0 (List.replicate s.numCtx (-1))).1
  { s with
    heap := s.heap.free .ctx
    msix := false
    numCtx := 0
    trig := fun _ => none }

/-- `idpf_vdcm_dev_set_msix_trigger` -/
def setMsixTrigger (start : Nat) (data : IrqSetData) : VdcmIrqs × Bool :=
  match data with
  | .none count => if s.msix && count == 0 then (s.msixDisable g, true) else (s, true)
  | .bool _ => (s, true)
  | .eventfd fds =>
    if s.msix then s.setVectorSignals g start fds
    else
      let e := s.msixEnable g (start + fds.length)
      if e.2 then
        let r := e.1.setVectorSignals g start fds
        if r.2 then r else (r.1.msixDisable g, false)
      else e

/-- `idpf_vdcm_dev_set_irqs` for MSI-X triggers. -/
def setIrqs (w : VfioValidate) (start : Nat) (data : IrqSetData) : VdcmIrqs × Bool :=
  if s.numVectors = 0 then (s, false)
  else if w.ok start data.count s.numVectors then s.setMsixTrigger g start data
  else (s, false)

/-- The last `idpf_vdcm_dev_close`. -/
def close : VdcmIrqs :=
  let s := { s with refcnt := s.refcnt - 1 }
  if s.refcnt = 0 then if s.msix then s.msixDisable g else s else s

end VdcmIrqs

/-- What a user of the device does. The vectors are set up by the first open and stay until the last
close. -/
inductive VdcmEvent where
  | open (numVectors : Nat) (line : Nat → Nat)
  | reopen
  | setIrqs (start : Nat) (data : IrqSetData)
  | close

namespace VdcmIrqs

/-- One call; all but the first open need an open descriptor. -/
def step (g : Grants) (w : VfioValidate) (s : VdcmIrqs) : VdcmEvent → Option VdcmIrqs
  | .open numVectors line =>
    if s.refcnt = 0 then some { s with refcnt := 1, numVectors := numVectors, line := line }
    else none
  | .reopen => if s.refcnt = 0 then none else some { s with refcnt := s.refcnt + 1 }
  | .setIrqs start data => if s.refcnt = 0 then none else some (s.setIrqs g w start data).1
  | .close => if s.refcnt = 0 then none else some (s.close g)

/-- `idpf_vdcm_dev_init` -/
def start : VdcmIrqs := ⟨.empty, 0, false, 0, fun _ => none, 0, fun _ => 0⟩

def full (line : Nat → Nat) (v : Nat) : Option Int → Multiset IrqRes
  | none => 0
  | some _ => {IrqRes.irq (line v)} + {IrqRes.name v} + {IrqRes.trigger v}

def piece (s : VdcmIrqs) (v : Nat) : Multiset IrqRes := full s.line v (s.trig v)

def owned (s : VdcmIrqs) : Multiset IrqRes :=
  Heap.total s.piece s.numCtx + if s.msix then {IrqRes.ctx} else 0

/-- All that is held belongs to a vector that has its trigger, or is the array of contexts. -/
structure Sound (s : VdcmIrqs) : Prop where
  holds : Heap.empty.Holds s.owned s.heap
  inside : s.numCtx ≤ s.numVectors
  off : s.msix = false → s.numCtx = 0

variable {g : Grants} {w : VfioValidate} {s : VdcmIrqs}

/-- A call about the vectors from `lo` up to `hi`: the others keep their triggers. -/
structure Touches (lo hi : Nat) (s t : VdcmIrqs) : Prop where
  sound : t.Sound
  refcnt : t.refcnt = s.refcnt
  msix : t.msix = s.msix
  numCtx : t.numCtx = s.numCtx
  numVectors : t.numVectors = s.numVectors
  line : t.line = s.line
  others : ∀ u, u < lo ∨ hi ≤ u → t.trig u = s.trig u

theorem Touches.refl (sound : s.Sound) (lo hi : Nat) : Touches lo hi s s :=
  ⟨sound, rfl, rfl, rfl, rfl, rfl, fun _ _ => rfl⟩

theorem piece_update (s : VdcmIrqs) (v : Nat) (t : Option Int) (heap : Heap IrqRes) :
    ({ s with heap := heap, trig := Function.update s.trig v t } : VdcmIrqs).piece =
      Function.update s.piece v (full s.line v t) := by
  funext u
  by_cases same : u = v
  · subst same
    simp only [piece, Function.update_self]
  · simp only [piece, Function.update_of_ne same]

/-- The heap of a vector that gets another trigger. -/
theorem Sound.replace (sound : s.Sound) {v : Nat} (inside : v < s.numCtx) {t : Option Int}
    {heap : Heap IrqRes}
    (holds : ∀ rest, Heap.empty.Holds (s.piece v + rest) s.heap →
      Heap.empty.Holds (full s.line v t + rest) heap) :
    Touches v (v + 1) s { s with heap := heap, trig := Function.update s.trig v t } := by
  refine ⟨⟨?_, sound.inside, sound.off⟩, rfl, rfl, rfl, rfl, rfl,
    fun u other => Function.update_of_ne (by omega) _ _⟩
  obtain ⟨rest, before, after⟩ := Heap.total_replace s.piece inside
  have held := sound.holds
  rw [owned, before, add_assoc] at held
  rw [owned, piece_update, after, add_assoc]
  exact holds _ held

theorem Sound.unsetTrigger (sound : s.Sound) {v irq : Nat} (inside : v < s.numCtx)
    (own : irq = s.line v) :
    Touches v (v + 1) s (s.unsetTrigger v irq) ∧ (s.unsetTrigger v irq).trig v = none := by
  unfold VdcmIrqs.unsetTrigger
  cases trig : s.trig v with
  | none => exact ⟨.refl sound v (v + 1), trig⟩
  | some fd =>
      refine ⟨sound.replace inside fun rest held => ?_, Function.update_self _ _ _⟩
      rw [piece, trig, full, ← own] at held
      have drops := ((Heap.drops_free (IrqRes.irq irq)).comp (Heap.drops_free (IrqRes.name v))).comp
        (Heap.drops_free (IrqRes.trigger v))
      rw [full, zero_add]
      exact drops _ rest _ held

theorem takes_takeTrigger (v irq : Nat) :
    Heap.Takes ({IrqRes.irq irq} + ({IrqRes.trigger v} + {IrqRes.name v}))
      (takeTrigger g v irq) :=
  Heap.takes_andThen
    (Heap.takes_andThen (Heap.takes_alloc _ _) (Heap.takes_alloc _ _) (Heap.drops_free _))
    (Heap.takes_alloc _ _) ((Heap.drops_free _).comp (Heap.drops_free _))

theorem Touches.trans {lo hi : Nat} {t u : VdcmIrqs} (first : Touches lo hi s t)
    (next : Touches lo hi t u) : Touches lo hi s u :=
  ⟨next.sound, next.refcnt.trans first.refcnt, next.msix.trans first.msix,
    next.numCtx.trans first.numCtx, next.numVectors.trans first.numVectors,
    next.line.trans first.line,
    fun k other => (next.others k other).trans (first.others k other)⟩

theorem Touches.widen {lo hi lo' hi' : Nat} {t : VdcmIrqs} (touches : Touches lo hi s t)
    (low : lo' ≤ lo) (high : hi ≤ hi') : Touches lo' hi' s t :=
  ⟨touches.sound, touches.refcnt, touches.msix, touches.numCtx, touches.numVectors, touches.line,
    fun u other => touches.others u (by omega)⟩

/-- What `idpf_vdcm_dev_set_vector_signal` does to a vector that there is: without a descriptor, or
where it fails, the vector has no trigger. -/
theorem Sound.setVectorSignal (sound : s.Sound) {v : Nat} (inside : v < s.numCtx) (fd : Int) :
    Touches v (v + 1) s (s.setVectorSignal g v fd).1 ∧
      (fd < 0 → (s.setVectorSignal g v fd).2 = true) ∧
      (fd < 0 ∨ (s.setVectorSignal g v fd).2 = false →
        (s.setVectorSignal g v fd).1.trig v = none) := by
  have there : s.getIrqNum v = some (s.line v) := if_pos (Nat.lt_of_lt_of_le inside sound.inside)
  obtain ⟨touches, gone⟩ := sound.unsetTrigger inside rfl
  unfold VdcmIrqs.setVectorSignal
  rw [there]
  dsimp only
  generalize s.unsetTrigger v (s.line v) = t at touches gone
  split
  · exact ⟨touches, fun _ => rfl, fun _ => gone⟩
  · next given =>
    have taken := takes_takeTrigger (g := g) v (s.line v) t.heap
    split
    · next done =>
      rw [if_pos done] at taken
      refine ⟨touches.trans ?_, fun negative => absurd negative given, ?_⟩
      · refine touches.sound.replace (touches.numCtx ▸ inside) fun rest held => ?_
        rw [piece, gone, full, zero_add] at held
        have both := held.trans taken
        have same : full t.line v (some fd) =
            {IrqRes.irq (s.line v)} + ({IrqRes.trigger v} + {IrqRes.name v}) := by
          rw [full, touches.line, add_assoc, add_comm {IrqRes.name v}]
        rw [same]
        exact both
      · rintro (negative | failed)
        · exact absurd negative given
        · cases failed
    · next refused =>
      rw [if_neg refused] at taken
      refine ⟨touches.trans ⟨⟨?_, touches.sound.inside, touches.sound.off⟩,
        rfl, rfl, rfl, rfl, rfl, fun _ _ => rfl⟩, fun negative => absurd negative given,
        fun _ => gone⟩
      have both := touches.sound.holds.trans taken
      rw [zero_add] at both
      exact both

/-- The loop over the vectors from `j` on. It stops at one that is then without a trigger. -/
theorem Sound.signalAll (sound : s.Sound) {fds : List Int} {j : Nat}
    (inside : j + fds.length ≤ s.numCtx) :
    Touches j (j + fds.length) s (signalAll g fds j s).1 ∧
      (∀ k, (signalAll g fds j s).2 = some k → j ≤ k ∧ k < j + fds.length ∧
        (∀ u, k < u → (signalAll g fds j s).1.trig u = s.trig u)) ∧
      ((∀ fd ∈ fds, fd < 0) → (signalAll g fds j s).2 = none ∧
        ∀ u, j ≤ u → u < j + fds.length → (signalAll g fds j s).1.trig u = none) := by
  induction fds generalizing j s with
  | nil => exact ⟨.refl sound j j, nofun, fun _ => ⟨rfl, fun u low high => absurd low (by
      rw [List.length_nil] at high
      omega)⟩⟩
  | cons fd fds ih =>
      rw [List.length_cons] at inside ⊢
      obtain ⟨touches, negative, gone⟩ := sound.setVectorSignal (g := g) (v := j) (by omega) fd
      have call : VdcmIrqs.signalAll g (fd :: fds) j s =
          if (s.setVectorSignal g j fd).2 then
            VdcmIrqs.signalAll g fds (j + 1) (s.setVectorSignal g j fd).1
          else ((s.setVectorSignal g j fd).1, some j) := rfl
      rw [call]
      by_cases done : (s.setVectorSignal g j fd).2 = true
      · obtain ⟨rest, stops, clears⟩ := ih touches.sound (j := j + 1)
          (by rw [touches.numCtx]; omega)
        rw [if_pos done]
        refine ⟨(touches.widen (Nat.le_refl j) (by omega)).trans
          (rest.widen (Nat.le_succ j) (by omega)), fun k at_ => ?_, fun all => ?_⟩
        · obtain ⟨low, high, after⟩ := stops k at_
          refine ⟨by omega, by omega, fun u beyond => (after u beyond).trans ?_⟩
          exact touches.others u (.inr (by omega))
        · obtain ⟨first, others⟩ := List.forall_mem_cons.mp all
          obtain ⟨none, cleared⟩ := clears others
          refine ⟨none, fun u low high => ?_⟩
          by_cases here : u = j
          · rw [here, rest.others j (.inl (Nat.lt_succ_self j))]
            exact gone (.inl first)
          · exact cleared u (by omega) (by omega)
      · rw [if_neg done]
        refine ⟨touches.widen (Nat.le_refl j) (by omega), fun k at_ => ?_, fun all => ?_⟩
        · obtain rfl := Option.some.inj at_
          exact ⟨Nat.le_refl _, by omega, fun u beyond => touches.others u (.inr beyond)⟩
        · exact absurd (negative (all fd List.mem_cons_self)) done

theorem Sound.unsignal (sound : s.Sound) {start n : Nat} (inside : start + n ≤ s.numCtx) :
    Touches start (start + n) s (unsignal g start n s) ∧
      ∀ u, start ≤ u → u < start + n → (unsignal g start n s).trig u = none := by
  induction n generalizing s with
  | zero => exact ⟨.refl sound start start, fun u low high => absurd low (by omega)⟩
  | succ n ih =>
      obtain ⟨touches, -, gone⟩ := sound.setVectorSignal (g := g) (v := start + n) (by omega) (-1)
      obtain ⟨rest, clears⟩ := ih touches.sound (by rw [touches.numCtx]; omega)
      refine ⟨(touches.widen (Nat.le_add_right start n) (Nat.le_refl _)).trans
        (rest.widen (Nat.le_refl start) (by omega)), fun u low high => ?_⟩
      by_cases last : u = start + n
      · rw [last]
        exact (rest.others _ (.inr (Nat.le_refl _))).trans (gone (.inl (by decide)))
      · exact clears u low (by omega)

/-- A request about vectors that there are: where it fails, those up to the one that could not be
set have no trigger any more, and the others have theirs. -/
theorem Sound.setVectorSignals (sound : s.Sound) (start : Nat) (fds : List Int) :
    Touches start (start + fds.length) s (s.setVectorSignals g start fds).1 ∧
      (start < s.numCtx → start + fds.length ≤ s.numCtx →
        (s.setVectorSignals g start fds).2 = false →
        ∃ j, (VdcmIrqs.signalAll g fds start s).2 = some j ∧ start ≤ j ∧ j < start + fds.length ∧
          (∀ u, start ≤ u → u ≤ j → (s.setVectorSignals g start fds).1.trig u = none) ∧
          ∀ u, j < u → (s.setVectorSignals g start fds).1.trig u = s.trig u) ∧
      ((∀ fd ∈ fds, fd < 0) → start + fds.length ≤ s.numCtx →
        ∀ u, start ≤ u → u < start + fds.length →
          (s.setVectorSignals g start fds).1.trig u = none) := by
  unfold VdcmIrqs.setVectorSignals
  by_cases outside : s.numCtx ≤ start ∨ s.numCtx < start + fds.length
  · rw [if_pos outside]
    refine ⟨.refl sound _ _, fun low high => absurd outside (by omega),
      fun _ high u low below => ?_⟩
    omega
  · rw [if_neg outside]
    obtain ⟨touches, stops, clears⟩ := sound.signalAll (g := g)
      (show start + fds.length ≤ s.numCtx by omega)
    cases result : VdcmIrqs.signalAll g fds start s with
    | mk t failing =>
        rw [result] at touches stops clears
        cases failing with
        | none => exact ⟨touches, fun _ _ failed => (nomatch failed), fun all _ => (clears all).2⟩
        | some j =>
            obtain ⟨low, high, after⟩ := stops j rfl
            obtain ⟨undone, cleared⟩ := touches.sound.unsignal (g := g)
              (show start + (j + 1 - start) ≤ t.numCtx by rw [touches.numCtx]; omega)
            refine ⟨touches.trans (undone.widen (Nat.le_refl _) (by omega)),
              fun _ _ _ => ⟨j, rfl, low, high, fun u first last => cleared u first (by omega),
                fun u beyond => (undone.others u (.inr (by omega))).trans (after u beyond)⟩,
              fun all => ?_⟩
            exact absurd (clears all).1 nofun

theorem Sound.msixEnable (sound : s.Sound) (off : s.msix = false) {nvec : Nat}
    (inside : nvec ≤ s.numVectors) :
    (s.msixEnable g nvec).1.Sound ∧ (s.msixEnable g nvec).1.refcnt = s.refcnt ∧
      ((s.msixEnable g nvec).2 = true → (s.msixEnable g nvec).1.msix = true) := by
  have none : s.owned = 0 := by
    rw [owned, sound.off off, off]
    rfl
  have held := sound.holds
  rw [none] at held
  have taken := Heap.takes_alloc g IrqRes.ctx s.heap
  unfold VdcmIrqs.msixEnable
  split
  · exact ⟨sound, rfl, nofun⟩
  · dsimp only
    split
    · next done =>
      rw [if_pos done] at taken
      refine ⟨⟨?_, inside, nofun⟩, rfl, fun _ => rfl⟩
      have both := held.trans taken
      rw [add_comm] at both
      have empty : Heap.total (fun v => full s.line v Option.none) nvec = 0 :=
        Heap.total_zero fun v _ => rfl
      rw [← empty] at both
      exact both
    · next refused =>
      rw [if_neg refused] at taken
      refine ⟨⟨?_, sound.inside, sound.off⟩, rfl, nofun⟩
      have both := held.trans taken
      rw [add_zero, ← none] at both
      exact both

/-- Nothing is left after `idpf_vdcm_dev_msix_disable`. -/
theorem Sound.msixDisable (sound : s.Sound) (on : s.msix = true) :
    (s.msixDisable g).Sound ∧ (s.msixDisable g).refcnt = s.refcnt ∧
      (s.msixDisable g).msix = false := by
  obtain ⟨touches, -, clears⟩ := sound.setVectorSignals (g := g) 0 (List.replicate s.numCtx (-1))
  have cleared := clears (fun fd member => by
    rw [List.eq_of_mem_replicate member]
    decide) (by rw [List.length_replicate, Nat.zero_add])
  have held := touches.sound.holds
  have rest : (s.setVectorSignals g 0 (List.replicate s.numCtx (-1))).1.owned = {IrqRes.ctx} := by
    rw [owned, touches.numCtx, touches.msix, on, if_pos rfl, Heap.total_zero, zero_add]
    intro v inside
    rw [piece, cleared v (Nat.zero_le v) (by rwa [List.length_replicate, Nat.zero_add])]
    rfl
  rw [rest, ← add_zero ({IrqRes.ctx} : Multiset IrqRes)] at held
  refine ⟨⟨?_, Nat.zero_le _, fun _ => rfl⟩, touches.refcnt, rfl⟩
  exact Heap.drops_free IrqRes.ctx _ 0 _ held

theorem Sound.setIrqs (sound : s.Sound) (start : Nat) (data : IrqSetData) :
    (s.setIrqs g w start data).1.Sound ∧ (s.setIrqs g w start data).1.refcnt = s.refcnt := by
  unfold VdcmIrqs.setIrqs
  split
  · exact ⟨sound, rfl⟩
  split
  next valid =>
    have inside := w.inside _ _ _ valid
    unfold setMsixTrigger
    cases data with
    | none count =>
        dsimp only
        split
        · next off =>
          obtain ⟨disabled, refcnt, -⟩ :=
            sound.msixDisable (g := g) (Bool.and_eq_true_iff.mp off).1
          exact ⟨disabled, refcnt⟩
        · exact ⟨sound, rfl⟩
    | bool count => exact ⟨sound, rfl⟩
    | eventfd fds =>
        dsimp only
        split
        · obtain ⟨touches, -, -⟩ := sound.setVectorSignals (g := g) start fds
          exact ⟨touches.sound, touches.refcnt⟩
        · next off =>
          obtain ⟨enabled, refcnt, on⟩ := sound.msixEnable (g := g)
            (Bool.eq_false_iff.mpr off) inside
          split
          · next done =>
            obtain ⟨touches, -, -⟩ := enabled.setVectorSignals (g := g) start fds
            split
            · exact ⟨touches.sound, touches.refcnt.trans refcnt⟩
            · obtain ⟨disabled, same, -⟩ :=
                touches.sound.msixDisable (g := g) (touches.msix.trans (on done))
              exact ⟨disabled, same.trans (touches.refcnt.trans refcnt)⟩
          · exact ⟨enabled, refcnt⟩
  next => exact ⟨sound, rfl⟩

/-- Only an open device has triggers. -/
structure InOrder (s : VdcmIrqs) : Prop where
  sound : s.Sound
  closed : s.refcnt = 0 → s.msix = false

theorem Sound.close (sound : s.Sound) : (s.close g).InOrder := by
  have counted : { s with refcnt := s.refcnt - 1 }.Sound :=
    ⟨sound.holds, sound.inside, sound.off⟩
  unfold VdcmIrqs.close
  dsimp only
  split
  · split
    · next on =>
      obtain ⟨disabled, -, off⟩ := counted.msixDisable (g := g) on
      exact ⟨disabled, fun _ => off⟩
    · next off => exact ⟨counted, fun _ => Bool.eq_false_iff.mpr off⟩
  · next opened => exact ⟨counted, fun closed => absurd closed opened⟩

theorem InOrder.step {t : VdcmIrqs} (h : s.InOrder) (e : VdcmEvent)
    (step : s.step g w e = some t) : t.InOrder := by
  cases e with
  | «open» numVectors line =>
      simp only [VdcmIrqs.step, Option.ite_none_right_eq_some] at step
      obtain ⟨closed, step⟩ := step
      obtain rfl := Option.some.inj step
      have off := h.closed closed
      have none := h.sound.off off
      have held := h.sound.holds
      refine ⟨⟨?_, ?_, h.sound.off⟩, fun _ => off⟩
      · rw [owned, none, off] at held ⊢
        exact held
      · change s.numCtx ≤ numVectors
        rw [none]
        exact Nat.zero_le _
  | reopen =>
      simp only [VdcmIrqs.step, Option.ite_none_left_eq_some] at step
      obtain ⟨opened, step⟩ := step
      obtain rfl := Option.some.inj step
      exact ⟨⟨h.sound.holds, h.sound.inside, h.sound.off⟩, nofun⟩
  | setIrqs start data =>
      simp only [VdcmIrqs.step, Option.ite_none_left_eq_some] at step
      obtain ⟨opened, step⟩ := step
      obtain rfl := Option.some.inj step
      obtain ⟨sound, refcnt⟩ := h.sound.setIrqs (g := g) (w := w) start data
      exact ⟨sound, fun closed => absurd (refcnt.symm.trans closed) opened⟩
  | close =>
      simp only [VdcmIrqs.step, Option.ite_none_left_eq_some] at step
      obtain ⟨-, step⟩ := step
      obtain rfl := Option.some.inj step
      exact h.sound.close

theorem InOrder.of_reachable
    (h : Reachable (VdcmIrqs.step g w) anyStep (· = VdcmIrqs.start) s) : s.InOrder := by
  refine h.invariant (I := InOrder) ?_ fun s e t order _ step => order.step e step
  rintro _ rfl
  exact ⟨⟨Heap.Holds.refl _, Nat.le_refl 0, fun _ => rfl⟩, fun _ => rfl⟩

/-- However requests go and fail, each vector has a name, a reference to an eventfd and a requested
interrupt or none of them, nothing is given up twice, and nothing is left after the last close. -/
theorem irqs_of_reachable (h : Reachable (VdcmIrqs.step g w) anyStep (· = VdcmIrqs.start) s) :
    s.heap.live = s.owned ∧ s.heap.bad = false ∧ s.numCtx ≤ s.numVectors ∧
      (s.refcnt = 0 → s.heap.live = 0) := by
  have order := InOrder.of_reachable h
  have live : s.heap.live = s.owned := order.sound.holds.live.trans (add_zero _)
  refine ⟨live, order.sound.holds.bad, order.sound.inside, fun closed => ?_⟩
  have off := order.closed closed
  rw [live, owned, order.sound.off off, off]
  rfl

def plainValidate : VfioValidate where
  ok start count total := decide (start < total) && decide (start + count ≤ total)
  inside _ _ _ ok := of_decide_eq_true (Bool.and_eq_true_iff.mp ok).2

/-- Three triggers, two of which are then set again while there is no memory for the second. -/
def refusedRun : List VdcmEvent :=
  [.open 4 (· + 40), .setIrqs 0 (.eventfd [5, 6, 7]), .setIrqs 0 (.eventfd [8, 9])]

theorem irqs_of_reachable_refused :
    ∃ s, exec (VdcmIrqs.step (· != 13) plainValidate) VdcmIrqs.start (refusedRun ++ [.close]) =
        some s ∧ s.refcnt = 0 ∧ s.heap.bad = false ∧ s.heap.live = 0 := by
  have seen : (exec (VdcmIrqs.step (· != 13) plainValidate) VdcmIrqs.start
      (refusedRun ++ [.close])).map VdcmIrqs.refcnt = some 0 := by decide +kernel
  obtain ⟨s, run, closed⟩ := Option.map_eq_some_iff.mp seen
  obtain ⟨-, bad, -, released⟩ :=
    irqs_of_reachable (Reachable.exec (s := VdcmIrqs.start) (.start rfl) run)
  exact ⟨s, run, closed, bad, released closed⟩

/-- A request for triggers that fails was about vectors that are not in the table, and has changed
nothing, or has undone the triggers of all vectors up to the one that could not be set, also those
that were there before, and has left the others. -/
theorem setVectorSignals_failed
    (h : Reachable (VdcmIrqs.step g w) anyStep (· = VdcmIrqs.start) s) {start : Nat}
    {fds : List Int} (failed : (s.setVectorSignals g start fds).2 = false) :
    (s.numCtx ≤ start ∨ s.numCtx < start + fds.length) ∧ (s.setVectorSignals g start fds).1 = s ∨
      ∃ j, (signalAll g fds start s).2 = some j ∧ start ≤ j ∧ j < start + fds.length ∧
        ∀ u, (s.setVectorSignals g start fds).1.trig u =
          if start ≤ u ∧ u ≤ j then none else s.trig u := by
  by_cases outside : s.numCtx ≤ start ∨ s.numCtx < start + fds.length
  · refine .inl ⟨outside, ?_⟩
    rw [VdcmIrqs.setVectorSignals, if_pos outside]
  · obtain ⟨touches, fails, -⟩ :=
      (InOrder.of_reachable h).sound.setVectorSignals (g := g) start fds
    obtain ⟨j, at_, low, high, undone, after⟩ := fails (by omega) (by omega) failed
    refine .inr ⟨j, at_, low, high, fun u => ?_⟩
    split
    · next inside => exact undone u inside.1 inside.2
    · next away =>
      by_cases before : u < start
      · exact touches.others u (.inl before)
      · exact after u (by omega)

theorem setVectorSignals_failed_refused :
    ∃ s, exec (VdcmIrqs.step (· != 13) plainValidate) VdcmIrqs.start
        (refusedRun.take 2) = some s ∧ s.numCtx = 3 ∧
      (s.setVectorSignals (· != 13) 0 [8, 9]).2 = false ∧
      ((s.numCtx ≤ 0 ∨ s.numCtx < 0 + [(8 : Int), 9].length) ∧
          (s.setVectorSignals (· != 13) 0 [8, 9]).1 = s ∨
        ∃ j, (signalAll (· != 13) [8, 9] 0 s).2 = some j ∧ 0 ≤ j ∧ j < 0 + [(8 : Int), 9].length ∧
          ∀ u, (s.setVectorSignals (· != 13) 0 [8, 9]).1.trig u =
            if 0 ≤ u ∧ u ≤ j then none else s.trig u) := by
  have seen : (exec (VdcmIrqs.step (· != 13) plainValidate) VdcmIrqs.start
      (refusedRun.take 2)).map (fun s => (s.numCtx, (s.setVectorSignals (· != 13) 0 [8, 9]).2)) =
        some (3, false) := by decide +kernel
  obtain ⟨s, run, facts⟩ := Option.map_eq_some_iff.mp seen
  obtain ⟨three, failed⟩ := Prod.mk.inj facts
  exact ⟨s, run, three, failed,
    setVectorSignals_failed (Reachable.exec (s := VdcmIrqs.start) (.start rfl) run) failed⟩

end VdcmIrqs

end Idpf
