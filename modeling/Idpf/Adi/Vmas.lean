import Idpf.General.Transition
import Mathlib.Data.List.Nodup
import Mathlib.Logic.Function.Basic

/-! The device pages that guests have mapped. Page faults, unmapping and the loop that takes all
mappings away before a reset run against each other; what is under `vma_lock` is one step. -/
namespace Idpf
open General

/-- Where a call of `idpf_vdcm_dev_zap` stands: before its first loop, between the loops with a
reference to a process, or returned. -/
inductive ZapPhase where
  | idle
  | fetch
  | zapping (mm : Nat)
  | done
  deriving DecidableEq, Repr

/-- A `vm_area_struct` of the kernel: not there, mapped in a process, or being closed. -/
inductive VmaPhase where
  | gone
  | mapped
  | closing
  deriving DecidableEq, Repr

/-- `list` is `vma_list`. `pte` tells that the page of a VMA is populated, `alive` that a process
has users. `twice` is set where a populated page is inserted again, which the kernel does not allow. -/
structure VdcmVmas where
  list : List Nat
  vma : Nat → VmaPhase
  mm : Nat → Nat
  alive : Nat → Bool
  pte : Nat → Bool
  zap : Nat → ZapPhase
  twice : Bool

/-- How the body of `idpf_vdcm_dev_mmap_fault` ends for a VMA that is not on the list: no address of
the device, no memory, no insertion, or a page. -/
inductive FaultEnd where
  | noHpa
  | noMem
  | notInserted
  | inserted
  deriving DecidableEq, Repr

/-- What the kernel, a user, and the callers of `idpf_vdcm_dev_zap` do. -/
inductive VmaEvent where
  | map (v mm : Nat)
  | fault (v : Nat) (ends : FaultEnd)
  | unmap (v : Nat)
  | close (v : Nat)
  | exit (mm : Nat)
  | zapBegin (t : Nat)
  | zapFetch (t : Nat)
  | zapAll (t : Nat)

namespace VdcmVmas

variable (s : VdcmVmas)

/-- `idpf_vdcm_dev_mmap_fault` -/
def fault (v : Nat) (ends : FaultEnd) : VdcmVmas :=
  if v ∈ s.list then s
  else
    match ends with
    | .noHpa | .noMem | .notInserted => s
    | .inserted =>
      { s with
        list := v :: s.list
        pte := Function.update s.pte v true
        twice := s.twice || s.pte v }

/-- The first loop of `idpf_vdcm_dev_zap`: nodes of processes without users go. -/
def dropDead : List Nat → List Nat
  | [] => []
  | v :: vs => if s.alive (s.mm v) then v :: vs else dropDead vs

/-- What `idpf_vdcm_dev_zap` does up to the unlock after that loop. -/
def zapFetch (t : Nat) : VdcmVmas :=
  match s.dropDead s.list with
  | [] => { s with list := [], zap := Function.update s.zap t .done }
  | v :: vs => { s with list := v :: vs, zap := Function.update s.zap t (.zapping (s.mm v)) }

def zapAll (t mm : Nat) : VdcmVmas :=
  { s with
    list := s.list.filter fun v => s.mm v != mm
    pte := fun v => s.pte v && !(decide (v ∈ s.list) && s.mm v == mm)
    zap := Function.update s.zap t .fetch }

/-- One step. A mapping comes without a page (after a fork `idpf_vdcm_dev_mmap_open` clears it), and
only a process with users has page faults. -/
def step (s : VdcmVmas) : VmaEvent → Option VdcmVmas
  | .map v mm =>
    if s.vma v = .gone ∧ s.alive mm = true then
      some { s with
        vma := Function.update s.vma v .mapped
        mm := Function.update s.mm v mm
        pte := Function.update s.pte v false }
    else none
  | .fault v ends =>
    if s.vma v = .mapped ∧ s.alive (s.mm v) = true then some (s.fault v ends) else none
  | .unmap v =>
    if s.vma v = .mapped then
      some { s with
        vma := Function.update s.vma v .closing
        pte := Function.update s.pte v false }
    else none
  | .close v =>
    if s.vma v = .closing then
      some { s with
        vma := Function.update s.vma v .gone
        list := s.list.erase v }
    else none
  | .exit mm => some { s with alive := Function.update s.alive mm false }
  | .zapBegin t =>
    if s.zap t = .idle ∨ s.zap t = .done then
      some { s with zap := Function.update s.zap t .fetch }
    else none
  | .zapFetch t => if s.zap t = .fetch then some (s.zapFetch t) else none
  | .zapAll t =>
    match s.zap t with
    | .zapping mm => some (s.zapAll t mm)
    | _ => none

def start : VdcmVmas := ⟨[], fun _ => .gone, fun _ => 0, fun _ => true, fun _ => false,
  fun _ => .idle, false⟩

/-- Each node of the list is of a VMA that there is and is the only one for it, and a process with
users has pages only in VMAs on the list. -/
structure Listed (s : VdcmVmas) : Prop where
  nodup : s.list.Nodup
  there : ∀ v ∈ s.list, s.vma v ≠ .gone
  pages : ∀ v, s.pte v = true → s.vma v = .mapped ∧ (s.alive (s.mm v) = true → v ∈ s.list)
  once : s.twice = false

variable {s}

theorem dropDead_suffix (s : VdcmVmas) (vs : List Nat) :
    (s.dropDead vs).Sublist vs ∧ ∀ v ∈ vs, s.alive (s.mm v) = true → v ∈ s.dropDead vs := by
  induction vs with
  | nil => exact ⟨List.Sublist.refl [], fun v member => absurd member List.not_mem_nil⟩
  | cons u vs ih =>
      unfold dropDead
      split
      · exact ⟨List.Sublist.refl _, fun v member _ => member⟩
      · next dead =>
        refine ⟨ih.1.cons u, fun v member alive => ?_⟩
        rcases List.mem_cons.mp member with rfl | later
        · exact absurd alive dead
        · exact ih.2 v later alive

theorem Listed.fault (h : s.Listed) {v : Nat} (mapped : s.vma v = .mapped)
    (alive : s.alive (s.mm v) = true) (ends : FaultEnd) : (s.fault v ends).Listed := by
  unfold VdcmVmas.fault
  split
  · exact h
  · next fresh =>
    cases ends with
    | noHpa => exact h
    | noMem => exact h
    | notInserted => exact h
    | inserted =>
        have empty : s.pte v = false := by
          cases page : s.pte v with
          | false => rfl
          | true => exact absurd ((h.pages v page).2 alive) fresh
        refine ⟨List.nodup_cons.mpr ⟨fresh, h.nodup⟩, ?_, fun u page => ?_, ?_⟩
        · refine List.forall_mem_cons.mpr ⟨?_, h.there⟩
          rw [mapped]
          exact nofun
        · by_cases same : u = v
          · subst same
            exact ⟨mapped, fun _ => List.mem_cons_self⟩
          · dsimp only at page
            rw [Function.update_of_ne same] at page
            obtain ⟨there, listed⟩ := h.pages u page
            exact ⟨there, fun alive => List.mem_cons_of_mem v (listed alive)⟩
        · change (s.twice || s.pte v) = false
          rw [h.once, empty]
          rfl

theorem zapFetch_list (s : VdcmVmas) (t : Nat) :
    ∃ phase, s.zapFetch t = { s with
      list := s.dropDead s.list
      zap := Function.update s.zap t phase } := by
  unfold VdcmVmas.zapFetch
  split
  · next none => exact ⟨.done, by rw [none]⟩
  · next v vs some => exact ⟨.zapping (s.mm v), by rw [some]⟩

theorem Listed.zapFetch (h : s.Listed) (t : Nat) : (s.zapFetch t).Listed := by
  obtain ⟨sub, kept⟩ := s.dropDead_suffix s.list
  obtain ⟨phase, eq⟩ := s.zapFetch_list t
  rw [eq]
  refine ⟨h.nodup.sublist sub, fun v member => h.there v (sub.subset member), fun v page => ?_,
    h.once⟩
  obtain ⟨there, listed⟩ := h.pages v page
  exact ⟨there, fun alive => kept v (listed alive) alive⟩

theorem Listed.zapAll (h : s.Listed) (t mm : Nat) : (s.zapAll t mm).Listed := by
  refine ⟨h.nodup.filter _, fun v member => h.there v (List.mem_filter.mp member).1,
    fun v page => ?_, h.once⟩
  obtain ⟨before, other⟩ := Bool.and_eq_true_iff.mp page
  obtain ⟨there, listed⟩ := h.pages v before
  refine ⟨there, fun alive => List.mem_filter.mpr ⟨listed alive, ?_⟩⟩
  rw [decide_eq_true (listed alive), Bool.true_and, Bool.not_eq_true'] at other
  rw [bne, other]
  rfl

theorem Listed.step {s' : VdcmVmas} (h : s.Listed) (e : VmaEvent) (step : s.step e = some s') :
    s'.Listed := by
  cases e with
  | map v mm =>
      obtain ⟨⟨gone, -⟩, eq⟩ := Option.ite_none_right_eq_some.mp step
      obtain rfl := Option.some.inj eq
      have unlisted : v ∉ s.list := fun member => h.there v member gone
      refine ⟨h.nodup, fun u member => ?_, fun u page => ?_, h.once⟩
      · have other : u ≠ v := fun same => unlisted (same ▸ member)
        dsimp only
        rw [Function.update_of_ne other]
        exact h.there u member
      · have other : u ≠ v := by
          rintro rfl
          dsimp only at page
          rw [Function.update_self] at page
          cases page
        dsimp only at page ⊢
        rw [Function.update_of_ne other] at page
        rw [Function.update_of_ne other, Function.update_of_ne other]
        exact h.pages u page
  | fault v ends =>
      obtain ⟨⟨mapped, alive⟩, eq⟩ := Option.ite_none_right_eq_some.mp step
      obtain rfl := Option.some.inj eq
      exact h.fault mapped alive ends
  | unmap v =>
      obtain ⟨mapped, eq⟩ := Option.ite_none_right_eq_some.mp step
      obtain rfl := Option.some.inj eq
      refine ⟨h.nodup, fun u member => ?_, fun u page => ?_, h.once⟩
      · by_cases same : u = v
        · subst same
          dsimp only
          rw [Function.update_self]
          exact nofun
        · dsimp only
          rw [Function.update_of_ne same]
          exact h.there u member
      · have other : u ≠ v := by
          rintro rfl
          dsimp only at page
          rw [Function.update_self] at page
          cases page
        dsimp only at page ⊢
        rw [Function.update_of_ne other] at page
        rw [Function.update_of_ne other]
        exact h.pages u page
  | close v =>
      obtain ⟨closing, eq⟩ := Option.ite_none_right_eq_some.mp step
      obtain rfl := Option.some.inj eq
      refine ⟨h.nodup.erase v, fun u member => ?_, fun u page => ?_, h.once⟩
      · obtain ⟨other, member⟩ := h.nodup.mem_erase_iff.mp member
        dsimp only
        rw [Function.update_of_ne other]
        exact h.there u member
      · obtain ⟨mapped, listed⟩ := h.pages u page
        have other : u ≠ v := by
          rintro rfl
          rw [closing] at mapped
          cases mapped
        dsimp only
        rw [Function.update_of_ne other]
        exact ⟨mapped, fun alive => (List.mem_erase_of_ne other).mpr (listed alive)⟩
  | exit mm =>
      obtain rfl := Option.some.inj step
      refine ⟨h.nodup, h.there, fun u page => ?_, h.once⟩
      obtain ⟨mapped, listed⟩ := h.pages u page
      refine ⟨mapped, fun alive => listed ?_⟩
      dsimp only at alive
      by_cases same : s.mm u = mm
      · rw [same, Function.update_self] at alive
        cases alive
      · rwa [Function.update_of_ne same] at alive
  | zapBegin t =>
      obtain ⟨-, eq⟩ := Option.ite_none_right_eq_some.mp step
      obtain rfl := Option.some.inj eq
      exact ⟨h.nodup, h.there, h.pages, h.once⟩
  | zapFetch t =>
      obtain ⟨-, eq⟩ := Option.ite_none_right_eq_some.mp step
      obtain rfl := Option.some.inj eq
      exact h.zapFetch t
  | zapAll t =>
      simp only [VdcmVmas.step] at step
      split at step
      · next mm zapping =>
        obtain rfl := Option.some.inj step
        exact h.zapAll t mm
      · cases step

/-- However faults, unmapping, exits and other resets come between its loops, no page is ever
inserted twice, and when `idpf_vdcm_dev_zap` returns no process with users has a page of the
device. -/
theorem zap_clears (h : Reachable VdcmVmas.step anyStep (· = VdcmVmas.start) s) :
    s.twice = false ∧ ∀ t s', s.step (.zapFetch t) = some s' → s'.zap t = .done →
      s'.list = [] ∧ ∀ v, s'.pte v = true → s'.alive (s'.mm v) = false := by
  have listed : s.Listed := by
    refine h.invariant (I := Listed) ?_ fun s e s' listed _ step => listed.step e step
    rintro _ rfl
    exact ⟨List.nodup_nil, nofun, nofun, rfl⟩
  refine ⟨listed.once, fun t s' last returned => ?_⟩
  have after := listed.step _ last
  obtain ⟨-, eq⟩ := Option.ite_none_right_eq_some.mp last
  obtain rfl := Option.some.inj eq
  have none : (s.zapFetch t).list = [] := by
    unfold VdcmVmas.zapFetch at returned ⊢
    split at returned
    · rfl
    · next v vs some =>
      dsimp only at returned
      rw [Function.update_self] at returned
      cases returned
  refine ⟨none, fun v page => ?_⟩
  cases alive : (s.zapFetch t).alive ((s.zapFetch t).mm v) with
  | false => rfl
  | true =>
      have member := (after.pages v page).2 alive
      rw [none] at member
      exact absurd member List.not_mem_nil

/-- Two processes, one of which exits, and a fault between the two loops. -/
theorem zap_clears_exit :
    ∃ s s', exec VdcmVmas.step VdcmVmas.start
        [.map 0 1, .map 1 2, .fault 0 .inserted, .fault 1 .inserted, .fault 0 .inserted, .exit 2,
          .zapBegin 7, .zapFetch 7, .map 2 1, .fault 2 .inserted, .zapAll 7] = some s ∧
      s.step (.zapFetch 7) = some s' ∧ s.twice = false ∧ s'.list = [] ∧
      ∀ v, s'.pte v = true → s'.alive (s'.mm v) = false := by
  have seen : (exec VdcmVmas.step VdcmVmas.start
      [.map 0 1, .map 1 2, .fault 0 .inserted, .fault 1 .inserted, .fault 0 .inserted, .exit 2,
        .zapBegin 7, .zapFetch 7, .map 2 1, .fault 2 .inserted, .zapAll 7]).bind
        (fun s => (s.step (.zapFetch 7)).map fun s' => s'.zap 7) = some .done := by decide +kernel
  obtain ⟨s, run, rest⟩ := Option.bind_eq_some_iff.mp seen
  obtain ⟨s', last, returned⟩ := Option.map_eq_some_iff.mp rest
  obtain ⟨once, clears⟩ := zap_clears (Reachable.exec (s := VdcmVmas.start) (.start rfl) run)
  exact ⟨s, s', run, last, once, clears 7 s' last returned⟩

end VdcmVmas

end Idpf
