import Idpf.Vport.MacFilters

/-! The list of MAC filters, what the device has and what it has been asked for: which steps keep
the three together, and what the handler of refused messages does. -/
namespace Idpf
open General

namespace MacVport

/-- The list has each address once, whatever the device has or will have and whatever has been
asked for. What has not been asked for is marked for deletion, and while the vport is up everything
in the list is on the device or marked for it, and what has been asked for is not marked for
deletion. -/
structure Synced (v : MacVport) (due : Mac → Bool) : Prop where
  one : (v.filters.map MacFilter.macaddr).Nodup
  kept : ∀ a, due a = true → a ∈ v.filters.map MacFilter.macaddr
  whole : ∀ a, v.asked a = true → a ∈ v.filters.map MacFilter.macaddr
  marked : ∀ f ∈ v.filters, v.asked f.macaddr = false → f.remove = true
  present : v.up = true → ∀ f ∈ v.filters, due f.macaddr = true ∨ f.add = true
  spared : v.up = true → ∀ f ∈ v.filters, v.asked f.macaddr = true → f.remove = false

end MacVport

/-- Filters with the address are marked for deletion, or no longer. -/
def MacFilter.flag (a : Mac) (r : Bool) (f : MacFilter) : MacFilter :=
  if f.macaddr = a then { f with remove := r } else f

namespace MacFilter

@[simp] theorem flag_macaddr (a : Mac) (r : Bool) (f : MacFilter) :
    (f.flag a r).macaddr = f.macaddr := by
  unfold flag
  split <;> rfl

@[simp] theorem flag_add (a : Mac) (r : Bool) (f : MacFilter) : (f.flag a r).add = f.add := by
  unfold flag
  split <;> rfl

theorem flag_of_ne {a : Mac} {r : Bool} {f : MacFilter} (ne : f.macaddr ≠ a) : f.flag a r = f :=
  if_neg ne

theorem flag_remove {a : Mac} {r : Bool} {f : MacFilter} (same : f.macaddr = a) :
    (f.flag a r).remove = r := by
  rw [flag, if_pos same]

@[simp] theorem map_flag (a : Mac) (r : Bool) (fs : List MacFilter) :
    (fs.map (flag a r)).map macaddr = fs.map macaddr := by
  rw [List.map_map]
  exact List.map_congr_left fun f _ => flag_macaddr a r f

end MacFilter

theorem onMacFilter_eq {fs : List MacFilter} {a : Mac} {r : Bool}
    (one : (fs.map MacFilter.macaddr).Nodup) :
    onMacFilter a (fun f => { f with remove := r }) fs = fs.map (MacFilter.flag a r) := by
  induction fs with
  | nil => rfl
  | cons f fs ih =>
      rw [List.map_cons, List.nodup_cons] at one
      rw [onMacFilter, List.map_cons]
      by_cases here : f.macaddr = a
      · have rest : fs.map (MacFilter.flag a r) = fs := by
          refine (List.map_congr_left fun f' member => ?_).trans (List.map_id _)
          refine MacFilter.flag_of_ne fun same => one.1 ?_
          rw [here, ← same]
          exact List.mem_map_of_mem member
        rw [if_pos here, rest, MacFilter.flag, if_pos here]
      · rw [if_neg here, ih one.2, MacFilter.flag_of_ne here]

theorem unlinkMacFilter_eq {fs : List MacFilter} {a : Mac}
    (one : (fs.map MacFilter.macaddr).Nodup) :
    unlinkMacFilter fs a = fs.filter fun f => f.macaddr ≠ a := by
  induction fs with
  | nil => rfl
  | cons f fs ih =>
      rw [List.map_cons, List.nodup_cons] at one
      by_cases here : f.macaddr = a
      · have rest : fs.filter (fun f => f.macaddr ≠ a) = fs := by
          refine List.filter_eq_self.mpr fun f' member => decide_eq_true fun same => one.1 ?_
          rw [here, ← same]
          exact List.mem_map_of_mem member
        rw [unlinkMacFilter, List.eraseP_cons_of_pos (by simpa using here),
          List.filter_cons_of_neg (by simpa using here), rest]
      · rw [unlinkMacFilter, List.eraseP_cons_of_neg (by simpa using here),
          List.filter_cons_of_pos (by simpa using here)]
        exact congrArg _ (ih one.2)

theorem findMacFilter_none {fs : List MacFilter} {a : Mac} :
    findMacFilter fs a = none ↔ a ∉ fs.map MacFilter.macaddr := by
  simp [findMacFilter, List.find?_eq_none]

/-- A filter is linked already, or becomes the last one. -/
theorem linkMacFilter_some {alloc : Bool} {fs fs' : List MacFilter} {a : Mac}
    (one : (fs.map MacFilter.macaddr).Nodup) (linked : linkMacFilter alloc fs a = some fs') :
    a ∈ fs.map MacFilter.macaddr ∧ fs' = fs.map (MacFilter.flag a false) ∨
      a ∉ fs.map MacFilter.macaddr ∧
        fs' = fs ++ [{ macaddr := a, add := true, remove := false }] := by
  rw [linkMacFilter] at linked
  split at linked
  · next found =>
    refine .inl ⟨?_, ?_⟩
    · by_contra absent
      rw [findMacFilter_none.mpr absent] at found
      simp at found
    · rw [← Option.some.inj linked, onMacFilter_eq one]
  · next missing =>
    have absent : a ∉ fs.map MacFilter.macaddr :=
      findMacFilter_none.mp (by simpa using missing)
    split at linked
    · exact .inr ⟨absent, (Option.some.inj linked).symm⟩
    · exact absurd linked.symm (Option.some_ne_none _)

namespace MacVport

variable {v : MacVport} {due : Mac → Bool} {a : Mac} {filters : List MacFilter}

/-- A filter is wanted, or no longer. -/
theorem Synced.flag (s : Synced v due) (r : Bool)
    (there : r = true ∨ a ∈ v.filters.map MacFilter.macaddr) :
    Synced { v with
      filters := v.filters.map (MacFilter.flag a r)
      asked := Function.update v.asked a !r } due := by
  constructor
  · exact (MacFilter.map_flag a r v.filters).symm ▸ s.one
  · exact (MacFilter.map_flag a r v.filters).symm ▸ s.kept
  · intro b asked
    dsimp only at asked ⊢
    rw [MacFilter.map_flag]
    rcases eq_or_ne b a with rfl | ne
    · refine there.resolve_left fun off => ?_
      simp [off] at asked
    · exact s.whole b ((Function.update_of_ne ne _ _).symm.trans asked)
  · intro f' member unasked
    obtain ⟨f, old, rfl⟩ := List.mem_map.mp member
    rw [MacFilter.flag_macaddr] at unasked
    by_cases same : f.macaddr = a
    · rw [MacFilter.flag_remove same]
      simpa [same] using unasked
    · rw [MacFilter.flag_of_ne same]
      exact s.marked f old ((Function.update_of_ne same _ _).symm.trans unasked)
  · intro up f' member
    obtain ⟨f, old, rfl⟩ := List.mem_map.mp member
    rw [MacFilter.flag_macaddr, MacFilter.flag_add]
    exact s.present up f old
  · intro up f' member asked
    obtain ⟨f, old, rfl⟩ := List.mem_map.mp member
    rw [MacFilter.flag_macaddr] at asked
    by_cases same : f.macaddr = a
    · rw [MacFilter.flag_remove same]
      simpa [same] using asked
    · rw [MacFilter.flag_of_ne same]
      exact s.spared up f old ((Function.update_of_ne same _ _).symm.trans asked)

theorem Synced.append (s : Synced v due) (absent : a ∉ v.filters.map MacFilter.macaddr) :
    Synced { v with
      filters := v.filters ++ [{ macaddr := a, add := true, remove := false }]
      asked := Function.update v.asked a true } due := by
  have addrs : (v.filters ++ [(⟨a, true, false⟩ : MacFilter)]).map MacFilter.macaddr =
      v.filters.map MacFilter.macaddr ++ [a] := List.map_append
  have ne {f : MacFilter} (old : f ∈ v.filters) : f.macaddr ≠ a :=
    fun same => absent (same ▸ List.mem_map_of_mem old)
  constructor
  · dsimp only
    rw [addrs]
    exact List.nodup_append.mpr ⟨s.one, List.nodup_singleton a, fun b there c last => by
      rintro rfl
      exact absent (List.mem_singleton.mp last ▸ there)⟩
  · intro b has
    dsimp only
    rw [addrs]
    exact List.mem_append_left _ (s.kept b has)
  · intro b asked
    dsimp only at asked ⊢
    rw [addrs]
    rcases eq_or_ne b a with rfl | other
    · exact List.mem_append_right _ (List.mem_singleton_self b)
    · exact List.mem_append_left _ (s.whole b ((Function.update_of_ne other _ _).symm.trans asked))
  · intro f member unasked
    rcases List.mem_append.mp member with old | new
    · exact s.marked f old ((Function.update_of_ne (ne old) _ _).symm.trans unasked)
    · rw [List.mem_singleton.mp new] at unasked
      simp at unasked
  · intro up f member
    rcases List.mem_append.mp member with old | new
    · exact s.present up f old
    · exact .inr (by rw [List.mem_singleton.mp new])
  · intro up f member asked
    rcases List.mem_append.mp member with old | new
    · exact s.spared up f old ((Function.update_of_ne (ne old) _ _).symm.trans asked)
    · rw [List.mem_singleton.mp new]

theorem Synced.link {alloc : Bool} (s : Synced v due)
    (linked : linkMacFilter alloc v.filters a = some filters) :
    Synced { v with filters, asked := Function.update v.asked a true } due := by
  rcases linkMacFilter_some s.one linked with ⟨there, rfl⟩ | ⟨absent, rfl⟩
  · exact s.flag false (.inr there)
  · exact s.append absent

theorem Synced.unlink (s : Synced v due) :
    Synced { v with
      filters := unlinkMacFilter v.filters a
      asked := Function.update v.asked a false } (Function.update due a false) := by
  rw [unlinkMacFilter_eq s.one]
  have stays {b : Mac} (ne : b ≠ a) (there : b ∈ v.filters.map MacFilter.macaddr) :
      b ∈ (v.filters.filter fun f => f.macaddr ≠ a).map MacFilter.macaddr := by
    obtain ⟨f, old, rfl⟩ := List.mem_map.mp there
    exact List.mem_map_of_mem (List.mem_filter.mpr ⟨old, decide_eq_true ne⟩)
  have other {f : MacFilter} (member : f ∈ v.filters.filter fun f => f.macaddr ≠ a) :
      f ∈ v.filters ∧ f.macaddr ≠ a := by
    simpa using List.mem_filter.mp member
  constructor
  · exact s.one.sublist (List.filter_sublist.map _)
  · intro b has
    rcases eq_or_ne b a with rfl | ne
    · simp at has
    · exact stays ne (s.kept b ((Function.update_of_ne ne _ _).symm.trans has))
  · intro b asked
    dsimp only at asked
    rcases eq_or_ne b a with rfl | ne
    · simp at asked
    · exact stays ne (s.whole b ((Function.update_of_ne ne _ _).symm.trans asked))
  · intro f member unasked
    obtain ⟨old, ne⟩ := other member
    exact s.marked f old ((Function.update_of_ne ne _ _).symm.trans unasked)
  · intro up f member
    obtain ⟨old, ne⟩ := other member
    rw [Function.update_of_ne ne]
    exact s.present up f old
  · intro up f member asked
    obtain ⟨old, ne⟩ := other member
    exact s.spared up f old ((Function.update_of_ne ne _ _).symm.trans asked)

theorem Synced.unlinkGone (s : Synced v due) (gone : due a = false) :
    Synced { v with
      filters := unlinkMacFilter v.filters a
      asked := Function.update v.asked a false } due :=
  (Function.update_eq_self_iff.mpr gone.symm : Function.update due a false = due) ▸ s.unlink

theorem mem_marked {add : Bool} {b : Mac} :
    b ∈ v.marked add ↔ ∃ f ∈ v.filters, f.wanted add = true ∧ f.macaddr = b := by
  simp [marked, and_assoc]

theorem map_cleared (add : Bool) (fs : List MacFilter) :
    (fs.map (MacFilter.cleared add)).map MacFilter.macaddr = fs.map MacFilter.macaddr := by
  rw [List.map_map]
  refine List.map_congr_left fun f _ => ?_
  unfold Function.comp MacFilter.cleared
  split
  · split <;> rfl
  · rfl

theorem cleared_true (f : MacFilter) : (f.cleared true).macaddr = f.macaddr ∧
    (f.cleared true).remove = f.remove := by
  unfold MacFilter.cleared
  split <;> exact ⟨rfl, rfl⟩

theorem Synced.eq_of_macaddr (s : Synced v due) {f f' : MacFilter} (member : f ∈ v.filters)
    (member' : f' ∈ v.filters) (same : f.macaddr = f'.macaddr) : f = f' :=
  List.inj_on_of_nodup_map s.one member member' same

theorem Synced.sentAdd (s : Synced v due) {r : MacCall} (sent : Sent v true r) :
    Synced r.vport (MacRequest.applyAll r.took due) := by
  rw [sent.vport]
  have took (b : Mac) : MacRequest.applyAll r.took due b =
      if b ∈ v.marked true then true else due b := sent.took due b
  constructor
  · exact (map_cleared true v.filters).symm ▸ s.one
  · intro b has
    dsimp only
    rw [map_cleared]
    rw [took] at has
    split at has
    · next new =>
      obtain ⟨f, member, -, rfl⟩ := mem_marked.mp new
      exact List.mem_map_of_mem member
    · exact s.kept b has
  · exact (map_cleared true v.filters).symm ▸ s.whole
  · intro f' member unasked
    obtain ⟨f, old, rfl⟩ := List.mem_map.mp member
    rw [(cleared_true f).1] at unasked
    exact (cleared_true f).2.trans (s.marked f old unasked)
  · intro up f' member
    obtain ⟨f, old, rfl⟩ := List.mem_map.mp member
    rw [(cleared_true f).1, took]
    by_cases new : f.macaddr ∈ v.marked true
    · exact .inl (if_pos new)
    · have off : ¬ f.wanted true = true := fun on => new (mem_marked.mpr ⟨f, old, on, rfl⟩)
      rw [if_neg new, MacFilter.cleared, if_neg off]
      exact s.present up f old
  · intro up f' member asked
    obtain ⟨f, old, rfl⟩ := List.mem_map.mp member
    rw [(cleared_true f).1] at asked
    exact (cleared_true f).2.trans (s.spared up f old asked)

/-- A deletion that is acknowledged, of the one filter marked for it. -/
theorem Synced.sentDel (s : Synced v due) {r : MacCall} (sent : Sent v false r)
    (unasked : v.asked a = false) (there : a ∈ v.filters.map MacFilter.macaddr)
    (only : ∀ f ∈ v.filters, f.macaddr ≠ a → f.remove = false) :
    Synced { r.vport with filters := unlinkMacFilter r.vport.filters a }
      (MacRequest.applyAll r.took due) := by
  have listed (b : Mac) : b ∈ v.marked false ↔ b = a := by
    refine mem_marked.trans ⟨?_, ?_⟩
    · rintro ⟨f, member, on, rfl⟩
      by_contra ne
      exact Bool.noConfusion (on.symm.trans (only f member ne))
    · rintro rfl
      obtain ⟨f, member, same⟩ := List.mem_map.mp there
      exact ⟨f, member, s.marked f member (same ▸ unasked), same⟩
  have took (b : Mac) : MacRequest.applyAll r.took due b = if b = a then false else due b := by
    rw [sent.took, if_congr (listed b) rfl rfl]
  have one : ((v.filters.map (MacFilter.cleared false)).map MacFilter.macaddr).Nodup :=
    (map_cleared false v.filters).symm ▸ s.one
  rw [sent.vport, unlinkMacFilter_eq one]
  have rest : (v.filters.map (MacFilter.cleared false)).filter (fun f => f.macaddr ≠ a) =
      v.filters.filter fun f => f.macaddr ≠ a := by
    rw [List.filter_map]
    have same (f : MacFilter) : (f.cleared false).macaddr = f.macaddr := by
      unfold MacFilter.cleared
      split <;> rfl
    simp only [Function.comp_def, same]
    refine (List.map_congr_left fun f member => ?_).trans (List.map_id _)
    obtain ⟨old, ne⟩ := List.mem_filter.mp member
    exact if_neg fun on => Bool.noConfusion ((only f old (of_decide_eq_true ne)).symm.trans on)
  have unmarked : Function.update v.asked a false = v.asked :=
    Function.update_eq_self_iff.mpr unasked.symm
  have left := s.unlink (a := a)
  rw [unlinkMacFilter_eq s.one, unmarked] at left
  have gone : MacRequest.applyAll r.took due = Function.update due a false :=
    funext fun b => (took b).trans (Function.update_apply due a false b).symm
  rw [gone]
  dsimp only
  rw [rest]
  exact left

end MacVport

/-- A call about `n` filters fails at its first allocation or not at all. -/
def MacEnv.sends (env : MacEnv) (n : Nat) : Prop :=
  n = 0 ∨ env.chunk.listAlloc = false ∨ AllSent n env.chunk

/-- The call belongs to the vport in slot `i`, whose device it leaves to its messages. -/
structure MacCall.Of (r : MacCall) (v : MacVport) (i : Nat) : Prop where
  hw : r.vport.hw = v.hw
  slot : ∀ q ∈ r.took, q.vport = i

namespace MacVport

variable {v : MacVport} {due : Mac → Bool} {a : Mac} {i : Nat} {add : Bool} {env : MacEnv}

theorem addMacFilter_of {async : Bool} : (v.addMacFilter i a async env).Of v i := by
  have idle (v' : MacVport) (ret : Int) (hw : v'.hw = v.hw) :
      MacCall.Of { vport := v', ret } v i := ⟨hw, by simp⟩
  rw [addMacFilter]
  split
  · exact idle _ _ rfl
  · dsimp only
    split
    · exact ⟨rfl, addDel_slot⟩
    · exact idle _ _ rfl

theorem delMacFilter_of {async : Bool} : (v.delMacFilter i a async env).Of v i := by
  have idle (v' : MacVport) (ret : Int) (hw : v'.hw = v.hw) :
      MacCall.Of { vport := v', ret } v i := ⟨hw, by simp⟩
  rw [delMacFilter]
  split
  · exact idle _ _ rfl
  · dsimp only
    split
    · split <;> exact ⟨rfl, addDel_slot⟩
    · exact idle _ _ rfl

theorem setMac_of : (v.setMac i a env).Of v i := by
  have added : (addMacFilter { v with defaultMacAddr := a } i a false env).Of v i :=
    ⟨addMacFilter_of.hw, addMacFilter_of.slot⟩
  rw [setMac]
  split
  · exact ⟨rfl, by simp⟩
  · split
    · exact ⟨rfl, by simp⟩
    · dsimp only
      split
      · exact ⟨added.hw, added.slot⟩
      · split <;> exact ⟨added.hw, added.slot⟩

/-- When a filter is added as it is to be: the messages, if the vport is up. -/
def addFine (v : MacVport) (a : Mac) (env : MacEnv) : Prop :=
  ∀ filters, linkMacFilter env.filterAlloc v.filters a = some filters → v.up = true →
    env.sends (filters.countP (MacFilter.wanted true))

/-- When a filter is deleted: while the vport is up no other one is marked for deletion, unless the
call fails at once; while it is down the device has not got it. -/
def delFine (v : MacVport) (due : Mac → Bool) (a : Mac) (env : MacEnv) : Prop :=
  a ∈ v.filters.map MacFilter.macaddr →
    if v.up then
      env.chunk.listAlloc = false ∨
        AllSent 1 env.chunk ∧ ∀ f ∈ v.filters, f.macaddr ≠ a → f.remove = false
    else due a = false

/-- When the address is changed: the old one is not in the list, or the vport is down and the device
has not got it; a call that fails at once has not been asked for the new one before. -/
def setMacFine (v : MacVport) (due : Mac → Bool) (a : Mac) (env : MacEnv) : Prop :=
  isValidEtherAddr a = true → v.devAddr ≠ a →
    ∀ filters, linkMacFilter env.filterAlloc v.filters a = some filters →
      let n := filters.countP (MacFilter.wanted true)
      v.up = true ∧ n ≠ 0 ∧ env.chunk.listAlloc = false ∧ a ∉ v.filters.map MacFilter.macaddr ∨
        (v.up = true → n = 0 ∨ AllSent n env.chunk) ∧
          (isValidEtherAddr v.defaultMacAddr = true →
            v.defaultMacAddr ∉ filters.map MacFilter.macaddr ∨
              v.up = false ∧ due v.defaultMacAddr = false)

/-- When the filters are restored: none that has been asked for is still marked for deletion. -/
def restoreFine (v : MacVport) (env : MacEnv) : Prop :=
  env.sends v.filters.length ∧
    ∀ f ∈ v.filters, v.asked f.macaddr = true → f.remove = false

/-- When they are removed: none is marked for deletion before, unless the call fails at once. -/
def removeFine (v : MacVport) (env : MacEnv) : Prop :=
  v.filters = [] ∨ env.chunk.listAlloc = false ∨
    AllSent v.filters.length env.chunk ∧ ∀ f ∈ v.filters, f.remove = false

theorem addDel_cases {async : Bool} (sends : env.sends (v.marks add)) :
    v.addDel i add async env = { vport := v, ret := -12 } ∧ v.marks add ≠ 0 ∨
      Sent v add (v.addDel i add async env) := by
  by_cases none : v.marks add = 0
  · exact .inr (addDel_sent (.inl none))
  · rcases sends.resolve_left none with fails | all
    · exact .inl ⟨addDel_failed none fails, none⟩
    · exact .inr (addDel_sent (.inr all))

theorem not_listed_of_link {mem : Bool} {filters : List MacFilter}
    (linked : linkMacFilter mem filters a = none) : a ∉ filters.map MacFilter.macaddr := by
  intro there
  have found := mt findMacFilter_none.mp (not_not.mpr there)
  simp [linkMacFilter, Option.isSome_iff_ne_none, found] at linked

theorem addMacFilter_full {async : Bool}
    (linked : linkMacFilter env.filterAlloc v.filters a = none) :
    v.addMacFilter i a async env = { vport := v, ret := -12 } := by
  rw [addMacFilter, linked]

theorem addMacFilter_linked {async : Bool} {filters : List MacFilter}
    (linked : linkMacFilter env.filterAlloc v.filters a = some filters) :
    v.addMacFilter i a async env =
      if v.up then
        { v with filters, asked := Function.update v.asked a true }.addDel i true async env
      else { vport := { v with filters, asked := Function.update v.asked a true } } := by
  rw [addMacFilter, linked]

theorem Synced.added {async : Bool} (s : Synced v due) (fine : v.addFine a env) :
    Synced (v.addMacFilter i a async env).vport
      (MacRequest.applyAll (v.addMacFilter i a async env).took due) := by
  cases linked : linkMacFilter env.filterAlloc v.filters a with
  | none =>
      rw [addMacFilter_full linked]
      exact s
  | some filters =>
      have listed := s.link linked
      rw [addMacFilter_linked linked]
      split
      · next up =>
        have sends : env.sends (marks { v with
            filters, asked := Function.update v.asked a true } true) := fine filters linked up
        rcases addDel_cases sends with ⟨same, -⟩ | sent
        · rw [same]
          exact listed
        · exact listed.sentAdd sent
      · exact listed

theorem Synced.flag_marks (s : Synced v due) (there : a ∈ v.filters.map MacFilter.macaddr)
    (only : ∀ f ∈ v.filters, f.macaddr ≠ a → f.remove = false) :
    (v.filters.map (MacFilter.flag a true)).countP (MacFilter.wanted false) = 1 := by
  rw [List.countP_map]
  have same : v.filters.countP (MacFilter.wanted false ∘ MacFilter.flag a true) =
      v.filters.countP ((fun b => b == a) ∘ MacFilter.macaddr) := by
    refine List.countP_congr fun f member => ?_
    by_cases here : f.macaddr = a
    · simp [MacFilter.wanted, MacFilter.flag_remove here, here]
    · simp [MacFilter.wanted, MacFilter.flag_of_ne here, only f member here, here]
  rw [same, ← List.countP_map]
  exact List.count_eq_one_of_mem s.one there

theorem Synced.deleted {async : Bool} (s : Synced v due) (fine : v.delFine due a env) :
    Synced (v.delMacFilter i a async env).vport
      (MacRequest.applyAll (v.delMacFilter i a async env).took due) := by
  rw [delMacFilter]
  split
  · exact s
  · next found =>
    have there : a ∈ v.filters.map MacFilter.macaddr := by
      by_contra absent
      simp [findMacFilter_none.mpr absent] at found
    have marked := s.flag (a := a) true (.inl rfl)
    have unasked : Function.update v.asked a false a = false := Function.update_self ..
    have fine := fine there
    dsimp only
    rw [onMacFilter_eq s.one]
    split
    · next up =>
      rw [if_pos up] at fine
      rcases fine with fails | ⟨sent, only⟩
      · have some : marks { v with
            filters := v.filters.map (MacFilter.flag a true)
            asked := Function.update v.asked a false } false ≠ 0 := by
          obtain ⟨f, member, same⟩ := List.mem_map.mp there
          refine Nat.pos_iff_ne_zero.mp (List.countP_pos_iff.mpr
            ⟨f.flag a true, List.mem_map_of_mem member, ?_⟩)
          simp [MacFilter.wanted, MacFilter.flag_remove same]
        rw [addDel_failed some fails]
        exact marked
      · have one : marks { v with
            filters := v.filters.map (MacFilter.flag a true)
            asked := Function.update v.asked a false } false = 1 := s.flag_marks there only
        have all : Sent _ false (addDel { v with
            filters := v.filters.map (MacFilter.flag a true)
            asked := Function.update v.asked a false } i false async env) :=
          addDel_sent (.inr (one.symm ▸ sent))
        rw [if_neg (fun bad => bad all.ret)]
        refine marked.sentDel all unasked (by rwa [MacFilter.map_flag]) fun f' member ne => ?_
        obtain ⟨f, old, rfl⟩ := List.mem_map.mp member
        rw [MacFilter.flag_macaddr] at ne
        rw [MacFilter.flag_of_ne ne]
        exact only f old ne
    · next down =>
      rw [if_neg down] at fine
      have left := marked.unlinkGone (a := a) fine
      rw [Function.update_idem] at left
      exact left

theorem Synced.congr {v' : MacVport} (s : Synced v due) (filters : v'.filters = v.filters)
    (asked : v'.asked = v.asked) (up : v'.up = v.up) : Synced v' due :=
  ⟨filters ▸ s.one, filters ▸ s.kept, asked ▸ filters ▸ s.whole, asked ▸ filters ▸ s.marked,
    filters ▸ up ▸ s.present, asked ▸ filters ▸ up ▸ s.spared⟩

theorem Synced.absent (s : Synced v due) (absent : a ∉ v.filters.map MacFilter.macaddr) :
    due a = false ∧ Function.update v.asked a false = v.asked := by
  refine ⟨Bool.eq_false_iff.mpr fun has => absent (s.kept a has), ?_⟩
  exact Function.update_eq_self_iff.mpr
    (Bool.eq_false_iff.mpr fun asked => absent (s.whole a asked)).symm

/-- How the filter for a new address comes to be added. -/
theorem addMacFilter_sent {filters : List MacFilter}
    (linked : linkMacFilter env.filterAlloc v.filters a = some filters)
    (sent : v.up = true → filters.countP (MacFilter.wanted true) = 0 ∨
      AllSent (filters.countP (MacFilter.wanted true)) env.chunk) :
    (v.addMacFilter i a false env).ret = 0 ∧
      (v.addMacFilter i a false env).vport.filters.map MacFilter.macaddr =
        filters.map MacFilter.macaddr ∧
      (v.up = false → (v.addMacFilter i a false env).took = []) := by
  rw [addMacFilter_linked linked]
  split
  · next up =>
    have all : Sent _ true (addDel { v with
        filters, asked := Function.update v.asked a true } i true false env) :=
      addDel_sent (sent up)
    refine ⟨all.ret, ?_, fun down => by simp [up] at down⟩
    rw [all.vport]
    exact map_cleared true filters
  · exact ⟨rfl, rfl, fun _ => rfl⟩

/-- A filter that could not be sent is taken off the list again. -/
theorem Synced.macSet_failed {filters : List MacFilter} (s : Synced v due) (up : v.up = true)
    (linked : linkMacFilter env.filterAlloc v.filters a = some filters)
    (some : filters.countP (MacFilter.wanted true) ≠ 0) (fails : env.chunk.listAlloc = false)
    (absent : a ∉ v.filters.map MacFilter.macaddr) :
    addMacFilter v i a false env =
        { vport := { v with filters, asked := Function.update v.asked a true }, ret := -12 } ∧
      Synced { v with filters := unlinkMacFilter filters a } due := by
  constructor
  · rw [addMacFilter_linked linked, if_pos up]
    exact addDel_failed some fails
  · obtain ⟨gone, unasked⟩ := s.absent absent
    have left := (s.link linked).unlinkGone (a := a) gone
    rw [Function.update_idem, unasked] at left
    exact left

theorem Synced.macSet (s : Synced v due) (fine : v.setMacFine due a env) :
    Synced (v.setMac i a env).vport (MacRequest.applyAll (v.setMac i a env).took due) := by
  rw [setMac]
  split
  · exact s
  · next valid =>
    split
    · exact s
    · next new =>
      have fine := fine (by simpa using valid) new
      have moved : Synced { v with defaultMacAddr := a } due := s.congr rfl rfl rfl
      dsimp only
      cases linked : linkMacFilter env.filterAlloc v.filters a with
      | none =>
          obtain ⟨gone, unasked⟩ := s.absent (not_listed_of_link linked)
          rw [addMacFilter_full (v := { v with defaultMacAddr := a }) linked,
            if_pos (show (-12 : Int) ≠ 0 by decide)]
          have left := s.unlinkGone (a := a) gone
          rw [unasked] at left
          exact left.congr rfl rfl rfl
      | some filters =>
          rcases fine filters linked with ⟨up, some, fails, absent⟩ | ⟨sent, old⟩
          · obtain ⟨result, left⟩ := moved.macSet_failed (i := i) up linked some fails absent
            rw [result, if_pos (show (-12 : Int) ≠ 0 by decide)]
            exact left.congr rfl rfl rfl
          · have fine : addFine { v with defaultMacAddr := a } a env := by
              intro filters' linked' up
              obtain rfl := Option.some.inj (linked.symm.trans linked')
              exact (sent up).imp_right .inr
            have added : Synced (addMacFilter { v with defaultMacAddr := a } i a false env).vport
                (MacRequest.applyAll
                  (addMacFilter { v with defaultMacAddr := a } i a false env).took due) :=
              moved.added fine
            obtain ⟨ret, addrs, idle⟩ := addMacFilter_sent (i := i)
              (v := { v with defaultMacAddr := a }) linked sent
            rw [if_neg (fun bad => bad ret)]
            split
            · next valid =>
              refine (added.unlinkGone ?_).congr rfl rfl rfl
              rcases old valid with absent | ⟨down, gone⟩
              · exact Bool.eq_false_iff.mpr fun has => absent (addrs ▸ added.kept _ has)
              · rw [idle down]
                exact gone
            · exact added.congr rfl rfl rfl

theorem marks_all (add : Bool) {g : MacFilter → MacFilter} (on : ∀ f, (g f).wanted add = true)
    (same : ∀ f, (g f).macaddr = f.macaddr) {w : MacVport} (filters : w.filters = v.filters.map g) :
    w.marks add = v.filters.length ∧ w.marked add = v.filters.map MacFilter.macaddr := by
  have all : ∀ f ∈ v.filters.map g, f.wanted add = true := by
    intro f' member
    obtain ⟨f, -, rfl⟩ := List.mem_map.mp member
    exact on f
  rw [marks, marked, filters]
  refine ⟨?_, ?_⟩
  · rw [List.countP_eq_length.mpr all, List.length_map]
  · rw [List.filter_eq_self.mpr all, List.map_map]
    exact List.map_congr_left fun f _ => same f

theorem restore_of {opens : Bool} : (v.restore i opens env).Of v i := ⟨rfl, addDel_slot⟩

theorem remove_of : (v.remove i env).Of v i := ⟨rfl, addDel_slot⟩

theorem Synced.restored {opens : Bool} (s : Synced v due) (down : v.up = false)
    (fine : v.restoreFine env) :
    Synced (v.restore i opens env).vport
      (MacRequest.applyAll (v.restore i opens env).took due) := by
  obtain ⟨sends, spared⟩ := fine
  let w : MacVport := { v with filters := v.filters.map fun f => { f with add := true } }
  obtain ⟨count, addrs⟩ := marks_all (v := v) (w := w) true
    (g := fun f => { f with add := true }) (fun _ => rfl) (fun _ => rfl) rfl
  have marked : Synced w due := by
    have same : w.filters.map MacFilter.macaddr = v.filters.map MacFilter.macaddr := by
      rw [List.map_map]
      rfl
    refine ⟨same ▸ s.one, same ▸ s.kept, same ▸ s.whole, ?_, ?_, ?_⟩
    · intro f' member unasked
      obtain ⟨f, old, rfl⟩ := List.mem_map.mp member
      exact s.marked f old unasked
    · exact fun up => absurd (down.symm.trans up) Bool.false_ne_true
    · exact fun up => absurd (down.symm.trans up) Bool.false_ne_true
  have wanted : ∀ f ∈ w.filters, f.add = true ∧ (w.asked f.macaddr = true → f.remove = false) := by
    intro f' member
    obtain ⟨f, old, rfl⟩ := List.mem_map.mp member
    exact ⟨rfl, spared f old⟩
  change Synced { (w.addDel i true false env).vport with up := opens }
    (MacRequest.applyAll (w.addDel i true false env).took due)
  have cases : w.addDel i true false env = { vport := w, ret := -12 } ∧ w.marks true ≠ 0 ∨
      Sent w true (w.addDel i true false env) := addDel_cases (count ▸ sends)
  rcases cases with ⟨same, -⟩ | sent
  · rw [same]
    exact { marked with
      present := fun _ f member => .inr (wanted f member).1
      spared := fun _ f member => (wanted f member).2 }
  · have after := marked.sentAdd sent
    rw [sent.vport] at after ⊢
    refine { after with
      present := fun _ f' member => .inl ?_
      spared := fun _ f' member asked => ?_ }
    · obtain ⟨f, old, rfl⟩ := List.mem_map.mp member
      rw [sent.took, if_pos]
      rw [(cleared_true f).1]
      exact mem_marked.mpr ⟨f, old, (wanted f old).1, rfl⟩
    · obtain ⟨f, old, rfl⟩ := List.mem_map.mp member
      rw [(cleared_true f).1] at asked
      exact (cleared_true f).2.trans ((wanted f old).2 asked)

theorem Synced.markedAll (s : Synced v due) :
    Synced { v with up := false, filters := v.filters.map fun f => { f with remove := true } }
      due := by
  have same : (v.filters.map fun f => { f with remove := true }).map MacFilter.macaddr =
      v.filters.map MacFilter.macaddr := by
    rw [List.map_map]
    rfl
  refine ⟨same ▸ s.one, same ▸ s.kept, same ▸ s.whole, ?_, fun up => ?_, fun up => ?_⟩
  · intro f' member _
    obtain ⟨f, old, rfl⟩ := List.mem_map.mp member
    rfl
  · exact absurd up Bool.false_ne_true
  · exact absurd up Bool.false_ne_true

theorem Synced.removed (s : Synced v due) (fine : v.removeFine env) :
    Synced (v.remove i env).vport (MacRequest.applyAll (v.remove i env).took due) := by
  let w : MacVport := { v with
    up := false, filters := v.filters.map fun f => { f with remove := true } }
  obtain ⟨count, addrs⟩ := marks_all (v := v) (w := w) false
    (g := fun f => { f with remove := true }) (fun _ => rfl) (fun _ => rfl) rfl
  have marked : Synced w due := s.markedAll
  have sends : env.sends (w.marks false) := by
    rw [count]
    rcases fine with none | fails | ⟨all, -⟩
    · exact .inl (congrArg List.length none)
    · exact .inr (.inl fails)
    · exact .inr (.inr all)
  have cases : w.addDel i false false env = { vport := w, ret := -12 } ∧ w.marks false ≠ 0 ∨
      Sent w false (w.addDel i false false env) := addDel_cases sends
  change Synced (w.addDel i false false env).vport
    (MacRequest.applyAll (w.addDel i false false env).took due)
  rcases cases with ⟨same, -⟩ | sent
  · rw [same]
    exact marked
  · have unmarked : ∀ f ∈ v.filters, f.remove = false := by
      rcases fine with none | fails | ⟨-, unmarked⟩
      · simp [none]
      · by_cases none : w.marks false = 0
        · have empty : v.filters = [] := List.eq_nil_of_length_eq_zero (count ▸ none)
          simp [empty]
        · have ret := sent.ret
          rw [addDel_failed none fails] at ret
          exact absurd ret (show ¬ (-12 : Int) = 0 by decide)
      · exact unmarked
    have gone (b : Mac) : MacRequest.applyAll (w.addDel i false false env).took due b = false := by
      rw [sent.took, addrs]
      split
      · rfl
      · next absent => exact Bool.eq_false_iff.mpr fun has => absent (s.kept b has)
    have same : (w.filters.map (MacFilter.cleared false)).map MacFilter.macaddr =
        v.filters.map MacFilter.macaddr := by
      rw [map_cleared, List.map_map]
      rfl
    rw [sent.vport]
    refine ⟨same ▸ s.one, fun b has => ?_, same ▸ s.whole, ?_, fun up => ?_, fun up => ?_⟩
    · exact absurd ((gone b).symm.trans has) Bool.false_ne_true
    · intro f' member unasked
      obtain ⟨f₁, old₁, rfl⟩ := List.mem_map.mp member
      obtain ⟨f, old, rfl⟩ := List.mem_map.mp old₁
      have marked := s.marked f old unasked
      exact absurd ((unmarked f old).symm.trans marked) Bool.false_ne_true
    · exact absurd up Bool.false_ne_true
    · exact absurd up Bool.false_ne_true

end MacVport

namespace MacSystem

variable {s s' : MacSystem} {i : Nat}

/-- Nothing that a refused message lists is in the list that its handler looks at. -/
def unlisted (s : MacSystem) (p : MacPayload) : Prop :=
  p.whole = true → (s.vidToVport p.vportId).isSome = true →
    p.vportId < s.maxVports ∧ ∀ f ∈ (s.vport p.vportId).filters, p.listed f = 0

/-- Whether the first message in flight is carried out makes no difference in the end. -/
def indifferent (s : MacSystem) : Prop :=
  ∀ i, { s with flight := s.flight.tail }.due i = s.due i

def fine (s : MacSystem) : MacOp → Prop
  | .add i a _ env => (s.vport i).addFine a env
  | .del i a _ env => (s.vport i).delFine (s.due i) a env
  | .setMac i a env => (s.vport i).setMacFine (s.due i) a env
  | .restore i _ env => (s.vport i).restoreFine env
  | .remove i env => (s.vport i).removeFine env
  | .answer .ok | .answer (.lost true) => True
  | .answer (.lost false) => s.indifferent
  | .answer (.refused p) => s.indifferent ∧ s.unlisted p

def Fresh (s : MacSystem) : Prop :=
  s.flight = [] ∧ ∀ i, (s.vport i).filters = [] ∧ (∀ a, (s.vport i).hw a = false) ∧
    ∀ a, (s.vport i).asked a = false

def Kept (s : MacSystem) : Prop := ∀ i, (s.vport i).Synced (s.due i)

theorem Kept.call (kept : s.Kept) {async : Bool} {r : MacCall} (own : r.Of (s.vport i) i)
    (synced : r.vport.Synced (MacRequest.applyAll r.took (s.due i)))
    (called : s.call i async r = some s') : s'.Kept := by
  have mine : r.took.filter (fun q => q.vport = i) = r.took :=
    List.filter_eq_self.mpr fun q member => decide_eq_true (own.slot q member)
  have theirs {j : Nat} (ne : j ≠ i) : r.took.filter (fun q => q.vport = j) = [] :=
    List.filter_eq_nil_iff.mpr fun q member same =>
      ne ((of_decide_eq_true same).symm.trans (own.slot q member))
  intro j
  rw [MacSystem.call] at called
  split at called
  · obtain rfl := Option.some.inj called
    rcases eq_or_ne j i with rfl | ne
    · have due : due { s.setVport j r.vport with flight := s.flight ++ r.took } j =
          MacRequest.applyAll r.took (s.due j) := by
        rw [due, due]
        dsimp only [setVport]
        rw [Function.update_self, List.filter_append, mine, own.hw]
        exact List.foldl_append
      rw [due]
      dsimp only [setVport]
      rw [Function.update_self]
      exact synced
    · have due : due { s.setVport i r.vport with flight := s.flight ++ r.took } j = s.due j := by
        rw [due, due]
        dsimp only [setVport]
        rw [Function.update_of_ne ne, List.filter_append, theirs ne, List.append_nil]
      rw [due]
      dsimp only [setVport]
      rw [Function.update_of_ne ne]
      exact kept j
  · split at called
    · next idle =>
      obtain rfl := Option.some.inj called
      have rest (k : Nat) : s.due k = (s.vport k).hw := by
        rw [due, idle]
        rfl
      have after (k : Nat) : due (s.setVport i { r.vport with
          hw := MacRequest.applyAll r.took r.vport.hw }) k =
          (Function.update s.vport i { r.vport with
            hw := MacRequest.applyAll r.took r.vport.hw } k).hw := by
        rw [due]
        dsimp only [setVport]
        rw [idle]
        rfl
      rw [after]
      dsimp only [setVport]
      rcases eq_or_ne j i with rfl | ne
      · rw [Function.update_self]
        rw [rest, ← own.hw] at synced
        exact synced.congr rfl rfl rfl
      · rw [Function.update_of_ne ne]
        exact rest j ▸ kept j
    · exact absurd called.symm (Option.some_ne_none _)

theorem asyncHandler_unlisted {p : MacPayload} (idle : s.unlisted p) :
    ∃ n, s.asyncHandler p = some (s, n) := by
  rw [asyncHandler]
  split
  · exact ⟨_, rfl⟩
  · next whole =>
    cases found : s.vidToVport p.vportId with
    | none => exact ⟨_, rfl⟩
    | some j =>
        obtain ⟨inside, none⟩ := idle (by simpa using whole) (found ▸ rfl)
        have once :
            ¬ ((s.vport p.vportId).filters.any fun f => decide (1 < p.listed f)) = true := by
          simp only [List.any_eq_true, decide_eq_true_eq, not_exists, not_and]
          intro f member
          rw [none f member]
          omega
        have kept : (s.vport p.vportId).filters.filter (fun f => p.listed f = 0) =
            (s.vport p.vportId).filters :=
          List.filter_eq_self.mpr fun f member => decide_eq_true (none f member)
        have off : (s.vport p.vportId).filters.filter (fun f => p.listed f ≠ 0) = [] :=
          List.filter_eq_nil_iff.mpr fun f member bad => of_decide_eq_true bad (none f member)
        refine ⟨0, ?_⟩
        dsimp only
        rw [if_neg (Nat.not_le.mpr inside), if_neg once, kept, off, List.append_nil, setVport,
          Function.update_eq_self]

theorem due_takes (s : MacSystem) (r : MacRequest) (flight : List MacRequest) (i : Nat)
    (first : s.flight = r :: flight) : (takes { s with flight } r).due i = s.due i := by
  rw [due, due, first]
  dsimp only [takes, setVport]
  rcases eq_or_ne i r.vport with rfl | ne
  · rw [Function.update_self, List.filter_cons_of_pos (by simp)]
    rfl
  · rw [Function.update_of_ne ne, List.filter_cons_of_neg (by simpa using ne.symm)]

theorem Kept.takes (kept : s.Kept) {r : MacRequest} {flight : List MacRequest}
    (first : s.flight = r :: flight) : (MacSystem.takes { s with flight } r).Kept := by
  intro i
  rw [due_takes s r flight i first]
  refine (kept i).congr ?_ ?_ ?_ <;>
  · dsimp only [MacSystem.takes, setVport]
    rw [Function.update_apply]
    split
    · next same => rw [same]
    · rfl

theorem Kept.drops (kept : s.Kept) {r : MacRequest} {flight : List MacRequest}
    (first : s.flight = r :: flight) (same : s.indifferent) : { s with flight }.Kept := by
  intro i
  have due := same i
  rw [first] at due
  exact due ▸ kept i

theorem Kept.step {op : MacOp} (kept : s.Kept) (fine : s.fine op) (moved : s.step op = some s') :
    s'.Kept := by
  cases op with
  | add i a async env => exact kept.call MacVport.addMacFilter_of ((kept i).added fine) moved
  | del i a async env => exact kept.call MacVport.delMacFilter_of ((kept i).deleted fine) moved
  | setMac i a env => exact kept.call MacVport.setMac_of ((kept i).macSet fine) moved
  | restore i opens env =>
      rw [MacSystem.step] at moved
      split at moved
      · exact absurd moved.symm (Option.some_ne_none _)
      · next down =>
        exact kept.call MacVport.restore_of
          ((kept i).restored (Bool.eq_false_iff.mpr down) fine) moved
  | remove i env =>
      rw [MacSystem.step] at moved
      split at moved
      · exact kept.call MacVport.remove_of ((kept i).removed fine) moved
      · exact absurd moved.symm (Option.some_ne_none _)
  | answer ans =>
      rw [MacSystem.step] at moved
      split at moved
      · exact absurd moved.symm (Option.some_ne_none _)
      · next r flight first =>
        cases ans with
        | ok => exact Option.some.inj moved ▸ kept.takes first
        | lost applied =>
            cases applied with
            | true => exact Option.some.inj moved ▸ kept.takes first
            | false => exact Option.some.inj moved ▸ kept.drops first fine
        | refused p =>
            obtain ⟨n, same⟩ := asyncHandler_unlisted (s := { s with flight }) (p := p) fine.2
            dsimp only at moved
            rw [same] at moved
            exact Option.some.inj moved ▸ kept.drops first fine.1

theorem kept_of_reachable (h : Reachable step fine Fresh s) : s.Kept := by
  refine h.invariant (I := Kept) (fun s fresh i => ?_) fun _ _ _ kept fine moved =>
    kept.step fine moved
  obtain ⟨idle, empty, none, unasked⟩ := And.intro fresh.1 (fresh.2 i)
  have due : s.due i = (s.vport i).hw := by
    rw [MacSystem.due, idle]
    rfl
  refine ⟨?_, fun a has => ?_, fun a asked => ?_, ?_, fun _ => ?_, fun _ => ?_⟩
  · simp [empty]
  · rw [due, none a] at has
    exact absurd has Bool.false_ne_true
  · rw [unasked a] at asked
    exact absurd asked Bool.false_ne_true
  all_goals simp [empty]

end MacSystem

/-- Two calls that add what is marked and delete what is marked leave the device with what has been
asked for. -/
theorem MacVport.Synced.converges {v : MacVport} {due : Mac → Bool} (s : v.Synced due)
    (up : v.up = true) {adds dels : MacCall} (added : v.Sent true adds)
    (deleted : adds.vport.Sent false dels) :
    MacRequest.applyAll dels.took (MacRequest.applyAll adds.took due) = v.asked := by
  funext a
  have marked : a ∈ adds.vport.marked false ↔ ∃ f ∈ v.filters, f.remove = true ∧ f.macaddr = a := by
    rw [mem_marked, added.vport]
    simp only [List.mem_map, exists_exists_and_eq_and]
    refine exists_congr fun f => and_congr_right fun _ => ?_
    rw [(cleared_true f).1]
    exact and_congr_left fun _ => by rw [← (cleared_true f).2]; rfl
  rw [deleted.took, added.took]
  cases asked : v.asked a with
  | true =>
      obtain ⟨f, member, rfl⟩ := List.mem_map.mp (s.whole a asked)
      have off : f.macaddr ∉ adds.vport.marked false := by
        rw [marked]
        rintro ⟨f', member', on, same⟩
        obtain rfl := s.eq_of_macaddr member' member same
        exact absurd ((s.spared up f' member' asked).symm.trans on) Bool.false_ne_true
      rw [if_neg off]
      split
      · rfl
      · next absent =>
        refine (s.present up f member).resolve_right fun on => absent ?_
        exact mem_marked.mpr ⟨f, member, on, rfl⟩
  | false =>
      split
      · rfl
      · next off =>
        have missing : a ∉ v.filters.map MacFilter.macaddr := by
          intro there
          obtain ⟨f, member, rfl⟩ := List.mem_map.mp there
          exact off (marked.mpr ⟨f, member, s.marked f member asked, rfl⟩)
        rw [if_neg fun new => missing ?_]
        · exact Bool.eq_false_iff.mpr fun has => missing (s.kept a has)
        · obtain ⟨f, member, -, rfl⟩ := mem_marked.mp new
          exact List.mem_map_of_mem member

/-- What the handler has to do about a refused message for the vport in slot `i`: it takes the
listed filters of this vport off, leaves the others alone, and frees what it takes off. -/
def MacSystem.Handles (s : MacSystem) (p : MacPayload) (i : Nat) : Prop :=
  ∃ s', s.asyncHandler p = some (s', 0) ∧
    (s'.vport i).filters = (s.vport i).filters.filter (fun f => p.listed f = 0) ∧
    (∀ j, j ≠ i → s'.vport j = s.vport j) ∧ s'.unfreed = s.unfreed

theorem MacSystem.handles_iff {s : MacSystem} {p : MacPayload} {i : Nat} (whole : p.whole = true)
    (found : s.vidToVport p.vportId = some i) :
    s.Handles p i ↔ p.vportId < s.maxVports ∧
      (∀ f ∈ (s.vport p.vportId).filters, p.listed f = 0) ∧
      ∀ f ∈ (s.vport i).filters, p.listed f = 0 := by
  have result : s.asyncHandler p =
      if s.maxVports ≤ p.vportId then none
      else if (s.vport p.vportId).filters.any (fun f => 1 < p.listed f) then none
      else some ({ s.setVport p.vportId { s.vport p.vportId with
            filters := (s.vport p.vportId).filters.filter fun f => p.listed f = 0 } with
          unfreed := s.unfreed ++
            (s.vport p.vportId).filters.filter fun f => p.listed f ≠ 0 }, 0) := by
    rw [asyncHandler, if_neg (by simp [whole]), found]
  constructor
  · rintro ⟨s', ran, mine, others, freed⟩
    rw [result] at ran
    split at ran
    · exact absurd ran.symm (Option.some_ne_none _)
    · next inside =>
      split at ran
      · exact absurd ran.symm (Option.some_ne_none _)
      · obtain ⟨rfl, -⟩ := Prod.mk.inj (Option.some.inj ran)
        have none : ∀ f ∈ (s.vport p.vportId).filters, p.listed f = 0 := by
          intro f member
          have empty := List.append_right_eq_self.mp freed
          by_contra bad
          exact List.filter_eq_nil_iff.mp empty f member (decide_eq_true bad)
        refine ⟨Nat.not_le.mp inside, none, ?_⟩
        rcases eq_or_ne i p.vportId with rfl | ne
        · exact none
        · dsimp only [setVport] at mine
          rw [Function.update_of_ne ne] at mine
          intro f member
          exact of_decide_eq_true (List.filter_eq_self.mp mine.symm f member)
  · rintro ⟨inside, none, mine⟩
    have idle : s.unlisted p := fun _ _ => ⟨inside, none⟩
    obtain ⟨n, ran⟩ := asyncHandler_unlisted idle
    have zero : n = 0 := by
      rw [result, if_neg (Nat.not_le.mpr inside)] at ran
      split at ran
      · exact absurd ran.symm (Option.some_ne_none _)
      · exact (Prod.mk.inj (Option.some.inj ran)).2.symm
    refine ⟨s, zero ▸ ran, ?_, fun _ _ => rfl, rfl⟩
    exact (List.filter_eq_self.mpr fun f member => decide_eq_true (mine f member)).symm

/-- In a run that loses no update every vport is synchronised, and while it is up its marks lead to
what it has been asked for; and the handler does what it has to exactly when nothing is listed. -/
theorem mac_filters_kept (s : MacSystem) :
    (Reachable MacSystem.step MacSystem.fine MacSystem.Fresh s → ∀ i,
      (s.vport i).Synced (s.due i) ∧
        ((s.vport i).up = true → ∀ (async : Bool) (env env' : MacEnv),
          let adds := (s.vport i).addDel i true async env
          let dels := adds.vport.addDel i false async env'
          AllSent ((s.vport i).marks true) env.chunk →
          AllSent (adds.vport.marks false) env'.chunk →
            MacRequest.applyAll dels.took (MacRequest.applyAll adds.took (s.due i)) =
              (s.vport i).asked)) ∧
    ∀ (p : MacPayload) (i : Nat), p.whole = true →
      s.vidToVport p.vportId = some i →
        (s.Handles p i ↔ p.vportId < s.maxVports ∧
          (∀ f ∈ (s.vport p.vportId).filters, p.listed f = 0) ∧
          ∀ f ∈ (s.vport i).filters, p.listed f = 0) := by
  refine ⟨fun met i => ?_, fun p i whole found => MacSystem.handles_iff whole found⟩
  have synced := MacSystem.kept_of_reachable met i
  refine ⟨synced, fun up async env env' sent sent' => ?_⟩
  exact synced.converges up (MacVport.addDel_sent (.inr sent)) (MacVport.addDel_sent (.inr sent'))

/-- A vport that is up, with the address 1 and no filters yet. -/
def macStart : MacSystem where
  maxVports := 1
  vport _ := ⟨0, [], 1, 1, true, fun _ => false, fun _ => false⟩
  flight := []
  unfreed := []

def macGood : MacEnv := ⟨true, goodEnv, fun _ => false⟩

def macBad : MacEnv := ⟨true, { goodEnv with reply := fun _ => -5 }, fun _ => false⟩

theorem macStart_fresh : macStart.Fresh := ⟨rfl, fun _ => ⟨rfl, fun _ => rfl, fun _ => rfl⟩⟩

def macFull : MacEnv := ⟨true, { goodEnv with listAlloc := false }, fun _ => false⟩

theorem macGood_sent (n : Nat) : AllSent n macGood.chunk :=
  ⟨rfl, fun _ _ => ⟨Int.le_refl 0, fun _ => rfl⟩⟩

namespace MacSystem
variable {s : MacSystem}

theorem fine_add (i : Nat) (a : Mac) (async : Bool) (env : MacEnv) (sends : ∀ n, env.sends n) :
    s.fine (.add i a async env) := fun _ _ _ => sends _

theorem fine_answer : s.fine (.answer .ok) := True.intro

theorem fine_del (i : Nat) (a : Mac) (async : Bool) (up : (s.vport i).up = true)
    (only : ∀ f ∈ (s.vport i).filters, f.macaddr ≠ a → f.remove = false) :
    s.fine (.del i a async macGood) := by
  intro _
  rw [if_pos up]
  exact .inr ⟨macGood_sent 1, only⟩

end MacSystem

/-- The first address finds no memory and goes with the second one in a message that is answered;
then the second one is deleted. A reply that lists nothing is handled. -/
theorem mac_filters_kept_run :
    ∃ s, exec MacSystem.step macStart [.add 0 2 false macFull, .add 0 3 true macGood,
        .answer .ok, .del 0 3 false macGood] = some s ∧
      (s.vport 0).filters = [⟨2, false, false⟩] ∧ (s.vport 0).hw 2 = true ∧
      (s.vport 0).Synced (s.due 0) ∧
      (let adds := (s.vport 0).addDel 0 true false macGood
       MacRequest.applyAll (adds.vport.addDel 0 false false macGood).took
        (MacRequest.applyAll adds.took (s.due 0)) = (s.vport 0).asked) ∧
      s.Handles ⟨8, 0, 0, fun _ => 0⟩ 0 := by
  have start : Reachable MacSystem.step MacSystem.fine MacSystem.Fresh macStart :=
    .start macStart_fresh
  have added := start.next (MacSystem.fine_add 0 2 false macFull fun _ => .inr (.inl rfl)) rfl
  have sent :=
    added.next (MacSystem.fine_add 0 3 true macGood fun n => .inr (.inr (macGood_sent n))) rfl
  have answered := sent.next MacSystem.fine_answer rfl
  have deleted := answered.next (MacSystem.fine_del 0 3 false rfl (by decide +kernel)) rfl
  obtain ⟨synced, converges⟩ := (mac_filters_kept _).1 deleted 0
  refine ⟨_, rfl, by decide +kernel, by decide +kernel, synced,
    converges rfl false macGood macGood (macGood_sent _) (macGood_sent _), ?_⟩
  exact ((mac_filters_kept _).2 ⟨8, 0, 0, fun _ => 0⟩ 0 rfl rfl).mpr (by decide +kernel)

/-- A change of address leaves the old one with the device and not in the list, and a message that
is refused leaves a filter unmarked that the device has not got. -/
theorem mac_update_lost :
    (∃ s, exec MacSystem.step macStart [.add 0 1 false macGood, .setMac 0 2 macGood] = some s ∧
      (s.vport 0).hw 1 = true ∧ 1 ∉ (s.vport 0).filters.map MacFilter.macaddr) ∧
    ∃ s, exec MacSystem.step macStart [.add 0 1 false macBad] = some s ∧
      (s.vport 0).filters = [⟨1, false, false⟩] ∧ (s.vport 0).hw 1 = false := by
  refine ⟨⟨_, rfl, ?_, ?_⟩, ⟨_, rfl, ?_, ?_⟩⟩ <;> decide +kernel

end Idpf
