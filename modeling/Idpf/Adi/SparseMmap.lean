import Idpf.Adi.Ownership
import Idpf.General.Stretches

/-! The pages of BAR0 that an ADI lets a guest map: those it reports, and those it accepts. -/
namespace Idpf
open General

namespace AdiPriv

/-- `idpf_adi_get_sparse_mmap_num`. -/
def getSparseMmapNum (p : AdiPriv) : Nat :=
  p.qinfo.num .tx + p.qinfo.num .rx + p.qinfo.num .buf + p.numVectors + 1

/-- The counts and addresses of `pattern`: mailbox, Rx queues, Rx buffer queues, Tx queues, the
mailbox vector and the other vectors. -/
def sparseKinds (p : AdiPriv) : List (Nat × Nat) :=
  [(1, 0x20000), (p.qinfo.num .rx, 0x100000), (p.qinfo.num .buf, 0x900000),
    (p.qinfo.num .tx, 0x1100000), (if 1 ≤ p.numVectors then 1 else 0, 0x2100000),
    (if 1 < p.numVectors then p.numVectors - 1 else 0, 0x2101000)]

/-- `idpf_adi_get_sparse_mmap_area`: the offset and the size. -/
def getSparseMmapArea (p : AdiPriv) (index : Nat) : Option (Nat × Nat) :=
  let nrAreas := p.getSparseMmapNum
  if nrAreas ≤ 0 ∨ nrAreas - 1 < index then none
  else
    ((layOut 0 p.sparseKinds).find? (Stretch.has index)).map fun pattern =>
      (pattern.base + 4096 * (index - pattern.start), 4096)

def sparseResources (p : AdiPriv) : List AdiResource :=
  [.mbx p.mbxId] ++ (List.range (p.qinfo.num .rx)).map (fun i => .rxq (p.qid .rx i)) ++
    (List.range (p.qinfo.num .buf)).map (fun i => .bufq (p.qid .buf i)) ++
    (List.range (p.qinfo.num .tx)).map (fun i => .txq (p.qid .tx i)) ++
    (if p.numVectors = 0 then [] else [.vec p.mbxVecId]) ++
    (List.range (p.numVectors - 1)).map fun i => .vec (p.dataQVecIds i)

/-- What is reported is what can be mapped: there is an area for each resource and no other, the
areas are different pages of BAR0, and the pages that are accepted are these, each with the
registers of its resource. -/
structure SparseAgrees (p : AdiPriv) : Prop where
  num : p.getSparseMmapNum = p.sparseResources.length
  area : ∀ index, (p.getSparseMmapArea index).isSome ↔ index < p.getSparseMmapNum
  inside : ∀ index offset size, p.getSparseMmapArea index = some (offset, size) →
    size = 4096 ∧ offset % 4096 = 0 ∧ offset + size ≤ 0x4000000
  disjoint : ∀ index index' offset offset' size size', index ≠ index' →
    p.getSparseMmapArea index = some (offset, size) →
    p.getSparseMmapArea index' = some (offset', size') →
    offset + size ≤ offset' ∨ offset' + size' ≤ offset
  maps : ∀ index offset size, p.getSparseMmapArea index = some (offset, size) →
    ∃ r t, p.sparseResources[index]? = some r ∧
      p.sparseMmapHpa 0 (.ofNat 64 (offset / 4096)) (.ofNat 64 size) = some t ∧
      t.place = .page r.page
  accepted : ∀ bar pgoff size t, p.sparseMmapHpa bar pgoff size = some t → bar = 0 ∧
    ∃ index, p.getSparseMmapArea index = some (4096 * pgoff.toNat, size.toNat)

/-- What the code keeps of an ADI's counts. -/
structure Bounded (p : AdiPriv) : Prop where
  sized : p.qinfo.consistent
  vectors : p.numVectors ≤ 65

def sparseParts (p : AdiPriv) : List (Nat × Nat × (Nat → AdiResource)) :=
  [(1, 0x20000, fun _ => .mbx p.mbxId), (p.qinfo.num .rx, 0x100000, fun i => .rxq (p.qid .rx i)),
    (p.qinfo.num .buf, 0x900000, fun i => .bufq (p.qid .buf i)),
    (p.qinfo.num .tx, 0x1100000, fun i => .txq (p.qid .tx i)),
    (if 1 ≤ p.numVectors then 1 else 0, 0x2100000, fun _ => .vec p.mbxVecId),
    (if 1 < p.numVectors then p.numVectors - 1 else 0, 0x2101000,
      fun i => .vec (p.dataQVecIds i))]

def sparseAreas (p : AdiPriv) : List (Nat × AdiResource) :=
  layOutAll (fun part i => (part.1 + 4096 * i, part.2 i)) p.sparseParts

variable {p : AdiPriv}

theorem sparseAreas_length (p : AdiPriv) : p.sparseAreas.length = p.getSparseMmapNum := by
  rw [sparseAreas, layOutAll_length, getSparseMmapNum]
  simp only [sparseParts, List.map_cons, List.map_nil, List.sum_cons, List.sum_nil]
  split <;> split <;> omega

theorem sparseAreas_fst (p : AdiPriv) :
    p.sparseAreas.map Prod.fst = layOutAll (fun base i => base + 4096 * i) p.sparseKinds := by
  have kinds : p.sparseKinds = p.sparseParts.map fun part => (part.1, part.2.1) := rfl
  rw [kinds, layOutAll_map, sparseAreas, map_layOutAll]

theorem sparseAreas_snd (p : AdiPriv) : p.sparseAreas.map Prod.snd = p.sparseResources := by
  rw [sparseAreas, map_layOutAll, sparseResources, sparseParts, layOutAll]
  simp only [List.flatMap_cons, List.flatMap_nil, List.append_nil, List.append_assoc]
  rcases p.numVectors with _ | n
  · rfl
  · have one : 1 ≤ n + 1 := by omega
    have rest : (if 1 < n + 1 then n + 1 - 1 else 0) = n := by split <;> omega
    rw [if_pos one, rest, if_neg (Nat.succ_ne_zero n)]
    rfl

theorem getSparseMmapArea_eq (p : AdiPriv) (index : Nat) :
    p.getSparseMmapArea index = p.sparseAreas[index]?.map fun area => (area.1, 4096) := by
  have found := find?_layOut (fun base i => base + 4096 * i) p.sparseKinds (Nat.zero_le index)
  rw [← sparseAreas_fst, Nat.sub_zero, List.getElem?_map] at found
  have pairs := congrArg (Option.map fun offset => (offset, 4096)) found
  rw [Option.map_map, Option.map_map] at pairs
  unfold getSparseMmapArea
  dsimp only
  split
  next outside =>
    have none : p.sparseAreas.length ≤ index := by
      rw [sparseAreas_length]
      unfold getSparseMmapNum at outside ⊢
      omega
    rw [List.getElem?_eq_none none]
    rfl
  next inside => exact pairs

theorem area_some_iff {index offset size : Nat} :
    p.getSparseMmapArea index = some (offset, size) ↔
      size = 4096 ∧ ∃ r, p.sparseAreas[index]? = some (offset, r) := by
  rw [getSparseMmapArea_eq, Option.map_eq_some_iff]
  constructor
  · rintro ⟨⟨_, r⟩, at_index, eq⟩
    obtain ⟨rfl, rfl⟩ := Prod.mk.inj eq
    exact ⟨rfl, r, at_index⟩
  · rintro ⟨rfl, r, at_index⟩
    exact ⟨_, at_index, rfl⟩

/-- The areas by the resource. -/
theorem mem_sparseAreas {area : Nat × AdiResource} : area ∈ p.sparseAreas ↔
    area = (0x20000, .mbx p.mbxId) ∨
    (∃ i < p.qinfo.num .rx, area = (0x100000 + 4096 * i, .rxq (p.qid .rx i))) ∨
    (∃ i < p.qinfo.num .buf, area = (0x900000 + 4096 * i, .bufq (p.qid .buf i))) ∨
    (∃ i < p.qinfo.num .tx, area = (0x1100000 + 4096 * i, .txq (p.qid .tx i))) ∨
    (p.numVectors ≠ 0 ∧ area = (0x2100000, .vec p.mbxVecId)) ∨
    ∃ i, i + 1 < p.numVectors ∧ area = (0x2101000 + 4096 * i, .vec (p.dataQVecIds i)) := by
  have one : (if 1 ≤ p.numVectors then 1 else 0) = min 1 p.numVectors := by split <;> omega
  have rest : (if 1 < p.numVectors then p.numVectors - 1 else 0) = p.numVectors - 1 := by
    split <;> omega
  rw [sparseAreas, mem_layOutAll, sparseParts, one, rest]
  simp only [List.mem_cons, List.not_mem_nil, or_false, exists_eq_or_imp, exists_eq_left,
    Nat.lt_one_iff, Nat.mul_zero, Nat.add_zero, Nat.lt_min, and_assoc, Nat.lt_sub_iff_add_lt,
    @eq_comm _ _ area, Nat.pos_iff_ne_zero]

theorem Bounded.counts (bounded : p.Bounded) :
    p.qinfo.num .rx ≤ 64 ∧ p.qinfo.num .buf ≤ 128 ∧ p.qinfo.num .tx ≤ 64 :=
  ⟨(bounded.sized .rx).2, (bounded.sized .buf).2, (bounded.sized .tx).2⟩

theorem Bounded.sorted (bounded : p.Bounded) : (p.sparseAreas.map Prod.fst).Pairwise (· < ·) := by
  obtain ⟨rx, buf, tx⟩ := bounded.counts
  have vectors := bounded.vectors
  rw [sparseAreas_fst]
  apply pairwise_layOutAll
  · intro _ _ i j less _
    omega
  · simp only [sparseKinds, List.pairwise_cons, List.mem_cons, List.not_mem_nil, or_false,
      forall_eq_or_imp, forall_eq, List.Pairwise.nil, and_true, false_implies, implies_true]
    -- Each kind ends before the next one's base.
    have one : (if 1 ≤ p.numVectors then 1 else 0) ≤ 1 := by split <;> omega
    refine ⟨⟨?_, ?_, ?_, ?_, ?_⟩, ⟨?_, ?_, ?_, ?_⟩, ⟨?_, ?_, ?_⟩, ⟨?_, ?_⟩, ?_⟩
    all_goals
      intro i low j high
      omega

theorem Bounded.area_inside (bounded : p.Bounded) {area : Nat × AdiResource}
    (mem : area ∈ p.sparseAreas) : area.1 % 4096 = 0 ∧ area.1 + 4096 ≤ 0x4000000 := by
  obtain ⟨rx, buf, tx⟩ := bounded.counts
  have vectors := bounded.vectors
  rcases mem_sparseAreas.mp mem with
    rfl | ⟨i, inside, rfl⟩ | ⟨i, inside, rfl⟩ | ⟨i, inside, rfl⟩ | ⟨_, rfl⟩ | ⟨i, inside, rfl⟩
  all_goals
    dsimp only
    omega

theorem sparseMmapHpa_mem {bar : BitVec 32} {pgoff size : BitVec 64} {t : AdiTouch}
    (accepted : p.sparseMmapHpa bar pgoff size = some t) :
    bar = 0 ∧ size = 4096 ∧ ∃ r, (4096 * pgoff.toNat, r) ∈ p.sparseAreas := by
  obtain ⟨bar0, page, cases⟩ := sparseMmapHpa_cases accepted
  refine ⟨bar0, page, ?_⟩
  rcases cases with ⟨at_mbx, -⟩ | ⟨i, inside, at_rx, -⟩ | ⟨i, inside, at_buf, -⟩ |
    ⟨i, inside, at_tx, -⟩ | ⟨some_vec, at_ctl, -⟩ | ⟨i, inside, at_vec, -⟩
  · rw [at_mbx]
    exact ⟨_, mem_sparseAreas.mpr (.inl rfl)⟩
  · rw [at_rx, Nat.mul_add]
    exact ⟨_, mem_sparseAreas.mpr (.inr (.inl ⟨i, inside, rfl⟩))⟩
  · rw [at_buf, Nat.mul_add]
    exact ⟨_, mem_sparseAreas.mpr (.inr (.inr (.inl ⟨i, inside, rfl⟩)))⟩
  · rw [at_tx, Nat.mul_add]
    exact ⟨_, mem_sparseAreas.mpr (.inr (.inr (.inr (.inl ⟨i, inside, rfl⟩))))⟩
  · rw [at_ctl]
    exact ⟨_, mem_sparseAreas.mpr (.inr (.inr (.inr (.inr (.inl ⟨some_vec, rfl⟩)))))⟩
  · rw [at_vec, Nat.mul_add]
    exact ⟨_, mem_sparseAreas.mpr (.inr (.inr (.inr (.inr (.inr ⟨i, inside, rfl⟩)))))⟩

theorem Bounded.sparseMmapHpa_of_mem (bounded : p.Bounded) {offset : Nat} {r : AdiResource}
    (mem : (offset, r) ∈ p.sparseAreas) :
    ∃ t, p.sparseMmapHpa 0 (.ofNat 64 (offset / 4096)) 4096 = some t ∧ t.place = .page r.page := by
  obtain ⟨rx, buf, tx⟩ := bounded.counts
  have vectors := bounded.vectors
  have pfn : (BitVec.ofNat 64 (offset / 4096)).toNat = offset / 4096 := by
    have inside : offset + 4096 ≤ 0x4000000 := (bounded.area_inside mem).2
    rw [BitVec.toNat_ofNat, Nat.mod_eq_of_lt (by omega)]
  have tail : ∀ (start i : Nat), (4096 * start + 4096 * i) / 4096 = start + i := by omega
  unfold sparseMmapHpa
  dsimp only
  rw [pfn, if_neg (not_not.mpr rfl), if_neg (not_not.mpr rfl)]
  have cases := mem_sparseAreas.mp mem
  simp only [Prod.mk.injEq] at cases
  rcases cases with ⟨rfl, rfl⟩ | ⟨i, inside, rfl, rfl⟩ | ⟨i, inside, rfl, rfl⟩ |
    ⟨i, inside, rfl, rfl⟩ | ⟨some_vec, rfl, rfl⟩ | ⟨i, inside, rfl, rfl⟩
  · exact ⟨_, rfl, rfl⟩
  · rw [tail 0x100 i, if_neg (by omega), if_pos (by omega), Nat.add_sub_cancel_left,
      if_neg (by omega)]
    exact ⟨_, rfl, rfl⟩
  · rw [tail 0x900 i, if_neg (by omega), if_neg (by omega), if_pos (by omega),
      Nat.add_sub_cancel_left, if_neg (by omega)]
    exact ⟨_, rfl, rfl⟩
  · rw [tail 0x1100 i, if_neg (by omega), if_neg (by omega), if_neg (by omega), if_pos (by omega),
      Nat.add_sub_cancel_left, if_neg (by omega)]
    exact ⟨_, rfl, rfl⟩
  · rw [if_neg (by decide), if_neg (by decide), if_neg (by decide), if_neg (by decide),
      if_pos (by decide), if_neg some_vec]
    exact ⟨_, rfl, rfl⟩
  · rw [tail 0x2101 i, if_neg (by omega), if_neg (by omega), if_neg (by omega), if_neg (by omega),
      if_neg (by omega), if_pos (by omega), Nat.add_sub_cancel_left, if_neg (by omega)]
    exact ⟨_, rfl, rfl⟩

theorem Bounded.apart (bounded : p.Bounded) {index index' offset offset' : Nat}
    {r r' : AdiResource} (less : index < index') (here : p.sparseAreas[index]? = some (offset, r))
    (there : p.sparseAreas[index']? = some (offset', r')) : offset + 4096 ≤ offset' := by
  obtain ⟨low, at_low⟩ := List.getElem?_eq_some_iff.mp here
  obtain ⟨high, at_high⟩ := List.getElem?_eq_some_iff.mp there
  have sorted := List.pairwise_iff_getElem.mp (List.pairwise_map.mp bounded.sorted) index index' low
    high less
  rw [at_low, at_high] at sorted
  have aligned := (bounded.area_inside (List.mem_of_getElem? here)).1
  have aligned' := (bounded.area_inside (List.mem_of_getElem? there)).1
  dsimp only at sorted aligned aligned'
  omega

theorem Bounded.agrees (bounded : p.Bounded) : p.SparseAgrees where
  num := by rw [← sparseAreas_snd, List.length_map, sparseAreas_length]
  area := by
    intro index
    rw [getSparseMmapArea_eq, Option.isSome_map, ← sparseAreas_length]
    exact .of_eq (isSome_getElem? p.sparseAreas index)
  inside := by
    intro index offset size found
    obtain ⟨rfl, r, at_index⟩ := area_some_iff.mp found
    exact ⟨rfl, bounded.area_inside (List.mem_of_getElem? at_index)⟩
  disjoint := by
    intro index index' offset offset' size size' different found found'
    obtain ⟨rfl, r, here⟩ := area_some_iff.mp found
    obtain ⟨rfl, r', there⟩ := area_some_iff.mp found'
    rcases Nat.lt_or_gt_of_ne different with less | greater
    · exact .inl (bounded.apart less here there)
    · exact .inr (bounded.apart greater there here)
  maps := by
    intro index offset size found
    obtain ⟨rfl, r, at_index⟩ := area_some_iff.mp found
    obtain ⟨t, accepted, place⟩ := bounded.sparseMmapHpa_of_mem (List.mem_of_getElem? at_index)
    refine ⟨r, t, ?_, accepted, place⟩
    rw [← sparseAreas_snd, List.getElem?_map, at_index]
    rfl
  accepted := by
    intro bar pgoff size t accepted
    obtain ⟨bar0, rfl, r, mem⟩ := sparseMmapHpa_mem accepted
    obtain ⟨index, at_index⟩ := List.mem_iff_getElem?.mp mem
    exact ⟨bar0, index, area_some_iff.mpr ⟨rfl, r, at_index⟩⟩

theorem Bounded.emptied (bounded : p.Bounded) : Bounded { p with vecIndexes := none } :=
  ⟨bounded.sized, bounded.vectors⟩

theorem Bounded.takeVectors {p' : AdiPriv} {entry : Nat → BitVec 16} {vecs : List Nat}
    (bounded : p.Bounded) (took : p.takeVectors entry vecs = some p') : p'.Bounded := by
  simp only [AdiPriv.takeVectors, Option.ite_none_right_eq_some, Option.some.injEq] at took
  obtain ⟨-, rfl⟩ := took
  exact ⟨bounded.sized, bounded.vectors⟩

theorem Bounded.prepVecChunks {p' : AdiPriv} {entry : Nat → BitVec 16} {vecs : List Nat}
    (bounded : p.Bounded) (prepared : p.prepVecChunks entry vecs = some p') : p'.Bounded := by
  simp only [AdiPriv.prepVecChunks, Option.ite_none_left_eq_some, Option.some.injEq] at prepared
  obtain ⟨-, rfl⟩ := prepared
  exact ⟨bounded.sized, bounded.vectors⟩

theorem Bounded.accept (bounded : p.Bounded) (r : AdiReply) : (p.accept r).2.Bounded := by
  have sized : (adiQidRegInit r.chunks adiKinds p.qinfo).2.consistent :=
    bounded.sized.adiQidRegInit
  exact ⟨sized, bounded.vectors⟩

end AdiPriv

namespace AdiAdapter
open AdiPriv

/-- The counts of all ADIs are in bounds. -/
def AllBounded (s : AdiAdapter) : Prop := ∀ j p, s.adis j = some p → p.Bounded

variable {s t : AdiAdapter} {j : Nat} {p : AdiPriv}

theorem AllBounded.put (all : s.AllBounded) (bounded : p.Bounded) : (s.put j p).AllBounded := by
  intro k q there
  rcases filled_cases there with ⟨-, rfl⟩ | ⟨-, before⟩
  · exact bounded
  · exact all k q before

theorem AllBounded.deallocVectors (all : s.AllBounded) (bounded : p.Bounded) :
    (s.deallocVectors j p).AllBounded := by
  unfold AdiAdapter.deallocVectors
  cases p.vecIndexes with
  | some vecs =>
    exact AllBounded.put all bounded.emptied
  | none =>
    dsimp only
    split
    · exact all.put bounded
    · exact all

theorem AllBounded.answered (all : s.AllBounded) (bounded : p.Bounded) (r : AdiReply)
    (stores : Bool) : (s.answered j p r stores).2.AllBounded := by
  have accepted : (p.accept r).2.Bounded := bounded.accept r
  unfold AdiAdapter.answered
  dsimp only
  split
  · exact AllBounded.deallocVectors all accepted
  · exact AllBounded.put all ⟨accepted.sized, accepted.vectors⟩

theorem AllBounded.create (all : s.AllBounded) (bounded : p.Bounded) (meets : AdiOpen) :
    (s.create j p meets).2.AllBounded := by
  cases meets with
  | noPasid => exact all
  | noMem => exact all
  | noIndexes => exact all.put bounded.emptied
  | noReply =>
    unfold AdiAdapter.create
    dsimp only
    split
    next => exact AllBounded.put all bounded.emptied
    next taken took =>
      have bounded' : taken.Bounded := bounded.takeVectors took
      cases prepared : taken.prepVecChunks s.entry (s.stack.reqRel false 0 p.numVectors []).1 with
      | some q => exact AllBounded.deallocVectors all (bounded'.prepVecChunks prepared)
      | none => exact AllBounded.deallocVectors all bounded'
  | reply r stores =>
    unfold AdiAdapter.create
    dsimp only
    split
    next => exact AllBounded.put all bounded.emptied
    next taken took =>
      have bounded' : taken.Bounded := bounded.takeVectors took
      cases prepared : taken.prepVecChunks s.entry (s.stack.reqRel false 0 p.numVectors []).1 with
      | some q =>
        have answered := AllBounded.answered (j := j) (s := { s with
          stack := (s.stack.reqRel false 0 p.numVectors []).2 }) all
          (bounded'.prepVecChunks prepared) r stores
        exact answered
      | none => exact AllBounded.deallocVectors all bounded'

theorem AllBounded.step {event : AdiEvent} (all : s.AllBounded) (stepped : s.step event = some t) :
    t.AllBounded := by
  cases event with
  | alloc j heap =>
    simp only [AdiAdapter.step, Option.ite_none_right_eq_some, Option.some.injEq] at stepped
    obtain ⟨-, rfl⟩ := stepped
    have nine : (fresh heap).numVectors ≤ 65 := (by decide : 9 ≤ 65)
    exact all.put ⟨fresh_consistent heap, nine⟩
  | setNumVectors j n =>
    obtain ⟨p, there, rfl⟩ := Option.map_eq_some_iff.mp stepped
    split
    · exact all
    · exact all.put ⟨(all j p there).sized, by dsimp only; omega⟩
  | devOpen j meets =>
    obtain ⟨p, there, rfl⟩ := Option.map_eq_some_iff.mp stepped
    have created := all.create (all j p there) meets (j := j)
    unfold AdiAdapter.devOpen
    split
    · split
      next same => exact (congrArg Prod.snd same ▸ created :)
      next same => exact (congrArg Prod.snd same ▸ created :)
    · exact all
  | devClose j =>
    obtain ⟨p, there, rfl⟩ := Option.map_eq_some_iff.mp stepped
    have bounded := all j p there
    unfold AdiAdapter.devClose
    dsimp only
    split
    · exact AllBounded.deallocVectors all ⟨bounded.sized, bounded.vectors⟩
    · exact all
  | free j =>
    obtain ⟨p, there, rfl⟩ := Option.map_eq_some_iff.mp stepped
    intro k q full
    by_cases here : k = j
    · subst here
      simp only [Function.update_self, reduceCtorEq] at full
    · simp only [Function.update_of_ne here] at full
      exact all k q full
  | notify adiId reset =>
    obtain rfl := Option.some.inj stepped
    unfold notifyAdiReset
    split
    · exact all
    · split
      · exact all
      next p there => exact all.put ⟨(all _ p there).sized, (all _ p there).vectors⟩

/-- In any run, whatever the device and the users do, the areas that an ADI reports are the pages
that it lets be mapped. -/
theorem sparse_mmap_agrees (run : Reachable step anyStep (fun s => ∀ j, s.adis j = none) s)
    (there : s.adis j = some p) : p.SparseAgrees := by
  have all : s.AllBounded := run.invariant (I := AllBounded)
    (fun s empty j p there => nomatch (empty j).symm.trans there)
    fun _ _ _ all _ stepped => all.step stepped
  exact (all j p there).agrees

/-- An ADI with two queues of each kind and nine vectors. -/
theorem sparse_mmap_agrees_nine : ∃ s p,
    Reachable step anyStep (fun s => ∀ j, s.adis j = none) s ∧ s.adis 0 = some p ∧
      p.getSparseMmapArea 4 = some (0x901000, 4096) ∧ p.SparseAgrees := by
  have run : (exec step fourAdis
      [.alloc 0 fun _ => 0, .devOpen 0 (.reply AdiPriv.twoOfEach true)]).map
        (fun s => (s.adis 0).map fun p => p.getSparseMmapArea 4) =
      some (some (some (0x901000, 4096))) := by
    decide +kernel
  obtain ⟨s, run, there⟩ := Option.map_eq_some_iff.mp run
  obtain ⟨p, there, area⟩ := Option.map_eq_some_iff.mp there
  have empty : ∀ j, fourAdis.adis j = none := fun _ => rfl
  have reached : Reachable step anyStep (fun s => ∀ j, s.adis j = none) s :=
    .exec (.start empty) run
  exact ⟨s, p, reached, there, area, sparse_mmap_agrees reached there⟩

end AdiAdapter

end Idpf
