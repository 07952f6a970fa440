import Idpf.Adi.Registers
import Idpf.General.Runs
import Idpf.Tx.Basic

/-! How the vectors of an ADI are described to the control plane. -/
namespace Idpf
open General

/-- The fields of `struct virtchnl2_vector_chunk` that are sent. -/
structure EvvChunk where
  startVectorId : BitVec 16
  startEvvId : Nat
  numVectors : Nat
  deriving DecidableEq, Repr

/-- The vector chunks of a message to create an ADI, as many as its buffer has room for, with a
mark for a write outside of the message or of `data_q_vec_ids`. -/
structure CreateAdi where
  vchunks : List EvvChunk
  numVchunks : Nat
  fault : Bool
  deriving DecidableEq, Repr

namespace CreateAdi

/-- The buffer has `IDPF_CTLQ_MAX_BUF_LEN` bytes, of which the chunks have those from 136 on, 32
each. -/
def zero : CreateAdi := ⟨.replicate ((4096 - 136) / 32) ⟨0, 0, 0⟩, 0, false⟩

/-- `vchunks[k] = c`. -/
def put (k : Nat) (c : EvvChunk) (m : CreateAdi) : CreateAdi :=
  if k < m.vchunks.length then { m with vchunks := m.vchunks.set k c } else { m with fault := true }

end CreateAdi

/-- The `entry` of the vector at a position. -/
def physVec (entry : Nat → BitVec 16) (vecs : List Nat) (i : Nat) : BitVec 16 :=
  entry (vecs.getD i 0)

/-- The test for continuous physical vectors; `entry + 1` is an `int`. -/
def contiguous (phys : Nat → BitVec 16) (i j : Nat) : Bool := (phys i).toNat + 1 == (phys j).toNat

/-- The loop over `evv_index`, with `vchunk_index`. -/
def vecChunkLoop (phys : Nat → BitVec 16) (n evvIndex vchunkIndex : Nat) (m : CreateAdi) :
    CreateAdi :=
  if evvIndex < n then
    let l := evvIndex
    let r := runEnd (contiguous phys) n evvIndex
    vecChunkLoop phys n (r + 1) (vchunkIndex + 1)
      (m.put vchunkIndex ⟨phys l, u16 l, u16 (r - l + 1)⟩)
  else { m with numVchunks := u16 vchunkIndex }
termination_by n - evvIndex
decreasing_by
  have : evvIndex ≤ runEnd (contiguous phys) n evvIndex := le_runEnd
  omega

/-- The loop over `data_q_vec_ids`, an array of 64. -/
def vecIdLoop (phys : Nat → BitVec 16) (n : Nat) (ids : Nat → BitVec 32) :
    (Nat → BitVec 32) × Bool :=
  (List.range' 1 (n - 1)).foldl
    (fun s i => (Function.update s.1 (i - 1) ((phys i).setWidth 32), s.2 || 64 ≤ i - 1))
    (ids, false)

namespace AdiPriv

/-- `idpf_adi_set_num_of_vectors`. -/
def setNumOfVectors (p : AdiPriv) (vectorCount : Nat) : Option AdiPriv :=
  if 64 + 1 < vectorCount then none else some { p with numVectors := vectorCount }

/-- `idpf_adi_prep_vec_chunks` with its message. -/
def prepVecMsg (p : AdiPriv) (entry : Nat → BitVec 16) (vecs : List Nat) (m : CreateAdi) :
    Option (AdiPriv × CreateAdi) :=
  let numVecs := p.numVectors
  if numVecs ≤ 1 ∨ 64 ≤ numVecs - 1 then none
  else
    let phys := physVec entry vecs
    let (ids, beyond) := vecIdLoop phys numVecs p.dataQVecIds
    some ({ p with dataQVecIds := ids },
      vecChunkLoop phys numVecs 1 0 { m with fault := m.fault || beyond })

end AdiPriv

/-- The data vectors are the positions from 1 on. The chunks cut them into runs of consecutive
physical vectors that cannot be longer, and name each run; the vectors are also listed one by one,
and nothing else is written. -/
structure VecChunked (phys : Nat → BitVec 16) (n : Nat) (p p' : AdiPriv) (m m' : CreateAdi) :
    Prop where
  memory : m'.fault = false
  runs : ∃ runs : List (List Nat), runs.flatten = List.range' 1 (n - 1) ∧ [] ∉ runs ∧
    (∀ run ∈ runs, run.IsChain fun i j => (phys i).toNat + 1 = (phys j).toNat) ∧
    (runs.IsChain fun a b => ∃ ha hb, (phys (a.getLast ha)).toNat + 1 ≠ (phys (b.head hb)).toNat) ∧
    m'.numVchunks = runs.length ∧
    m'.vchunks = runs.map (fun run => ⟨phys (run.headD 0), run.headD 0, run.length⟩) ++
      m.vchunks.drop runs.length
  ids : p' = { p with dataQVecIds := fun i =>
    if i + 1 < n then (phys (i + 1)).setWidth 32 else p.dataQVecIds i }

variable {phys : Nat → BitVec 16} {n : Nat}

theorem vecIdLoop_eq (n : Nat) (ids : Nat → BitVec 32) : vecIdLoop phys n ids =
    (fun i => if i + 1 < n then (phys (i + 1)).setWidth 32 else ids i, decide (65 < n)) := by
  induction n with
  | zero => rfl
  | succ n ih =>
    rcases Nat.eq_zero_or_pos n with rfl | pos
    · rfl
    · have len : n + 1 - 1 = n - 1 + 1 := by omega
      have here : 1 + (n - 1) = n := by omega
      unfold vecIdLoop at ih ⊢
      rw [len, List.range'_1_concat, List.foldl_append, ih, here]
      refine Prod.ext (funext fun i => ?_) ?_
      · by_cases last : i = n - 1
        · rw [last]
          simp [Nat.sub_add_cancel pos]
        · simp only [List.foldl_cons, List.foldl_nil, Function.update_of_ne last]
          simp only [show i + 1 < n + 1 ↔ i + 1 < n by omega]
      · rw [Bool.eq_iff_iff]
        simp only [List.foldl_cons, List.foldl_nil, Bool.or_eq_true, decide_eq_true_eq]
        omega

def nameRun (phys : Nat → BitVec 16) (run : List Nat) : EvvChunk :=
  ⟨phys (run.headD 0), run.headD 0, run.length⟩

theorem nameRun_range' (l len : Nat) :
    nameRun phys (List.range' l (len + 1)) = ⟨phys l, l, len + 1⟩ := by
  rw [nameRun, List.length_range', List.range'_succ, List.headD_cons]

/-- The runs of the positions from `l` on. -/
def vecRuns (phys : Nat → BitVec 16) (n l : Nat) : List (List Nat) :=
  (List.range' l (n - l)).splitBy (contiguous phys)

theorem vecRuns_nil {l : Nat} (done : n ≤ l) : vecRuns phys n l = [] := by
  rw [vecRuns, Nat.sub_eq_zero_of_le done]
  rfl

theorem vecRuns_cons {l : Nat} (inside : l < n) :
    vecRuns phys n l = List.range' l (runEnd (contiguous phys) n l - l + 1) ::
      vecRuns phys n (runEnd (contiguous phys) n l + 1) :=
  splitBy_range' inside

/-- The loop writes the runs one after the other, from entry `k` on. -/
theorem vecChunkLoop_eq {evvIndex k : Nat} {m : CreateAdi} (small : n < 65536)
    (room : k + (n - evvIndex) ≤ m.vchunks.length) (entries : m.vchunks.length < 65536) :
    vecChunkLoop phys n evvIndex k m =
      ⟨m.vchunks.take k ++ (vecRuns phys n evvIndex).map (nameRun phys) ++
          m.vchunks.drop (k + (vecRuns phys n evvIndex).length),
        k + (vecRuns phys n evvIndex).length, m.fault⟩ := by
  fun_induction vecChunkLoop phys n evvIndex k m with
  | case1 l k m inside _ r ih =>
    have first : l ≤ r := le_runEnd
    have last : r < n := runEnd_lt inside
    have slot : k < m.vchunks.length := by omega
    have put : m.put k ⟨phys l, u16 l, u16 (r - l + 1)⟩ =
        { m with vchunks := m.vchunks.set k ⟨phys l, l, r - l + 1⟩ } := by
      rw [CreateAdi.put, if_pos slot, u16, u16, Nat.mod_eq_of_lt (by omega),
        Nat.mod_eq_of_lt (by omega)]
    have taken : (m.vchunks.set k ⟨phys l, l, r - l + 1⟩).take (k + 1) =
        m.vchunks.take k ++ [⟨phys l, l, r - l + 1⟩] := by
      rw [List.take_add_one, List.take_set_of_le (Nat.le_refl k), List.getElem?_set_self slot]
      rfl
    rw [put] at ih ⊢
    dsimp only at ih
    rw [List.length_set] at ih
    have named : nameRun phys (List.range' l (r - l + 1)) = ⟨phys l, l, r - l + 1⟩ :=
      nameRun_range' l (r - l)
    rw [ih (by omega) entries, vecRuns_cons inside, List.map_cons, named, taken,
      List.drop_set_of_lt (by omega), List.length_cons, Nat.add_right_comm k 1,
      List.append_assoc _ [_]]
    rfl
  | case2 l k m outside =>
    rw [vecRuns_nil (Nat.le_of_not_lt outside), List.map_nil, List.append_nil, List.length_nil,
      Nat.add_zero, List.take_append_drop, u16, Nat.mod_eq_of_lt (by omega)]

/-- Without its message it is the function that the ownership of vectors is about. -/
theorem AdiPriv.prepVecMsg_fst (p : AdiPriv) (entry : Nat → BitVec 16) (vecs : List Nat)
    (m : CreateAdi) : (p.prepVecMsg entry vecs m).map Prod.fst = p.prepVecChunks entry vecs := by
  unfold prepVecMsg prepVecChunks
  dsimp only
  split
  · rfl
  · rw [vecIdLoop_eq]
    rfl

/-- What the function makes of a number of vectors between two and 64. -/
theorem AdiPriv.prepVecMsg_chunked {p : AdiPriv} (entry : Nat → BitVec 16) (vecs : List Nat)
    (several : 2 ≤ p.numVectors) (most : p.numVectors ≤ 64) :
    ∃ p' m', p.prepVecMsg entry vecs .zero = some (p', m') ∧
      VecChunked (physVec entry vecs) p.numVectors p p' .zero m' := by
  have good : ¬(p.numVectors ≤ 1 ∨ 64 ≤ p.numVectors - 1) := by omega
  have within : decide (65 < p.numVectors) = false := decide_eq_false (by omega)
  have entries : CreateAdi.zero.vchunks.length = 123 := List.length_replicate
  unfold prepVecMsg
  dsimp only
  rw [if_neg good, vecIdLoop_eq, within, vecChunkLoop_eq (by omega) (by dsimp only; omega)
    (by dsimp only; omega)]
  refine ⟨_, _, rfl, rfl, ⟨_, List.flatten_splitBy _ _, List.nil_notMem_splitBy _ _, ?_, ?_,
    Nat.zero_add _, ?_⟩, rfl⟩
  · intro run mem
    refine (List.isChain_of_mem_splitBy mem).imp fun i j next => ?_
    exact beq_iff_eq.mp next
  · refine (List.isChain_getLast_head_splitBy _ _).imp fun a b ⟨ha, hb, next⟩ => ⟨ha, hb, ?_⟩
    exact beq_eq_false_iff_ne.mp next
  · dsimp only
    rw [List.take_zero, List.nil_append, Nat.zero_add]
    rfl

/-- An accepted number of vectors, and as many physical vectors as that: they are described where
the number is not 0, 1 or 65. -/
theorem prepVecMsg_chunked_iff {p p₁ p₂ : AdiPriv} {count : Nat} {entry : Nat → BitVec 16}
    {vecs : List Nat} (accepted : p.setNumOfVectors count = some p₁)
    (handed : p₁.takeVectors entry vecs = some p₂) :
    (∃ p' m', p₂.prepVecMsg entry vecs .zero = some (p', m') ∧
      VecChunked (physVec entry vecs) count p₂ p' .zero m') ↔ 2 ≤ count ∧ count ≤ 64 := by
  simp only [AdiPriv.setNumOfVectors, Option.ite_none_left_eq_some, Option.some.injEq] at accepted
  simp only [AdiPriv.takeVectors, Option.ite_none_right_eq_some, Option.some.injEq] at handed
  obtain ⟨-, rfl⟩ := accepted
  obtain ⟨-, rfl⟩ := handed
  constructor
  · rintro ⟨p', m', prepared, -⟩
    by_contra outside
    have bad : count ≤ 1 ∨ 64 ≤ count - 1 := by omega
    rw [AdiPriv.prepVecMsg, if_pos bad] at prepared
    cases prepared
  · rintro ⟨several, most⟩
    exact AdiPriv.prepVecMsg_chunked entry vecs several most

/-- Five vectors in two runs. -/
theorem prepVecMsg_chunked_five : ∃ p' m',
    ({ AdiPriv.fresh fun _ => 0 with
      numVectors := 5, vecIndexes := some [4, 8, 9, 12, 13], mbxVecId := 4 } : AdiPriv).prepVecMsg
        (fun i => .ofNat 16 i) [4, 8, 9, 12, 13] .zero = some (p', m') ∧
      VecChunked (physVec (fun i => .ofNat 16 i) [4, 8, 9, 12, 13]) 5
        { AdiPriv.fresh fun _ => 0 with
          numVectors := 5, vecIndexes := some [4, 8, 9, 12, 13], mbxVecId := 4 } p' .zero m' :=
  (@prepVecMsg_chunked_iff (.fresh fun _ => 0) _ _ 5 _ _ rfl rfl).mpr (by decide)

/-- A vector for each of 64 queues and one for the mailbox are accepted and handed out, but then
there is no message. -/
theorem prepVecMsg_refuses_most : ∃ p₁ p₂,
    (AdiPriv.fresh fun _ => 0).setNumOfVectors 65 = some p₁ ∧
    p₁.takeVectors (fun i => .ofNat 16 i) (List.range' 1 65) = some p₂ ∧
    ¬∃ p' m', p₂.prepVecMsg (fun i => .ofNat 16 i) (List.range' 1 65) .zero = some (p', m') ∧
      VecChunked (physVec (fun i => .ofNat 16 i) (List.range' 1 65)) 65 p₂ p' .zero m' := by
  refine ⟨_, _, rfl, rfl, ?_⟩
  rintro ⟨p', m', prepared, -⟩
  cases prepared

end Idpf
