import Idpf.General.Generation
import Idpf.Tx.Basic
import Mathlib.Data.List.Nodup

/-! The refill queue of free buffer IDs: allocation, the two ends of the ring
and the count the room check relies on. -/
namespace Idpf
open General

/-- `FIELD_PREP` of `IDPF_RFL_BI_BUFID_M` and `IDPF_RFL_BI_GEN_M`. -/
def rflDesc (gen : Bool) (bufId : Nat) : Nat := bufId % 65536 + gen.toNat * 65536

def rflBufId (desc : Nat) : Nat := desc % 65536
def rflGen (desc : Nat) : Bool := desc / 65536 % 2 == 1

@[simp] theorem rflBufId_rflDesc (gen : Bool) (bufId : Nat) :
    rflBufId (rflDesc gen bufId) = bufId % 65536 := by
  unfold rflBufId rflDesc
  omega

@[simp] theorem rflGen_rflDesc (gen : Bool) (bufId : Nat) : rflGen (rflDesc gen bufId) = gen := by
  unfold rflGen rflDesc
  cases gen
  · simp [Nat.div_eq_of_lt (Nat.mod_lt bufId (show 0 < 65536 by decide))]
  · have : (bufId % 65536 + 1 * 65536) / 65536 = 1 := by omega
    simp only [Bool.toNat_true, this]
    rfl

/-- The refill queue part of `idpf_tx_desc_alloc`: every ID of the pool is free,
and since that counts as a full lap the producer's bit is already flipped. -/
def rflAlloc (poolSize : Nat) : SwQueue where
  ring i := rflDesc true i
  descCount := poolSize
  nextToUse := 0
  nextToClean := 0
  genChk := false
  rflGenChk := true

/-- `idpf_post_buf_refill`. -/
def postBufRefill (r : SwQueue) (bufId : Nat) : SwQueue :=
  { r with
    ring := Function.update r.ring r.nextToUse (rflDesc r.genChk bufId)
    nextToUse := bump r.descCount r.nextToUse
    genChk := turn r.descCount r.nextToUse r.genChk }

/-- `idpf_tx_get_free_buf_id`: the ID taken and the queue it leaves, or `none`
for the `false` return. -/
def txGetFreeBufId (r : SwQueue) : Option (Nat × SwQueue) :=
  let desc := r.ring r.nextToClean
  if r.rflGenChk ≠ rflGen desc then none
  else some (rflBufId desc,
    { r with
      nextToClean := bump r.descCount r.nextToClean
      rflGenChk := turn r.descCount r.nextToClean r.rflGenChk })

/-- `idpf_tx_splitq_get_free_bufs`, in 32-bit arithmetic. -/
def txSplitqGetFreeBufs (r : SwQueue) : Nat :=
  u32Sub (u32Sub ((if r.nextToUse > r.nextToClean then 0 else r.descCount) + r.nextToUse)
    r.nextToClean) 1

/-- The refill state saved before a packet takes its first ID, written back. -/
def rflRestore (r : SwQueue) (prevNtc : Nat) (prevGen : Bool) : SwQueue :=
  { r with nextToClean := prevNtc, rflGenChk := prevGen }

/-- The queue seen as a generation ring: `h` is the history of IDs put into it,
of which `p` were posted and `c` taken. -/
structure RflView (r : SwQueue) (h : Nat → Nat) (c p : Nat) : Prop where
  gens : GenRing r.descCount true (fun i => (rflBufId (r.ring i), rflGen (r.ring i))) h c p
  use : r.nextToUse = p % r.descCount
  useGen : r.genChk = lapGen true (p / r.descCount)
  clean : r.nextToClean = c % r.descCount
  cleanGen : r.rflGenChk = lapGen true (c / r.descCount)

theorem rflAlloc_view {n : Nat} (pos : 0 < n) (small : n ≤ 65536) :
    RflView (rflAlloc n) id 0 n := by
  refine ⟨⟨pos, Nat.zero_le n, (Nat.zero_add n).ge, le_rfl, ?_⟩, ?_, ?_, ?_, ?_⟩
  · intro k lt _
    simp only [rflAlloc] at lt ⊢
    rw [rflBufId_rflDesc, rflGen_rflDesc, Nat.mod_eq_of_lt lt, Nat.div_eq_of_lt lt,
      Nat.mod_eq_of_lt (by omega)]
    rfl
  · simp [rflAlloc]
  · simp [rflAlloc, Nat.div_self pos, lapGen]
  · simp [rflAlloc]
  · simp [rflAlloc, lapGen]

namespace RflView

variable {r : SwQueue} {h : Nat → Nat} {c p : Nat}

theorem post (v : RflView r h c p) {b : Nat} (space : p < c + r.descCount) (small : b < 65536) :
    RflView (postBufRefill r b) (Function.update h p b) c (p + 1) := by
  refine ⟨?_, ?_, ?_, v.clean, v.cleanGen⟩
  · have slots : (fun i => (rflBufId ((postBufRefill r b).ring i),
        rflGen ((postBufRefill r b).ring i))) =
        Function.update (fun i => (rflBufId (r.ring i), rflGen (r.ring i)))
          (p % r.descCount) (b, lapGen true (p / r.descCount)) := by
      funext i
      simp only [postBufRefill, v.use, v.useGen, Function.update_apply]
      split
      · rw [rflBufId_rflDesc, rflGen_rflDesc, Nat.mod_eq_of_lt small]
      · rfl
    rw [slots]
    exact v.gens.push space b
  · simp only [postBufRefill, v.use]
    exact bump_mod v.gens.pos p
  · simp only [postBufRefill, v.use, v.useGen]
    exact turn_lapGen v.gens.pos true p

/-- Taking an ID succeeds exactly while one is waiting, and takes the oldest. -/
theorem get (v : RflView r h c p) (waits : c < p) :
    ∃ r', txGetFreeBufId r = some (h c, r') ∧ RflView r' h (c + 1) p ∧
      r'.ring = r.ring ∧ r'.nextToUse = r.nextToUse ∧ r'.genChk = r.genChk ∧
      r'.descCount = r.descCount := by
  have ready : rflGen (r.ring r.nextToClean) = r.rflGenChk := by
    rw [v.clean, v.cleanGen]
    exact v.gens.ready_iff.mpr waits
  have read : rflBufId (r.ring r.nextToClean) = h c := by
    rw [v.clean]
    exact v.gens.read waits
  refine ⟨{ r with
    nextToClean := bump r.descCount r.nextToClean
    rflGenChk := turn r.descCount r.nextToClean r.rflGenChk }, ?_, ?_, rfl, rfl, rfl, rfl⟩
  · simp only [txGetFreeBufId, ready, read, ne_eq, not_true_eq_false, if_false]
  · refine ⟨v.gens.pop waits, v.use, v.useGen, ?_, ?_⟩
    · simp only [v.clean]
      exact bump_mod v.gens.pos c
    · simp only [v.clean, v.cleanGen]
      exact turn_lapGen v.gens.pos true c

theorem get_none (v : RflView r h c p) (spent : c = p) : txGetFreeBufId r = none := by
  have notReady : ¬ rflGen (r.ring (c % r.descCount)) = lapGen true (c / r.descCount) :=
    fun same => absurd (v.gens.ready_iff.mp same) (by omega)
  simp only [txGetFreeBufId, v.clean, v.cleanGen]
  rw [if_pos (Ne.symm notReady)]

/-- Writing back an earlier consumer state gives the taken IDs back, as long as
the producer has not lapped them. -/
theorem restore (v : RflView r h c p) {c' : Nat} (back : c' ≤ c) (kept : p ≤ c' + r.descCount) :
    RflView (rflRestore r (c' % r.descCount) (lapGen true (c' / r.descCount))) h c' p :=
  ⟨v.gens.rewind back kept, v.use, v.useGen, rfl, rfl⟩

/-- The count is one short of the IDs waiting, provided there is one: with none
waiting both indices coincide and the queue looks full. -/
theorem freeBufs (v : RflView r h c p) (waits : c < p) (small : r.descCount ≤ 65536) :
    txSplitqGetFreeBufs r = p - c - 1 := by
  have hn := v.gens.pos
  have hp := Nat.mod_lt p hn
  have hc := Nat.mod_lt c hn
  unfold txSplitqGetFreeBufs
  rw [v.use, v.clean]
  have amount : (if p % r.descCount > c % r.descCount then 0 else r.descCount) +
      p % r.descCount = c % r.descCount + (p - c) := by
    by_cases full : p = c + r.descCount
    · rw [full, Nat.add_mod_right]
      simp only [gt_iff_lt, lt_irrefl, if_false]
      omega
    · have d := ringDist_mod v.gens.le (n := r.descCount) (by have := v.gens.room; omega)
      have ne : c % r.descCount ≠ p % r.descCount :=
        mod_ne_of_near waits (by have := v.gens.room; omega)
      unfold ringDist at d
      split at d <;> split <;> omega
  have cap := v.gens.room
  rw [amount]
  unfold u32Sub u32
  omega

end RflView

/-- The queue holds the free IDs `free`, oldest first, and a rollback to the saved
consumer state gives back the IDs `taken` since. -/
def RflHeld (r : SwQueue) (prevNtc : Nat) (prevGen : Bool) (taken free : List Nat) : Prop :=
  ∃ h c' c p, RflView r h c p ∧ c' ≤ c ∧ prevNtc = c' % r.descCount ∧
    prevGen = lapGen true (c' / r.descCount) ∧ taken = backlog h c' c ∧ free = backlog h c p

def RflFree (r : SwQueue) (free : List Nat) : Prop :=
  ∃ h c p, RflView r h c p ∧ free = backlog h c p

theorem rflAlloc_free {n : Nat} (pos : 0 < n) (small : n ≤ 65536) :
    RflFree (rflAlloc n) (List.range n) :=
  ⟨id, 0, n, rflAlloc_view pos small, by simp [backlog, List.range_eq_range']⟩

namespace RflFree

variable {r : SwQueue} {free : List Nat}

theorem save (f : RflFree r free) : RflHeld r r.nextToClean r.rflGenChk [] free := by
  obtain ⟨h, c, p, v, rfl⟩ := f
  exact ⟨h, c, c, p, v, le_rfl, v.clean, v.cleanGen, (backlog_nil h c).symm, rfl⟩

theorem get {b : Nat} (f : RflFree r (b :: free)) :
    ∃ r', txGetFreeBufId r = some (b, r') ∧ RflFree r' free ∧ r'.descCount = r.descCount := by
  obtain ⟨h, c, p, v, eq⟩ := f
  have waits : c < p := by
    have len := congrArg List.length eq
    rw [backlog_length, List.length_cons] at len
    omega
  obtain ⟨r', got, v', -, -, -, same⟩ := v.get waits
  rw [backlog_cons h waits, List.cons.injEq] at eq
  exact ⟨r', eq.1 ▸ got, ⟨h, c + 1, p, v', eq.2⟩, same⟩

theorem get_none (f : RflFree r []) : txGetFreeBufId r = none := by
  obtain ⟨h, c, p, v, eq⟩ := f
  have len := congrArg List.length eq
  rw [backlog_length, List.length_nil] at len
  exact v.get_none (by have := v.gens.le; omega)

theorem post {b : Nat} (f : RflFree r free) (space : free.length < r.descCount)
    (small : b < 65536) : RflFree (postBufRefill r b) (free ++ [b]) := by
  obtain ⟨h, c, p, v, rfl⟩ := f
  rw [backlog_length] at space
  exact ⟨_, c, p + 1, v.post (by omega) small, (backlog_push h v.gens.le b).symm⟩

theorem freeBufs (f : RflFree r free) (some : free ≠ []) (small : r.descCount ≤ 65536) :
    txSplitqGetFreeBufs r + 1 = free.length := by
  obtain ⟨h, c, p, v, rfl⟩ := f
  have waits : 0 < (backlog h c p).length := List.length_pos_iff.mpr some
  rw [backlog_length] at waits ⊢
  rw [v.freeBufs (by omega) small]
  omega

end RflFree

namespace RflHeld

variable {r : SwQueue} {prevNtc : Nat} {prevGen : Bool} {taken free : List Nat}

theorem drop (f : RflHeld r prevNtc prevGen taken free) : RflFree r free := by
  obtain ⟨h, -, c, p, v, -, -, -, -, eq⟩ := f
  exact ⟨h, c, p, v, eq⟩

theorem get {b : Nat} (f : RflHeld r prevNtc prevGen taken (b :: free)) :
    ∃ r', txGetFreeBufId r = some (b, r') ∧
      RflHeld r' prevNtc prevGen (taken ++ [b]) free ∧ r'.descCount = r.descCount := by
  obtain ⟨h, c', c, p, v, le, ntc, gen, back, eq⟩ := f
  have waits : c < p := by
    have len := congrArg List.length eq
    rw [backlog_length, List.length_cons] at len
    omega
  obtain ⟨r', got, v', -, -, -, same⟩ := v.get waits
  rw [backlog_cons h waits, List.cons.injEq] at eq
  obtain ⟨rfl, rest⟩ := eq
  refine ⟨r', got, ⟨h, c', c + 1, p, v', by omega, same ▸ ntc, same ▸ gen, ?_, rest⟩, same⟩
  rw [backlog_append h le (Nat.le_succ c), backlog_cons h (Nat.lt_succ_self c), backlog_nil, back]

theorem post {b : Nat} (f : RflHeld r prevNtc prevGen taken free)
    (space : free.length < r.descCount) (small : b < 65536) :
    RflHeld (postBufRefill r b) prevNtc prevGen taken (free ++ [b]) := by
  obtain ⟨h, c', c, p, v, le, ntc, gen, back, rfl⟩ := f
  rw [backlog_length] at space
  refine ⟨_, c', c, p + 1, v.post (by omega) small, le, ntc, gen, ?_,
    (backlog_push h v.gens.le b).symm⟩
  rw [back]
  apply List.map_congr_left
  intro k member
  rw [List.mem_range'_1] at member
  exact (Function.update_of_ne (by have := v.gens.le; omega) _ _).symm

theorem restore (f : RflHeld r prevNtc prevGen taken free)
    (kept : taken.length + free.length ≤ r.descCount) :
    RflFree (rflRestore r prevNtc prevGen) (taken ++ free) := by
  obtain ⟨h, c', c, p, v, le, rfl, rfl, rfl, rfl⟩ := f
  rw [backlog_length, backlog_length] at kept
  have := v.gens.le
  exact ⟨h, c', p, v.restore le (by omega), (backlog_append h le v.gens.le).symm⟩

end RflHeld

/-- The IDs in the valid region of the queue: those the consumer would get. -/
def rflValid : Nat → SwQueue → List Nat
  | 0, _ => []
  | fuel + 1, r =>
    match txGetFreeBufId r with
    | none => []
    | some (b, r') => b :: rflValid fuel r'

theorem rflValid_take {r : SwQueue} {free : List Nat} (f : RflFree r free) (fuel : Nat) :
    rflValid fuel r = free.take fuel := by
  induction fuel generalizing r free with
  | zero => rfl
  | succ fuel ih =>
      cases free with
      | nil => simp only [rflValid, f.get_none, List.take_nil]
      | cons b free =>
          obtain ⟨r', got, rest, -⟩ := f.get
          simp only [rflValid, got, ih rest, List.take_succ_cons]

theorem rflValid_eq {r : SwQueue} {free : List Nat} (f : RflFree r free) {fuel : Nat}
    (enough : free.length ≤ fuel) : rflValid fuel r = free := by
  rw [rflValid_take f, List.take_of_length_le enough]

end Idpf
