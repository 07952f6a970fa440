import Idpf.Vport.QueueChunks

/-! When the queues of a vport get IDs and tail registers that belong together. -/
namespace Idpf

/-- The queues of one kind that a vport lays out: their type on the device, the count that is
checked, the sizes of their groups, and whether they have a tail register. -/
structure UsedKind where
  type : BitVec 32
  num : Nat
  groups : List Nat
  tail : Bool

/-- The walk that has to agree with the one for the IDs. -/
def UsedKind.walk (u : UsedKind) : ChunkWalk := if u.tail then regWalk else idWalk

def QVecRsrc.used (r : QVecRsrc) : List UsedKind :=
  [⟨0, r.numTxq, r.txqGroups, true⟩, ⟨1, r.numRxq, r.rxqGroups, !r.rxSplit⟩] ++
    (if r.txSplit then [⟨2, r.numComplq, r.complqGroups, false⟩] else []) ++
    (if r.rxSplit then [⟨3, r.numBufq, r.bufqGroups, true⟩] else [])

def QueueTable.of (t : QueueTable) (type : BitVec 32) : List (Option ChunkEntry) :=
  if type = 0 then t.tx else if type = 1 then t.rx else if type = 2 then t.compl else t.buf

/-- The entry is the ID at its position of its chunk. -/
def IsId (chunks : List QueueChunk) (type : BitVec 32) (e : ChunkEntry) : Prop :=
  ∃ c, chunks[e.chunk]? = some c ∧ c.type = type ∧ e.pos < c.numQueues.toNat ∧
    e.val.toNat = c.startQueueId.toNat + e.pos

/-- The entry is the register at its position of its chunk. -/
def IsReg (chunks : List QueueChunk) (type : BitVec 32) (e : ChunkEntry) : Prop :=
  ∃ c, chunks[e.chunk]? = some c ∧ c.type = type ∧ e.pos < c.numQueues.toNat ∧
    e.val.toNat = c.qtailRegStart.toNat + e.pos * c.qtailRegSpacing.toNat

/-- Different chunks have no register in common, and those of one type no ID. -/
def ChunksDisjoint (chunks : List QueueChunk) : Prop :=
  ∀ (i j : Nat) (c d : QueueChunk), i ≠ j → chunks[i]? = some c → chunks[j]? = some d →
    ∀ p < c.numQueues.toNat, ∀ q < d.numQueues.toNat,
      (c.type = d.type → c.startQueueId.toNat + p ≠ d.startQueueId.toNat + q) ∧
      c.qtailRegStart.toNat + p * c.qtailRegSpacing.toNat ≠
        d.qtailRegStart.toNat + q * d.qtailRegSpacing.toNat

/-- Every queue has an ID, and those with a tail register have one from the same position of the
same chunk; with disjoint chunks no two queues share an ID of their type or a register. -/
structure Agreed (r : QVecRsrc) (chunks : List QueueChunk) (ids regs : QueueTable) : Prop where
  id : ∀ u ∈ r.used, ∀ k < u.groups.sum, ∃ e : ChunkEntry,
    (ids.of u.type)[k]? = some (some e) ∧ IsId chunks u.type e
  reg : ∀ u ∈ r.used, u.tail = true → ∀ k < u.groups.sum, ∃ e f : ChunkEntry,
    (ids.of u.type)[k]? = some (some e) ∧ (regs.of u.type)[k]? = some (some f) ∧
      IsReg chunks u.type f ∧ e.chunk = f.chunk ∧ e.pos = f.pos
  idsApart : ChunksDisjoint chunks → ∀ u ∈ r.used, ∀ (k l : Nat) (e f : ChunkEntry),
    (ids.of u.type)[k]? = some (some e) → (ids.of u.type)[l]? = some (some f) → e.val = f.val →
      k = l
  regsApart : ChunksDisjoint chunks → ∀ u ∈ r.used, ∀ w ∈ r.used,
    ∀ (k l : Nat) (e f : ChunkEntry), (regs.of u.type)[k]? = some (some e) →
      (regs.of w.type)[l]? = some (some f) → e.val = f.val → u.type = w.type ∧ k = l

def ChunkWalk.held (w : ChunkWalk) (type : BitVec 32) (chunks : List QueueChunk) : Nat :=
  ((chunks.filter fun c => c.type = type).map w.count).sum

def QVecRsrc.short (r : QVecRsrc) (chunks : List QueueChunk) : Bool :=
  r.used.any fun u =>
    decide (min maxQids (idWalk.held u.type chunks) < u.num) ||
      decide (min maxQids (u.walk.held u.type chunks) < u.num)

/-- The chunks fit the queues that are laid out of every used type. -/
def QVecRsrc.fitted (r : QVecRsrc) (chunks : List QueueChunk) : Prop :=
  ∀ u ∈ r.used, u.groups.sum ≤ maxQids ∧
    chunksFit u.walk u.type u.groups.sum chunks.reverse = true ∧
    (u.tail = true → ChunksDisjoint chunks →
      chunksSpaced u.type u.groups.sum chunks.reverse = true)

theorem ChunkWalk.fill_length (w : ChunkWalk) (type : BitVec 32) (room : Nat)
    (chunks : List (QueueChunk × Nat)) :
    (w.fill type room chunks).length = min room (w.held type (chunks.map Prod.fst)) := by
  induction chunks generalizing room with
  | nil => simp [fill, fillArray, held]
  | cons head chunks ih =>
    obtain ⟨c, i⟩ := head
    by_cases typed : c.type = type
    · rw [fill_typed typed, List.length_append, List.length_map, List.length_range, ih]
      simp only [held, List.map_cons, List.filter_cons, typed, decide_true, if_true,
        List.sum_cons]
      omega
    · rw [fill_other typed, ih]
      simp only [held, List.map_cons, List.filter_cons, typed, decide_false, Bool.false_eq_true,
        if_false]

theorem ChunkWalk.held_reverse (w : ChunkWalk) (type : BitVec 32) (chunks : List QueueChunk) :
    w.held type chunks.reverse = w.held type chunks := by
  simp only [held, List.filter_reverse, List.map_reverse, List.sum_reverse]

theorem zipIdx_reverse_fst (chunks : List QueueChunk) :
    chunks.zipIdx.reverse.map Prod.fst = chunks.reverse := by
  rw [List.map_reverse, List.zipIdx_map_fst]

theorem zipIdx_reverse_nodup (chunks : List QueueChunk) :
    (chunks.zipIdx.reverse.map Prod.snd).Nodup := by
  rw [List.map_reverse, List.zipIdx_map_snd, List.nodup_reverse]
  exact List.nodup_range'

theorem mem_zipIdx_reverse {chunks : List QueueChunk} {c : QueueChunk} {i : Nat} :
    (c, i) ∈ chunks.zipIdx.reverse ↔ chunks[i]? = some c := by
  rw [List.mem_reverse, List.mk_mem_zipIdx_iff_getElem?]

def ChunkWalk.entries (w : ChunkWalk) (type : BitVec 32) (chunks : List QueueChunk) :
    List ChunkEntry :=
  w.fill type maxQids chunks.zipIdx.reverse

theorem ChunkWalk.entries_length (w : ChunkWalk) (type : BitVec 32) (chunks : List QueueChunk) :
    (w.entries type chunks).length = min maxQids (w.held type chunks) := by
  rw [entries, fill_length, zipIdx_reverse_fst, held_reverse]

def given (u : UsedKind) (entries : List ChunkEntry) : List (Option ChunkEntry) :=
  assignGroups u.groups entries

theorem given_some {u : UsedKind} {entries : List ChunkEntry} {k : Nat} {e : ChunkEntry} :
    (given u entries)[k]? = some (some e) ↔ k < u.groups.sum ∧ entries[k]? = some e := by
  rw [given, assignGroups_eq, List.getElem?_map]
  by_cases inside : k < u.groups.sum
  · rw [List.getElem?_range inside]
    simp [inside]
  · rw [List.getElem?_eq_none (by simpa using inside)]
    simp [inside]

/-- What `idpf_vport_queue_ids_init` gives where it succeeds. -/
def QVecRsrc.idTable (r : QVecRsrc) (chunks : List QueueChunk) : QueueTable where
  tx := assignGroups r.txqGroups (idWalk.entries 0 chunks)
  rx := assignGroups r.rxqGroups (idWalk.entries 1 chunks)
  compl := if r.txSplit then assignGroups r.complqGroups (idWalk.entries 2 chunks) else []
  buf := if r.rxSplit then assignGroups r.bufqGroups (idWalk.entries 3 chunks) else []

/-- What `idpf_queue_reg_init` gives where it succeeds. -/
def QVecRsrc.regTable (r : QVecRsrc) (chunks : List QueueChunk) : QueueTable where
  tx := assignGroups r.txqGroups (regWalk.entries 0 chunks)
  rx := if r.rxSplit then [] else assignGroups r.rxqGroups (regWalk.entries 1 chunks)
  compl := []
  buf := if r.rxSplit then assignGroups r.bufqGroups (regWalk.entries 3 chunks) else []

theorem initKind_bind {entries : List ChunkEntry} {num : Nat} {groups : List Nat} {t : QueueTable}
    {f : List (Option ChunkEntry) → Option QueueTable} :
    (initKind entries num groups).bind f = some t ↔
      num ≤ entries.length ∧ f (assignGroups groups entries) = some t := by
  unfold initKind
  split
  · simp only [Option.bind_none, reduceCtorEq, false_iff, not_and]
    omega
  · simp only [Option.bind_some, iff_and_self]
    omega

theorem queueIdsInit_eq_some {r : QVecRsrc} {chunks : List QueueChunk} {t : QueueTable} :
    queueIdsInit r chunks = some t ↔
      (∀ u ∈ r.used, u.num ≤ (idWalk.entries u.type chunks).length) ∧ r.idTable chunks = t := by
  have entries : ∀ type, getQueueIds maxQids type chunks = idWalk.entries type chunks :=
    fun type => getQueueIds_eq maxQids type chunks
  simp only [queueIdsInit, entries, Option.bind_eq_bind, initKind_bind, QVecRsrc.used,
    QVecRsrc.idTable]
  cases r.txSplit <;> cases r.rxSplit <;> simp [initKind_bind, and_assoc]

theorem queueRegInit_eq_some {r : QVecRsrc} {chunks : List QueueChunk} {t : QueueTable} :
    queueRegInit r chunks = some t ↔
      (∀ u ∈ r.used, u.tail = true → u.num ≤ (regWalk.entries u.type chunks).length) ∧
        r.regTable chunks = t := by
  have entries : ∀ type, getQReg maxQids type chunks = regWalk.entries type chunks :=
    fun type => getQReg_eq maxQids type chunks
  simp only [queueRegInit, entries, Option.bind_eq_bind, initKind_bind, QVecRsrc.used,
    QVecRsrc.regTable]
  cases r.txSplit <;> cases r.rxSplit <;> simp [initKind_bind, and_assoc]

theorem QVecRsrc.idTable_of {r : QVecRsrc} {u : UsedKind} (member : u ∈ r.used)
    (chunks : List QueueChunk) :
    (r.idTable chunks).of u.type = given u (idWalk.entries u.type chunks) := by
  simp only [used, List.mem_append, List.mem_cons, List.not_mem_nil, or_false] at member
  rcases member with ((rfl | rfl) | compl) | buf
  · rfl
  · rfl
  · cases split : r.txSplit with
    | false => simp [split] at compl
    | true =>
      simp only [split, if_true, List.mem_singleton] at compl
      subst compl
      simp [idTable, QueueTable.of, given, split]
  · cases split : r.rxSplit with
    | false => simp [split] at buf
    | true =>
      simp only [split, if_true, List.mem_singleton] at buf
      subst buf
      simp [idTable, QueueTable.of, given, split]

theorem QVecRsrc.regTable_of {r : QVecRsrc} {u : UsedKind} (member : u ∈ r.used)
    (chunks : List QueueChunk) :
    (r.regTable chunks).of u.type =
      if u.tail then given u (regWalk.entries u.type chunks) else [] := by
  simp only [used, List.mem_append, List.mem_cons, List.not_mem_nil, or_false] at member
  rcases member with ((rfl | rfl) | compl) | buf
  · rfl
  · cases split : r.rxSplit <;> simp [regTable, QueueTable.of, given, split]
  · cases split : r.txSplit with
    | false => simp [split] at compl
    | true =>
      simp only [split, if_true, List.mem_singleton] at compl
      subst compl
      simp [regTable, QueueTable.of]
  · cases split : r.rxSplit with
    | false => simp [split] at buf
    | true =>
      simp only [split, if_true, List.mem_singleton] at buf
      subst buf
      simp [regTable, QueueTable.of, given, split]

theorem exact_id {chunks : List QueueChunk} {type : BitVec 32} {e : ChunkEntry} :
    idWalk.Exact type chunks.zipIdx.reverse e ↔ IsId chunks type e := by
  simp only [ChunkWalk.Exact, IsId, mem_zipIdx_reverse, idWalk, Nat.mul_one]

theorem exact_reg {chunks : List QueueChunk} {type : BitVec 32} {e : ChunkEntry} :
    regWalk.Exact type chunks.zipIdx.reverse e ↔ IsReg chunks type e := by
  simp only [ChunkWalk.Exact, IsReg, mem_zipIdx_reverse, regWalk]

theorem UsedKind.walk_count (u : UsedKind) (c : QueueChunk) :
    u.walk.count c ≤ c.numQueues.toNat := by
  unfold walk
  split
  · exact Nat.mod_le _ _
  · exact Nat.le_refl _

/-- The queues of a kind are paired if and only if the chunks fit them. -/
theorem UsedKind.paired_iff {u : UsedKind} {chunks : List QueueChunk}
    (enough : u.groups.sum ≤ maxQids) :
    (∀ k < u.groups.sum, Paired u.walk u.type maxQids chunks.zipIdx.reverse k) ↔
      chunksFit u.walk u.type u.groups.sum chunks.reverse = true := by
  rw [Idpf.paired_iff u.walk_count (zipIdx_reverse_nodup chunks) enough, zipIdx_reverse_fst]

theorem QVecRsrc.short_eq_false {r : QVecRsrc} {chunks : List QueueChunk} :
    r.short chunks = false ↔
      (∀ u ∈ r.used, u.num ≤ (idWalk.entries u.type chunks).length) ∧
        ∀ u ∈ r.used, u.tail = true → u.num ≤ (regWalk.entries u.type chunks).length := by
  simp only [short, List.any_eq_false, Bool.or_eq_true, decide_eq_true_eq, not_or, Nat.not_lt,
    ChunkWalk.entries_length]
  constructor
  · intro each
    refine ⟨fun u member => (each u member).1, fun u member tail => ?_⟩
    have := (each u member).2
    rwa [UsedKind.walk, if_pos tail] at this
  · rintro ⟨ids, regs⟩ u member
    refine ⟨ids u member, ?_⟩
    unfold UsedKind.walk
    split
    · next tail => exact regs u member tail
    · exact ids u member

variable {r : QVecRsrc} {chunks : List QueueChunk} {u : UsedKind}

/-- Exact IDs of different queues of a type differ where chunks are disjoint. -/
theorem isId_inj (disjoint : ChunksDisjoint chunks) {type : BitVec 32} {k l : Nat}
    {e f : ChunkEntry} (atK : (idWalk.entries type chunks)[k]? = some e)
    (atL : (idWalk.entries type chunks)[l]? = some f) (idK : IsId chunks type e)
    (idL : IsId chunks type f) (same : e.val = f.val) : k = l := by
  obtain ⟨c, cAt, cType, cPos, cVal⟩ := idK
  obtain ⟨d, dAt, dType, dPos, dVal⟩ := idL
  have value : c.startQueueId.toNat + e.pos = d.startQueueId.toNat + f.pos := by
    rw [← cVal, ← dVal, same]
  by_cases chunk : e.chunk = f.chunk
  · obtain rfl := Option.some.inj (cAt.symm.trans (chunk ▸ dAt))
    exact ChunkWalk.fill_slot_inj (zipIdx_reverse_nodup chunks) atK atL chunk (by omega)
  · have apart := (disjoint _ _ c d chunk cAt dAt _ cPos _ dPos).1 (cType.trans dType.symm)
    exact absurd value apart

theorem QVecRsrc.used_type_inj {u w : UsedKind} (uMember : u ∈ r.used) (wMember : w ∈ r.used)
    (same : u.type = w.type) : u = w := by
  revert same
  simp only [used] at uMember wMember
  cases txSplit : r.txSplit <;> cases rxSplit : r.rxSplit <;>
    simp [txSplit, rxSplit] at uMember wMember <;>
    rcases uMember with rfl | rfl | rfl | rfl <;> rcases wMember with rfl | rfl | rfl | rfl <;> simp

theorem QVecRsrc.agreed_of_fitted (fits : r.fitted chunks) :
    Agreed r chunks (r.idTable chunks) (r.regTable chunks) := by
  have paired : ∀ u ∈ r.used, ∀ k < u.groups.sum,
      Paired u.walk u.type maxQids chunks.zipIdx.reverse k := fun u member =>
    (UsedKind.paired_iff (fits u member).1).mpr (fits u member).2.1
  have ids : ∀ u ∈ r.used, ∀ {k : Nat} {e : ChunkEntry},
      ((r.idTable chunks).of u.type)[k]? = some (some e) ↔
        k < u.groups.sum ∧ (idWalk.entries u.type chunks)[k]? = some e := by
    intro u member k e
    rw [idTable_of member, given_some]
  have regs : ∀ u ∈ r.used, ∀ {k : Nat} {e : ChunkEntry},
      ((r.regTable chunks).of u.type)[k]? = some (some e) ↔
        u.tail = true ∧ k < u.groups.sum ∧ (regWalk.entries u.type chunks)[k]? = some e := by
    intro u member k e
    rw [regTable_of member]
    cases u.tail <;> simp [given_some]
  have idAt : ∀ u ∈ r.used, ∀ {k : Nat} {e : ChunkEntry},
      ((r.idTable chunks).of u.type)[k]? = some (some e) →
      IsId chunks u.type e := by
    intro u member k e found
    obtain ⟨below, found⟩ := (ids u member).mp found
    obtain ⟨g, -, atK, -, -, -, exact, -⟩ := paired u member k below
    obtain rfl := Option.some.inj (atK.symm.trans found)
    exact exact_id.mp exact
  have regAt : ∀ u ∈ r.used, ∀ {k : Nat} {f : ChunkEntry},
      ((r.regTable chunks).of u.type)[k]? = some (some f) →
      IsReg chunks u.type f ∧ ∃ e, ((r.idTable chunks).of u.type)[k]? = some (some e) ∧
        e.chunk = f.chunk ∧ e.pos = f.pos := by
    intro u member k f found
    obtain ⟨tail, below, found⟩ := (regs u member).mp found
    obtain ⟨e, g, atK, atF, chunk, pos, -, exact⟩ := paired u member k below
    rw [UsedKind.walk, if_pos tail] at atF exact
    obtain rfl := Option.some.inj (atF.symm.trans found)
    exact ⟨exact_reg.mp exact, e, (ids u member).mpr ⟨below, atK⟩, chunk, pos⟩
  constructor
  · intro u member k below
    obtain ⟨e, -, atK, -, -, -, exact, -⟩ := paired u member k below
    exact ⟨e, (ids u member).mpr ⟨below, atK⟩, exact_id.mp exact⟩
  · intro u member tail k below
    obtain ⟨e, f, atK, atF, chunk, pos, -, exact⟩ := paired u member k below
    rw [UsedKind.walk, if_pos tail] at atF exact
    exact ⟨e, f, (ids u member).mpr ⟨below, atK⟩, (regs u member).mpr ⟨tail, below, atF⟩,
      exact_reg.mp exact, chunk, pos⟩
  · intro disjoint u member k l e f atK atL same
    exact isId_inj disjoint ((ids u member).mp atK).2 ((ids u member).mp atL).2
      (idAt u member atK) (idAt u member atL) same
  · intro disjoint u uMember w wMember k l f g atK atL same
    obtain ⟨⟨c, cAt, cType, cPos, cVal⟩, e, atE, chunkE, posE⟩ := regAt u uMember atK
    obtain ⟨⟨d, dAt, dType, dPos, dVal⟩, h, atH, chunkH, posH⟩ := regAt w wMember atL
    have value : c.qtailRegStart.toNat + f.pos * c.qtailRegSpacing.toNat =
        d.qtailRegStart.toNat + g.pos * d.qtailRegSpacing.toNat := by
      rw [← cVal, ← dVal, same]
    by_cases chunk : f.chunk = g.chunk
    · obtain rfl := Option.some.inj (cAt.symm.trans (chunk ▸ dAt))
      obtain rfl := QVecRsrc.used_type_inj uMember wMember (cType.symm.trans dType)
      refine ⟨rfl, ?_⟩
      obtain ⟨tail, kBelow, kFound⟩ := (regs u uMember).mp atK
      obtain ⟨-, lBelow, lFound⟩ := (regs u uMember).mp atL
      have spaced := (fits u uMember).2.2 tail disjoint
      rw [← zipIdx_reverse_fst, ← apart_iff (zipIdx_reverse_nodup chunks) (fits u uMember).1] at spaced
      by_contra other
      have spacing := spaced k kBelow l lBelow other e h ((ids u uMember).mp atE).2
        ((ids u uMember).mp atH).2 (chunkE.trans (chunk.trans chunkH.symm)) c
        (mem_zipIdx_reverse.mpr (chunkE ▸ cAt))
      have positive : 0 < c.qtailRegSpacing.toNat := by
        apply Nat.pos_of_ne_zero
        intro zero
        exact spacing (BitVec.eq_of_toNat_eq zero)
      have pos : f.pos = g.pos := Nat.eq_of_mul_eq_mul_right positive (by omega)
      exact other (ChunkWalk.fill_slot_inj (zipIdx_reverse_nodup chunks) kFound lFound chunk pos)
    · exact absurd value (disjoint _ _ c d chunk cAt dAt _ cPos _ dPos).2

theorem QVecRsrc.fitted_of_agreed
    (agreed : Agreed r chunks (r.idTable chunks) (r.regTable chunks)) : r.fitted chunks := by
  intro u member
  have ids : ∀ {k : Nat} {e : ChunkEntry}, ((r.idTable chunks).of u.type)[k]? = some (some e) ↔
      k < u.groups.sum ∧ (idWalk.entries u.type chunks)[k]? = some e := by
    intro k e
    rw [idTable_of member, given_some]
  have regs : ∀ {k : Nat} {e : ChunkEntry}, ((r.regTable chunks).of u.type)[k]? = some (some e) ↔
      u.tail = true ∧ k < u.groups.sum ∧ (regWalk.entries u.type chunks)[k]? = some e := by
    intro k e
    rw [regTable_of member]
    cases u.tail <;> simp [given_some]
  have enough : u.groups.sum ≤ maxQids := by
    by_contra more
    obtain ⟨e, found, -⟩ := agreed.id u member maxQids (by omega)
    have inside := (List.getElem?_eq_some_iff.mp (ids.mp found).2).1
    have short := @ChunkWalk.fill_length_le idWalk u.type maxQids chunks.zipIdx.reverse
    exact absurd inside (Nat.not_lt.mpr short)
  refine ⟨enough, (UsedKind.paired_iff enough).mp ?_, ?_⟩
  · intro k below
    cases tail : u.tail with
    | false =>
      obtain ⟨e, found, exact⟩ := agreed.id u member k below
      rw [UsedKind.walk, tail, if_neg Bool.false_ne_true]
      exact ⟨e, e, (ids.mp found).2, (ids.mp found).2, rfl, rfl, exact_id.mpr exact,
        exact_id.mpr exact⟩
    | true =>
      obtain ⟨e, f, atE, atF, reg, chunk, pos⟩ := agreed.reg u member tail k below
      obtain ⟨g, atG, exact⟩ := agreed.id u member k below
      obtain rfl := Option.some.inj (Option.some.inj (atE.symm.trans atG))
      rw [UsedKind.walk, tail, if_pos rfl]
      exact ⟨e, f, (ids.mp atE).2, (regs.mp atF).2.2, chunk, pos, exact_id.mpr exact,
        exact_reg.mpr reg⟩
  · intro tail disjoint
    rw [← zipIdx_reverse_fst, ← apart_iff (zipIdx_reverse_nodup chunks) enough]
    intro k kBelow l lBelow other e f atK atL chunk c listed none
    have reg : ∀ {j : Nat} {g : ChunkEntry}, j < u.groups.sum →
        (idWalk.entries u.type chunks)[j]? = some g → g.chunk = e.chunk →
        ∃ h, ((r.regTable chunks).of u.type)[j]? = some (some h) ∧
          h.val.toNat = c.qtailRegStart.toNat := by
      intro j g below found here
      obtain ⟨g', h, atG, atH, ⟨d, dAt, -, -, value⟩, chunkH, -⟩ := agreed.reg u member tail j below
      obtain rfl := Option.some.inj (found.symm.trans (ids.mp atG).2)
      have same : chunks[h.chunk]? = some c := by
        rw [← chunkH, here]
        exact mem_zipIdx_reverse.mp listed
      obtain rfl := Option.some.inj (dAt.symm.trans same)
      refine ⟨h, atH, ?_⟩
      rw [value, none]
      simp
    obtain ⟨g, atG, gVal⟩ := reg kBelow atK rfl
    obtain ⟨h, atH, hVal⟩ := reg lBelow atL chunk.symm
    exact other (agreed.regsApart disjoint u member u member k l g h atG atH
      (BitVec.eq_of_toNat_eq (gVal.trans hVal.symm))).2

def IdsAndTailsAgree (r : QVecRsrc) (chunks : List QueueChunk) : Prop :=
  ∀ ids regs, queueIdsInit r chunks = some ids → queueRegInit r chunks = some regs →
    Agreed r chunks ids regs

/-- IDs and tail registers agree exactly if a used type is short of queues, or the chunks fit what is
laid out. -/
theorem ids_and_tails_agree_iff (r : QVecRsrc) (chunks : List QueueChunk) :
    IdsAndTailsAgree r chunks ↔ r.short chunks = true ∨ r.fitted chunks := by
  constructor
  · intro agree
    cases short : r.short chunks with
    | true => exact Or.inl rfl
    | false =>
      obtain ⟨ids, regs⟩ := QVecRsrc.short_eq_false.mp short
      have agreed := agree _ _ (queueIdsInit_eq_some.mpr ⟨ids, rfl⟩)
        (queueRegInit_eq_some.mpr ⟨regs, rfl⟩)
      exact Or.inr (QVecRsrc.fitted_of_agreed agreed)
  · rintro condition ids regs idInit regInit
    obtain ⟨enoughIds, rfl⟩ := queueIdsInit_eq_some.mp idInit
    obtain ⟨enoughRegs, rfl⟩ := queueRegInit_eq_some.mp regInit
    have short := QVecRsrc.short_eq_false.mpr ⟨enoughIds, enoughRegs⟩
    rcases condition with missing | fits
    · exact Bool.noConfusion (missing.symm.trans short)
    · exact QVecRsrc.agreed_of_fitted fits

/-- A chunk of 65536 queues gives its IDs and none of its registers. -/
theorem truncated_chunk_drifts :
    ¬ IdsAndTailsAgree
      { QVecRsrc.zero false false with
        numTxq := 2
        numRxq := 1
        numTxqGrp := 1
        numRxqGrp := 1 }
      [⟨0x1000, 4, 0, 0, 2⟩, ⟨0x8000, 4, 1, 0, 1⟩, ⟨0x9000, 4, 0, 100, 65536⟩] := by
  intro agree
  have ids : (queueIdsInit
      { QVecRsrc.zero false false with
        numTxq := 2
        numRxq := 1
        numTxqGrp := 1
        numRxqGrp := 1 }
      [⟨0x1000, 4, 0, 0, 2⟩, ⟨0x8000, 4, 1, 0, 1⟩, ⟨0x9000, 4, 0, 100, 65536⟩]).map
        (fun t => (t.of 0)[0]?) = some (some (some ⟨2, 0, 100⟩)) := by
    decide +kernel
  have regs : (queueRegInit
      { QVecRsrc.zero false false with
        numTxq := 2
        numRxq := 1
        numTxqGrp := 1
        numRxqGrp := 1 }
      [⟨0x1000, 4, 0, 0, 2⟩, ⟨0x8000, 4, 1, 0, 1⟩, ⟨0x9000, 4, 0, 100, 65536⟩]).map
        (fun t => (t.of 0)[0]?) = some (some (some ⟨0, 0, 0x1000⟩)) := by
    decide +kernel
  obtain ⟨idTable, idInit, idAt⟩ := Option.map_eq_some_iff.mp ids
  obtain ⟨regTable, regInit, regAt⟩ := Option.map_eq_some_iff.mp regs
  have agreed := agree idTable regTable idInit regInit
  obtain ⟨e, f, atE, atF, -, chunk, -⟩ :=
    agreed.reg ⟨0, 2, [2], true⟩ List.mem_cons_self rfl 0 (by decide)
  obtain rfl := Option.some.inj (Option.some.inj (idAt.symm.trans atE))
  obtain rfl := Option.some.inj (Option.some.inj (regAt.symm.trans atF))
  exact absurd chunk (by decide)

end Idpf
