import Idpf.General.Transition
import Idpf.Vport.QueueChunks

/-! Replies that carry chunks: what the driver reads of them, what it keeps, and the messages that
give the queues and vectors back. -/
namespace Idpf
open General

/-- Bytes in memory, by their offset from the start of a buffer. -/
abbrev Bytes := Nat → BitVec 8

/-- `le16_to_cpu` and its like: `n` bytes at an offset, the lowest first. -/
def leAt (m : Bytes) : Nat → Nat → Nat
  | 0, _ => 0
  | n + 1, o => (m o).toNat + 256 * leAt m n (o + 1)

/-- A reply: its length as the descriptor has it, its bytes, and what the memory behind the receive
buffer holds. -/
structure ChunkReply where
  len : BitVec 16
  payload : Bytes
  behind : Bytes

namespace ChunkReply

/-- The bytes that `idpf_vc_xn_forward_reply` copies into a buffer of IDPF_CTLQ_MAX_BUF_LEN. -/
def received (r : ChunkReply) : Nat := min 4096 r.len.toNat

/-- The receive buffer with the reply in it; `before` is what it held. -/
def buffer (r : ChunkReply) (before : Bytes) : Bytes := fun i =>
  if i < r.received then r.payload i else if i < 4096 then before i else r.behind i

end ChunkReply

/-- A buffer from kzalloc. -/
def zeroed : Bytes := fun _ => 0

/-- The count of chunks of a header that lies at `hdr`. -/
def chunkCount (m : Bytes) (hdr : Nat) : Nat := leAt m 2 hdr

/-- Where the entries lie that are read one after the other from `first` on. -/
def entriesRead (first n : Nat) : List Nat := (List.range n).map fun i => first + 32 * i

/-- `struct virtchnl2_queue_reg_chunk`, in the driver's own format. -/
def readQueueChunk (m : Bytes) (o : Nat) : QueueChunk where
  qtailRegStart := BitVec.ofNat 64 (leAt m 8 (o + 16))
  qtailRegSpacing := BitVec.ofNat 32 (leAt m 4 (o + 24))
  type := BitVec.ofNat 32 (leAt m 4 o)
  startQueueId := BitVec.ofNat 32 (leAt m 4 (o + 4))
  numQueues := BitVec.ofNat 32 (leAt m 4 (o + 8))

/-- `struct idpf_queue_id_reg_info`; the list is `none` where its pointer is NULL. -/
structure QidRegInfo where
  numChunks : Nat
  queueChunks : Option (List QueueChunk)
  deriving DecidableEq, Repr

def QidRegInfo.consistent (q : QidRegInfo) : Prop := q.numChunks = (q.queueChunks.getD []).length

/-- `idpf_vport_init_queue_reg_chunks` on the header at `hdr`. It gives whether it fails, the
entries that it reads, and the stored chunks. -/
def initQueueRegChunks (m : Bytes) (hdr : Nat) (kcalloc : Bool) : Bool × List Nat × QidRegInfo :=
  if kcalloc then
    let reads := entriesRead (hdr + 8) (chunkCount m hdr)
    (false, reads, ⟨chunkCount m hdr, some (reads.map (readQueueChunk m))⟩)
  else (true, [], ⟨0, none⟩)

/-- `struct idpf_adi_q`. -/
structure AdiQ where
  qid : BitVec 32
  tailReg : BitVec 64
  deriving DecidableEq, Repr

/-- `struct idpf_adi_queue_info`: an array and a count for each kind of queue. -/
structure AdiQueueInfo where
  q : QueueKind → List AdiQ
  num : QueueKind → Nat

namespace AdiQueueInfo

def room : QueueKind → Nat
  | .buf => 128
  | _ => 64

/-- VIRTCHNL2_QUEUE_TYPE of each kind. -/
def typeCode : QueueKind → BitVec 32
  | .tx => 0
  | .rx => 1
  | .compl => 2
  | .buf => 3

/-- The arrays have the length they were allocated with, and the counts stay within it. -/
def consistent (a : AdiQueueInfo) : Prop := ∀ k, (a.q k).length = room k ∧ a.num k ≤ room k

end AdiQueueInfo

/-- The inner loop of `__idpf_adi_qid_reg_init`, over the queues of one chunk. -/
def adiFillChunk (numQids : Nat) (spacing : BitVec 32) :
    Nat → BitVec 32 → BitVec 64 → List AdiQ × Nat → List AdiQ × Nat
  | 0, _, _, st => st
  | todo + 1, qid, reg, (q, filled) =>
    if filled < numQids then
      adiFillChunk numQids spacing todo (qid + 1) (reg + spacing.setWidth 64)
        (q.set filled ⟨qid, reg⟩, filled + 1)
    else (q, filled)

/-- `__idpf_adi_qid_reg_init` -/
def adiFill (numQids : Nat) (type : BitVec 32) : List QueueChunk → List AdiQ × Nat → List AdiQ × Nat
  | [], st => st
  | c :: chunks, st =>
    if c.type = type then
      adiFill numQids type chunks
        (adiFillChunk numQids c.qtailRegSpacing c.numQueues.toNat c.startQueueId c.qtailRegStart st)
    else adiFill numQids type chunks st

/-- `idpf_adi_qid_reg_init` for the kinds that are left: it stops at the first that gets no queue.
-/
def adiQidRegInit (chunks : List QueueChunk) : List QueueKind → AdiQueueInfo → Bool × AdiQueueInfo
  | [], a => (false, a)
  | k :: ks, a =>
    let filled := adiFill (AdiQueueInfo.room k) (AdiQueueInfo.typeCode k) chunks (a.q k, 0)
    let a : AdiQueueInfo :=
      { q := Function.update a.q k filled.1
        num := Function.update a.num k filled.2 }
    if filled.2 = 0 then (true, a) else adiQidRegInit chunks ks a

def adiKinds : List QueueKind := [.tx, .rx, .compl, .buf]

/-- What the driver keeps of the replies: the queue chunks by vport, the reply to ALLOC_VECTORS as
it came, and the queues by ADI. `fault` is set where a release walks a list that is not there or
is shorter than its count; `allocated` is whether `idpf_intr_req` has its vectors and is not yet
at its end. -/
structure ChunkStore where
  qInfo : Nat → QidRegInfo
  reqVecChunks : Option (List (BitVec 8))
  allocated : Bool
  msixEntries : Bool
  adi : Nat → AdiQueueInfo
  fault : Bool

/-- The end of an operation: whether it fails, the entries of the reply that it read, and what is
kept. -/
structure ChunkTurn where
  failed : Bool
  reads : List Nat
  store : ChunkStore

/-- What the messages and allocations of idpf_adi_create come to, other than the reply. -/
structure AdiEnv where
  prepared : Bool
  duplicate : Bool
  stored : Bool
  deriving DecidableEq, Repr

/-- `max_mtu` of a reply to CREATE_VPORT less IDPF_PACKET_HDR_PAD is at least ETH_MIN_MTU, in the
16 bits of `vport->max_mtu`. -/
def mtuFits (m : Bytes) : Bool := 68 ≤ (leAt m 2 18 + 65536 - 26) % 65536

/-- The counts in a reply to ADD_QUEUES. -/
def addedQueues (m : Bytes) : QueueKind → Nat
  | .tx => leAt m 2 4
  | .compl => leAt m 2 6
  | .rx => leAt m 2 8
  | .buf => leAt m 2 10

def asRequested (m : Bytes) (req : QueueKind → Nat) : Bool :=
  addedQueues m .tx = req .tx && addedQueues m .rx = req .rx &&
    addedQueues m .compl = req .compl && addedQueues m .buf = req .buf

/-- A byte of the stored reply, and 0 behind its end. -/
def storedBytes (b : List (BitVec 8)) : Bytes := fun i => b.getD i 0

namespace ChunkStore

def refuse (s : ChunkStore) : ChunkTurn := ⟨true, [], s⟩

/-- CREATE_VPORT, from `idpf_send_create_vport_msg` to the check of the MTU in `idpf_vport_init`.
Nothing compares the length of the reply with the count in it. -/
def createVport (s : ChunkStore) (i : Nat) (kcalloc : Bool) : Option ChunkReply → ChunkTurn
  | none => s.refuse
  | some r =>
    let m := r.buffer zeroed
    let (failed, reads, q) := initQueueRegChunks m 152 kcalloc
    if failed then ⟨true, reads, { s with qInfo := Function.update s.qInfo i q }⟩
    else if mtuFits m then ⟨false, reads, { s with qInfo := Function.update s.qInfo i q }⟩
    else ⟨true, reads, { s with qInfo := Function.update s.qInfo i ⟨0, none⟩ }⟩

/-- `idpf_send_add_queues_msg` -/
def addQueues (s : ChunkStore) (i : Nat) (req : QueueKind → Nat) (kcalloc : Bool) :
    Option ChunkReply → ChunkTurn
  | none => s.refuse
  | some r =>
    let m := r.buffer zeroed
    if !asRequested m req then s.refuse
    else if r.len.toNat < 24 + 32 * chunkCount m 16 then s.refuse
    else
      let (failed, reads, q) := initQueueRegChunks m 16 kcalloc
      ⟨failed, reads, { s with qInfo := Function.update s.qInfo i q }⟩

/-- `idpf_send_alloc_vectors_msg` -/
def allocVectors (s : ChunkStore) (num : Nat) (kzalloc : Bool) : Option ChunkReply → ChunkTurn
  | none => s.refuse
  | some r =>
    let m := r.buffer zeroed
    let size := 32 + 32 * chunkCount m 16
    if r.len.toNat < size then s.refuse
    else if 4096 < size then s.refuse
    else if !kzalloc then ⟨true, [], { s with reqVecChunks := none }⟩
    else
      let reads := entriesRead 32 (chunkCount m 16)
      if leAt m 2 0 < num then ⟨true, reads, { s with reqVecChunks := none }⟩
      else
        ⟨false, reads, { s with
          reqVecChunks := some ((List.range size).map m)
          allocated := true }⟩

/-- `idpf_send_dealloc_vectors_msg` walks the stored reply by the count in it, and keeps it if the
message fails. -/
def deallocVectors (s : ChunkStore) (sent : Bool) : ChunkStore :=
  match s.reqVecChunks with
  | none => { s with fault := true }
  | some b =>
    if b.length < 32 + 32 * chunkCount (storedBytes b) 16 then { s with fault := true }
    else if sent then { s with reqVecChunks := none }
    else s

/-- The rest of `idpf_intr_req`: where it fails the vectors go back. -/
def intrEnd (s : ChunkStore) (success sent : Bool) : ChunkStore :=
  if success then
    { s with
      allocated := false
      msixEntries := true }
  else { s.deallocVectors sent with allocated := false }

/-- `idpf_intr_rel` -/
def intrRel (s : ChunkStore) (sent : Bool) : ChunkStore :=
  if s.msixEntries then { s.deallocVectors sent with msixEntries := false } else s

/-- `idpf_send_delete_queues_msg`, as do the messages that enable and disable queues, walks the
stored chunks by the stored count. -/
def deleteQueues (s : ChunkStore) (i : Nat) : ChunkStore :=
  if ((s.qInfo i).queueChunks.getD []).length < (s.qInfo i).numChunks then { s with fault := true }
  else s

/-- `idpf_vport_deinit_queue_reg_chunks` -/
def deinitQueueRegChunks (s : ChunkStore) (i : Nat) : ChunkStore :=
  { s with qInfo := Function.update s.qInfo i ⟨0, none⟩ }

/-- `idpf_adi_create`: the reply comes into the buffer of the request, and only its fixed part is
compared with the length. -/
def createAdi (s : ChunkStore) (i : Nat) (e : AdiEnv) (request : Bytes) :
    Option ChunkReply → ChunkTurn
  | none => s.refuse
  | some r =>
    if !e.prepared then s.refuse
    else if r.len.toNat < 168 then s.refuse
    else
      let m := r.buffer request
      let reads := entriesRead 88 (chunkCount m 80)
      let (failed, a) := adiQidRegInit (reads.map (readQueueChunk m)) adiKinds (s.adi i)
      ⟨failed || e.duplicate || !e.stored, reads, { s with adi := Function.update s.adi i a }⟩

end ChunkStore

/-- The operations on what is kept. A reply is `none` where the message fails. -/
inductive ChunkOp where
  | createVport (i : Nat) (kcalloc : Bool) (r : Option ChunkReply)
  | addQueues (i : Nat) (req : QueueKind → Nat) (kcalloc : Bool) (r : Option ChunkReply)
  | allocVectors (num : Nat) (kzalloc : Bool) (r : Option ChunkReply)
  | intrEnd (success sent : Bool)
  | createAdi (i : Nat) (e : AdiEnv) (request : Bytes) (r : Option ChunkReply)
  | deleteQueues (i : Nat)
  | deinitQueueRegChunks (i : Nat)
  | intrRel (sent : Bool)

def ChunkOp.reply : ChunkOp → Option ChunkReply
  | .createVport _ _ r => r
  | .addQueues _ _ _ r => r
  | .allocVectors _ _ r => r
  | .createAdi _ _ _ r => r
  | _ => none

namespace ChunkStore

/-- An operation; `idpf_intr_req` runs first or after `idpf_intr_rel`, and to its end. -/
def turn (s : ChunkStore) : ChunkOp → Option ChunkTurn
  | .createVport i kcalloc r => some (s.createVport i kcalloc r)
  | .addQueues i req kcalloc r => some (s.addQueues i req kcalloc r)
  | .allocVectors num kzalloc r =>
    if s.msixEntries || s.allocated then none else some (s.allocVectors num kzalloc r)
  | .intrEnd success sent =>
    if s.allocated then some ⟨false, [], s.intrEnd success sent⟩ else none
  | .createAdi i e request r => some (s.createAdi i e request r)
  | .deleteQueues i => some ⟨false, [], s.deleteQueues i⟩
  | .deinitQueueRegChunks i => some ⟨false, [], s.deinitQueueRegChunks i⟩
  | .intrRel sent => if s.allocated then none else some ⟨false, [], s.intrRel sent⟩

def step (s : ChunkStore) (o : ChunkOp) : Option ChunkStore := (s.turn o).map ChunkTurn.store

def start : ChunkStore where
  qInfo := fun _ => ⟨0, none⟩
  reqVecChunks := none
  allocated := false
  msixEntries := false
  adi := fun _ => ⟨fun k => List.replicate (AdiQueueInfo.room k) ⟨0, 0⟩, fun _ => 0⟩
  fault := false

/-- Every stored list is as long as its count says, vectors that are in use can be released, and
no release walked anything else. -/
structure Consistent (s : ChunkStore) : Prop where
  queues : ∀ i, (s.qInfo i).consistent
  vectors : ∀ b, s.reqVecChunks = some b → b.length = 32 + 32 * chunkCount (storedBytes b) 16
  held : s.msixEntries = true ∨ s.allocated = true → s.reqVecChunks ≠ none
  once : s.allocated = true → s.msixEntries = false
  adi : ∀ i, (s.adi i).consistent
  walked : s.fault = false

/-- How an operation leaves what is kept: consistent, and after a failure as it was or cleared. -/
structure Settled (s : ChunkStore) (t : ChunkTurn) : Prop where
  consistent : t.store.Consistent
  queuesKept : t.failed = true →
    ∀ i, t.store.qInfo i = s.qInfo i ∨ t.store.qInfo i = ⟨0, none⟩
  vectorsKept : t.failed = true →
    t.store.reqVecChunks = s.reqVecChunks ∨ t.store.reqVecChunks = none

end ChunkStore

/-- The entries that the operation reads lie within what was received, also where it fails later. -/
def ChunkTurn.within (t : ChunkTurn) (o : ChunkOp) : Prop :=
  ∀ r, o.reply = some r → ∀ off ∈ t.reads, off + 32 ≤ r.received

/-- `n` entries from `first` on lie within what was received. -/
def ChunkReply.covers (r : ChunkReply) (first n : Nat) : Bool :=
  n = 0 || first + 32 * n ≤ r.received

/-- The replies of which an operation reads only what was received. For CREATE_VPORT and CREATE_ADI,
and for ADD_QUEUES with a length beyond the receive buffer, the entries have to lie within what was
received unless the operation fails before it comes to them. -/
def ChunkOp.fits : ChunkOp → Bool
  | .createVport _ kcalloc (some r) => !kcalloc || r.covers 160 (chunkCount (r.buffer zeroed) 152)
  | .addQueues _ req kcalloc (some r) =>
    let m := r.buffer zeroed
    !kcalloc || !asRequested m req || r.len.toNat < 24 + 32 * chunkCount m 16 ||
      r.covers 24 (chunkCount m 16)
  | .createAdi _ e request (some r) =>
    !e.prepared || r.len.toNat < 168 || r.covers 88 (chunkCount (r.buffer request) 80)
  | _ => true

theorem leAt_congr {m m' : Bytes} {n o : Nat} (same : ∀ i, o ≤ i → i < o + n → m i = m' i) :
    leAt m n o = leAt m' n o := by
  induction n generalizing o with
  | zero => rfl
  | succ n ih =>
      unfold leAt
      rw [same o (Nat.le_refl o) (by omega), ih fun i above below => same i (by omega) (by omega)]

theorem leAt_eq_iff {m m' : Bytes} {n o o' : Nat} :
    leAt m n o = leAt m' n o' ↔ ∀ i < n, m (o + i) = m' (o' + i) := by
  induction n generalizing o o' with
  | zero => exact ⟨fun _ i below => absurd below (Nat.not_lt_zero i), fun _ => rfl⟩
  | succ n ih =>
      unfold leAt
      have low := (m o).isLt
      have low' := (m' o').isLt
      constructor
      · intro same
        have first : (m o).toNat = (m' o').toNat := by omega
        have rest := ih.mp (by omega : leAt m n (o + 1) = leAt m' n (o' + 1))
        intro i below
        cases i with
        | zero => exact BitVec.eq_of_toNat_eq first
        | succ i =>
            have same := rest i (Nat.lt_of_succ_lt_succ below)
            rw [Nat.add_assoc, Nat.add_assoc, Nat.add_comm 1] at same
            exact same
      · intro same
        have first : m o = m' o' := same 0 (Nat.succ_pos n)
        have rest : leAt m n (o + 1) = leAt m' n (o' + 1) := ih.mpr fun i below => by
          rw [Nat.add_assoc, Nat.add_assoc, Nat.add_comm 1]
          exact same (i + 1) (Nat.succ_lt_succ below)
        rw [first, rest]

theorem entriesRead_within {r : ChunkReply} {first n : Nat} :
    (∀ off ∈ entriesRead first n, off + 32 ≤ r.received) ↔ r.covers first n = true := by
  simp only [entriesRead, List.mem_map, List.mem_range, ChunkReply.covers, Bool.or_eq_true,
    decide_eq_true_eq]
  constructor
  · intro within
    cases n with
    | zero => exact .inl rfl
    | succ n =>
        right
        have last := within _ ⟨n, Nat.lt_succ_self n, rfl⟩
        omega
  · rintro (rfl | covered) off ⟨i, inside, rfl⟩
    · exact absurd inside (Nat.not_lt_zero i)
    · omega

theorem entriesRead_length (first n : Nat) : (entriesRead first n).length = n := by
  rw [entriesRead, List.length_map, List.length_range]

theorem initQueueRegChunks_consistent (m : Bytes) (hdr : Nat) (kcalloc : Bool) :
    (initQueueRegChunks m hdr kcalloc).2.2.consistent := by
  cases kcalloc with
  | false => rfl
  | true =>
      change chunkCount m hdr =
        ((entriesRead (hdr + 8) (chunkCount m hdr)).map (readQueueChunk m)).length
      rw [List.length_map, entriesRead_length]

theorem adiFillChunk_spec {numQids : Nat} (spacing : BitVec 32) (todo : Nat) (qid : BitVec 32)
    (reg : BitVec 64) (q : List AdiQ) {filled : Nat} (fits : filled ≤ numQids) :
    (adiFillChunk numQids spacing todo qid reg (q, filled)).1.length = q.length ∧
      (adiFillChunk numQids spacing todo qid reg (q, filled)).2 = min numQids (filled + todo) := by
  induction todo generalizing qid reg q filled with
  | zero => exact ⟨rfl, (Nat.min_eq_right fits).symm⟩
  | succ todo ih =>
      unfold adiFillChunk
      split
      next room =>
        obtain ⟨length, count⟩ := ih (qid + 1) (reg + spacing.setWidth 64)
          (q.set filled ⟨qid, reg⟩) (Nat.succ_le_of_lt room)
        rw [length, count, List.length_set]
        constructor
        · rfl
        · congr 1
          omega
      next full =>
        constructor
        · rfl
        · change filled = _
          omega

def typeTotal (type : BitVec 32) (chunks : List QueueChunk) : Nat :=
  ((chunks.filter fun c => c.type = type).map fun c => c.numQueues.toNat).sum

theorem adiFill_spec {numQids : Nat} (type : BitVec 32) (chunks : List QueueChunk)
    (q : List AdiQ) {filled : Nat} (fits : filled ≤ numQids) :
    (adiFill numQids type chunks (q, filled)).1.length = q.length ∧
      (adiFill numQids type chunks (q, filled)).2 =
        min numQids (filled + typeTotal type chunks) := by
  induction chunks generalizing q filled with
  | nil => exact ⟨rfl, (Nat.min_eq_right fits).symm⟩
  | cons c chunks ih =>
      unfold adiFill
      split
      next same =>
        obtain ⟨length, count⟩ := adiFillChunk_spec c.qtailRegSpacing c.numQueues.toNat
          c.startQueueId c.qtailRegStart q fits
        obtain ⟨length', count'⟩ := ih (adiFillChunk numQids c.qtailRegSpacing c.numQueues.toNat
          c.startQueueId c.qtailRegStart (q, filled)).1 (count ▸ Nat.min_le_left _ _)
        constructor
        · rw [← length]
          exact length'
        · rw [Prod.mk.eta] at count'
          rw [count', count]
          simp only [typeTotal, same, List.filter_cons_of_pos, decide_true, List.map_cons,
            List.sum_cons]
          omega
      next other =>
        obtain ⟨length, count⟩ := ih q fits
        constructor
        · exact length
        · rw [count]
          simp only [typeTotal, other, List.filter_cons_of_neg, decide_false, Bool.false_eq_true,
            not_false_eq_true]

theorem AdiQueueInfo.consistent.adiQidRegInit {chunks : List QueueChunk} {ks : List QueueKind}
    {a : AdiQueueInfo} (keeps : a.consistent) :
    (Idpf.adiQidRegInit chunks ks a).2.consistent := by
  induction ks generalizing a with
  | nil => exact keeps
  | cons k ks ih =>
      unfold Idpf.adiQidRegInit
      dsimp only
      obtain ⟨length, count⟩ := adiFill_spec (AdiQueueInfo.typeCode k) chunks (a.q k)
        (Nat.zero_le (AdiQueueInfo.room k))
      have next : AdiQueueInfo.consistent
          { q := Function.update a.q k
              (adiFill (room k) (typeCode k) chunks (a.q k, 0)).1
            num := Function.update a.num k
              (adiFill (room k) (typeCode k) chunks (a.q k, 0)).2 } := by
        intro j
        by_cases same : j = k
        · subst same
          simp only [Function.update_self]
          rw [length, count]
          exact ⟨(keeps j).1, Nat.min_le_left _ _⟩
        · simp only [Function.update_of_ne same]
          exact keeps j
      split
      · exact next
      · exact ih next

namespace ChunkStore

variable {s : ChunkStore} {i : Nat} {kcalloc : Bool} {r : ChunkReply}

theorem Consistent.setQueues {q : QidRegInfo} (cons : s.Consistent) (same : q.consistent)
    (i : Nat) : ({ s with qInfo := Function.update s.qInfo i q } : ChunkStore).Consistent := by
  refine { cons with queues := ?_ }
  intro j
  change (Function.update s.qInfo i q j).consistent
  by_cases here : j = i
  · subst here
    rwa [Function.update_self]
  · rw [Function.update_of_ne here]
    exact cons.queues j

theorem setQueues_kept (s : ChunkStore) (i j : Nat) :
    Function.update s.qInfo i ⟨0, none⟩ j = s.qInfo j ∨
      Function.update s.qInfo i ⟨0, none⟩ j = ⟨0, none⟩ := by
  by_cases here : j = i
  · subst here
    right
    exact Function.update_self ..
  · left
    exact Function.update_of_ne here ..

theorem Consistent.refuse (cons : s.Consistent) : s.Settled s.refuse where
  consistent := cons
  queuesKept := fun _ _ => .inl rfl
  vectorsKept := fun _ => .inl rfl

theorem settled_of_success {reads : List Nat} {s' : ChunkStore} (cons : s'.Consistent) :
    s.Settled ⟨false, reads, s'⟩ where
  consistent := cons
  queuesKept := fun failed => Bool.noConfusion failed
  vectorsKept := fun failed => Bool.noConfusion failed

theorem Consistent.clearQueues (cons : s.Consistent) (reads : List Nat) :
    s.Settled ⟨true, reads, { s with qInfo := Function.update s.qInfo i ⟨0, none⟩ }⟩ where
  consistent := cons.setQueues (q := ⟨0, none⟩) rfl i
  queuesKept := fun _ j => s.setQueues_kept i j
  vectorsKept := fun _ => .inl rfl

theorem within_nil {o : ChunkOp} {failed : Bool} {s' : ChunkStore} :
    (⟨failed, [], s'⟩ : ChunkTurn).within o := fun _ _ _ member => absurd member List.not_mem_nil

theorem within_iff {o : ChunkOp} {t : ChunkTurn} (some : o.reply = some r) :
    t.within o ↔ ∀ off ∈ t.reads, off + 32 ≤ r.received := by
  constructor
  · exact fun within => within r some
  · intro within r' some'
    rw [some] at some'
    rw [← Option.some.inj some']
    exact within

theorem Consistent.createVport (cons : s.Consistent) :
    s.Settled (s.createVport i kcalloc (some r)) := by
  have stored := initQueueRegChunks_consistent (r.buffer zeroed) 152 kcalloc
  cases kcalloc with
  | false => exact cons.clearQueues []
  | true =>
      simp only [ChunkStore.createVport, initQueueRegChunks, if_true, Bool.false_eq_true,
        if_false] at stored ⊢
      split
      · exact settled_of_success (cons.setQueues stored i)
      · exact cons.clearQueues _

theorem createVport_within :
    (s.createVport i kcalloc (some r)).within (.createVport i kcalloc (some r)) ↔
      (ChunkOp.createVport i kcalloc (some r)).fits = true := by
  cases kcalloc with
  | false => exact iff_of_true within_nil rfl
  | true =>
      have reads : (s.createVport i true (some r)).reads =
          entriesRead 160 (chunkCount (r.buffer zeroed) 152) := by
        simp only [ChunkStore.createVport, initQueueRegChunks, if_true, Bool.false_eq_true,
          if_false]
        split <;> rfl
      rw [within_iff rfl, reads]
      exact entriesRead_within

theorem Consistent.addQueues {req : QueueKind → Nat} (cons : s.Consistent) :
    s.Settled (s.addQueues i req kcalloc (some r)) := by
  have stored := initQueueRegChunks_consistent (r.buffer zeroed) 16 kcalloc
  simp only [ChunkStore.addQueues]
  split
  · exact cons.refuse
  · split
    · exact cons.refuse
    · cases kcalloc with
      | false => exact cons.clearQueues []
      | true => exact settled_of_success (cons.setQueues stored i)

theorem addQueues_within {req : QueueKind → Nat} :
    (s.addQueues i req kcalloc (some r)).within (.addQueues i req kcalloc (some r)) ↔
      (ChunkOp.addQueues i req kcalloc (some r)).fits = true := by
  simp only [ChunkOp.fits, ChunkStore.addQueues]
  cases asRequested (r.buffer zeroed) req with
  | false =>
      simp only [Bool.not_false, Bool.or_true, Bool.true_or, if_true, iff_true]
      exact within_nil
  | true =>
      simp only [Bool.not_true, Bool.or_false, Bool.false_eq_true, if_false]
      by_cases short : r.len.toNat < 24 + 32 * chunkCount (r.buffer zeroed) 16
      · simp only [short, if_true, decide_true, Bool.or_true, Bool.true_or, iff_true]
        exact within_nil
      · simp only [short, if_false, decide_false, Bool.or_false]
        cases kcalloc with
        | false => exact iff_of_true within_nil rfl
        | true =>
            simp only [Bool.not_true, Bool.false_or, initQueueRegChunks, if_true]
            rw [within_iff rfl]
            exact entriesRead_within

theorem leAt_stored {m : Bytes} {size n o : Nat} (inside : o + n ≤ size) :
    leAt (storedBytes ((List.range size).map m)) n o = leAt m n o := by
  refine leAt_congr fun i above below => ?_
  have inner : i < size := by omega
  simp [storedBytes, List.getD_eq_getElem?_getD, inner]

theorem Consistent.allocVectors {num : Nat} {kzalloc : Bool} (cons : s.Consistent)
    (idle : (s.msixEntries || s.allocated) = false) :
    s.Settled (s.allocVectors num kzalloc (some r)) := by
  obtain ⟨unused, free⟩ := Bool.or_eq_false_iff.mp idle
  have dropped : ∀ reads, s.Settled ⟨true, reads, { s with reqVecChunks := none }⟩ := by
    intro reads
    constructor
    · constructor
      · exact cons.queues
      · exact fun b some => absurd some.symm (Option.some_ne_none b)
      · rintro (used | busy)
        · exact Bool.noConfusion (unused.symm.trans used)
        · exact Bool.noConfusion (free.symm.trans busy)
      · exact cons.once
      · exact cons.adi
      · exact cons.walked
    · exact fun _ _ => .inl rfl
    · exact fun _ => .inr rfl
  simp only [ChunkStore.allocVectors]
  split
  · exact cons.refuse
  · split
    · exact cons.refuse
    · split
      · exact dropped []
      · split
        · exact dropped _
        · apply settled_of_success
          constructor
          · exact cons.queues
          · intro b stored
            obtain rfl := Option.some.inj stored
            have inside : 16 + 2 ≤ 32 + 32 * chunkCount (r.buffer zeroed) 16 := by omega
            change _ = 32 + 32 * leAt (storedBytes _) 2 16
            rw [leAt_stored inside, List.length_map, List.length_range]
            rfl
          · intro _ none
            exact absurd none (Option.some_ne_none _)
          · exact fun _ => unused
          · exact cons.adi
          · exact cons.walked

theorem allocVectors_within {num : Nat} {kzalloc : Bool} :
    (s.allocVectors num kzalloc (some r)).within (.allocVectors num kzalloc (some r)) := by
  simp only [ChunkStore.allocVectors]
  split
  · exact within_nil
  next long =>
    split
    · exact within_nil
    next small =>
      split
      · exact within_nil
      · have covered : r.covers 32 (chunkCount (r.buffer zeroed) 16) = true := by
          simp only [ChunkReply.covers, ChunkReply.received, Bool.or_eq_true, decide_eq_true_eq]
          right
          apply decide_eq_true
          apply Nat.le_min.mpr
          constructor
          · exact Nat.not_lt.mp small
          · exact Nat.not_lt.mp long
        split
        · exact (within_iff rfl).mpr (entriesRead_within.mpr covered)
        · exact (within_iff rfl).mpr (entriesRead_within.mpr covered)

theorem Consistent.createAdi {e : AdiEnv} {request : Bytes} (cons : s.Consistent) :
    s.Settled (s.createAdi i e request (some r)) := by
  simp only [ChunkStore.createAdi]
  split
  · exact cons.refuse
  · split
    · exact cons.refuse
    · constructor
      · refine { cons with adi := ?_ }
        intro j
        change (Function.update s.adi i _ j).consistent
        by_cases here : j = i
        · subst here
          rw [Function.update_self]
          exact (cons.adi j).adiQidRegInit
        · rw [Function.update_of_ne here]
          exact cons.adi j
      · exact fun _ _ => .inl rfl
      · exact fun _ => .inl rfl

theorem createAdi_within {e : AdiEnv} {request : Bytes} :
    (s.createAdi i e request (some r)).within (.createAdi i e request (some r)) ↔
      (ChunkOp.createAdi i e request (some r)).fits = true := by
  simp only [ChunkOp.fits, ChunkStore.createAdi]
  cases e.prepared with
  | false =>
      simp only [Bool.not_false, Bool.true_or, if_true, iff_true]
      exact within_nil
  | true =>
      simp only [Bool.not_true, Bool.false_or, Bool.false_eq_true, if_false]
      by_cases short : r.len.toNat < 168
      · simp only [short, if_true, decide_true, Bool.true_or, iff_true]
        exact within_nil
      · simp only [short, if_false, decide_false, Bool.false_or]
        rw [within_iff rfl]
        exact entriesRead_within

theorem Consistent.deallocVectors {sent : Bool} (cons : s.Consistent)
    (there : s.reqVecChunks ≠ none) :
    s.deallocVectors sent = { s with reqVecChunks := if sent then none else s.reqVecChunks } := by
  unfold ChunkStore.deallocVectors
  split
  next none => exact absurd none there
  next b some =>
    have length := cons.vectors b some
    rw [if_neg (by omega)]
    cases sent with
    | true => rfl
    | false =>
        simp only [Bool.false_eq_true, if_false]

theorem Consistent.released (cons : s.Consistent) (sent : Bool) :
    ({ s with
      reqVecChunks := if sent then none else s.reqVecChunks
      allocated := false
      msixEntries := false } : ChunkStore).Consistent := by
  constructor
  · exact cons.queues
  · intro b stored
    cases sent with
    | true => exact absurd stored.symm (Option.some_ne_none b)
    | false => exact cons.vectors b stored
  · rintro (used | busy)
    · exact Bool.noConfusion used
    · exact Bool.noConfusion busy
  · exact fun _ => rfl
  · exact cons.adi
  · exact cons.walked

theorem Consistent.intrEnd {success sent : Bool} (cons : s.Consistent)
    (busy : s.allocated = true) : (s.intrEnd success sent).Consistent := by
  have there := cons.held (.inr busy)
  cases success with
  | true =>
      constructor
      · exact cons.queues
      · exact cons.vectors
      · exact fun _ => there
      · exact fun busy => Bool.noConfusion busy
      · exact cons.adi
      · exact cons.walked
  | false =>
      unfold ChunkStore.intrEnd
      rw [if_neg Bool.false_ne_true, cons.deallocVectors there]
      dsimp only
      rw [cons.once busy]
      exact cons.released sent

theorem Consistent.intrRel {sent : Bool} (cons : s.Consistent) (idle : s.allocated = false) :
    (s.intrRel sent).Consistent := by
  unfold ChunkStore.intrRel
  split
  next used =>
    rw [cons.deallocVectors (cons.held (.inl used))]
    dsimp only
    rw [idle]
    exact cons.released sent
  · exact cons

theorem Consistent.deleteQueues (cons : s.Consistent) : s.deleteQueues i = s := by
  have length := cons.queues i
  unfold QidRegInfo.consistent at length
  unfold ChunkStore.deleteQueues
  rw [if_neg (by omega)]

theorem Consistent.turn {o : ChunkOp} {t : ChunkTurn} (cons : s.Consistent)
    (turn : s.turn o = some t) : s.Settled t := by
  cases o with
  | createVport i kcalloc r =>
      obtain rfl := Option.some.inj turn
      cases r with
      | none => exact cons.refuse
      | some r => exact cons.createVport
  | addQueues i req kcalloc r =>
      obtain rfl := Option.some.inj turn
      cases r with
      | none => exact cons.refuse
      | some r => exact cons.addQueues
  | allocVectors num kzalloc r =>
      simp only [ChunkStore.turn, Option.ite_none_left_eq_some, Option.some.injEq] at turn
      obtain ⟨idle, rfl⟩ := turn
      cases r with
      | none => exact cons.refuse
      | some r => exact cons.allocVectors (Bool.eq_false_iff.mpr idle)
  | intrEnd success sent =>
      simp only [ChunkStore.turn, Option.ite_none_right_eq_some, Option.some.injEq] at turn
      obtain ⟨busy, rfl⟩ := turn
      exact settled_of_success (cons.intrEnd busy)
  | createAdi i e request r =>
      obtain rfl := Option.some.inj turn
      cases r with
      | none => exact cons.refuse
      | some r => exact cons.createAdi
  | deleteQueues i =>
      obtain rfl := Option.some.inj turn
      rw [cons.deleteQueues]
      exact settled_of_success cons
  | deinitQueueRegChunks i =>
      obtain rfl := Option.some.inj turn
      exact settled_of_success (cons.setQueues (q := ⟨0, none⟩) rfl i)
  | intrRel sent =>
      simp only [ChunkStore.turn, Option.ite_none_left_eq_some, Option.some.injEq] at turn
      obtain ⟨idle, rfl⟩ := turn
      exact settled_of_success (cons.intrRel (Bool.eq_false_iff.mpr idle))

/-- An operation reads only what was received exactly if its reply fits. -/
theorem turn_within {o : ChunkOp} {t : ChunkTurn} (turn : s.turn o = some t) :
    t.within o ↔ o.fits = true := by
  cases o with
  | createVport i kcalloc r =>
      obtain rfl := Option.some.inj turn
      cases r with
      | none => exact iff_of_true within_nil rfl
      | some r => exact createVport_within
  | addQueues i req kcalloc r =>
      obtain rfl := Option.some.inj turn
      cases r with
      | none => exact iff_of_true within_nil rfl
      | some r => exact addQueues_within
  | allocVectors num kzalloc r =>
      simp only [ChunkStore.turn, Option.ite_none_left_eq_some, Option.some.injEq] at turn
      obtain ⟨idle, rfl⟩ := turn
      cases r with
      | none => exact iff_of_true within_nil rfl
      | some r => exact iff_of_true allocVectors_within rfl
  | intrEnd success sent =>
      simp only [ChunkStore.turn, Option.ite_none_right_eq_some, Option.some.injEq] at turn
      obtain ⟨busy, rfl⟩ := turn
      exact iff_of_true within_nil rfl
  | createAdi i e request r =>
      obtain rfl := Option.some.inj turn
      cases r with
      | none => exact iff_of_true within_nil rfl
      | some r => exact createAdi_within
  | deleteQueues i =>
      obtain rfl := Option.some.inj turn
      exact iff_of_true within_nil rfl
  | deinitQueueRegChunks i =>
      obtain rfl := Option.some.inj turn
      exact iff_of_true within_nil rfl
  | intrRel sent =>
      simp only [ChunkStore.turn, Option.ite_none_left_eq_some, Option.some.injEq] at turn
      obtain ⟨idle, rfl⟩ := turn
      exact iff_of_true within_nil rfl

theorem start_consistent : start.Consistent where
  queues := fun _ => rfl
  vectors := fun b some => absurd some.symm (Option.some_ne_none b)
  held := by
    rintro (used | busy)
    · exact Bool.noConfusion used
    · exact Bool.noConfusion busy
  once := fun _ => rfl
  adi := fun _ k => ⟨List.length_replicate, Nat.zero_le _⟩
  walked := rfl

theorem consistent_of_reachable (reach : Reachable step anyStep (· = start) s) : s.Consistent := by
  apply reach.invariant
  · rintro _ rfl
    exact start_consistent
  · intro s o s' cons _ run
    obtain ⟨t, turn, rfl⟩ := Option.map_eq_some_iff.mp run
    exact (cons.turn turn).consistent

/-- An operation whose reply does not fit can come first. -/
theorem turn_of_misfit {o : ChunkOp} (misfit : o.fits ≠ true) : ∃ t, start.turn o = some t := by
  cases o with
  | createVport => exact ⟨_, rfl⟩
  | addQueues => exact ⟨_, rfl⟩
  | allocVectors => exact ⟨_, rfl⟩
  | intrEnd => exact absurd rfl misfit
  | createAdi => exact ⟨_, rfl⟩
  | deleteQueues => exact ⟨_, rfl⟩
  | deinitQueueRegChunks => exact ⟨_, rfl⟩
  | intrRel => exact ⟨_, rfl⟩

end ChunkStore

open ChunkStore

/-- In any run an operation reads only entries within what it received, and leaves consistently
what it was or cleared after a failure, if and only if its reply fits. -/
theorem chunks_within_iff (o : ChunkOp) :
    (∀ s, Reachable ChunkStore.step anyStep (· = start) s → ∀ t, s.turn o = some t →
      t.within o ∧ s.Settled t) ↔ o.fits = true := by
  constructor
  · intro fine
    by_contra misfit
    obtain ⟨t, turn⟩ := turn_of_misfit misfit
    exact misfit ((turn_within turn).mp (fine start (.start rfl) t turn).1)
  · intro fits s reach t turn
    exact ⟨(turn_within turn).mpr fits, (consistent_of_reachable reach).turn turn⟩

def fullReply (len : BitVec 16) : ChunkReply := ⟨len, fun _ => 255, fun _ => 0⟩

/-- A reply to CREATE_VPORT that ends behind its count of chunks: 65535 chunks are read, of which
none was received. -/
theorem create_vport_reads_beyond :
    ¬ (∀ s, Reachable ChunkStore.step anyStep (· = start) s →
      ∀ t, s.turn (.createVport 0 true (some (fullReply 160))) = some t →
        t.within (.createVport 0 true (some (fullReply 160))) ∧ s.Settled t) := by
  intro fine
  have turn : start.turn (.createVport 0 true (some (fullReply 160))) =
      some (start.createVport 0 true (some (fullReply 160))) := rfl
  have within := (turn_within turn).mp (fine start (.start rfl) _ turn).1
  exact absurd within (by decide)

end Idpf
