import Idpf.Rx.Fields
import Idpf.Vport.ChunkReplies

/-! The packet types that the device tells: the records of its replies, and the two lookup tables
that `idpf_send_get_rx_ptype_msg` fills from them. -/
namespace Idpf

inductive TunnelType where
  | none | ipIp | ipGrenat | ipGrenatMac | ipGrenatMacVlan
  deriving DecidableEq, Repr

inductive TunnelEndProt where
  | none | ipv4 | ipv6
  deriving DecidableEq, Repr

/-- `struct idpf_rx_ptype_decoded`, with the fields that nothing but the parser sets. -/
structure RxPtDecoded extends RxPtype where
  outerFrag : Bool := false
  tunnelType : TunnelType := .none
  tunnelEndProt : TunnelEndProt := .none
  tunnelEndFrag : Bool := false
  deriving DecidableEq, Repr

/-- `struct idpf_ptype_state`. -/
structure PtypeState where
  outerIp : Bool := false
  outerFrag : Bool := false
  tunnelState : Nat := 0

/-- `idpf_fill_ptype_lookup`. -/
def fillPtypeLookup (p : RxPtDecoded) (s : PtypeState) (ipv4 frag : Bool) :
    RxPtDecoded × PtypeState :=
  if !s.outerIp || !s.outerFrag then
    ({ p with
        outerIp := true
        outerIpVer := if ipv4 then .ipv4 else .ipv6
        outerFrag := p.outerFrag || frag },
      { s with outerIp := true, outerFrag := s.outerFrag || frag })
  else
    ({ p with
        tunnelType := .ipIp
        tunnelEndProt := if ipv4 then .ipv4 else .ipv6
        tunnelEndFrag := p.tunnelEndFrag || frag },
      { s with tunnelState := 1 })

/-- A turn of the loop of `idpf_parse_protocol_ids`: GRE, MAC, the four kinds of IP, UDP, TCP, SCTP,
ICMP and the payload. -/
def parseProtocolId (x : RxPtDecoded × PtypeState) (id : Nat) : RxPtDecoded × PtypeState :=
  match id with
  | 49 =>
    if x.2.tunnelState = 1 then
      ({ x.1 with tunnelType := .ipGrenat },
        { x.2 with tunnelState := x.2.tunnelState ||| 2 })
    else x
  | 2 =>
    if x.2.tunnelState = 3 then
      ({ x.1 with outerIp := false, tunnelType := .ipGrenatMac },
        { x.2 with tunnelState := x.2.tunnelState ||| 4 })
    else ({ x.1 with outerIp := false }, x.2)
  | 19 => fillPtypeLookup x.1 x.2 true false
  | 21 => fillPtypeLookup x.1 x.2 false false
  | 20 => fillPtypeLookup x.1 x.2 true true
  | 22 => fillPtypeLookup x.1 x.2 false true
  | 24 => ({ x.1 with innerProt := .udp }, x.2)
  | 25 => ({ x.1 with innerProt := .tcp }, x.2)
  | 26 => ({ x.1 with innerProt := .sctp }, x.2)
  | 27 => ({ x.1 with innerProt := .icmp }, x.2)
  | 34 => ({ x.1 with payloadLayer := .pay2 }, x.2)
  | _ => x

/-- `idpf_parse_protocol_ids`. -/
def parseProtocolIds (ids : List Nat) (p : RxPtDecoded) : RxPtDecoded :=
  (ids.foldl parseProtocolId (p, {})).1

/-- `struct virtchnl2_ptype`. -/
structure PtypeRec where
  id10 : Nat
  id8 : Nat
  protoIds : List Nat
  deriving DecidableEq, Repr

namespace PtypeRec

def at_ (m : Bytes) (off : Nat) : PtypeRec where
  id10 := leAt m 2 off
  id8 := leAt m 1 (off + 2)
  protoIds := (List.range (leAt m 1 (off + 3))).map fun j => leAt m 2 (off + 6 + 2 * j)

/-- `IDPF_GET_PTYPE_SIZE`. -/
def size (r : PtypeRec) : Nat := 6 + 2 * r.protoIds.length

def decoded (r : PtypeRec) : RxPtDecoded :=
  parseProtocolIds r.protoIds { known := !r.protoIds.isEmpty }

end PtypeRec

/-- `splitq_pt_lkup` and `singleq_pt_lkup`. -/
structure PtypeTables where
  splitq : Nat → RxPtDecoded
  singleq : Nat → RxPtDecoded

namespace PtypeTables

/-- Both tables as kcalloc gives them. -/
def zero : PtypeTables := ⟨fun _ => {}, fun _ => {}⟩

def store (t : PtypeTables) (r : PtypeRec) : PtypeTables where
  splitq := Function.update t.splitq r.id10 r.decoded
  singleq :=
    if r.id8 < 256 ∧ (t.singleq r.id8).known = false then
      Function.update t.singleq r.id8 r.decoded
    else t.singleq

end PtypeTables

/-- What the parser touches: a byte of the buffer while it holds the reply to a request, and entries
of the tables. -/
inductive PtypeAccess where
  | reply (request off : Nat)
  | splitq (i : Nat)
  | singleq (i : Nat)
  deriving DecidableEq, Repr

/-- Where the walk over the records of a reply stops: behind the last one, at the end marker, or at
one that is refused. -/
inductive PtypeStop where
  | more | marker | refused
  deriving DecidableEq, Repr

structure PtypeWalk where
  log : List PtypeAccess
  tables : PtypeTables
  stop : PtypeStop

/-- The bytes of a field of `n`. -/
def fieldRead (k off n : Nat) : List PtypeAccess :=
  (List.range n).map fun i => .reply k (off + i)

/-- The inner loop of `idpf_send_get_rx_ptype_msg`, over the records that are left. -/
def walkPtypes (m : Bytes) (k : Nat) : Nat → Nat → PtypeTables → PtypeWalk
  | 0, _, t => ⟨[], t, .more⟩
  | n + 1, off, t =>
    let r := PtypeRec.at_ m off
    let log := fieldRead k off 4
    if 4096 < off + r.size then ⟨log, t, .refused⟩
    else if r.id10 = 0xffff then ⟨log, t, .marker⟩
    else if 1024 ≤ r.id10 then ⟨log, t, .refused⟩
    else
      let w := walkPtypes m k n (off + r.size) (t.store r)
      ⟨log ++ fieldRead k (off + 6) (2 * r.protoIds.length) ++
        .splitq r.id10 :: (if r.id8 < 256 then [.singleq r.id8] else []) ++ w.log,
        w.tables, w.stop⟩

/-- What a call meets: its four allocations, and the replies, of which a failed one is `none`. -/
structure PtypeEnv where
  alloc : Nat → Bool
  reply : Nat → Option ChunkReply

/-- The requests sent with the first ID and the count of each, what was touched, what is returned,
and the tables that the adapter gets. -/
structure PtypeRun where
  requests : List (Nat × Nat)
  log : List PtypeAccess
  ret : Int
  lkup : Option PtypeTables

/-- `IDPF_RX_MAX_PTYPES_PER_BUF`, of records of `IDPF_RX_MAX_PTYPE_SZ` bytes. -/
def maxPtypesPerBuf : Nat := (4096 - 8) / (6 + 2 * 31)

def ptypesAsked (next : Nat) : Nat :=
  if 1024 < next + maxPtypesPerBuf then 1024 - next else maxPtypesPerBuf

/-- The outer loop: `next` is the ID to ask for next, `recvd` the number of records declared so far
and `m` the receive buffer. -/
def ptypeTurns (e : PtypeEnv) : Nat → Nat → Nat → Nat → Bytes → PtypeTables → Option PtypeRun
  | 0, _, _, _, _, _ => none
  | fuel + 1, k, next, recvd, m, t =>
    if next < 1024 then
      let num := ptypesAsked next
      match e.reply k with
      | none => some ⟨[(next, num)], [], -22, none⟩
      | some reply =>
        let m := reply.buffer m
        let log := fieldRead k 2 2
        if 1024 < recvd + leAt m 2 2 then some ⟨[(next, num)], log, -22, none⟩
        else
          let w := walkPtypes m k (leAt m 2 2) 8 t
          match w.stop with
          | .refused => some ⟨[(next, num)], log ++ w.log, -22, none⟩
          | .marker => some ⟨[(next, num)], log ++ w.log, 0, some w.tables⟩
          | .more =>
            (ptypeTurns e fuel (k + 1) (next + num) (recvd + leAt m 2 2) m w.tables).map fun r =>
              { r with requests := (next, num) :: r.requests, log := log ++ w.log ++ r.log }
    else some ⟨[], [], 0, some t⟩

/-- `idpf_send_get_rx_ptype_msg`. -/
def sendGetRxPtype (e : PtypeEnv) (fuel : Nat) : Option PtypeRun :=
  if e.alloc 0 && e.alloc 1 && e.alloc 2 && e.alloc 3 then
    ptypeTurns e fuel 0 0 0 zeroed PtypeTables.zero
  else some ⟨[], [], -12, none⟩

/-- The records that a reply holds from `off` on, of `n` that are left, and where they end; there is
no end where a record is cut off before it is known to be refused. -/
def heldRecords (reply : ChunkReply) : Nat → Nat → List PtypeRec × Option PtypeStop
  | 0, _ => ([], some .more)
  | n + 1, off =>
    if reply.received < off + 4 then ([], none)
    else
      let r := PtypeRec.at_ reply.payload off
      if 4096 < off + r.size then ([], some .refused)
      else if r.id10 = 0xffff then ([], some .marker)
      else if 1024 ≤ r.id10 then ([], some .refused)
      else if r.protoIds ≠ [] ∧ reply.received < off + r.size then ([], none)
      else
        let rest := heldRecords reply n (off + r.size)
        (r :: rest.1, rest.2)

namespace PtypeEnv

def received (e : PtypeEnv) (k : Nat) : Nat := (e.reply k).elim 0 ChunkReply.received

/-- The records that the reply to a request holds of those that it declares. -/
def records (e : PtypeEnv) (k : Nat) : List PtypeRec :=
  (e.reply k).elim [] fun reply => (heldRecords reply (leAt reply.payload 2 2) 8).1

end PtypeEnv

/-- Bytes of the reply to a request, and entries that the tables have. -/
def PtypeAccess.within (e : PtypeEnv) : PtypeAccess → Prop
  | .reply k off => off < e.received k
  | .splitq i => i < 1024
  | .singleq i => i < 256

/-- The tables of a list of records: an entry is that of the last record with its 10-bit ID, or of
the first one with its 8-bit ID that has protocols. -/
def PtypeTables.of (recs : List PtypeRec) : PtypeTables where
  splitq i := (recs.reverse.find? (·.id10 = i)).elim {} PtypeRec.decoded
  singleq i := (recs.find? fun r => r.id8 = i ∧ r.protoIds ≠ []).elim {} PtypeRec.decoded

/-- The parser stays in what was received and in the tables, and its result is an error, or tables
filled from the records of the replies. -/
structure PtypesSafe (e : PtypeEnv) (r : PtypeRun) : Prop where
  within : ∀ a ∈ r.log, a.within e
  filled : r.ret = 0 →
    r.lkup = some (PtypeTables.of ((List.range r.requests.length).flatMap e.records))
  failed : r.ret ≠ 0 → r.ret < 0 ∧ r.lkup = none

/-- No reply that is looked at is cut off: it holds its count, and each record that it declares up
to the end marker or a refused one, unless it declares too many. -/
def repliesHeld (e : PtypeEnv) : Nat → Nat → Nat → Bool
  | 0, _, _ => true
  | rounds + 1, k, recvd =>
    match e.reply k with
    | none => true
    | some reply =>
      decide (4 ≤ reply.received) &&
        (decide (1024 < recvd + leAt reply.payload 2 2) ||
          match (heldRecords reply (leAt reply.payload 2 2) 8).2 with
          | none => false
          | some .more => repliesHeld e rounds (k + 1) (recvd + leAt reply.payload 2 2)
          | some _ => true)

/-- An allocation fails, or the replies to the 18 requests are not cut off. -/
def ptypesOk (e : PtypeEnv) : Bool :=
  !(e.alloc 0 && e.alloc 1 && e.alloc 2 && e.alloc 3) || repliesHeld e 18 0 0

section Records

theorem fillPtypeLookup_known (p : RxPtDecoded) (s : PtypeState) (ipv4 frag : Bool) :
    (fillPtypeLookup p s ipv4 frag).1.known = p.known := by
  unfold fillPtypeLookup
  split <;> rfl

theorem parseProtocolId_known (x : RxPtDecoded × PtypeState) (id : Nat) :
    (parseProtocolId x id).1.known = x.1.known := by
  unfold parseProtocolId
  split
  case h_1 => split <;> rfl
  case h_2 => split <;> rfl
  case h_3 | h_4 | h_5 | h_6 => exact fillPtypeLookup_known _ _ _ _
  all_goals rfl

theorem parseProtocolIds_known (ids : List Nat) (x : RxPtDecoded × PtypeState) :
    (ids.foldl parseProtocolId x).1.known = x.1.known := by
  induction ids generalizing x with
  | nil => rfl
  | cons id ids ih =>
      rw [List.foldl_cons, ih, parseProtocolId_known]

theorem PtypeRec.decoded_known (r : PtypeRec) : r.decoded.known = !r.protoIds.isEmpty :=
  parseProtocolIds_known r.protoIds _

theorem PtypeRec.decoded_empty {r : PtypeRec} (empty : r.protoIds = []) : r.decoded = {} := by
  unfold PtypeRec.decoded
  rw [empty]
  rfl

theorem splitq_foldl_store (recs : List PtypeRec) (t : PtypeTables) (i : Nat) :
    (recs.foldl PtypeTables.store t).splitq i =
      (recs.reverse.find? (·.id10 = i)).elim (t.splitq i) PtypeRec.decoded := by
  induction recs generalizing t with
  | nil => rfl
  | cons r recs ih =>
      rw [List.foldl_cons, ih, List.reverse_cons, List.find?_append]
      cases found : recs.reverse.find? (·.id10 = i) with
      | some r' => rfl
      | none =>
          by_cases named : r.id10 = i
          · simp [PtypeTables.store, named]
          · simp [PtypeTables.store, named, Function.update_of_ne (Ne.symm named)]

theorem singleq_foldl_known (recs : List PtypeRec) {t : PtypeTables} {i : Nat}
    (known : (t.singleq i).known = true) :
    (recs.foldl PtypeTables.store t).singleq i = t.singleq i := by
  induction recs generalizing t with
  | nil => rfl
  | cons r recs ih =>
      have kept : (t.store r).singleq i = t.singleq i := by
        unfold PtypeTables.store
        dsimp only
        split
        · next fresh =>
            refine Function.update_of_ne (fun same => ?_) _ _
            rw [← same, known] at fresh
            exact absurd fresh.2 nofun
        · rfl
      rw [List.foldl_cons, ih (kept ▸ known), kept]

/-- An empty entry gets the first record with its ID and with protocols. -/
theorem singleq_foldl_store {recs : List PtypeRec} {t : PtypeTables} {i : Nat}
    (octets : ∀ r ∈ recs, r.id8 < 256) (empty : t.singleq i = {}) :
    (recs.foldl PtypeTables.store t).singleq i =
      (recs.find? fun r => r.id8 = i ∧ r.protoIds ≠ []).elim {} PtypeRec.decoded := by
  induction recs generalizing t with
  | nil => exact empty
  | cons r recs ih =>
      obtain ⟨octet, octets⟩ := List.forall_mem_cons.mp octets
      rw [List.foldl_cons]
      by_cases named : r.id8 = i
      · have stored : (t.store r).singleq i = r.decoded := by
          unfold PtypeTables.store
          dsimp only
          rw [if_pos ⟨octet, by rw [named, empty]⟩, ← named, Function.update_self]
        by_cases none : r.protoIds = []
        · rw [ih octets (stored.trans (PtypeRec.decoded_empty none))]
          simp [none]
        · rw [singleq_foldl_known recs (by simpa [stored, r.decoded_known] using none), stored]
          simp [named, none]
      · have kept : (t.store r).singleq i = {} := by
          unfold PtypeTables.store
          dsimp only
          split
          · rw [Function.update_of_ne (Ne.symm named), empty]
          · exact empty
        rw [ih octets kept]
        simp [named]

end Records

section Walk

variable {reply : ChunkReply} {m : Bytes} {e : PtypeEnv} {k : Nat}

theorem PtypeRec.at_id8_lt (m : Bytes) (off : Nat) : (PtypeRec.at_ m off).id8 < 256 :=
  (m (off + 2)).isLt

/-- The length of a record depends on its first four bytes only, as its IDs do. -/
theorem PtypeRec.at_header (m m' : Bytes) (off : Nat)
    (same : ∀ i, off ≤ i → i < off + 4 → m i = m' i) :
    (PtypeRec.at_ m off).id10 = (PtypeRec.at_ m' off).id10 ∧
      (PtypeRec.at_ m off).id8 = (PtypeRec.at_ m' off).id8 ∧
      (PtypeRec.at_ m off).protoIds.length = (PtypeRec.at_ m' off).protoIds.length := by
  refine ⟨leAt_congr fun i above below => same i above (by omega),
    leAt_congr fun i above below => same i (by omega) (by omega), ?_⟩
  unfold PtypeRec.at_
  dsimp only
  rw [List.length_map, List.length_map, List.length_range, List.length_range]
  exact leAt_congr fun i above below => same i (by omega) (by omega)

/-- A record that lies within what two memories share is the same in both. -/
theorem PtypeRec.at_same {m m' : Bytes} {off size : Nat} (same : ∀ i < size, m i = m' i)
    (header : off + 4 ≤ size)
    (whole : (PtypeRec.at_ m' off).protoIds = [] ∨ off + (PtypeRec.at_ m' off).size ≤ size) :
    PtypeRec.at_ m off = PtypeRec.at_ m' off := by
  obtain ⟨id10, id8, length⟩ := PtypeRec.at_header m m' off
    fun i _ below => same i (by omega)
  refine PtypeRec.mk.injEq .. |>.mpr ⟨id10, id8, ?_⟩
  refine List.ext_getElem length fun j _ inner' => ?_
  have inner : j < (PtypeRec.at_ m' off).protoIds.length := inner'
  have most : off + 6 + 2 * j + 2 ≤ size := by
    rcases whole with empty | whole
    · rw [empty] at inner
      exact absurd inner (Nat.not_lt_zero j)
    · unfold PtypeRec.size at whole
      omega
  simp only [List.getElem_map, List.getElem_range]
  exact leAt_congr fun i above below => same i (by omega)

theorem fieldRead_within {off n : Nat} :
    (∀ a ∈ fieldRead k off n, a.within e) ↔ n = 0 ∨ off + n ≤ e.received k := by
  unfold fieldRead
  constructor
  · intro within
    cases n with
    | zero => exact .inl rfl
    | succ n =>
        have last := within (.reply k (off + n))
          (List.mem_map_of_mem (List.mem_range.mpr (Nat.lt_succ_self n)))
        exact .inr last
  · intro inside a member
    obtain ⟨i, below, rfl⟩ := List.mem_map.mp member
    have below := List.mem_range.mp below
    unfold PtypeAccess.within
    omega

theorem walkPtypes_header {n off : Nat} {t : PtypeTables} {a : PtypeAccess}
    (header : a ∈ fieldRead k off 4) : a ∈ (walkPtypes m k (n + 1) off t).log := by
  unfold walkPtypes
  dsimp only
  split
  · exact header
  · split
    · exact header
    · split
      · exact header
      · exact List.mem_append_left _ (List.mem_append_left _ (List.mem_append_left _ header))

theorem walkPtypes_within (n off : Nat) (t : PtypeTables)
    (same : ∀ i < reply.received, m i = reply.payload i) (got : e.received k = reply.received) :
    (∀ a ∈ (walkPtypes m k n off t).log, a.within e) ↔ (heldRecords reply n off).2 ≠ none := by
  induction n generalizing off t with
  | zero => exact ⟨fun _ => nofun, fun _ => nofun⟩
  | succ n ih =>
      by_cases short : reply.received < off + 4
      · rw [heldRecords, if_pos short]
        constructor
        · intro within
          have header := fieldRead_within.mp fun a header =>
            within a (walkPtypes_header (n := n) (t := t) (m := m) header)
          omega
        · intro held
          exact absurd rfl held
      · have header : ∀ a ∈ fieldRead k off 4, a.within e := fieldRead_within.mpr (.inr (by omega))
        obtain ⟨id10, id8, length⟩ := PtypeRec.at_header m reply.payload off
          fun i _ below => same i (by omega)
        have size : (PtypeRec.at_ m off).size = (PtypeRec.at_ reply.payload off).size := by
          rw [PtypeRec.size, PtypeRec.size, length]
        rw [walkPtypes, heldRecords, if_neg short]
        dsimp only
        rw [size, id10]
        split
        · exact ⟨fun _ => nofun, fun _ => header⟩
        · split
          · exact ⟨fun _ => nofun, fun _ => header⟩
          · split
            · exact ⟨fun _ => nofun, fun _ => header⟩
            · next small =>
                rw [List.forall_mem_append, List.forall_mem_append, List.forall_mem_append,
                  fieldRead_within, fieldRead_within, got, length]
                by_cases cut : (PtypeRec.at_ reply.payload off).protoIds ≠ [] ∧
                    reply.received < off + (PtypeRec.at_ reply.payload off).size
                · rw [if_pos cut]
                  have some : (PtypeRec.at_ reply.payload off).protoIds.length ≠ 0 :=
                    fun none => cut.1 (List.length_eq_zero_iff.mp none)
                  have past := cut.2
                  rw [PtypeRec.size] at past
                  constructor
                  · rintro ⟨⟨⟨-, protos⟩, -⟩, -⟩
                    omega
                  · intro held
                    exact absurd rfl held
                · rw [if_neg cut, ih]
                  constructor
                  · rintro ⟨-, rest⟩
                    exact rest
                  · intro rest
                    refine ⟨⟨⟨.inr (by omega), ?_⟩, ?_⟩, rest⟩
                    · by_cases empty : (PtypeRec.at_ reply.payload off).protoIds = []
                      · rw [empty]
                        exact .inl rfl
                      · have fits := not_and.mp cut empty
                        rw [PtypeRec.size] at fits
                        omega
                    · intro a member
                      rcases List.mem_cons.mp member with rfl | member
                      · exact Nat.lt_of_not_le (id10 ▸ small)
                      · rw [if_pos (PtypeRec.at_id8_lt m off)] at member
                        rw [List.mem_singleton.mp member]
                        exact PtypeRec.at_id8_lt m off

/-- The walk stores the records that the reply holds. -/
theorem walkPtypes_held (n off : Nat) (t : PtypeTables)
    (same : ∀ i < reply.received, m i = reply.payload i)
    (held : (heldRecords reply n off).2 ≠ none) :
    some (walkPtypes m k n off t).stop = (heldRecords reply n off).2 ∧
      (walkPtypes m k n off t).tables = (heldRecords reply n off).1.foldl PtypeTables.store t := by
  induction n generalizing off t with
  | zero => exact ⟨rfl, rfl⟩
  | succ n ih =>
      by_cases short : reply.received < off + 4
      · rw [heldRecords, if_pos short] at held
        exact absurd rfl held
      · obtain ⟨id10, id8, length⟩ := PtypeRec.at_header m reply.payload off
          fun i _ below => same i (by omega)
        have size : (PtypeRec.at_ m off).size = (PtypeRec.at_ reply.payload off).size := by
          rw [PtypeRec.size, PtypeRec.size, length]
        rw [heldRecords, if_neg short] at held ⊢
        rw [walkPtypes]
        dsimp only at held ⊢
        rw [size, id10]
        by_cases past : 4096 < off + (PtypeRec.at_ reply.payload off).size
        · rw [if_pos past, if_pos past]
          exact ⟨rfl, rfl⟩
        · rw [if_neg past] at held ⊢
          rw [if_neg past]
          by_cases marker : (PtypeRec.at_ reply.payload off).id10 = 0xffff
          · rw [if_pos marker, if_pos marker]
            exact ⟨rfl, rfl⟩
          · rw [if_neg marker] at held ⊢
            rw [if_neg marker]
            by_cases large : 1024 ≤ (PtypeRec.at_ reply.payload off).id10
            · rw [if_pos large, if_pos large]
              exact ⟨rfl, rfl⟩
            · rw [if_neg large] at held ⊢
              rw [if_neg large]
              by_cases cut : (PtypeRec.at_ reply.payload off).protoIds ≠ [] ∧
                  reply.received < off + (PtypeRec.at_ reply.payload off).size
              · rw [if_pos cut] at held
                exact absurd rfl held
              · rw [if_neg cut] at held ⊢
                have whole : PtypeRec.at_ m off = PtypeRec.at_ reply.payload off :=
                  PtypeRec.at_same same (by omega) (by
                    rcases not_and_or.mp cut with empty | whole
                    · exact .inl (not_not.mp empty)
                    · exact .inr (Nat.le_of_not_lt whole))
                obtain ⟨stop, tables⟩ := ih _ (t.store (PtypeRec.at_ reply.payload off)) held
                rw [whole]
                exact ⟨stop, tables⟩

/-- A walk over a reply holds nothing more, or the record it is at and those behind it. -/
theorem heldRecords_cases (reply : ChunkReply) (n off : Nat) :
    (heldRecords reply (n + 1) off).1 = [] ∨ (heldRecords reply (n + 1) off).1 =
      PtypeRec.at_ reply.payload off ::
        (heldRecords reply n (off + (PtypeRec.at_ reply.payload off).size)).1 := by
  rw [heldRecords]
  dsimp only
  split_ifs
  · exact .inl rfl
  · exact .inl rfl
  · exact .inl rfl
  · exact .inl rfl
  · exact .inl rfl
  · exact .inr rfl

theorem heldRecords_octets {n off : Nat} : ∀ r ∈ (heldRecords reply n off).1, r.id8 < 256 := by
  induction n generalizing off with
  | zero => exact fun r member => absurd member List.not_mem_nil
  | succ n ih =>
      intro r member
      rcases heldRecords_cases reply n off with none | some
      · rw [none] at member
        exact absurd member List.not_mem_nil
      · rw [some] at member
        rcases List.mem_cons.mp member with rfl | member
        · exact PtypeRec.at_id8_lt _ _
        · exact ih r member

end Walk

section Turns

variable {e : PtypeEnv}

/-- The ID to ask for after `k` requests. -/
theorem next_ptype_id {k : Nat} (more : k < 18) : min (60 * k) 1024 < 1024 ∧
    min (60 * k) 1024 + ptypesAsked (min (60 * k) 1024) = min (60 * (k + 1)) 1024 := by
  have size : maxPtypesPerBuf = 60 := rfl
  rw [ptypesAsked, size]
  constructor
  · omega
  · split <;> omega

variable (e) in
/-- The outer loop ends after at most 18 requests. -/
theorem ptypeTurns_returns (rounds : Nat) {k : Nat} (recvd : Nat) (m : Bytes) (t : PtypeTables)
    (left : k + rounds = 18) :
    ∃ r, ptypeTurns e (rounds + 1) k (min (60 * k) 1024) recvd m t = some r ∧
      r.requests.length ≤ rounds := by
  induction rounds generalizing k recvd m t with
  | zero =>
      obtain rfl : k = 18 := left
      exact ⟨_, rfl, Nat.le_refl 0⟩
  | succ rounds ih =>
      obtain ⟨more, next⟩ := next_ptype_id (k := k) (by omega)
      rw [ptypeTurns, if_pos more]
      dsimp only
      rw [next]
      cases e.reply k with
      | none => exact ⟨_, rfl, Nat.succ_le_succ (Nat.zero_le _)⟩
      | some reply =>
          dsimp only
          split
          · exact ⟨_, rfl, Nat.succ_le_succ (Nat.zero_le _)⟩
          · split
            · exact ⟨_, rfl, Nat.succ_le_succ (Nat.zero_le _)⟩
            · exact ⟨_, rfl, Nat.succ_le_succ (Nat.zero_le _)⟩
            · obtain ⟨r, turns, few⟩ := ih (k := k + 1) _ _ _ (by omega)
              exact ⟨_, congrArg (Option.map _) turns, Nat.succ_le_succ few⟩

/-- What a round does with a reply: it refuses the count, or a record, or it meets the end marker,
or it goes on. -/
theorem ptypeTurns_cases {fuel k next recvd : Nat} {m : Bytes} {t : PtypeTables}
    {reply : ChunkReply} {r : PtypeRun} (more : next < 1024) (replied : e.reply k = some reply)
    (turns : ptypeTurns e (fuel + 1) k next recvd m t = some r) :
    (1024 < recvd + leAt (reply.buffer m) 2 2 ∧
        r = ⟨[(next, ptypesAsked next)], fieldRead k 2 2, -22, none⟩) ∨
      ¬ 1024 < recvd + leAt (reply.buffer m) 2 2 ∧
        ∃ w, w = walkPtypes (reply.buffer m) k (leAt (reply.buffer m) 2 2) 8 t ∧
          ((w.stop = .refused ∧
              r = ⟨[(next, ptypesAsked next)], fieldRead k 2 2 ++ w.log, -22, none⟩) ∨
            (w.stop = .marker ∧
              r = ⟨[(next, ptypesAsked next)], fieldRead k 2 2 ++ w.log, 0, some w.tables⟩) ∨
            (w.stop = .more ∧ ∃ r', ptypeTurns e fuel (k + 1) (next + ptypesAsked next)
                (recvd + leAt (reply.buffer m) 2 2) (reply.buffer m) w.tables = some r' ∧
              r = { r' with
                requests := (next, ptypesAsked next) :: r'.requests
                log := fieldRead k 2 2 ++ w.log ++ r'.log })) := by
  rw [ptypeTurns, if_pos more, replied] at turns
  dsimp only at turns
  split at turns
  · next many => exact .inl ⟨many, (Option.some.inj turns).symm⟩
  · next fits =>
      refine .inr ⟨fits, _, rfl, ?_⟩
      split at turns
      · next stop => exact .inl ⟨stop, (Option.some.inj turns).symm⟩
      · next stop => exact .inr (.inl ⟨stop, (Option.some.inj turns).symm⟩)
      · next stop =>
          obtain ⟨r', rest, rfl⟩ := Option.map_eq_some_iff.mp turns
          exact .inr (.inr ⟨stop, r', rest, rfl⟩)

theorem ptypeTurns_failed {fuel k next recvd : Nat} {m : Bytes} {t : PtypeTables} {r : PtypeRun}
    (turns : ptypeTurns e fuel k next recvd m t = some r) (failed : r.ret ≠ 0) :
    r.ret < 0 ∧ r.lkup = none := by
  induction fuel generalizing k next recvd m t r with
  | zero => exact absurd turns nofun
  | succ fuel ih =>
      by_cases more : next < 1024
      · cases replied : e.reply k with
        | none =>
            rw [ptypeTurns, if_pos more, replied] at turns
            obtain rfl := Option.some.inj turns
            exact ⟨(by decide : (-22 : Int) < 0), rfl⟩
        | some reply =>
            obtain ⟨-, rfl⟩ | ⟨-, w, -, ⟨-, rfl⟩ | ⟨-, rfl⟩ | ⟨-, r', rest, rfl⟩⟩ :=
              ptypeTurns_cases more replied turns
            · exact ⟨(by decide : (-22 : Int) < 0), rfl⟩
            · exact ⟨(by decide : (-22 : Int) < 0), rfl⟩
            · exact absurd rfl failed
            · exact ih (r := r') rest failed
      · rw [ptypeTurns, if_neg more] at turns
        obtain rfl := Option.some.inj turns
        exact absurd rfl failed

theorem ptypeTurns_fuel {fuel k next recvd : Nat} {m : Bytes} {t : PtypeTables} {r : PtypeRun}
    (turns : ptypeTurns e fuel k next recvd m t = some r) : ∃ more, fuel = more + 1 := by
  cases fuel with
  | zero => exact absurd turns nofun
  | succ fuel => exact ⟨fuel, rfl⟩

/-- What the condition says of a reply that holds its count. -/
theorem repliesHeld_succ {rounds k recvd : Nat} {reply : ChunkReply}
    (replied : e.reply k = some reply) (fits : ¬ 1024 < recvd + leAt reply.payload 2 2) :
    repliesHeld e (rounds + 1) k recvd = true ↔ 4 ≤ reply.received ∧
      (heldRecords reply (leAt reply.payload 2 2) 8).2 ≠ none ∧
      ((heldRecords reply (leAt reply.payload 2 2) 8).2 = some .more →
        repliesHeld e rounds (k + 1) (recvd + leAt reply.payload 2 2) = true) := by
  rw [repliesHeld, replied]
  dsimp only
  rw [decide_eq_false fits, Bool.false_or, Bool.and_eq_true, decide_eq_true_eq]
  refine and_congr_right fun _ => ?_
  split
  · next stop => simp [stop]
  · next stop => simp [stop]
  · next other stop =>
      rw [stop]
      exact ⟨fun _ => ⟨nofun, fun same => absurd (Option.some.inj same) other⟩, fun _ => rfl⟩

/-- The run stays within the replies and the tables if and only if no reply that it gets to is cut
off. -/
theorem ptypeTurns_within (rounds : Nat) {k recvd : Nat} {m : Bytes} {t : PtypeTables}
    {fuel : Nat} {r : PtypeRun} (left : k + rounds = 18)
    (turns : ptypeTurns e fuel k (min (60 * k) 1024) recvd m t = some r) :
    (∀ a ∈ r.log, a.within e) ↔ repliesHeld e rounds k recvd = true := by
  induction rounds generalizing k recvd m t fuel r with
  | zero =>
      obtain rfl : k = 18 := left
      obtain ⟨fuel, rfl⟩ := ptypeTurns_fuel turns
      obtain rfl := Option.some.inj turns
      exact ⟨fun _ => rfl, fun _ => nofun⟩
  | succ rounds ih =>
      obtain ⟨fuel, rfl⟩ := ptypeTurns_fuel turns
      obtain ⟨more, next⟩ := next_ptype_id (k := k) (by omega)
      cases replied : e.reply k with
      | none =>
          rw [ptypeTurns, if_pos more, replied] at turns
          obtain rfl := Option.some.inj turns
          rw [repliesHeld, replied]
          exact ⟨fun _ => rfl, fun _ => nofun⟩
      | some reply =>
          have got : e.received k = reply.received := by
            rw [PtypeEnv.received, replied]
            rfl
          have header : (∀ a ∈ fieldRead k 2 2, a.within e) ↔ 4 ≤ reply.received := by
            rw [fieldRead_within, got]
            exact ⟨fun inside => inside.resolve_left nofun, .inr⟩
          have turn := ptypeTurns_cases more replied turns
          by_cases whole : 4 ≤ reply.received
          · have same : ∀ i < reply.received, reply.buffer m i = reply.payload i :=
              fun i inside => if_pos inside
            have count : leAt (reply.buffer m) 2 2 = leAt reply.payload 2 2 :=
              leAt_congr fun i _ below => same i (by omega)
            rw [count, next] at turn
            obtain ⟨many, rfl⟩ | ⟨fits, w, rfl, ends⟩ := turn
            · rw [header, repliesHeld, replied]
              dsimp only
              rw [decide_eq_true whole, decide_eq_true many]
              exact ⟨fun _ => rfl, fun _ => whole⟩
            · have walk :=
                walkPtypes_within (leAt reply.payload 2 2) 8 t same got
              have held :=
                walkPtypes_held (k := k) (leAt reply.payload 2 2) 8 t same
              -- a walk that stops early leaves no reply to look at
              have last {goes : Prop}
                  (early : (walkPtypes (reply.buffer m) k (leAt reply.payload 2 2) 8 t).stop ≠ .more)
                  (ended : (heldRecords reply (leAt reply.payload 2 2) 8).2 ≠ none)
                  (more : (heldRecords reply (leAt reply.payload 2 2) 8).2 = some .more) : goes :=
                absurd (Option.some.inj ((held ended).1.trans more)) early
              rw [repliesHeld_succ replied fits]
              obtain ⟨stop, rfl⟩ | ⟨stop, rfl⟩ | ⟨stop, r', rest, rfl⟩ := ends
              · rw [List.forall_mem_append, header, walk]
                exact and_congr_right fun _ =>
                  (and_iff_left_of_imp (last (by rw [stop]; decide))).symm
              · rw [List.forall_mem_append, header, walk]
                exact and_congr_right fun _ =>
                  (and_iff_left_of_imp (last (by rw [stop]; decide))).symm
              · rw [List.forall_mem_append, List.forall_mem_append, header, walk,
                  ih (by omega) rest]
                rw [stop] at held
                constructor
                · rintro ⟨⟨-, ended⟩, later⟩
                  exact ⟨whole, ended, fun _ => later⟩
                · rintro ⟨-, ended, later⟩
                  exact ⟨⟨whole, ended⟩, later (held ended).1.symm⟩
          · have held : repliesHeld e (rounds + 1) k recvd = false := by
              rw [repliesHeld, replied]
              dsimp only
              rw [decide_eq_false whole, Bool.false_and]
            rw [held]
            refine ⟨fun within => absurd (header.mp fun a member => within a ?_) whole, nofun⟩
            obtain ⟨-, rfl⟩ | ⟨-, w, -, ⟨-, rfl⟩ | ⟨-, rfl⟩ | ⟨-, r', -, rfl⟩⟩ := turn
            · exact member
            · exact List.mem_append_left _ member
            · exact List.mem_append_left _ member
            · exact List.mem_append_left _ (List.mem_append_left _ member)

/-- With no reply cut off, a run that succeeds has stored the records of all replies in turn. -/
theorem ptypeTurns_filled (rounds : Nat) {k recvd : Nat} {m : Bytes} {t : PtypeTables}
    {fuel : Nat} {r : PtypeRun} (left : k + rounds = 18)
    (turns : ptypeTurns e fuel k (min (60 * k) 1024) recvd m t = some r)
    (ok : repliesHeld e rounds k recvd = true) (success : r.ret = 0) :
    r.lkup = some (((List.range r.requests.length).flatMap fun j => e.records (k + j)).foldl
      PtypeTables.store t) := by
  induction rounds generalizing k recvd m t fuel r with
  | zero =>
      obtain rfl : k = 18 := left
      obtain ⟨fuel, rfl⟩ := ptypeTurns_fuel turns
      obtain rfl := Option.some.inj turns
      rfl
  | succ rounds ih =>
      obtain ⟨fuel, rfl⟩ := ptypeTurns_fuel turns
      obtain ⟨more, next⟩ := next_ptype_id (k := k) (by omega)
      cases replied : e.reply k with
      | none =>
          rw [ptypeTurns, if_pos more, replied] at turns
          obtain rfl := Option.some.inj turns
          exact absurd success (by decide : (-22 : Int) ≠ 0)
      | some reply =>
          have records : e.records k = (heldRecords reply (leAt reply.payload 2 2) 8).1 := by
            rw [PtypeEnv.records, replied]
            rfl
          have whole : 4 ≤ reply.received := by
            rw [repliesHeld, replied] at ok
            exact of_decide_eq_true (Bool.and_eq_true_iff.mp ok).1
          have same : ∀ i < reply.received, reply.buffer m i = reply.payload i :=
            fun i inside => if_pos inside
          have count : leAt (reply.buffer m) 2 2 = leAt reply.payload 2 2 :=
            leAt_congr fun i _ below => same i (by omega)
          have turn := ptypeTurns_cases more replied turns
          rw [count, next] at turn
          obtain ⟨-, rfl⟩ | ⟨fits, w, rfl, ends⟩ := turn
          · exact absurd success (by decide : (-22 : Int) ≠ 0)
          · obtain ⟨-, held, later⟩ := (repliesHeld_succ replied fits).mp ok
            obtain ⟨stopped, tables⟩ := walkPtypes_held (k := k) _ _ t same held
            obtain ⟨-, rfl⟩ | ⟨-, rfl⟩ | ⟨stop, r', rest, rfl⟩ := ends
            · exact absurd success (by decide : (-22 : Int) ≠ 0)
            · rw [tables, ← records]
              simp
            · rw [stop] at stopped
              rw [List.length_cons, List.range_succ_eq_map, List.flatMap_cons, List.flatMap_map,
                List.foldl_append]
              have later := ih (by omega) rest (later stopped.symm) success
              rw [tables, ← records] at later
              have shift : (fun j => e.records (k + (j + 1))) = fun j => e.records (k + 1 + j) := by
                funext j
                rw [Nat.add_assoc, Nat.add_comm 1]
              rw [shift]
              exact later

end Turns

theorem PtypeTables.of_eq {recs : List PtypeRec} (octets : ∀ r ∈ recs, r.id8 < 256) :
    recs.foldl PtypeTables.store PtypeTables.zero = PtypeTables.of recs := by
  refine PtypeTables.mk.injEq .. |>.mpr ⟨?_, ?_⟩
  · funext i
    exact splitq_foldl_store recs PtypeTables.zero i
  · funext i
    exact singleq_foldl_store octets rfl

theorem PtypeEnv.records_octets (e : PtypeEnv) {ks : List Nat} :
    ∀ r ∈ ks.flatMap e.records, r.id8 < 256 := by
  intro r member
  obtain ⟨k, -, member⟩ := List.mem_flatMap.mp member
  rw [PtypeEnv.records] at member
  cases replied : e.reply k with
  | none =>
      rw [replied] at member
      exact absurd member List.not_mem_nil
  | some reply =>
      rw [replied] at member
      exact heldRecords_octets r member

/-- The parser ends, and safely, if and only if no reply that it gets to is cut off. -/
theorem ptypes_safe_iff (e : PtypeEnv) :
    (∃ fuel r, sendGetRxPtype e fuel = some r ∧ PtypesSafe e r) ↔ ptypesOk e = true := by
  unfold sendGetRxPtype ptypesOk
  cases alloc : (e.alloc 0 && e.alloc 1 && e.alloc 2 && e.alloc 3) with
  | false =>
      refine ⟨fun _ => rfl, fun _ => ⟨0, _, rfl, ?_, ?_, ?_⟩⟩
      · exact fun a member => absurd member List.not_mem_nil
      · exact fun success => absurd success (by decide)
      · exact fun _ => ⟨(by decide : (-12 : Int) < 0), rfl⟩
  | true =>
      rw [Bool.not_true, Bool.false_or]
      simp only [if_true]
      constructor
      · rintro ⟨fuel, r, turns, safe⟩
        exact (ptypeTurns_within 18 rfl turns).mp safe.within
      · intro ok
        obtain ⟨r, turns, -⟩ :=
          ptypeTurns_returns e 18 (k := 0) 0 zeroed PtypeTables.zero rfl
        refine ⟨19, r, turns, (ptypeTurns_within 18 rfl turns).mpr ok, fun success => ?_,
          ptypeTurns_failed turns⟩
        rw [ptypeTurns_filled 18 rfl turns ok success, ← PtypeTables.of_eq e.records_octets]
        simp only [Nat.zero_add]

/-- Every reply declares records of type 0 without protocols, and has the length given. -/
def uniformReplies (len : BitVec 16) (num : BitVec 8 × BitVec 8) : PtypeEnv where
  alloc _ := true
  reply _ := some ⟨len, fun i => if i = 2 then num.1 else if i = 3 then num.2 else 0, zeroed⟩

/-- A reply that ends before the record that it declares, and one of 4096 bytes whose last record
begins two bytes before the end of the receive buffer. -/
theorem ptypes_cut_off :
    (¬ ∃ fuel r, sendGetRxPtype (uniformReplies 8 (1, 0)) fuel = some r ∧
        PtypesSafe (uniformReplies 8 (1, 0)) r) ∧
      ¬ ∃ fuel r, sendGetRxPtype (uniformReplies 4096 (0xaa, 2)) fuel = some r ∧
        PtypesSafe (uniformReplies 4096 (0xaa, 2)) r := by
  constructor
  · rintro ⟨fuel, r, turns, safe⟩
    have held := (ptypeTurns_within 18 rfl turns).mp safe.within
    exact absurd held (by decide)
  · rintro ⟨fuel, r, turns, safe⟩
    have held := (ptypeTurns_within 18 rfl turns).mp safe.within
    exact absurd held (by decide +kernel)

end Idpf
