import Idpf.Vport.ChunkReplies

/-! The messages that set and get the RSS table: what is sent, and what the driver's table is after
a reply. Tables are in memory as on a little-endian machine. -/
namespace Idpf

/-- `rss_lut_size` and `rss_lut` of `struct idpf_rss_data`, with the bytes of the allocation; the
table is `none` where its pointer is NULL. -/
structure RssData where
  lutSize : Nat
  lut : Option (List (BitVec 8))
  deriving DecidableEq, Repr

/-- A table with as many entries as its size says. -/
structure RssTable where
  size : Nat
  bytes : List (BitVec 8)
  whole : bytes.length = 4 * size
  small : size < 65536

namespace RssTable

def data (t : RssTable) : RssData := ⟨t.size, some t.bytes⟩

end RssTable

/-- `struct virtchnl2_rss_lut`, with the bytes of its entries. -/
structure RssLutMsg where
  vportId : Nat
  lutEntries : Nat
  lut : List (BitVec 8)
  deriving DecidableEq, Repr

/-- What `idpf_vc_xn_exec` gives: an error, or a reply. -/
inductive LutReply where
  | failed (err : Int) (negative : err < 0)
  | reply (r : ChunkReply)

/-- What a call meets: whether the vport is found and has RXHASH on, the three allocations, and the
reply. -/
structure LutEnv where
  vport : Bool
  rxhashEna : Bool
  allocRl : Bool
  allocRecv : Bool
  allocLut : Bool
  reply : LutReply

/-- The temporary buffers of a call. -/
inductive LutBuf where
  | rl | recvRl
  deriving DecidableEq, Repr

/-- The end of a call: what it returns, the driver's table, the message sent, the bytes read in the
receive buffer, and the temporary buffers not freed. -/
structure LutRun where
  ret : Int
  data : RssData
  sent : Option RssLutMsg
  reads : List Nat
  held : List LutBuf
  deriving DecidableEq, Repr

namespace RssData

/-- The entries of a message of either kind. It is `none` where they are read through NULL. -/
def msgLut (d : RssData) (get rxhashEna : Bool) : Option (List (BitVec 8)) :=
  if get || !rxhashEna || d.lutSize = 0 then some (List.replicate (4 * d.lutSize) 0)
  else d.lut.map fun l => l.take (4 * d.lutSize)

/-- The memcpy at the end of `idpf_send_get_set_rss_lut_msg`, of `rss_lut_size` bytes that come
after the header of 12. It is `none` where it would write through NULL. -/
def copyLut (d : RssData) (m : Bytes) : Option RssData :=
  if d.lutSize = 0 then some d
  else d.lut.map fun l =>
    { d with lut := some ((List.range d.lutSize).map (fun i => m (12 + i)) ++ l.drop d.lutSize) }

/-- `idpf_send_get_set_rss_lut_msg`. A kzalloc of nothing does not fail. -/
def sendGetSetRssLut (d : RssData) (vportId : Nat) (get : Bool) (e : LutEnv) : Option LutRun :=
  if !e.vport then some ⟨-22, d, none, [], []⟩
  else if !e.allocRl then some ⟨-12, d, none, [], []⟩
  else if get && !e.allocRecv then some ⟨-12, d, none, [], []⟩
  else (d.msgLut get e.rxhashEna).bind fun lut =>
    let msg : RssLutMsg := ⟨vportId, if get then 0 else d.lutSize, lut⟩
    match e.reply with
    | .failed err _ => some ⟨err, d, some msg, [], if get then [.recvRl] else []⟩
    | .reply r =>
      if !get then some ⟨0, d, some msg, [], []⟩
      else if r.len.toNat < 12 then some ⟨-5, d, some msg, [], [.recvRl]⟩
      else
        let m := r.buffer zeroed
        let n := leAt m 2 6
        if r.len.toNat < 4 * n then some ⟨-5, d, some msg, [6, 7], [.recvRl]⟩
        else if d.lutSize = n then
          (d.copyLut m).map fun d => ⟨0, d, some msg, [6, 7] ++ List.range' 12 d.lutSize, []⟩
        else if n ≠ 0 ∧ !e.allocLut then some ⟨-12, ⟨0, none⟩, some msg, [6, 7], []⟩
        else
          (copyLut ⟨n, some (List.replicate (4 * n) 0)⟩ m).map fun d =>
            ⟨0, d, some msg, [6, 7] ++ List.range' 12 d.lutSize, []⟩

def Holds (d : RssData) (n : Nat) (entry : Nat → Nat) : Prop :=
  d.lutSize = n ∧ ∃ l, d.lut = some l ∧ l.length = 4 * n ∧
    ∀ i < n, leAt (storedBytes l) 4 (4 * i) = entry i

end RssData

namespace RssLutMsg

def entry (msg : RssLutMsg) (i : Nat) : Nat := leAt (storedBytes msg.lut) 4 (4 * i)

end RssLutMsg

namespace LutReply

def received : LutReply → Nat
  | .failed _ _ => 0
  | .reply r => r.received

/-- `lut_entries` of the reply. -/
def lutEntries : LutReply → Nat
  | .failed _ _ => 0
  | .reply r => leAt r.payload 2 6

def entry : LutReply → Nat → Nat
  | .failed _ _, _ => 0
  | .reply r, i => leAt r.payload 4 (12 + 4 * i)

def whole (r : LutReply) : Prop := 12 + 4 * r.lutEntries ≤ r.received

def tells (r : LutReply) (msg : RssLutMsg) : Prop :=
  r.whole ∧ r.lutEntries = msg.lutEntries ∧ ∀ i < r.lutEntries, r.entry i = msg.entry i

end LutReply

/-- The table `t` is set with the end `s`, and a table is read back over `u` with the end `r`. What
is sent is the driver's table, and getting what has been set gives it back; a reply is read only
where it was received, and replaces the whole table or, if the call fails, nothing; and the buffers
of both calls are released. -/
structure LutInverse (t u : RssTable) (se ge : LutEnv) (s r : LutRun) : Prop where
  sends : ∀ msg, s.sent = some msg → se.rxhashEna = true → t.data.Holds msg.lutEntries msg.entry
  inverse : ∀ msg, s.sent = some msg → ge.reply.tells msg → r.ret = 0 →
    r.data.Holds msg.lutEntries msg.entry
  within : ∀ off ∈ r.reads, off < ge.reply.received
  replaced : r.ret = 0 → ge.reply.whole ∧ r.data.Holds ge.reply.lutEntries ge.reply.entry
  kept : r.ret ≠ 0 → r.data = u.data
  released : s.held = [] ∧ r.held = []

/-- Nothing is sent; or the reply holds a whole table whose bytes behind those that are copied are
already in the driver's table or, if that is replaced by a new one, zero. -/
def lutReplyOk (t : RssTable) (e : LutEnv) : Bool :=
  !e.vport || !e.allocRl || !e.allocRecv ||
    match e.reply with
    | .failed _ _ => false
    | .reply r =>
      let n := leAt r.payload 2 6
      decide (12 + 4 * n ≤ r.received) &&
        if n = t.size then
          (List.range (4 * n)).all fun i =>
            decide (i < n) || r.payload (12 + i) == storedBytes t.bytes i
        else
          (n == 0 || e.allocLut) &&
            (List.range (4 * n)).all fun i => decide (i < n) || r.payload (12 + i) == 0

namespace RssData

theorem holds_iff {n o : Nat} {l : List (BitVec 8)} {m : Bytes} (length : l.length = 4 * n) :
    (RssData.mk n (some l)).Holds n (fun i => leAt m 4 (o + 4 * i)) ↔
      ∀ j < 4 * n, storedBytes l j = m (o + j) := by
  constructor
  · rintro ⟨-, l', same, -, entries⟩ j below
    obtain rfl := Option.some.inj same
    have bytes := leAt_eq_iff.mp (entries (j / 4) (by omega)) (j % 4) (Nat.mod_lt _ (by decide))
    rw [Nat.add_assoc, Nat.div_add_mod] at bytes
    exact bytes
  · intro bytes
    refine ⟨rfl, l, rfl, length, fun i below => leAt_eq_iff.mpr fun k small => ?_⟩
    rw [Nat.add_assoc]
    exact bytes _ (by omega)

theorem copyLut_bytes {n j : Nat} {l : List (BitVec 8)} {m : Bytes} :
    storedBytes ((List.range n).map (fun i => m (12 + i)) ++ l.drop n) j =
      if j < n then m (12 + j) else storedBytes l j := by
  unfold storedBytes
  split
  · next copied =>
      rw [List.getD_eq_getElem?_getD, List.getElem?_append_left (by simpa using copied)]
      simp [copied]
  · next kept =>
      rw [List.getD_eq_getElem?_getD, List.getElem?_append_right (by simpa using kept)]
      simp only [List.length_map, List.length_range, List.getElem?_drop]
      rw [Nat.add_sub_cancel' (Nat.le_of_not_lt kept), List.getD_eq_getElem?_getD]

theorem copyLut_some {n : Nat} {l : List (BitVec 8)} (m : Bytes) (length : l.length = 4 * n) :
    (RssData.mk n (some l)).copyLut m =
      some ⟨n, some ((List.range n).map (fun i => m (12 + i)) ++ l.drop n)⟩ := by
  unfold copyLut
  split
  · next none =>
      obtain rfl : n = 0 := none
      rw [List.length_eq_zero_iff.mp length]
      rfl
  · rfl

theorem msgLut_table (t : RssTable) (get rxhashEna : Bool) :
    ∃ lut, t.data.msgLut get rxhashEna = some lut ∧
      (get = false → rxhashEna = true → lut = t.bytes) := by
  unfold msgLut
  split
  · next empty =>
      refine ⟨_, rfl, fun set on => ?_⟩
      rw [set, on] at empty
      have none : t.size = 0 := of_decide_eq_true (p := t.size = 0) empty
      have length := t.whole
      rw [none] at length
      rw [List.length_eq_zero_iff.mp length]
      change List.replicate (4 * t.size) 0 = []
      rw [none]
      rfl
  · refine ⟨_, rfl, fun _ _ => ?_⟩
    change t.bytes.take (4 * t.size) = t.bytes
    rw [← t.whole, List.take_length]

/-- A call that sets a table returns, holds no buffer, and has sent the driver's table while RXHASH
is on. -/
theorem sendSet_spec (t : RssTable) (vportId : Nat) (e : LutEnv) :
    ∃ s, t.data.sendGetSetRssLut vportId false e = some s ∧ s.held = [] ∧
      ∀ msg, s.sent = some msg → e.rxhashEna = true → t.data.Holds msg.lutEntries msg.entry := by
  unfold sendGetSetRssLut
  split
  · exact ⟨_, rfl, rfl, nofun⟩
  · split
    · exact ⟨_, rfl, rfl, nofun⟩
    · obtain ⟨lut, sent, table⟩ := msgLut_table t false e.rxhashEna
      rw [Bool.false_and, if_neg Bool.false_ne_true, sent, Option.bind_some]
      have sends : ∀ msg, some (RssLutMsg.mk vportId t.size lut) = some msg →
          e.rxhashEna = true → t.data.Holds msg.lutEntries msg.entry := by
        rintro msg same on
        obtain rfl := Option.some.inj same
        obtain rfl := table rfl on
        exact ⟨rfl, _, rfl, t.whole, fun _ _ => rfl⟩
      dsimp only
      split
      · exact ⟨_, rfl, rfl, sends⟩
      · exact ⟨_, rfl, rfl, sends⟩

end RssData

theorem storedBytes_zero (n i : Nat) : storedBytes (List.replicate n 0) i = 0 := by
  rw [storedBytes, List.getD_eq_getElem?_getD, List.getElem?_replicate]
  split <;> rfl

/-- What getting a table has to do whatever was set before. -/
structure LutGot (u : RssTable) (e : LutEnv) (r : LutRun) : Prop where
  within : ∀ off ∈ r.reads, off < e.reply.received
  replaced : r.ret = 0 → e.reply.whole ∧ r.data.Holds e.reply.lutEntries e.reply.entry
  kept : r.ret ≠ 0 → r.data = u.data
  released : r.held = []

/-- A reply that tells the table of a message gives it back when it replaces the driver's. -/
theorem lutInverse_iff {t u : RssTable} {se ge : LutEnv} {s r : LutRun} (clean : s.held = [])
    (sends : ∀ msg, s.sent = some msg → se.rxhashEna = true →
      t.data.Holds msg.lutEntries msg.entry) :
    LutInverse t u se ge s r ↔ LutGot u ge r := by
  constructor
  · intro v
    exact ⟨v.within, v.replaced, v.kept, v.released.2⟩
  · intro v
    refine ⟨sends, fun msg _ tells success => ?_, v.within, v.replaced, v.kept, clean, v.released⟩
    obtain ⟨-, size, l, there, length, entries⟩ := v.replaced success
    obtain ⟨-, count, same⟩ := tells
    rw [← count]
    exact ⟨size, l, there, length, fun i below => (entries i below).trans (same i below)⟩

section Get

variable {u : RssTable} {e : LutEnv} {m : Bytes} {reply : ChunkReply}

/-- The table after a copy of whole length is the reply's if and only if the bytes behind the copied
ones are. -/
theorem copied_holds_iff {n : Nat} {l : List (BitVec 8)} (length : l.length = 4 * n)
    (same : ∀ i < reply.received, m i = reply.payload i)
    (whole : 12 + 4 * n ≤ reply.received) :
    (RssData.mk n (some ((List.range n).map (fun i => m (12 + i)) ++ l.drop n))).Holds n
        (fun i => leAt reply.payload 4 (12 + 4 * i)) ↔
      (List.range (4 * n)).all (fun i =>
        decide (i < n) || reply.payload (12 + i) == storedBytes l i) = true := by
  have length' : ((List.range n).map (fun i => m (12 + i)) ++ l.drop n).length = 4 * n := by
    rw [List.length_append, List.length_map, List.length_range, List.length_drop]
    omega
  rw [RssData.holds_iff length', List.all_eq_true]
  refine forall_congr' fun i => ?_
  rw [List.mem_range, RssData.copyLut_bytes, Bool.or_eq_true, decide_eq_true_eq, beq_iff_eq]
  refine imp_congr_right fun below => ?_
  split
  · next copied => exact ⟨fun _ => .inl copied, fun _ => same _ (by omega)⟩
  · next kept => exact ⟨fun eq => .inr eq.symm, fun eq => (eq.resolve_left kept).symm⟩

/-- What is read in a successful call is within a reply that holds a whole table. -/
theorem lutGot_success {n : Nat} {l : List (BitVec 8)} {msg : RssLutMsg}
    (replied : e.reply = .reply reply) (count : leAt reply.payload 2 6 = n)
    (length : l.length = 4 * n) (same : ∀ i < reply.received, m i = reply.payload i) :
    LutGot u e ⟨0, ⟨n, some ((List.range n).map (fun i => m (12 + i)) ++ l.drop n)⟩, some msg,
        [6, 7] ++ List.range' 12 n, []⟩ ↔
      (decide (12 + 4 * n ≤ reply.received) && (List.range (4 * n)).all fun i =>
        decide (i < n) || reply.payload (12 + i) == storedBytes l i) = true := by
  rw [Bool.and_eq_true, decide_eq_true_eq]
  constructor
  · intro v
    obtain ⟨whole, holds⟩ := v.replaced rfl
    rw [replied] at whole holds
    subst count
    exact ⟨whole, (copied_holds_iff length same whole).mp holds⟩
  · rintro ⟨whole, bytes⟩
    refine ⟨fun off member => ?_, fun _ => ?_, fun failed => absurd rfl failed, rfl⟩
    · rw [replied]
      change off < reply.received
      rcases List.mem_append.mp member with header | table
      · simp only [List.mem_cons, List.not_mem_nil, or_false] at header
        omega
      · have below := List.mem_range'_1.mp table
        omega
    · rw [replied]
      subst count
      exact ⟨whole, (copied_holds_iff length same whole).mpr bytes⟩

theorem sendGet_iff (u : RssTable) (vportId : Nat) (e : LutEnv) :
    ∃ r, u.data.sendGetSetRssLut vportId true e = some r ∧
      (LutGot u e r ↔ lutReplyOk u e = true) := by
  have early {err : Int} (negative : err < 0) : LutGot u e ⟨err, u.data, none, [], []⟩ :=
    ⟨nofun, fun success => absurd success (Int.ne_of_lt negative), fun _ => rfl, rfl⟩
  unfold RssData.sendGetSetRssLut lutReplyOk
  cases e.vport with
  | false => exact ⟨_, rfl, fun _ => rfl, fun _ => early (by decide)⟩
  | true =>
      cases e.allocRl with
      | false => exact ⟨_, rfl, fun _ => rfl, fun _ => early (by decide)⟩
      | true =>
          cases e.allocRecv with
          | false => exact ⟨_, rfl, fun _ => rfl, fun _ => early (by decide)⟩
          | true =>
              obtain ⟨lut, sent, -⟩ := RssData.msgLut_table u true e.rxhashEna
              simp only [Bool.not_true, Bool.and_false, Bool.false_eq_true, if_false, Bool.false_or,
                sent, Option.bind_some]
              cases replied : e.reply with
              | failed err negative =>
                  exact ⟨_, rfl, fun v => absurd v.released nofun, nofun⟩
              | reply r =>
                  have same : ∀ i < r.received, r.buffer zeroed i = r.payload i :=
                    fun i inside => if_pos inside
                  have most : r.received ≤ r.len.toNat := Nat.min_le_right _ _
                  have leak {err : Int} {msg : RssLutMsg} {reads : List Nat} :
                      ¬ LutGot u e ⟨err, u.data, some msg, reads, [.recvRl]⟩ :=
                    fun v => absurd v.released nofun
                  have cut (short : ¬ 12 + 4 * leAt r.payload 2 6 ≤ r.received) {b : Bool} :
                      ¬ (decide (12 + 4 * leAt r.payload 2 6 ≤ r.received) && b) = true := by
                    rw [decide_eq_false short]
                    exact nofun
                  dsimp only
                  by_cases header : r.len.toNat < 12
                  · rw [if_pos header]
                    exact ⟨_, rfl, iff_of_false leak (cut (by omega))⟩
                  · rw [if_neg header]
                    have count : leAt (r.buffer zeroed) 2 6 = leAt r.payload 2 6 :=
                      leAt_congr fun i _ below => same i (by
                        have buffer : r.received = min 4096 r.len.toNat := rfl
                        omega)
                    rw [count]
                    by_cases table : r.len.toNat < 4 * leAt r.payload 2 6
                    · rw [if_pos table]
                      exact ⟨_, rfl, iff_of_false leak (cut (by omega))⟩
                    · rw [if_neg table]
                      have size : u.data.lutSize = u.size := rfl
                      rw [size]
                      by_cases equal : u.size = leAt r.payload 2 6
                      · rw [if_pos equal, if_pos equal.symm, ← equal, RssTable.data,
                          RssData.copyLut_some _ u.whole]
                        exact ⟨_, rfl, lutGot_success replied equal.symm u.whole same⟩
                      · rw [if_neg equal, if_neg (Ne.symm equal)]
                        by_cases noMemory : leAt r.payload 2 6 ≠ 0 ∧ (!e.allocLut) = true
                        · rw [if_pos noMemory]
                          refine ⟨_, rfl, iff_of_false (fun v => ?_) ?_⟩
                          · have lost := congrArg RssData.lut (v.kept (by decide : (-12 : Int) ≠ 0))
                            exact absurd lost nofun
                          · rw [Bool.not_eq_true'] at noMemory
                            simp [noMemory.1, noMemory.2]
                        · rw [if_neg noMemory, RssData.copyLut_some _ List.length_replicate]
                          refine ⟨_, rfl, (lutGot_success replied rfl List.length_replicate
                            same).trans ?_⟩
                          have memory : (leAt r.payload 2 6 == 0 || e.allocLut) = true := by
                            rw [Bool.or_eq_true, beq_iff_eq]
                            rcases not_and_or.mp noMemory with none | some
                            · exact .inl (not_not.mp none)
                            · exact .inr (by simpa using some)
                          simp only [memory, Bool.true_and, storedBytes_zero]

end Get

/-- Setting and getting the table are inverse, and getting one is whole or nothing, if and only if
the reply is fine for the table that the driver has then. -/
theorem rss_lut_inverse_iff (t u : RssTable) (vportId : Nat) (se ge : LutEnv) :
    (∃ s r, t.data.sendGetSetRssLut vportId false se = some s ∧
        u.data.sendGetSetRssLut vportId true ge = some r ∧ LutInverse t u se ge s r) ↔
      lutReplyOk u ge = true := by
  obtain ⟨s, set, clean, sends⟩ := RssData.sendSet_spec t vportId se
  obtain ⟨r, get, ok⟩ := sendGet_iff u vportId ge
  rw [← ok, ← lutInverse_iff clean sends]
  constructor
  · rintro ⟨s', r', set', get', v⟩
    obtain rfl := Option.some.inj (set.symm.trans set')
    obtain rfl := Option.some.inj (get.symm.trans get')
    exact v
  · intro v
    exact ⟨s, r, set, get, v⟩

/-- Two entries of 1, which is sent as zeroes while RXHASH is off. -/
def lutOfOnes : RssTable := ⟨2, [1, 0, 0, 0, 1, 0, 0, 0], rfl, Nat.lt_of_sub_eq_succ rfl⟩

/-- RXHASH is off, and the reply is the one given. -/
def lutWith (reply : LutReply) : LutEnv := ⟨true, false, true, true, true, reply⟩

def zeroLutReply : LutReply := .reply ⟨20, fun i => if i = 6 then 2 else 0, zeroed⟩

def lutError : LutReply := .failed (-5) (by decide)

/-- Two entries of 0 are set and read back, and one of them is not replaced; and a failed call keeps
its receive buffer. -/
theorem half_of_lut_got :
    (lutOfOnes.data.sendGetSetRssLut 0 true (lutWith zeroLutReply)).map
        (fun r => (r.ret, r.data.lut)) = some (0, some [0, 0, 0, 0, 1, 0, 0, 0]) ∧
      (¬ ∃ s r, lutOfOnes.data.sendGetSetRssLut 0 false (lutWith zeroLutReply) = some s ∧
        lutOfOnes.data.sendGetSetRssLut 0 true (lutWith zeroLutReply) = some r ∧
        LutInverse lutOfOnes lutOfOnes (lutWith zeroLutReply) (lutWith zeroLutReply) s r) ∧
      ¬ ∃ s r, lutOfOnes.data.sendGetSetRssLut 0 false (lutWith lutError) = some s ∧
        lutOfOnes.data.sendGetSetRssLut 0 true (lutWith lutError) = some r ∧
        LutInverse lutOfOnes lutOfOnes (lutWith lutError) (lutWith lutError) s r := by
  have missed {e : LutEnv} (bad : lutReplyOk lutOfOnes e = false) :
      ¬ ∃ s r, lutOfOnes.data.sendGetSetRssLut 0 false e = some s ∧
        lutOfOnes.data.sendGetSetRssLut 0 true e = some r ∧
        LutInverse lutOfOnes lutOfOnes e e s r := by
    rintro ⟨s, r, -, get, v⟩
    obtain ⟨r', get', ok⟩ := sendGet_iff lutOfOnes 0 e
    obtain rfl := Option.some.inj (get.symm.trans get')
    have fine := ok.mp ⟨v.within, v.replaced, v.kept, v.released.2⟩
    exact absurd (bad.symm.trans fine) nofun
  exact ⟨by decide, missed (by decide), missed (by decide)⟩

end Idpf
