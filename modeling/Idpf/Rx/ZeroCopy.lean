import Idpf.Rx.Clean

/-! `idpf_rx_splitq_clean_zc`, the AF_XDP receive loop, and how its turns compare
with those of `idpf_rx_splitq_clean` on the same completions. -/
namespace Idpf
open General

/-- `idpf_rx_construct_skb_zc` on a buffer whose ends the XDP program left alone. -/
def rxConstructSkbZc (pktBuf : Nat → UInt8) (size : Nat) : RxSkb :=
  { linear := readBuf pktBuf size }

/-- One turn of the loop in `idpf_rx_splitq_clean_zc`. `xdpBuf` says that the buffer
the completion names has memory of the pool (`rx_buf->xdp`). -/
def rxTurnZc (cfg : RxCfg) (q : Rxq) (p : RxPoll) (env : RxTurnEnv) (xdpBuf : Bool) : RxTurn :=
  let c := q.ring p.ntc
  let ntc := bump q.descCount p.ntc
  let genChk := turn q.descCount p.ntc q.genChk
  if p.budget ≤ p.totalRxPkts then .stop p.skb
  else if q.genChk ≠ c.desc.gen then .stop p.skb
  else if c.desc.pktLen = 0 then .stop p.skb
  else if !xdpBuf then .stop p.skb
  else
    let buf := some (c.desc.bufqId, c.desc.bufId)
    if env.xdp ≠ .pass then
      .next { p with ntc, totalRxPkts := p.totalRxPkts + 1 } genChk buf none
    else if !env.pktSkb then .stop none
    else
      match rxProcessSkbFields cfg.features (rxConstructSkbZc c.pktBuf c.desc.pktLen) c.desc
          env.beyond with
      | none => .next { p with ntc, skb := none } genChk buf none
      | some s =>
        .next { p with ntc, skb := none, totalRxPkts := p.totalRxPkts + 1 } genChk buf
          (some (ethTypeTrans s env.beyond))

/-- What the stack sees of a packet; the octets of its TCP checksum count as
replaced where `idpf_rx_rsc` wrote them. -/
structure RxView where
  data : List UInt8
  protocol : Nat
  vlan : Option (Nat × Nat)
  ipSummed : IpSummed
  csum : Nat
  hash : Option (Nat × PktHashType)
  rscCheck : Bool
  deriving DecidableEq, Repr

def RxSkb.view (s : RxSkb) : RxView :=
  ⟨s.data, s.protocol, s.vlan, s.ipSummed, s.csum, s.hash, s.rsc.isSome⟩

/-- How a receive path leaves a completion: not consumed, skipped as an error,
skipped as not the end of its packet, or delivered. -/
inductive RxOutcome where
  | stalled | error | notEop | delivered (v : RxView)
  deriving DecidableEq, Repr

/-- The outcome of a turn. A turn that posts no buffer met a bad descriptor, and one
that delivers nothing keeps the skb of a packet that goes on. -/
def RxTurn.outcome : RxTurn → RxOutcome
  | .stop _ => .stalled
  | .next _ _ none _ => .error
  | .next p _ (some _) none => if p.skb.isSome then .notEop else .error
  | .next _ _ (some _) (some s) => .delivered s.view

/-- A completion, and the memory behind the data of its skb. -/
structure RxArrival where
  compl : RxCompl
  beyond : Nat → UInt8

/-- A queue whose next slot holds a completion the device has written. -/
def rxArrived (c : RxCompl) : Rxq := ⟨1, fun _ => c, 0, c.desc.gen, none⟩

/-- A poll about to look at the next slot, with the skb carried over. -/
def rxPollAt (skb : Option RxSkb) : RxPoll := ⟨1, 0, skb, 0⟩

def copyTurn (cfg : RxCfg) (skb : Option RxSkb) (x : RxArrival) : RxTurn :=
  rxTurn cfg (rxArrived x.compl) (rxPollAt skb) { beyond := x.beyond }

def zcTurn (cfg : RxCfg) (skb : Option RxSkb) (x : RxArrival) : RxTurn :=
  rxTurnZc cfg (rxArrived x.compl) (rxPollAt skb) { beyond := x.beyond } true

/-- The outcomes of a receive path on a stream of completions, which ends where a
completion is not consumed. -/
def rxOutcomes (turn : Option RxSkb → RxArrival → RxTurn) :
    Option RxSkb → List RxArrival → List RxOutcome
  | _, [] => []
  | skb, x :: rest =>
    (turn skb x).outcome ::
      match turn skb x with
      | .stop _ => []
      | .next p _ _ _ => rxOutcomes turn p.skb rest

/-- What `idpf_rx_process_skb_fields` sets beyond the packet itself. -/
def RxSkb.packet (s : RxSkb) : List UInt8 × List (List UInt8) × Nat × Nat × Option (Nat × Nat) :=
  (s.linear, s.frags, s.pulled, s.protocol, s.vlan)

theorem rxHash_packet (f : RxFeatures) (s : RxSkb) (d : RxDesc) (p : RxPtype) :
    (rxHash f s d p).packet = s.packet := by
  unfold rxHash
  split <;> rfl

theorem rxHwtstamp_packet (f : RxFeatures) (d : RxDesc) (s : RxSkb) :
    (rxHwtstamp f d s).packet = s.packet := by
  unfold rxHwtstamp
  split <;> rfl

theorem rxCsum_packet (f : RxFeatures) (s : RxSkb) (d : RxDesc) (p : RxPtype) :
    (rxCsum f s d p).packet = s.packet := by
  unfold rxCsum
  repeat' split
  all_goals rfl

theorem rxRsc_packet {s s' : RxSkb} {d : RxDesc} {p : RxPtype} (h : rxRsc s d p = some s') :
    s'.packet = s.packet := by
  simp only [rxRsc, Option.ite_none_left_eq_some] at h
  obtain ⟨-, -, -, h⟩ := h
  split at h
  · rw [Option.some.inj h]
  · rw [← Option.some.inj h]
    rfl

/-- The packet after processing is the one `eth_type_trans` leaves. -/
theorem rxProcessSkbFields_packet {f : RxFeatures} {s s' : RxSkb} {d : RxDesc}
    {beyond : Nat → UInt8} (h : rxProcessSkbFields f s d beyond = some s') :
    s'.packet = (ethTypeTrans s beyond).packet := by
  unfold rxProcessSkbFields at h
  dsimp only at h
  split at h
  · rw [← Option.some.inj h]
  · have stamped : ∀ t : RxSkb, (if f.tstmpEn then rxHwtstamp f d t else t).packet = t.packet := by
      intro t
      split
      · exact rxHwtstamp_packet f d t
      · rfl
    split at h
    · rw [rxRsc_packet h, stamped, rxHash_packet]
    · rw [← Option.some.inj h, rxCsum_packet, stamped, rxHash_packet]

/-- The descriptors `idpf_rx_process_skb_fields` refuses: coalesced packets of an
unusable type or without a segment length. -/
def rxFieldsRefused (f : RxFeatures) (d : RxDesc) : Bool :=
  let p := f.ptypeLkup d.ptype
  p.known && d.rsc && (!p.outerIp || d.misc == 0 || !(p.isIpv .ipv4 ^^ p.isIpv .ipv6))

theorem rxRsc_none_iff (s : RxSkb) (d : RxDesc) (p : RxPtype) :
    rxRsc s d p = none ↔
      (!p.outerIp || d.misc == 0 || !(p.isIpv .ipv4 ^^ p.isIpv .ipv6)) = true := by
  simp only [rxRsc, Bool.or_eq_true, beq_iff_eq]
  refine ⟨fun h => ?_, fun refused => ?_⟩
  · by_contra accepted
    simp only [not_or] at accepted
    obtain ⟨⟨ip, seg⟩, ver⟩ := accepted
    rw [if_neg ip, if_neg seg, if_neg ver] at h
    split at h <;> exact absurd h (Option.some_ne_none _)
  · rcases refused with (ip | seg) | ver
    · rw [if_pos ip]
    · rw [if_pos seg, ite_self]
    · rw [if_pos ver, ite_self, ite_self]

/-- Whether a descriptor is refused does not depend on the skb. -/
theorem rxProcessSkbFields_none_iff (f : RxFeatures) (s : RxSkb) (d : RxDesc)
    (beyond : Nat → UInt8) :
    rxProcessSkbFields f s d beyond = none ↔ rxFieldsRefused f d = true := by
  unfold rxProcessSkbFields rxFieldsRefused
  dsimp only
  split
  · next unknown =>
    have unknown : (f.ptypeLkup d.ptype).known = false := by simpa using unknown
    rw [unknown]
    exact ⟨nofun, nofun⟩
  · next known =>
    have known : (f.ptypeLkup d.ptype).known = true := by simpa using known
    rw [known, Bool.true_and]
    split
    · next rsc => rw [rxRsc_none_iff, rsc, Bool.true_and]
    · next plain =>
      have plain : d.rsc = false := by simpa using plain
      rw [plain, Bool.false_and]
      exact ⟨nofun, nofun⟩

theorem rxOutcomes_stop {turn : Option RxSkb → RxArrival → RxTurn} {skb skb' : Option RxSkb}
    {x : RxArrival} (h : turn skb x = .stop skb') (rest : List RxArrival) :
    rxOutcomes turn skb (x :: rest) = [.stalled] := by
  rw [rxOutcomes, h]
  rfl

theorem rxOutcomes_next {turn : Option RxSkb → RxArrival → RxTurn} {skb : Option RxSkb}
    {x : RxArrival} {p : RxPoll} {genChk : Bool} {post : Option (Nat × Nat)} {deliver : Option RxSkb}
    (h : turn skb x = .next p genChk post deliver) (rest : List RxArrival) :
    rxOutcomes turn skb (x :: rest) =
      (RxTurn.next p genChk post deliver).outcome :: rxOutcomes turn p.skb rest := by
  rw [rxOutcomes, h]

/-- The outcome of `idpf_rx_splitq_clean` on the one buffer of a packet. -/
def copyOutcome (cfg : RxCfg) (x : RxArrival) : RxOutcome :=
  let d := x.compl.desc
  if d.rxdid ≠ rxdid2FlexSplitq then .error
  else if !d.eof then .notEop
  else
    match rxProcessSkbFields cfg.features (rxConstructSkb cfg x.compl.pktBuf d.pktLen) d x.beyond with
    | none => .error
    | some s => .delivered (receiveSkb cfg.features s (getVlanTci d)).view

/-- The outcome of `idpf_rx_splitq_clean_zc` on a completion with octets. -/
def zcOutcome (cfg : RxCfg) (x : RxArrival) : RxOutcome :=
  let d := x.compl.desc
  match rxProcessSkbFields cfg.features (rxConstructSkbZc x.compl.pktBuf d.pktLen) d x.beyond with
  | none => .error
  | some s => .delivered (ethTypeTrans s x.beyond).view

variable {cfg : RxCfg} {x : RxArrival}

/-- A turn of the copy path on a packet in one buffer. The skb is kept for a packet
that goes on. -/
theorem copyTurn_packet (single : rxHdrLen x.compl.desc = 0) (octets : x.compl.desc.pktLen ≠ 0) :
    ∃ p genChk post deliver, copyTurn cfg none x = .next p genChk post deliver ∧
      (RxTurn.next p genChk post deliver).outcome = copyOutcome cfg x ∧
      (copyOutcome cfg x ≠ .notEop → p.skb = none) := by
  have built : rxPktStep cfg true x.compl (rxHdrStep true x.compl none) =
      some (rxConstructSkb cfg x.compl.pktBuf x.compl.desc.pktLen) := by
    rw [rxHdrStep, if_neg (not_not.mpr single), rxPktStep, if_pos octets]
    rfl
  have passed : ¬ (x.compl.desc.pktLen ≠ 0 ∧ cfg.xdp = true ∧ (XdpRes.pass : XdpRes) ≠ .pass) :=
    fun h => h.2.2 rfl
  by_cases bad : x.compl.desc.rxdid ≠ rxdid2FlexSplitq
  · have outcome : copyOutcome cfg x = .error := if_pos bad
    have entered : copyTurn cfg none x =
        .next ⟨1, bump 1 0, none, 0⟩ (turn 1 0 x.compl.desc.gen) none none := by
      simp only [copyTurn, rxTurn, rxArrived, rxPollAt, ne_eq, not_true_eq_false, if_false]
      exact if_pos bad
    rw [outcome]
    exact ⟨_, _, _, _, entered, rfl, fun _ => rfl⟩
  · have entered : copyTurn cfg none x =
        if !x.compl.desc.eof then
          .next ⟨1, bump 1 0, some (rxConstructSkb cfg x.compl.pktBuf x.compl.desc.pktLen), 0⟩
            (turn 1 0 x.compl.desc.gen) (some (x.compl.desc.bufqId, x.compl.desc.bufId)) none
        else
          match rxProcessSkbFields cfg.features
              (rxConstructSkb cfg x.compl.pktBuf x.compl.desc.pktLen) x.compl.desc x.beyond with
          | none => .next ⟨1, bump 1 0, none, 0⟩ (turn 1 0 x.compl.desc.gen)
              (some (x.compl.desc.bufqId, x.compl.desc.bufId)) none
          | some s => .next ⟨1, bump 1 0, none, 1⟩ (turn 1 0 x.compl.desc.gen)
              (some (x.compl.desc.bufqId, x.compl.desc.bufId))
              (some (receiveSkb cfg.features s (getVlanTci x.compl.desc))) := by
      simp only [copyTurn, rxTurn, rxArrived, rxPollAt, if_neg bad, if_neg passed, built,
        Nat.zero_add]
      rw [if_neg (not_not.mpr rfl)]
      exact if_neg (Nat.not_succ_le_zero 0)
    rw [entered, copyOutcome, if_neg bad]
    split
    · exact ⟨_, _, _, _, rfl, rfl, fun more => absurd rfl more⟩
    · split
      · exact ⟨_, _, _, _, rfl, rfl, fun _ => rfl⟩
      · exact ⟨_, _, _, _, rfl, rfl, fun _ => rfl⟩

theorem zcTurn_packet (octets : x.compl.desc.pktLen ≠ 0) :
    ∃ p genChk post deliver, zcTurn cfg none x = .next p genChk post deliver ∧
      (RxTurn.next p genChk post deliver).outcome = zcOutcome cfg x ∧ p.skb = none := by
  have entered : zcTurn cfg none x =
      match rxProcessSkbFields cfg.features (rxConstructSkbZc x.compl.pktBuf x.compl.desc.pktLen)
          x.compl.desc x.beyond with
      | none => .next ⟨1, bump 1 0, none, 0⟩ (turn 1 0 x.compl.desc.gen)
          (some (x.compl.desc.bufqId, x.compl.desc.bufId)) none
      | some s => .next ⟨1, bump 1 0, none, 1⟩ (turn 1 0 x.compl.desc.gen)
          (some (x.compl.desc.bufqId, x.compl.desc.bufId)) (some (ethTypeTrans s x.beyond)) := by
    simp only [zcTurn, rxTurnZc, rxArrived, rxPollAt, octets, ne_eq, not_true_eq_false,
      Bool.not_true, Bool.false_eq_true, if_false, Nat.zero_add]
    exact if_neg (Nat.not_succ_le_zero 0)
  rw [entered, zcOutcome]
  split
  · exact ⟨_, _, _, _, rfl, rfl, rfl⟩
  · exact ⟨_, _, _, _, rfl, rfl, rfl⟩

theorem zcTurn_empty (empty : x.compl.desc.pktLen = 0) : zcTurn cfg none x = .stop none := by
  simp only [zcTurn, rxTurnZc, rxArrived, rxPollAt, empty, ne_eq, not_true_eq_false, if_true,
    if_false, ite_self]

/-- Without octets the copy path skips a bad descriptor, and has no skb otherwise. -/
theorem copyTurn_empty (single : rxHdrLen x.compl.desc = 0) (empty : x.compl.desc.pktLen = 0) :
    x.compl.desc.rxdid ≠ rxdid2FlexSplitq ∧
        copyTurn cfg none x = .next ⟨1, bump 1 0, none, 0⟩ (turn 1 0 x.compl.desc.gen) none none ∨
      x.compl.desc.rxdid = rxdid2FlexSplitq ∧ copyTurn cfg none x = .stop none := by
  have built : rxPktStep cfg true x.compl (rxHdrStep true x.compl none) = none := by
    rw [rxHdrStep, if_neg (not_not.mpr single), rxPktStep, if_neg (not_not.mpr empty)]
  by_cases good : x.compl.desc.rxdid = rxdid2FlexSplitq
  · refine Or.inr ⟨good, ?_⟩
    simp only [copyTurn, rxTurn, rxArrived, rxPollAt, good, empty, built, ne_eq, not_true_eq_false,
      false_and, if_false, ite_self]
  · refine Or.inl ⟨good, ?_⟩
    simp only [copyTurn, rxTurn, rxArrived, rxPollAt, ne_eq, not_true_eq_false, if_false]
    exact if_pos good

/-- The descriptors of single-buffer packets on which the two paths agree. One that is
refused has to end its packet or be a bad descriptor. One that is delivered has to be a
good descriptor that ends its packet, carries no VLAN tag to be set, and is so short
that no second header is pulled; and the type read there has to be the first. -/
def zcAgreesOn (cfg : RxCfg) (x : RxArrival) : Bool :=
  let d := x.compl.desc
  let s := ethTypeTrans (rxConstructSkbZc x.compl.pktBuf d.pktLen) x.beyond
  if rxFieldsRefused cfg.features d then d.rxdid != rxdid2FlexSplitq || d.eof
  else
    d.rxdid == rxdid2FlexSplitq && d.eof && decide (d.pktLen < 2 * ethHlen) &&
      getVlanTci d % (vlanVidMask + 1) == 0 && (ethTypeTrans s x.beyond).protocol == s.protocol

/-- Agreement on a stream, up to a completion without octets: there the zero-copy
path stops, and the copy path too unless it skips the descriptor. -/
def zcAgrees (cfg : RxCfg) : List RxArrival → Bool
  | [] => true
  | x :: rest =>
    if x.compl.desc.pktLen = 0 then x.compl.desc.rxdid == rxdid2FlexSplitq
    else zcAgreesOn cfg x && zcAgrees cfg rest

theorem ethTypeTrans_pulled (s : RxSkb) (beyond : Nat → UInt8) :
    (ethTypeTrans s beyond).pulled = if ethHlen ≤ s.len then s.pulled + ethHlen else s.pulled := by
  unfold ethTypeTrans
  dsimp only
  split <;> split <;> (try split) <;> rfl

theorem ethTypeTrans_fields (s : RxSkb) (beyond : Nat → UInt8) :
    let t := ethTypeTrans s beyond
    t.vlan = s.vlan ∧ t.ipSummed = s.ipSummed ∧ t.csum = s.csum ∧ t.hash = s.hash ∧ t.rsc = s.rsc := by
  unfold ethTypeTrans
  dsimp only
  split <;> split <;> (try split) <;> exact ⟨rfl, rfl, rfl, rfl, rfl⟩

theorem ethTypeTrans_protocol (s : RxSkb) (beyond : Nat → UInt8) :
    (ethTypeTrans s beyond).protocol =
      if 0x0600 ≤ s.peek beyond 12 * 256 + s.peek beyond 13 then
        s.peek beyond 12 * 256 + s.peek beyond 13
      else if (s.data.drop (if ethHlen ≤ s.len then ethHlen else 0)).take 2 = [0xff, 0xff] then 0x0001
      else 0x0004 := by
  have behind : (if ethHlen ≤ s.len then { s with pulled := s.pulled + ethHlen } else s).data =
      s.data.drop (if ethHlen ≤ s.len then ethHlen else 0) := by
    split
    · rw [RxSkb.data, RxSkb.data, List.drop_drop]
      rfl
    · rw [List.drop_zero]
  unfold ethTypeTrans
  dsimp only
  rw [behind]
  generalize (if ethHlen ≤ s.len then { s with pulled := s.pulled + ethHlen } else s) = pulled
  generalize s.data.drop (if ethHlen ≤ s.len then ethHlen else 0) = data
  split
  · rfl
  · split <;> rfl

/-- The type depends on the packet alone. -/
theorem ethTypeTrans_protocol_congr {s t : RxSkb} (same : s.packet = t.packet)
    (beyond : Nat → UInt8) : (ethTypeTrans s beyond).protocol = (ethTypeTrans t beyond).protocol := by
  simp only [RxSkb.packet, Prod.mk.injEq] at same
  obtain ⟨linear, frags, pulled, -, -⟩ := same
  have data : s.data = t.data := by
    rw [RxSkb.data, RxSkb.data, RxSkb.octets, RxSkb.octets, linear, frags, pulled]
  have peek : ∀ i, s.peek beyond i = t.peek beyond i := fun i => by
    rw [RxSkb.peek, RxSkb.peek, RxSkb.len, RxSkb.len, data]
  rw [ethTypeTrans_protocol, ethTypeTrans_protocol, peek, peek, RxSkb.len, RxSkb.len, data]

theorem rxConstructSkb_short (c : RxCfg) (pktBuf : Nat → UInt8) {size : Nat} (short : size ≤ rxHdrSize) :
    rxConstructSkb c pktBuf size = rxConstructSkbZc pktBuf size := by
  rw [rxConstructSkb, rxConstructSkbZc]
  simp only [if_neg (Nat.not_lt.mpr short), Nat.sub_self, if_true]
  rw [List.take_of_length_le (by rw [readBuf_length])]

theorem rxProcessSkbFields_data {f : RxFeatures} {s s' : RxSkb} {d : RxDesc} {beyond : Nat → UInt8}
    (unpulled : s.pulled = 0) (h : rxProcessSkbFields f s d beyond = some s') :
    s'.data = s.octets.drop (if ethHlen ≤ s.octets.length then ethHlen else 0) ∧ s'.vlan = s.vlan := by
  have packet := rxProcessSkbFields_packet h
  simp only [RxSkb.packet, Prod.mk.injEq] at packet
  obtain ⟨-, -, pulled, -, vlan⟩ := packet
  rw [RxSkb.data, RxSkb.octets_of_body (rxProcessSkbFields_body h), pulled, ethTypeTrans_pulled, RxSkb.len, RxSkb.data,
    unpulled, List.drop_zero, Nat.zero_add, vlan, (ethTypeTrans_fields s beyond).1]
  exact ⟨rfl, rfl⟩

/-- A second `eth_type_trans` takes a header's length off the data again. -/
theorem ethTypeTrans_data (s : RxSkb) (beyond : Nat → UInt8) :
    (ethTypeTrans s beyond).data = s.data.drop (if ethHlen ≤ s.len then ethHlen else 0) := by
  rw [RxSkb.data, RxSkb.octets_of_body (ethTypeTrans_body _ _), ethTypeTrans_pulled, RxSkb.data, List.drop_drop]
  split <;> rfl

theorem receiveSkb_view (f : RxFeatures) (s : RxSkb) (tci : Nat) :
    (receiveSkb f s tci).view = { s.view with
      vlan := if tci % (vlanVidMask + 1) ≠ 0 then some (f.vlanProto, tci) else s.vlan } := by
  unfold receiveSkb
  split
  · rfl
  · rfl

/-- Both paths skip the same refused descriptors, but for those whose packet goes on. -/
theorem outcomes_eq_iff_refused (refused : rxFieldsRefused cfg.features x.compl.desc = true) :
    zcOutcome cfg x = copyOutcome cfg x ↔
      (x.compl.desc.rxdid != rxdid2FlexSplitq || x.compl.desc.eof) = true := by
  have none : ∀ s, rxProcessSkbFields cfg.features s x.compl.desc x.beyond = none :=
    fun s => (rxProcessSkbFields_none_iff ..).mpr refused
  rw [zcOutcome, copyOutcome, none, none, Bool.or_eq_true, bne_iff_ne]
  by_cases bad : x.compl.desc.rxdid ≠ rxdid2FlexSplitq
  · rw [if_pos bad]
    exact ⟨fun _ => Or.inl bad, fun _ => rfl⟩
  · rw [if_neg bad]
    by_cases last : x.compl.desc.eof = true
    · rw [if_neg (by rw [last]; exact nofun)]
      exact ⟨fun _ => Or.inr last, fun _ => rfl⟩
    · rw [if_pos (by simpa using last)]
      exact ⟨nofun, fun h => absurd h (not_or.mpr ⟨bad, last⟩)⟩

/-- The same packet delivered by both paths. -/
theorem views_eq_iff {s t : RxSkb}
    (zc : rxProcessSkbFields cfg.features (rxConstructSkbZc x.compl.pktBuf x.compl.desc.pktLen)
      x.compl.desc x.beyond = some s)
    (copy : rxProcessSkbFields cfg.features (rxConstructSkb cfg x.compl.pktBuf x.compl.desc.pktLen)
      x.compl.desc x.beyond = some t) :
    (ethTypeTrans s x.beyond).view =
        (receiveSkb cfg.features t (getVlanTci x.compl.desc)).view ↔
      x.compl.desc.pktLen < 2 * ethHlen ∧ getVlanTci x.compl.desc % (vlanVidMask + 1) = 0 ∧
        let u := ethTypeTrans (rxConstructSkbZc x.compl.pktBuf x.compl.desc.pktLen) x.beyond
        (ethTypeTrans u x.beyond).protocol = u.protocol := by
  obtain ⟨sData, sVlan⟩ := rxProcessSkbFields_data rfl zc
  obtain ⟨tData, tVlan⟩ := rxProcessSkbFields_data rfl copy
  have sLength : (rxConstructSkbZc x.compl.pktBuf x.compl.desc.pktLen).octets.length =
      x.compl.desc.pktLen := by
    rw [RxSkb.octets, rxConstructSkbZc, List.flatten_nil, List.append_nil, readBuf_length]
  rw [rxConstructSkb_octets, readBuf_length] at tData
  rw [sLength] at sData
  rw [receiveSkb_view]
  by_cases short : x.compl.desc.pktLen < 2 * ethHlen
  · have same : s = t := by
      rw [rxConstructSkb_short cfg x.compl.pktBuf (by rw [ethHlen] at short; rw [rxHdrSize]; omega)]
        at copy
      exact Option.some.inj (zc.symm.trans copy)
    subst same
    have packet := rxProcessSkbFields_packet zc
    have protocol : s.protocol =
        (ethTypeTrans (rxConstructSkbZc x.compl.pktBuf x.compl.desc.pktLen) x.beyond).protocol := by
      simp only [RxSkb.packet, Prod.mk.injEq] at packet
      exact packet.2.2.2.1
    have again := ethTypeTrans_protocol_congr packet x.beyond
    have once : (ethTypeTrans s x.beyond).data = s.data := by
      have length : ¬ ethHlen ≤ s.len := by
        rw [RxSkb.len, sData, List.length_drop, sLength]
        rw [ethHlen] at short ⊢
        split <;> omega
      rw [ethTypeTrans_data, if_neg length, List.drop_zero]
    obtain ⟨vlan, ipSummed, csum, hash, rsc⟩ := ethTypeTrans_fields s x.beyond
    have untagged : s.vlan = none := sVlan
    simp only [RxSkb.view, RxView.mk.injEq, once, vlan, ipSummed, csum, hash, rsc, again, protocol,
      untagged, short, true_and, and_true]
    rw [and_comm]
    refine and_congr_left fun _ => ?_
    split
    · next tagged =>
        exact ⟨fun kept => absurd kept.symm (Option.some_ne_none _), fun no => absurd no tagged⟩
    · next no => exact ⟨fun _ => not_not.mp no, fun _ => rfl⟩
  · refine ⟨fun views => ?_, fun h => absurd h.1 short⟩
    have lengths := congrArg (fun v => v.data.length) views
    simp only [RxSkb.view, ethTypeTrans_data, RxSkb.len, sData, tData, List.length_drop, sLength,
      readBuf_length] at lengths
    have long : 2 * 14 ≤ x.compl.desc.pktLen := Nat.not_lt.mp short
    have one : ethHlen ≤ x.compl.desc.pktLen := by rw [ethHlen]; omega
    have two : ethHlen ≤ x.compl.desc.pktLen - ethHlen := by rw [ethHlen]; omega
    simp only [one, two, if_true] at lengths
    rw [ethHlen] at lengths
    omega

/-- The two paths agree on a completion with octets exactly where `zcAgreesOn` says. -/
theorem outcomes_eq_iff : zcOutcome cfg x = copyOutcome cfg x ↔ zcAgreesOn cfg x = true := by
  rw [zcAgreesOn]
  split
  · next refused => exact outcomes_eq_iff_refused refused
  · next accepted =>
    obtain ⟨s, zc⟩ := Option.ne_none_iff_exists'.mp
      (mt (rxProcessSkbFields_none_iff cfg.features
        (rxConstructSkbZc x.compl.pktBuf x.compl.desc.pktLen) x.compl.desc x.beyond).mp accepted)
    obtain ⟨t, copy⟩ := Option.ne_none_iff_exists'.mp
      (mt (rxProcessSkbFields_none_iff cfg.features
        (rxConstructSkb cfg x.compl.pktBuf x.compl.desc.pktLen) x.compl.desc x.beyond).mp accepted)
    simp only [Bool.and_eq_true, beq_iff_eq, decide_eq_true_eq, and_assoc]
    rw [zcOutcome, copyOutcome, zc, copy]
    by_cases good : x.compl.desc.rxdid = rxdid2FlexSplitq
    · rw [if_neg (not_not.mpr good)]
      by_cases last : x.compl.desc.eof = true
      · rw [if_neg (by rw [last]; exact nofun)]
        simp only [good, last, true_and, RxOutcome.delivered.injEq]
        exact views_eq_iff zc copy
      · rw [if_pos (by simpa using last)]
        exact ⟨nofun, fun h => absurd h.2.1 last⟩
    · rw [if_pos good]
      exact ⟨nofun, fun h => absurd h.1 good⟩

/-- On every stream of packets in one buffer each, given memory and `XDP_PASS`, the two
receive paths have the same outcomes exactly if they agree on each descriptor. -/
theorem zc_agrees_iff {stream : List RxArrival} (single : ∀ x ∈ stream, rxHdrLen x.compl.desc = 0) :
    rxOutcomes (zcTurn cfg) none stream = rxOutcomes (copyTurn cfg) none stream ↔
      zcAgrees cfg stream = true := by
  induction stream with
  | nil => exact ⟨fun _ => rfl, fun _ => rfl⟩
  | cons x rest ih =>
      have ih := ih fun y member => single y (List.mem_cons_of_mem x member)
      have single := single x List.mem_cons_self
      rw [zcAgrees]
      split
      · next empty =>
        rw [rxOutcomes_stop (zcTurn_empty empty), beq_iff_eq]
        obtain ⟨bad, skipped⟩ | ⟨good, stopped⟩ := @copyTurn_empty cfg x single empty
        · rw [rxOutcomes_next skipped]
          exact ⟨fun h => absurd (List.cons.inj h).1 nofun, fun good => absurd good bad⟩
        · rw [rxOutcomes_stop stopped]
          exact ⟨fun _ => good, fun _ => rfl⟩
      · next octets =>
        obtain ⟨p, g, post, dl, zc, zcOut, zcSkb⟩ := @zcTurn_packet cfg x octets
        obtain ⟨p', g', post', dl', copy, copyOut, copySkb⟩ := @copyTurn_packet cfg x single octets
        rw [rxOutcomes_next zc, rxOutcomes_next copy, zcOut, copyOut, zcSkb, Bool.and_eq_true,
          ← outcomes_eq_iff, List.cons.injEq]
        refine and_congr_right fun same => ?_
        have skb : p'.skb = none := copySkb (by
          rw [← same, zcOutcome]
          split <;> exact nofun)
        rw [skb]
        exact ih

/-- A frame of `len` octets in one buffer: an IPv4 type behind its addresses where
`ip` says so, zeros otherwise. -/
def smallArrival (len : Nat) (ip : Bool) : RxArrival where
  compl := ⟨{ pktlenGenBufqId := 16384 + len, statusErr0Qw1 := 2 }, fun _ => 0,
    fun i => if ip ∧ i = 12 then 8 else 0⟩
  beyond _ := 0

/-- A frame of 60 octets is delivered with 46 octets of IPv4 by the one path, and with
32 octets of another type by the other. -/
theorem zc_pulls_twice :
    rxHdrLen (smallArrival 60 true).compl.desc = 0 ∧
      rxOutcomes (copyTurn {}) none [smallArrival 60 true] =
        [.delivered ⟨List.replicate 46 0, 0x0800, none, .none, 0, none, false⟩] ∧
      rxOutcomes (zcTurn {}) none [smallArrival 60 true] =
        [.delivered ⟨List.replicate 32 0, 0x0004, none, .none, 0, none, false⟩] ∧
      rxOutcomes (zcTurn {}) none [smallArrival 60 true] ≠
        rxOutcomes (copyTurn {}) none [smallArrival 60 true] := by
  have copy : rxOutcomes (copyTurn {}) none [smallArrival 60 true] =
      [.delivered ⟨List.replicate 46 0, 0x0800, none, .none, 0, none, false⟩] := by decide +kernel
  have zc : rxOutcomes (zcTurn {}) none [smallArrival 60 true] =
      [.delivered ⟨List.replicate 32 0, 0x0004, none, .none, 0, none, false⟩] := by decide +kernel
  refine ⟨by decide, copy, zc, ?_⟩
  rw [copy, zc]
  decide

/-- Two runts of 20 zeros are the same in both paths. -/
theorem zc_agrees_runts :
    rxOutcomes (zcTurn {}) none [smallArrival 20 false, smallArrival 20 false] =
      rxOutcomes (copyTurn {}) none [smallArrival 20 false, smallArrival 20 false] := by
  refine (zc_agrees_iff fun x member => ?_).mpr (by decide +kernel)
  simp only [List.mem_cons, List.not_mem_nil, or_false, or_self] at member
  rw [member]
  decide

end Idpf
