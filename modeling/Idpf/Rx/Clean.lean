import Idpf.General.Circular
import Idpf.General.Generation
import Idpf.Rx.Fields

/-! `idpf_rx_splitq_clean`: one turn of its loop on the completion it finds, with
the skb that is carried from turn to turn and from poll to poll. -/
namespace Idpf
open General

/-- A completion with the memory it names: the header buffer and the payload
buffer of the buffer ID, as the device left them. -/
structure RxCompl where
  desc : RxDesc
  hdrBuf : Nat → UInt8
  pktBuf : Nat → UInt8

/-- What the driver finds in a slot nothing has been written to. -/
def RxCompl.blank : RxCompl := ⟨{ rxdidUcast := 0 }, fun _ => 0, fun _ => 0⟩

theorem RxCompl.blank_gen : RxCompl.blank.desc.gen = false := by decide

/-- The first `len` octets of a buffer. -/
def readBuf (buf : Nat → UInt8) (len : Nat) : List UInt8 := (List.range len).map buf

@[simp] theorem readBuf_length (buf : Nat → UInt8) (len : Nat) : (readBuf buf len).length = len := by
  simp [readBuf]

/-- Results of `idpf_run_xdp`; an `XDP_TX` that fails is `consumed` too. -/
inductive XdpRes where
  | pass | consumed | tx | redir
  deriving DecidableEq, Repr

/-- What a turn asks of its surroundings: memory for an skb from the header buffer,
memory for one from the payload buffer, the verdict of the XDP program, and the
octets behind an skb that is too short for the header read from it. -/
structure RxTurnEnv where
  hdrSkb : Bool := true
  pktSkb : Bool := true
  xdp : XdpRes := .pass
  beyond : Nat → UInt8 := fun _ => 0

def rxHdrSize : Nat := 256

/-- A queue's receive configuration: whether an XDP program is loaded, and the
number of header octets `eth_get_headlen` finds in a packet. -/
structure RxCfg where
  features : RxFeatures := {}
  xdp : Bool := false
  getHeadlen : List UInt8 → Nat := fun _ => 14

/-- `idpf_rx_hdr_construct_skb`, given memory. -/
def rxHdrConstructSkb (hdrBuf : Nat → UInt8) (size : Nat) : RxSkb := { linear := readBuf hdrBuf size }

/-- `idpf_rx_construct_skb`, given memory. `eth_get_headlen` is bounded by its
last argument. -/
def rxConstructSkb (c : RxCfg) (pktBuf : Nat → UInt8) (size : Nat) : RxSkb :=
  let octets := readBuf pktBuf size
  let headlen := if size > rxHdrSize then min (c.getHeadlen octets) rxHdrSize else size
  { linear := octets.take headlen
    frags := if size - headlen = 0 then [] else [octets.drop headlen] }

/-- `skb_add_rx_frag` by `idpf_rx_add_frag`. Neither looks at the number of fragments: one
more than the array has places for is written behind it. -/
def rxAddFrag (s : RxSkb) (pktBuf : Nat → UInt8) (size : Nat) : RxSkb :=
  if s.frags.length < maxSkbFrags then { s with frags := s.frags ++ [readBuf pktBuf size] }
  else { s with overrun := true }

/-- The local variables of `idpf_rx_splitq_clean`. -/
structure RxPoll where
  budget : Nat
  ntc : Nat
  skb : Option RxSkb
  totalRxPkts : Nat

/-- The part of a completion queue that receiving works on. -/
structure Rxq where
  descCount : Nat
  ring : Nat → RxCompl
  nextToClean : Nat
  genChk : Bool
  skb : Option RxSkb

/-- What a turn does: it leaves the loop with the skb it holds, or moves on, with
the buffer posted back to a refill queue and the skb passed up. -/
inductive RxTurn where
  | stop (skb : Option RxSkb)
  | next (p : RxPoll) (genChk : Bool) (post : Option (Nat × Nat)) (deliver : Option RxSkb)

/-- The header length a turn works with: none after a header buffer overflow. -/
def rxHdrLen (d : RxDesc) : Nat := if d.hbo then 0 else d.hdrLen

def rxHdrStep (hdrSkb : Bool) (c : RxCompl) (skb : Option RxSkb) : Option RxSkb :=
  if rxHdrLen c.desc ≠ 0 then
    if hdrSkb then some (rxHdrConstructSkb c.hdrBuf (rxHdrLen c.desc)) else none
  else skb

/-- The skb after the payload buffer has been added to it. -/
def rxPktStep (cfg : RxCfg) (pktSkb : Bool) (c : RxCompl) (skb : Option RxSkb) : Option RxSkb :=
  if c.desc.pktLen ≠ 0 then
    match skb with
    | some s => some (rxAddFrag s c.pktBuf c.desc.pktLen)
    | none => if pktSkb then some (rxConstructSkb cfg c.pktBuf c.desc.pktLen) else none
  else skb

/-- One turn of the loop in `idpf_rx_splitq_clean`. -/
def rxTurn (cfg : RxCfg) (q : Rxq) (p : RxPoll) (env : RxTurnEnv) : RxTurn :=
  let c := q.ring p.ntc
  let ntc := bump q.descCount p.ntc
  let genChk := turn q.descCount p.ntc q.genChk
  if p.budget ≤ p.totalRxPkts then .stop p.skb
  else if q.genChk ≠ c.desc.gen then .stop p.skb
  else if c.desc.rxdid ≠ rxdid2FlexSplitq then .next { p with ntc } genChk none none
  else
    let buf := some (c.desc.bufqId, c.desc.bufId)
    let skb := rxHdrStep env.hdrSkb c p.skb
    if c.desc.pktLen ≠ 0 ∧ cfg.xdp ∧ env.xdp ≠ .pass then
      .next { p with ntc, skb, totalRxPkts := p.totalRxPkts + 1 } genChk buf none
    else
      match rxPktStep cfg env.pktSkb c skb with
      | none => .stop none
      | some s =>
        if !c.desc.eof then .next { p with ntc, skb := some s } genChk buf none
        else
          match rxProcessSkbFields cfg.features s c.desc env.beyond with
          | none => .next { p with ntc, skb := none } genChk buf none
          | some s =>
            .next { p with ntc, skb := none, totalRxPkts := p.totalRxPkts + 1 } genChk buf
              (some (receiveSkb cfg.features s (getVlanTci c.desc)))

def rxPollBegin (q : Rxq) (budget : Nat) : RxPoll := ⟨budget, q.nextToClean, q.skb, 0⟩

/-- The end of `idpf_rx_splitq_clean`. -/
def rxPollEnd (q : Rxq) (p : RxPoll) (skb : Option RxSkb) : Rxq :=
  { q with nextToClean := p.ntc, skb }

/-- A turn that moves on has consumed one completion the device had written, and
has posted its buffer unless the descriptor has an unexpected format. -/
theorem rxTurn_next {cfg : RxCfg} {q : Rxq} {p p' : RxPoll} {env : RxTurnEnv} {genChk : Bool}
    {post : Option (Nat × Nat)} {deliver : Option RxSkb}
    (h : rxTurn cfg q p env = .next p' genChk post deliver) :
    p.totalRxPkts < p.budget ∧ q.genChk = (q.ring p.ntc).desc.gen ∧
      p'.ntc = bump q.descCount p.ntc ∧ genChk = turn q.descCount p.ntc q.genChk ∧
      post = if (q.ring p.ntc).desc.rxdid = rxdid2FlexSplitq then
        some ((q.ring p.ntc).desc.bufqId, (q.ring p.ntc).desc.bufId) else none := by
  unfold rxTurn at h
  dsimp only at h
  split at h
  · exact nomatch h
  · next budget =>
    refine ⟨not_le.mp budget, ?_⟩
    split at h
    · exact nomatch h
    · next ready =>
      rw [ne_eq, not_not] at ready
      split at h
      · next bad =>
        obtain ⟨rfl, rfl, rfl, -⟩ := RxTurn.next.inj h
        exact ⟨ready, rfl, rfl, (if_neg bad).symm⟩
      · next good =>
        rw [ne_eq, not_not] at good
        refine ⟨ready, ?_⟩
        rw [if_pos good]
        split at h
        · obtain ⟨rfl, rfl, rfl, -⟩ := RxTurn.next.inj h
          exact ⟨rfl, rfl, rfl⟩
        · split at h
          · exact nomatch h
          · split at h
            · obtain ⟨rfl, rfl, rfl, -⟩ := RxTurn.next.inj h
              exact ⟨rfl, rfl, rfl⟩
            · split at h <;> obtain ⟨rfl, rfl, rfl, -⟩ := RxTurn.next.inj h <;>
                exact ⟨rfl, rfl, rfl⟩

/-- What becomes of the skb in a turn that consumes a completion. -/
inductive RxTurnSkb (cfg : RxCfg) (c : RxCompl) (env : RxTurnEnv) (skb : Option RxSkb) :
    Option RxSkb → Option RxSkb → Prop
  | badFormat : c.desc.rxdid ≠ rxdid2FlexSplitq → RxTurnSkb cfg c env skb skb none
  | xdp : c.desc.rxdid = rxdid2FlexSplitq → c.desc.pktLen ≠ 0 ∧ cfg.xdp ∧ env.xdp ≠ .pass →
      RxTurnSkb cfg c env skb (rxHdrStep env.hdrSkb c skb) none
  | more {s} : c.desc.rxdid = rxdid2FlexSplitq → ¬ (c.desc.pktLen ≠ 0 ∧ cfg.xdp ∧ env.xdp ≠ .pass) →
      rxPktStep cfg env.pktSkb c (rxHdrStep env.hdrSkb c skb) = some s → c.desc.eof = false →
      RxTurnSkb cfg c env skb (some s) none
  | error {s} : c.desc.rxdid = rxdid2FlexSplitq → ¬ (c.desc.pktLen ≠ 0 ∧ cfg.xdp ∧ env.xdp ≠ .pass) →
      rxPktStep cfg env.pktSkb c (rxHdrStep env.hdrSkb c skb) = some s → c.desc.eof = true →
      rxProcessSkbFields cfg.features s c.desc env.beyond = none → RxTurnSkb cfg c env skb none none
  | deliver {s s'} : c.desc.rxdid = rxdid2FlexSplitq →
      ¬ (c.desc.pktLen ≠ 0 ∧ cfg.xdp ∧ env.xdp ≠ .pass) →
      rxPktStep cfg env.pktSkb c (rxHdrStep env.hdrSkb c skb) = some s → c.desc.eof = true →
      rxProcessSkbFields cfg.features s c.desc env.beyond = some s' →
      RxTurnSkb cfg c env skb none (some (receiveSkb cfg.features s' (getVlanTci c.desc)))

theorem rxTurn_skb {cfg : RxCfg} {q : Rxq} {p p' : RxPoll} {env : RxTurnEnv} {genChk : Bool}
    {post : Option (Nat × Nat)} {deliver : Option RxSkb}
    (h : rxTurn cfg q p env = .next p' genChk post deliver) :
    RxTurnSkb cfg (q.ring p.ntc) env p.skb p'.skb deliver := by
  unfold rxTurn at h
  dsimp only at h
  split at h
  · exact nomatch h
  · split at h
    · exact nomatch h
    · split at h
      · next bad =>
        obtain ⟨rfl, -, -, rfl⟩ := RxTurn.next.inj h
        exact .badFormat bad
      · next good =>
        rw [ne_eq, not_not] at good
        split at h
        · next verdict =>
          obtain ⟨rfl, -, -, rfl⟩ := RxTurn.next.inj h
          exact .xdp good verdict
        · next passed =>
          split at h
          · exact nomatch h
          · next s built =>
            split at h
            · next open_ =>
              obtain ⟨rfl, -, -, rfl⟩ := RxTurn.next.inj h
              exact .more good passed built (by simpa using open_)
            · next last =>
              have last : (q.ring p.ntc).desc.eof = true := by simpa using last
              split at h
              · next failed =>
                obtain ⟨rfl, -, -, rfl⟩ := RxTurn.next.inj h
                exact .error good passed built last failed
              · next s' set =>
                obtain ⟨rfl, -, -, rfl⟩ := RxTurn.next.inj h
                exact .deliver good passed built last set

/-- A turn that leaves the loop keeps the skb, or had none to add to. -/
theorem rxTurn_stop {cfg : RxCfg} {q : Rxq} {p : RxPoll} {env : RxTurnEnv} {skb : Option RxSkb}
    (h : rxTurn cfg q p env = .stop skb) :
    skb = p.skb ∨ skb = none ∧
      rxPktStep cfg env.pktSkb (q.ring p.ntc) (rxHdrStep env.hdrSkb (q.ring p.ntc) p.skb) = none ∧
      p.totalRxPkts < p.budget ∧ q.genChk = (q.ring p.ntc).desc.gen ∧
      (q.ring p.ntc).desc.rxdid = rxdid2FlexSplitq := by
  unfold rxTurn at h
  dsimp only at h
  split at h
  · exact Or.inl (RxTurn.stop.inj h).symm
  · next budget =>
    split at h
    · exact Or.inl (RxTurn.stop.inj h).symm
    · next ready =>
      rw [ne_eq, not_not] at ready
      split at h
      · exact nomatch h
      · next good =>
        rw [ne_eq, not_not] at good
        split at h
        · exact nomatch h
        · split at h
          · next failed =>
            exact Or.inr ⟨(RxTurn.stop.inj h).symm, failed, not_le.mp budget, ready, good⟩
          · split at h
            · exact nomatch h
            · split at h <;> exact nomatch h

/-- What an skb carries, and whether its fragments are within their array. -/
def RxSkb.body (s : RxSkb) : List UInt8 × List (List UInt8) × Bool := (s.linear, s.frags, s.overrun)

theorem RxSkb.octets_of_body {s s' : RxSkb} (same : s'.body = s.body) : s'.octets = s.octets := by
  simp only [RxSkb.body, Prod.mk.injEq] at same
  rw [RxSkb.octets, RxSkb.octets, same.1, same.2.1]

theorem RxSkb.overrun_of_body {s s' : RxSkb} (same : s'.body = s.body) :
    s'.overrun = s.overrun := by
  simp only [RxSkb.body, Prod.mk.injEq] at same
  exact same.2.2

/-! Building and processing an skb leaves its octets alone. -/

@[simp] theorem rxHdrConstructSkb_octets (buf : Nat → UInt8) (size : Nat) :
    (rxHdrConstructSkb buf size).octets = readBuf buf size := by
  simp [rxHdrConstructSkb, RxSkb.octets]

theorem rxAddFrag_octets {s : RxSkb} (room : s.frags.length < maxSkbFrags) (buf : Nat → UInt8)
    (size : Nat) : (rxAddFrag s buf size).octets = s.octets ++ readBuf buf size := by
  simp [rxAddFrag, RxSkb.octets, room]

@[simp] theorem rxConstructSkb_octets (c : RxCfg) (buf : Nat → UInt8) (size : Nat) :
    (rxConstructSkb c buf size).octets = readBuf buf size := by
  simp only [rxConstructSkb, RxSkb.octets]
  generalize (if size > rxHdrSize then _ else size) = headlen
  by_cases all : size - headlen = 0
  · rw [if_pos all, List.flatten_nil, List.append_nil]
    refine List.take_of_length_le ?_
    rw [readBuf_length]
    omega
  · rw [if_neg all, List.flatten_cons, List.flatten_nil, List.append_nil, List.take_append_drop]

theorem ethTypeTrans_body (s : RxSkb) (beyond : Nat → UInt8) :
    (ethTypeTrans s beyond).body = s.body := by
  unfold ethTypeTrans
  dsimp only
  split <;> split <;> (try split) <;> rfl

theorem rxHash_body (f : RxFeatures) (s : RxSkb) (d : RxDesc) (p : RxPtype) :
    (rxHash f s d p).body = s.body := by
  unfold rxHash
  split <;> rfl

theorem rxHwtstamp_body (f : RxFeatures) (d : RxDesc) (s : RxSkb) :
    (rxHwtstamp f d s).body = s.body := by
  unfold rxHwtstamp
  split <;> rfl

theorem rxRsc_body {s s' : RxSkb} {d : RxDesc} {p : RxPtype} (h : rxRsc s d p = some s') :
    s'.body = s.body := by
  simp only [rxRsc, Option.ite_none_left_eq_some] at h
  obtain ⟨-, -, -, h⟩ := h
  split at h
  · rw [Option.some.inj h]
  · rw [← Option.some.inj h]
    rfl

theorem rxCsum_body (f : RxFeatures) (s : RxSkb) (d : RxDesc) (p : RxPtype) :
    (rxCsum f s d p).body = s.body := by
  unfold rxCsum
  repeat' split
  all_goals rfl

theorem rxProcessSkbFields_body {f : RxFeatures} {s s' : RxSkb} {d : RxDesc}
    {beyond : Nat → UInt8} (h : rxProcessSkbFields f s d beyond = some s') :
    s'.body = s.body := by
  unfold rxProcessSkbFields at h
  dsimp only at h
  split at h
  · rw [← Option.some.inj h, ethTypeTrans_body]
  · have stamped : ∀ t : RxSkb, (if f.tstmpEn then rxHwtstamp f d t else t).body = t.body := by
      intro t
      split
      · exact rxHwtstamp_body f d t
      · rfl
    split at h
    · rw [rxRsc_body h, stamped, rxHash_body, ethTypeTrans_body]
    · rw [← Option.some.inj h, rxCsum_body, stamped, rxHash_body, ethTypeTrans_body]

theorem receiveSkb_body (f : RxFeatures) (s : RxSkb) (vlanTci : Nat) :
    (receiveSkb f s vlanTci).body = s.body := by
  unfold receiveSkb
  split <;> rfl

end Idpf
