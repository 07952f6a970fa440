import Idpf.Rx.Conservation

/-! Which octets reach the stack. The completions a queue consumes fall into packets
at the end-of-frame bit, and the skb under construction holds the packet that is still
open. -/
namespace Idpf
open General

/-- The octets a completion adds from its header buffer, and from its payload buffer. -/
def hdrOctets (c : RxCompl) : List UInt8 := readBuf c.hdrBuf (rxHdrLen c.desc)
def pktOctets (c : RxCompl) : List UInt8 := readBuf c.pktBuf c.desc.pktLen

def packetOctets (pkt : List RxCompl) : List UInt8 := pkt.flatMap hdrOctets ++ pkt.flatMap pktOctets

/-- The packets a stream of completions has completed, and the open rest. -/
def cutPackets (stream : List RxCompl) : List (List RxCompl) × List RxCompl :=
  stream.foldl
    (fun acc c =>
      if c.desc.eof then (acc.1 ++ [acc.2 ++ [c]], []) else (acc.1, acc.2 ++ [c]))
    ([], [])

theorem cutPackets_eof {stream : List RxCompl} {c : RxCompl} (last : c.desc.eof = true) :
    cutPackets (stream ++ [c]) =
      ((cutPackets stream).1 ++ [(cutPackets stream).2 ++ [c]], []) := by
  rw [cutPackets, List.foldl_append, List.foldl_cons, List.foldl_nil, if_pos last]
  rfl

theorem cutPackets_more {stream : List RxCompl} {c : RxCompl} (more : c.desc.eof = false) :
    cutPackets (stream ++ [c]) = ((cutPackets stream).1, (cutPackets stream).2 ++ [c]) := by
  rw [cutPackets, List.foldl_append, List.foldl_cons, List.foldl_nil, if_neg (by simp [more])]
  rfl

theorem packetOctets_single (c : RxCompl) : packetOctets [c] = hdrOctets c ++ pktOctets c := by
  simp [packetOctets]

theorem packetOctets_snoc {pkt : List RxCompl} {c : RxCompl} (noHdr : rxHdrLen c.desc = 0) :
    packetOctets (pkt ++ [c]) = packetOctets pkt ++ pktOctets c := by
  have none : hdrOctets c = [] := by
    rw [hdrOctets, noHdr]
    rfl
  simp [packetOctets, none]

/-- The packet of which queue `j` has consumed a part. -/
def RxGroup.openPacket (s : RxGroup) (j : Nat) : List RxCompl := (cutPackets (s.stream j)).2

/-- The skb queue `j` has under construction. -/
def RxGroup.skb (s : RxGroup) (j : Nat) : Option RxSkb :=
  match s.poll j with
  | some p => p.skb
  | none => (s.rxq j).skb

def fragCount (skb : Option RxSkb) : Nat := skb.elim 0 fun x => x.frags.length

/-- Steps that keep packets whole. A completion with header octets is the first of its
packet. If the skb for them cannot be allocated, no skb is built from the payload
instead, and no payload is added to an skb that has all fragments there are places for.
The XDP program keeps nothing back but whole packets without an skb. -/
def rxWholeOk (cfg : RxGroupCfg) (s : RxGroup) : RxOp → Bool
  | .turn j env =>
    match s.poll j with
    | none => true
    | some p =>
      let c := (s.rxq j).ring p.ntc
      let first := (s.openPacket j).isEmpty
      let noHdr := rxHdrLen c.desc == 0
      decide (p.budget ≤ p.totalRxPkts) || (s.rxq j).genChk != c.desc.gen ||
        c.desc.rxdid != rxdid2FlexSplitq ||
        (first || noHdr) &&
          if c.desc.pktLen ≠ 0 ∧ (cfg.rxq j).xdp ∧ env.xdp ≠ .pass then
            first && c.desc.eof && (noHdr || !env.hdrSkb)
          else (noHdr || env.hdrSkb || c.desc.pktLen == 0 || !env.pktSkb) &&
            (c.desc.pktLen == 0 || decide (fragCount p.skb < maxSkbFrags))
  | _ => true

/-- The skb carries the packet, with all its fragments in their array. -/
structure RxSkb.Carries (x : RxSkb) (pkt : List RxCompl) : Prop where
  octets : x.octets = packetOctets pkt
  within : x.overrun = false

def Holds (skb : Option RxSkb) (cur : List RxCompl) : Prop :=
  match skb with
  | none => cur = []
  | some x => cur ≠ [] ∧ x.Carries cur

theorem hdrOctets_none {c : RxCompl} (noHdr : rxHdrLen c.desc = 0) : hdrOctets c = [] := by
  rw [hdrOctets, noHdr]
  rfl

theorem pktOctets_none {c : RxCompl} (noPkt : c.desc.pktLen = 0) : pktOctets c = [] := by
  rw [pktOctets, noPkt]
  rfl

theorem RxSkb.Carries.addFrag {x : RxSkb} {cur : List RxCompl} {c : RxCompl} (h : x.Carries cur)
    (noHdr : rxHdrLen c.desc = 0) (room : x.frags.length < maxSkbFrags) :
    (rxAddFrag x c.pktBuf c.desc.pktLen).Carries (cur ++ [c]) := by
  refine ⟨?_, ?_⟩
  · rw [rxAddFrag_octets room, h.octets, packetOctets_snoc noHdr]
    rfl
  · rw [rxAddFrag, if_pos room]
    exact h.within

/-- The skb a completion without header octets leads to. -/
theorem Holds.payload {cfg : RxCfg} {skb : Option RxSkb} {cur : List RxCompl} {c : RxCompl}
    {pktSkb : Bool} {s : RxSkb} (h : Holds skb cur) (noHdr : rxHdrLen c.desc = 0)
    (room : c.desc.pktLen = 0 ∨ fragCount skb < maxSkbFrags)
    (built : rxPktStep cfg pktSkb c skb = some s) : s.Carries (cur ++ [c]) := by
  cases skb with
  | none =>
      obtain rfl : cur = [] := h
      simp only [rxPktStep] at built
      split at built
      · split at built
        · rw [← Option.some.inj built]
          refine ⟨?_, rfl⟩
          rw [List.nil_append, packetOctets_single, hdrOctets_none noHdr, rxConstructSkb_octets]
          rfl
        · exact nomatch built
      · exact nomatch built
  | some x =>
      simp only [rxPktStep] at built
      split at built
      · next some =>
        rw [← Option.some.inj built]
        exact h.2.addFrag noHdr (room.resolve_left some)
      · next zero =>
        rw [← Option.some.inj built]
        refine ⟨?_, h.2.within⟩
        rw [packetOctets_snoc noHdr, pktOctets_none (by simpa using zero), List.append_nil]
        exact h.2.octets

/-- The skb the first completion of a packet leads to, when it has header octets. -/
theorem Holds.header {cfg : RxCfg} {skb : Option RxSkb} {c : RxCompl} {env : RxTurnEnv} {s : RxSkb}
    (hdr : rxHdrLen c.desc ≠ 0)
    (alloc : env.hdrSkb = true ∨ c.desc.pktLen = 0 ∨ env.pktSkb = false)
    (built : rxPktStep cfg env.pktSkb c (rxHdrStep env.hdrSkb c skb) = some s) :
    s.Carries [c] := by
  rw [rxHdrStep, if_pos hdr] at built
  cases got : env.hdrSkb with
  | true =>
      simp only [got, if_true, rxPktStep] at built
      split at built
      · rw [← Option.some.inj built]
        refine ⟨?_, rfl⟩
        have room : (rxHdrConstructSkb c.hdrBuf (rxHdrLen c.desc)).frags.length < maxSkbFrags :=
          (by decide : 0 < maxSkbFrags)
        rw [packetOctets_single, rxAddFrag_octets room, rxHdrConstructSkb_octets]
        rfl
      · next zero =>
        rw [← Option.some.inj built]
        refine ⟨?_, rfl⟩
        rw [packetOctets_single, pktOctets_none (by simpa using zero), List.append_nil]
        exact rxHdrConstructSkb_octets ..
  | false =>
      have spent := alloc.resolve_left (by simp [got])
      simp only [got, Bool.false_eq_true, if_false, rxPktStep] at built
      split at built
      · next some =>
        split at built
        · next memory => exact absurd (spent.resolve_left some) (by simp [memory])
        · exact nomatch built
      · exact nomatch built

/-- The skb a completion leads to holds the packet with the completion added. -/
theorem Holds.build {cfg : RxCfg} {skb : Option RxSkb} {cur : List RxCompl} {c : RxCompl}
    {env : RxTurnEnv} {s : RxSkb} (h : Holds skb cur) (format : cur = [] ∨ rxHdrLen c.desc = 0)
    (alloc : rxHdrLen c.desc = 0 ∨ env.hdrSkb = true ∨ c.desc.pktLen = 0 ∨ env.pktSkb = false)
    (room : c.desc.pktLen = 0 ∨ fragCount skb < maxSkbFrags)
    (built : rxPktStep cfg env.pktSkb c (rxHdrStep env.hdrSkb c skb) = some s) :
    s.Carries (cur ++ [c]) := by
  by_cases noHdr : rxHdrLen c.desc = 0
  · rw [rxHdrStep, if_neg (not_not.mpr noHdr)] at built
    exact h.payload noHdr room built
  · obtain rfl := format.resolve_right noHdr
    exact Holds.header noHdr (alloc.resolve_left noHdr) built

/-- The skb of queue `j` holds the open packet, and those delivered are completed
packets, in order. -/
structure Assembled (s : RxGroup) (j : Nat) : Prop where
  open_ : Holds (s.skb j) (s.openPacket j)
  done : ∃ pkts : List (List RxCompl), pkts.Sublist (cutPackets (s.stream j)).1 ∧
    List.Forall₂ RxSkb.Carries (s.delivered j) pkts

namespace Assembled

variable {c : RxGroupCfg} {s s' : RxGroup} {j : Nat}

theorem congr (a : Assembled s j) (skb : s'.skb j = s.skb j) (stream : s'.stream j = s.stream j)
    (delivered : s'.delivered j = s.delivered j) : Assembled s' j := by
  refine ⟨?_, ?_⟩
  · rw [skb, RxGroup.openPacket, stream]
    exact a.open_
  · rw [stream, delivered]
    exact a.done

/-- What a turn of queue `j` leaves, in terms of the queue alone. -/
theorem turn_next {p p' : RxPoll} {env : RxTurnEnv} {genChk : Bool} {post : Option (Nat × Nat)}
    {deliver : Option RxSkb}
    (next : rxTurn (c.rxq j) (s.rxq j) p env = .next p' genChk post deliver) :
    let s' := s.stepTurn c j p env
    let compl := (s.rxq j).ring p.ntc
    s'.skb = Function.update s.skb j p'.skb ∧
      s'.stream = Function.update s.stream j
        (s.stream j ++ if compl.desc.rxdid = rxdid2FlexSplitq then [compl] else []) ∧
      s'.delivered = Function.update s.delivered j (s.delivered j ++ deliver.toList) := by
  have skb : ∀ s' : RxGroup, s'.poll = Function.update s.poll j (some p') →
      s'.rxq = Function.update s.rxq j { s.rxq j with genChk } →
      s'.skb = Function.update s.skb j p'.skb := by
    intro s' poll rxq
    funext j'
    unfold RxGroup.skb
    by_cases own : j' = j
    · subst own
      simp only [poll, Function.update_self]
    · simp only [poll, rxq, Function.update_of_ne own]
  simp only [RxGroup.stepTurn, next]
  cases post with
  | some b => exact ⟨skb _ rfl rfl, rfl, rfl⟩
  | none => exact ⟨skb _ rfl rfl, rfl, rfl⟩

theorem next (a : Assembled s j) {p p' : RxPoll} {env : RxTurnEnv} {genChk : Bool}
    {post : Option (Nat × Nat)} {deliver : Option RxSkb} (poll : s.poll j = some p)
    (next : rxTurn (c.rxq j) (s.rxq j) p env = .next p' genChk post deliver)
    (ok : rxWholeOk c s (.turn j env) = true) : Assembled (s.stepTurn c j p env) j := by
  obtain ⟨skb, stream, delivered⟩ := turn_next next
  obtain ⟨budget, ready, -⟩ := rxTurn_next next
  have turned := rxTurn_skb next
  have now : s.skb j = p.skb := by rw [RxGroup.skb, poll]
  obtain ⟨open_, pkts, sub, octets⟩ := a
  rw [now] at open_
  have whole : ((s.rxq j).ring p.ntc).desc.rxdid = rxdid2FlexSplitq →
      (s.openPacket j = [] ∨ rxHdrLen ((s.rxq j).ring p.ntc).desc = 0) ∧
      if ((s.rxq j).ring p.ntc).desc.pktLen ≠ 0 ∧ (c.rxq j).xdp ∧ env.xdp ≠ .pass then
        (s.openPacket j = [] ∧ ((s.rxq j).ring p.ntc).desc.eof = true) ∧
          (rxHdrLen ((s.rxq j).ring p.ntc).desc = 0 ∨ env.hdrSkb = false)
      else (((rxHdrLen ((s.rxq j).ring p.ntc).desc = 0 ∨ env.hdrSkb = true) ∨
          ((s.rxq j).ring p.ntc).desc.pktLen = 0) ∨ env.pktSkb = false) ∧
        (((s.rxq j).ring p.ntc).desc.pktLen = 0 ∨ fragCount p.skb < maxSkbFrags) := by
    intro good
    have late : ¬ p.budget ≤ p.totalRxPkts := not_le.mpr budget
    simpa [rxWholeOk, poll, late, ready, good, List.isEmpty_iff] using ok
  generalize (s.rxq j).ring p.ntc = compl at *
  have same : (s.stepTurn c j p env).skb j = p'.skb := by rw [skb, Function.update_self]
  have flow := congrFun stream j
  have out := congrFun delivered j
  rw [Function.update_self] at flow out
  generalize p'.skb = skb' at turned same
  cases turned with
  | badFormat bad =>
      rw [if_neg bad, List.append_nil] at flow
      rw [Option.toList_none, List.append_nil] at out
      exact congr ⟨now ▸ open_, pkts, sub, octets⟩ (same.trans now.symm) flow out
  | xdp good verdict =>
      rw [if_pos good] at flow
      rw [Option.toList_none, List.append_nil] at out
      obtain ⟨-, kept⟩ := whole good
      rw [if_pos verdict] at kept
      obtain ⟨⟨first, last⟩, noSkb⟩ := kept
      have empty : p.skb = none := by
        rw [first] at open_
        cases held : p.skb with
        | none => rfl
        | some x => rw [held] at open_; exact absurd rfl open_.1
      have none : rxHdrStep env.hdrSkb compl p.skb = none := by
        rw [empty, rxHdrStep]
        rcases noSkb with zero | spent
        · rw [if_neg (by simp [zero])]
        · simp [spent]
      refine ⟨?_, pkts, ?_, out ▸ octets⟩
      · rw [same, none, RxGroup.openPacket, flow, cutPackets_eof last]
        rfl
      · rw [flow, cutPackets_eof last]
        exact sub.trans (List.sublist_append_left _ _)
  | more good passed built more =>
      rw [if_pos good] at flow
      rw [Option.toList_none, List.append_nil] at out
      obtain ⟨format, alloc⟩ := whole good
      rw [if_neg passed, or_assoc, or_assoc] at alloc
      refine ⟨?_, pkts, ?_, out ▸ octets⟩
      · rw [same, RxGroup.openPacket, flow, cutPackets_more more]
        exact ⟨by simp, open_.build format alloc.1 alloc.2 built⟩
      · rw [flow, cutPackets_more more]
        exact sub
  | error good passed built last failed =>
      rw [if_pos good] at flow
      rw [Option.toList_none, List.append_nil] at out
      refine ⟨?_, pkts, ?_, out ▸ octets⟩
      · rw [same, RxGroup.openPacket, flow, cutPackets_eof last]
        rfl
      · rw [flow, cutPackets_eof last]
        exact sub.trans (List.sublist_append_left _ _)
  | deliver good passed built last set =>
      rw [if_pos good] at flow
      obtain ⟨format, alloc⟩ := whole good
      rw [if_neg passed, or_assoc, or_assoc] at alloc
      refine ⟨?_, pkts ++ [s.openPacket j ++ [compl]], ?_, ?_⟩
      · rw [same, RxGroup.openPacket, flow, cutPackets_eof last]
        rfl
      · rw [flow, cutPackets_eof last]
        exact sub.append (List.Sublist.refl _)
      · have built := open_.build format alloc.1 alloc.2 built
        have body := (receiveSkb_body (c.rxq j).features _ (getVlanTci compl.desc)).trans
          (rxProcessSkbFields_body set)
        rw [out]
        refine List.rel_append octets (.cons ⟨?_, ?_⟩ .nil)
        · exact (RxSkb.octets_of_body body).trans built.octets
        · exact (RxSkb.overrun_of_body body).trans built.within

theorem stop (a : Assembled s j) {p : RxPoll} {env : RxTurnEnv} {skb : Option RxSkb}
    (poll : s.poll j = some p) (stop : rxTurn (c.rxq j) (s.rxq j) p env = .stop skb)
    (ok : rxWholeOk c s (.turn j env) = true) : Assembled (s.stepTurn c j p env) j := by
  have now : s.skb j = p.skb := by rw [RxGroup.skb, poll]
  obtain ⟨open_, done⟩ := a
  rw [now] at open_
  have holds : Holds skb (s.openPacket j) := by
    rcases rxTurn_stop stop with rfl | ⟨rfl, failed, budget, ready, good⟩
    · exact open_
    · have late : ¬ p.budget ≤ p.totalRxPkts := not_le.mpr budget
      cases held : p.skb with
      | none => rw [held] at open_; exact open_
      | some x =>
          rw [held] at open_ failed
          have format : rxHdrLen ((s.rxq j).ring p.ntc).desc = 0 := by
            simp only [rxWholeOk, poll, late, decide_false, ready, bne_self_eq_false, good,
              Bool.or_false, Bool.false_or, Bool.and_eq_true, Bool.or_eq_true,
              List.isEmpty_iff, open_.1, false_or, beq_iff_eq] at ok
            exact ok.1
          simp only [rxHdrStep, format, ne_eq, not_true_eq_false, if_false, rxPktStep] at failed
          split at failed <;> exact nomatch failed
  refine ⟨?_, ?_⟩
  · simp only [RxGroup.stepTurn, stop, RxGroup.skb, Function.update_self, rxPollEnd]
    exact holds
  · simp only [RxGroup.stepTurn, stop]
    exact done

theorem other (a : Assembled s j) {j' : Nat} (ne : j ≠ j') {p : RxPoll} {env : RxTurnEnv} :
    Assembled (s.stepTurn c j' p env) j := by
  cases result : rxTurn (c.rxq j') (s.rxq j') p env with
  | next p' genChk post deliver =>
      obtain ⟨skb, stream, delivered⟩ := turn_next result
      refine a.congr ?_ ?_ ?_
      · rw [skb, Function.update_of_ne ne]
      · rw [stream, Function.update_of_ne ne]
      · rw [delivered, Function.update_of_ne ne]
  | stop skb =>
      refine a.congr ?_ ?_ ?_
      · simp only [RxGroup.stepTurn, result, RxGroup.skb, Function.update_of_ne ne]
      · simp only [RxGroup.stepTurn, result]
      · simp only [RxGroup.stepTurn, result]

theorem complete (a : Assembled s j) (j' : Nat) (compl : RxCompl) :
    Assembled (s.stepComplete j' compl) j := by
  refine a.congr ?_ rfl rfl
  unfold RxGroup.skb RxGroup.stepComplete
  by_cases own : j = j'
  · subst own
    simp only [Function.update_self]
  · simp only [Function.update_of_ne own]

theorem pollBegin (a : Assembled s j) {j' : Nat} (idle : s.poll j' = none) (budget : Nat) :
    Assembled { s with
      poll := Function.update s.poll j' (some (rxPollBegin (s.rxq j') budget)) } j := by
  refine a.congr ?_ rfl rfl
  unfold RxGroup.skb
  by_cases own : j = j'
  · subst own
    simp only [Function.update_self, rxPollBegin, idle]
  · simp only [Function.update_of_ne own]

theorem refill (a : Assembled s j) (k j' : Nat) (p : RefillPass) (ok : Bool) :
    Assembled (s.stepRefill k j' p ok) j := by
  unfold RxGroup.stepRefill
  split
  · exact a.congr rfl rfl rfl
  · exact a.congr rfl rfl rfl

theorem step (a : Assembled s j) {op : RxOp} (ok : rxWholeOk c s op = true)
    (taken : s.step c op = some s') : Assembled s' j := by
  cases op with
  | fetch k =>
      simp only [RxGroup.step, Option.ite_none_right_eq_some, Option.some.injEq] at taken
      exact taken.2 ▸ a.congr rfl rfl rfl
  | complete j' compl =>
      simp only [RxGroup.step, Option.ite_none_right_eq_some, Option.some.injEq] at taken
      exact taken.2 ▸ a.complete j' compl
  | pollBegin j' budget =>
      simp only [RxGroup.step, Option.ite_none_right_eq_some, Option.some.injEq,
        Option.isNone_iff_eq_none] at taken
      exact taken.2 ▸ a.pollBegin taken.1.2 budget
  | turn j' env =>
      simp only [RxGroup.step, Option.ite_none_right_eq_some, Option.map_eq_some_iff] at taken
      obtain ⟨-, p, poll, rfl⟩ := taken
      by_cases own : j = j'
      · subst own
        cases result : rxTurn (c.rxq j) (s.rxq j) p env with
        | next p' genChk post deliver => exact a.next poll result ok
        | stop skb => exact a.stop poll result ok
      · exact a.other own
  | refillBegin k j' =>
      simp only [RxGroup.step, Option.ite_none_right_eq_some, Option.some.injEq] at taken
      exact taken.2 ▸ a.congr rfl rfl rfl
  | refillTurn k ok' =>
      simp only [RxGroup.step, Option.ite_none_right_eq_some, Option.map_eq_some_iff] at taken
      obtain ⟨-, jp, -, rfl⟩ := taken
      exact a.refill k jp.1 jp.2 ok'

end Assembled

/-- In every run whose steps keep packets whole, the skbs a queue hands to the stack
carry the octets of packets it has received up to their end, in order, each with its
fragments where they belong. -/
theorem rx_reassembly {c : RxGroupCfg} {s : RxGroup}
    (run : Reachable (RxGroup.step c) (fun s op => rxWholeOk c s op = true) (RxStart c) s)
    (j : Nat) :
    ∃ pkts : List (List RxCompl), pkts.Sublist (cutPackets (s.stream j)).1 ∧
      List.Forall₂ RxSkb.Carries (s.delivered j) pkts := by
  have a : Assembled s j := run.invariant (I := fun s => Assembled s j)
    (fun s (start : s = c.init) => start ▸ ⟨rfl, [], List.Sublist.refl _, .nil⟩)
    (fun _ _ _ a ok taken => a.step ok taken)
  exact a.done

/-- A packet of 54 header octets and 60 payload octets in buffer 0. -/
def splitCompl : RxCompl :=
  ⟨{ pktlenGenBufqId := 16384 + 60, hdrlenFlags := 54, statusErr0Qw1 := 2 }, fun _ => 1, fun _ => 2⟩

/-- The skb for the header octets cannot be allocated, that for the payload can: the
payload is delivered as a packet of its own. -/
theorem rx_header_lost :
    let run := exec (RxGroup.step smallRxGroup) smallRxGroup.init
      [.fetch 0, .complete 0 splitCompl, .pollBegin 0 64, .turn 0 { hdrSkb := false }]
    ∃ s, run = some s ∧ (s.delivered 0).map RxSkb.octets = [List.replicate 60 2] ∧
      (cutPackets (s.stream 0)).1.map packetOctets =
        [List.replicate 54 1 ++ List.replicate 60 2] := by
  intro run
  have seen : run.map (fun s => ((s.delivered 0).map RxSkb.octets,
      (cutPackets (s.stream 0)).1.map packetOctets)) =
      some ([List.replicate 60 2], [List.replicate 54 1 ++ List.replicate 60 2]) := by
    decide +kernel
  obtain ⟨s, reached, eq⟩ := Option.map_eq_some_iff.mp seen
  exact ⟨s, reached, Prod.mk.inj eq⟩

/-- 300 octets of payload in buffer `b`, in the middle of a packet or at its end. -/
def fragCompl (b : Nat) (last : Bool) : RxCompl :=
  ⟨{ pktlenGenBufqId := 16384 + 300, bufId := b, statusErr0Qw1 := if last then 2 else 0 },
    fun _ => 0, fun _ => 3⟩

/-- The skb of a packet that takes 18 buffers is delivered with a fragment behind its array. -/
theorem rx_frags_overrun :
    let run := exec (RxGroup.step smallRxGroup) smallRxGroup.init
      ((List.range 18).flatMap (fun b => [.fetch 0, .complete 0 (fragCompl b (b == 17))]) ++
        .pollBegin 0 64 :: List.replicate 18 (.turn 0 {}))
    ∃ s, run = some s ∧ (s.delivered 0).map RxSkb.overrun = [true] := by
  intro run
  have seen : run.map (fun s => (s.delivered 0).map RxSkb.overrun) = some [true] := by
    decide +kernel
  obtain ⟨s, reached, behind⟩ := Option.map_eq_some_iff.mp seen
  exact ⟨s, reached, behind⟩

/-- Without memory for either skb the completion stays, and the next poll delivers
the whole packet. -/
theorem rx_reassembly_retry :
    let run := execIf (RxGroup.step smallRxGroup) (rxWholeOk smallRxGroup) smallRxGroup.init
      [.fetch 0, .complete 0 splitCompl, .pollBegin 0 64,
        .turn 0 { hdrSkb := false, pktSkb := false }, .pollBegin 0 64, .turn 0 {}]
    ∃ s, run = some s ∧ (s.delivered 0).length = 1 ∧
      ∃ pkts : List (List RxCompl), pkts.Sublist (cutPackets (s.stream 0)).1 ∧
        List.Forall₂ RxSkb.Carries (s.delivered 0) pkts := by
  intro run
  have seen : run.map (fun s => (s.delivered 0).length) = some 1 := by decide +kernel
  obtain ⟨s, reached, length⟩ := Option.map_eq_some_iff.mp seen
  have started : RxStart smallRxGroup smallRxGroup.init := rfl
  exact ⟨s, reached, length, rx_reassembly (Reachable.execIf (.start started) reached) 0⟩

end Idpf
