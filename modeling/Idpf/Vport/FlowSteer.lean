import Idpf.Vport.QueueRequests
import Mathlib.Data.List.InsertIdx

/-! The list of flow steering rules: what ethtool adds and deletes, and what the device has
acknowledged. -/
namespace Idpf
open General

/-- What a rule compares of an IPv4 flow, or the mask for it. -/
structure FlowTuple where
  ip4src : Nat
  ip4dst : Nat
  psrc : Nat
  pdst : Nat

/-- `struct ethtool_rx_flow_spec`: `flowType` and `location` have 32 bits, `ringCookie` has 64. -/
structure FlowSpec where
  flowType : Nat
  header : FlowTuple
  mask : FlowTuple
  ringCookie : Nat
  location : Nat

/-- A header of a rule with its mask. -/
inductive ProtoHdr where
  | ipv4 (saddr daddr saddrMask daddrMask : Nat)
  | udp (source dest sourceMask destMask : Nat)
  | tcp (source dest sourceMask destMask : Nat)

/-- ADD_FLOW_RULE with its one rule. -/
structure FlowRuleMsg where
  vportId : Nat
  ruleId : Nat
  qId : Nat
  protoHdrs : List ProtoHdr

/-- How a message ends: without a reply, or with a status in the buffer. -/
inductive FlowReply where
  | none
  | status (value : Nat)

inductive FlowErr where
  | einval
  | eopnotsupp
  | enospc
  | enomem
  | eexist
  | eio
  | enoent
  | noReply
  deriving DecidableEq, Repr

/-- `VIRTCHNL2_FLOW_RULE_SUCCESS` -/
def flowRuleSuccess : Nat := 1

namespace FlowSpec

def tcpV4Flow : Nat := 0x01

def udpV4Flow : Nat := 0x02

/-- A flag of `FLOW_EXT`, `FLOW_MAC_EXT` and `FLOW_RSS` is set. -/
def extended (fsp : FlowSpec) : Bool := fsp.flowType &&& 0xe0000000 ≠ 0

/-- `idpf_fsteer_fill_ipv4` -/
def fillIpv4 (fsp : FlowSpec) : ProtoHdr :=
  .ipv4 fsp.header.ip4src fsp.header.ip4dst fsp.mask.ip4src fsp.mask.ip4dst

/-- `idpf_fsteer_fill_udp` -/
def fillUdp (fsp : FlowSpec) : ProtoHdr :=
  .udp fsp.header.psrc fsp.header.pdst fsp.mask.psrc fsp.mask.pdst

/-- `idpf_fsteer_fill_tcp` -/
def fillTcp (fsp : FlowSpec) : ProtoHdr :=
  .tcp fsp.header.psrc fsp.header.pdst fsp.mask.psrc fsp.mask.pdst

def protoHdrs (fsp : FlowSpec) : Option (List ProtoHdr) :=
  if fsp.flowType = udpV4Flow then some [fsp.fillIpv4, fsp.fillUdp]
  else if fsp.flowType = tcpV4Flow then some [fsp.fillIpv4, fsp.fillTcp]
  else none

/-- `q_index`, which has 32 bits. -/
def qIndex (fsp : FlowSpec) : Nat := fsp.ringCookie % 2 ^ 32

def rule (fsp : FlowSpec) : FlowRule := ⟨fsp.location, fsp.ringCookie⟩

end FlowSpec

/-- A vport with its rules. `numRxq` are the queues it has, `steered` is where the device has
acknowledged that it steers to, by the number of the rule. -/
structure FlowSteer where
  vportId : Nat
  user : UserConfig
  maxTxq : Nat
  maxRxq : Nat
  numRxq : Nat
  maxRules : BitVec 32
  queueAction : Bool
  tcpCap : Bool
  udpCap : Bool
  steered : Nat → Option Nat

def FlowRule.isAt (loc : Nat) (f : FlowRule) : Bool := f.location = loc

/-- The place for a rule in the list, behind `parent`; there is none if its location is taken. -/
def steerPlace (loc : Nat) : List FlowRule → Option Nat
  | [] => some 0
  | f :: rest =>
    if f.location = loc then none
    else if loc < f.location then some 0
    else (steerPlace loc rest).map (· + 1)

namespace FlowSteer

/-- `idpf_sideband_action_ena`: dropping and waking are not supported. -/
def actionEna (s : FlowSteer) (fsp : FlowSpec) : Bool :=
  fsp.ringCookie ≠ 2 ^ 64 - 1 && fsp.ringCookie ≠ 2 ^ 64 - 2 && s.queueAction

/-- `idpf_sideband_flow_type_ena` -/
def flowTypeEna (s : FlowSteer) (flowType : Nat) : Bool :=
  if flowType = FlowSpec.tcpV4Flow then s.tcpCap
  else if flowType = FlowSpec.udpV4Flow then s.udpCap
  else false

/-- `idpf_add_flow_steer` up to the message, with the place that it has found. -/
def prepare (s : FlowSteer) (fsp : FlowSpec) (mem : Bool) : Except FlowErr (Nat × FlowRuleMsg) :=
  if fsp.extended then .error .einval
  else if !s.actionEna fsp || !s.flowTypeEna fsp.flowType then .error .eopnotsupp
  else if s.maxRules.toNat < s.user.numFsteerFltrs then .error .enospc
  else if s.user.numReqRxQs ≤ fsp.qIndex then .error .einval
  else if !mem then .error .enomem
  else
    match steerPlace fsp.location s.user.flowSteerList with
    | none => .error .eexist
    | some place =>
      match fsp.protoHdrs with
      | none => .error .einval
      | some hdrs => .ok (place, ⟨s.vportId, fsp.location, fsp.qIndex, hdrs⟩)

def acknowledge (s : FlowSteer) (msg : FlowRuleMsg) : FlowSteer :=
  { s with steered := Function.update s.steered msg.ruleId (some msg.qId) }

def insertRule (s : FlowSteer) (place : Nat) (fsp : FlowSpec) : FlowSteer :=
  { s with user := { s.user with
      flowSteerList := s.user.flowSteerList.insertIdx place fsp.rule
      numFsteerFltrs := (s.user.numFsteerFltrs + 1) % 2 ^ 32 } }

/-- `idpf_add_flow_steer` -/
def addFlowSteer (s : FlowSteer) (fsp : FlowSpec) (mem : Bool) (reply : FlowReply) :
    FlowSteer × Option FlowErr :=
  match s.prepare fsp mem with
  | .error e => (s, some e)
  | .ok (place, msg) =>
    match reply with
    | .none => (s, some .noReply)
    | .status value =>
      if value ≠ flowRuleSuccess then (s, some .eio)
      else ((s.acknowledge msg).insertRule place fsp, none)

/-- `idpf_del_flow_steer` -/
def delFlowSteer (s : FlowSteer) (fsp : FlowSpec) (mem : Bool) (reply : FlowReply) :
    FlowSteer × Option FlowErr :=
  if !s.actionEna fsp then (s, some .eopnotsupp)
  else if !mem then (s, some .enomem)
  else
    match reply with
    | .none => (s, some .noReply)
    | .status value =>
      if value ≠ flowRuleSuccess then (s, some .eio)
      else
        let s := { s with steered := Function.update s.steered fsp.location none }
        if s.user.flowSteerList.any (FlowRule.isAt fsp.location) then
          ({ s with user := { s.user with
              flowSteerList := s.user.flowSteerList.eraseP (FlowRule.isAt fsp.location)
              numFsteerFltrs := (s.user.numFsteerFltrs + (2 ^ 32 - 1)) % 2 ^ 32 } }, none)
        else (s, some .enoent)

/-- `idpf_set_channels` passes its checks and asks for something else. -/
def changes (s : FlowSteer) (combined tx rx : Nat) : Bool :=
  !(rx ≠ 0 && tx ≠ 0) && combined + tx ≤ s.maxTxq && combined + rx ≤ s.maxRxq &&
    !(combined + tx = s.user.numReqTxQs && combined + rx = s.user.numReqRxQs)

/-- `idpf_set_channels`: a soft reset that fails late leaves the vport with the new queues. -/
def setChannels (s : FlowSteer) (combined tx rx : Nat) (result : SoftEnd) : FlowSteer :=
  if !s.changes combined tx rx then s
  else
    match result with
    | .noMem => s
    | .refused => s
    | .late => { s with numRxq := combined + rx }
    | .done =>
      { s with
        numRxq := combined + rx
        user := { s.user with
          numReqTxQs := combined + tx
          numReqRxQs := combined + rx } }

end FlowSteer

/-- What ethtool asks for. -/
inductive SteerOp where
  | add (fsp : FlowSpec) (mem : Bool) (reply : FlowReply)
  | del (fsp : FlowSpec) (mem : Bool) (reply : FlowReply)
  | setChannels (combined tx rx : Nat) (result : SoftEnd)

namespace FlowSteer

def step (s : FlowSteer) : SteerOp → Option FlowSteer
  | .add fsp mem reply => some (s.addFlowSteer fsp mem reply).1
  | .del fsp mem reply => some (s.delFlowSteer fsp mem reply).1
  | .setChannels combined tx rx result => some (s.setChannels combined tx rx result)

def Init (s : FlowSteer) : Prop :=
  s.user.flowSteerList = [] ∧ s.user.numFsteerFltrs = 0 ∧ ∀ l, s.steered l = none

/-- The list is in order and within the limit, has what the device has acknowledged, and steers to
the queues that were asked for, which the vport has. -/
structure Kept (s : FlowSteer) : Prop where
  sorted : s.user.flowSteerList.Pairwise fun a b => a.location < b.location
  counted : s.user.numFsteerFltrs = s.user.flowSteerList.length
  few : s.user.flowSteerList.length ≤ s.maxRules.toNat
  acknowledged : ∀ l, (∃ r ∈ s.user.flowSteerList, r.location = l) ↔ s.steered l ≠ none
  queues : ∀ r ∈ s.user.flowSteerList,
    s.steered r.location = some r.ringCookie ∧ r.ringCookie < s.numRxq

def adds (s : FlowSteer) (fsp : FlowSpec) (mem : Bool) (reply : FlowReply) : Bool :=
  match s.prepare fsp mem, reply with
  | .ok _, .status value => value = flowRuleSuccess
  | _, _ => false

/-- The requests that leave the list within its bounds: a rule comes below the limit and to a queue
of the vport, with no more than 32 bits, and no queue goes that a rule steers to. -/
def ok (s : FlowSteer) : SteerOp → Bool
  | .add fsp mem reply =>
    !s.adds fsp mem reply || (s.user.numFsteerFltrs < s.maxRules.toNat &&
      fsp.ringCookie < 2 ^ 32 && fsp.ringCookie < s.numRxq)
  | .del _ _ _ => true
  | .setChannels combined tx rx result =>
    !s.changes combined tx rx || result = .noMem || result = .refused ||
      s.user.flowSteerList.all fun r => r.ringCookie < combined + rx

variable {s : FlowSteer} {fsp : FlowSpec} {mem : Bool} {reply : FlowReply} {place : Nat}
  {msg : FlowRuleMsg} {l : List FlowRule} {loc : Nat} {r : FlowRule}

def Sorted (l : List FlowRule) : Prop := l.Pairwise fun a b => a.location < b.location

theorem steerPlace_le (found : steerPlace loc l = some place) : place ≤ l.length := by
  induction l generalizing place with
  | nil => exact (Option.some.inj found).symm ▸ Nat.le_refl 0
  | cons f rest ih =>
      unfold steerPlace at found
      split at found
      · exact absurd found.symm (Option.some_ne_none place)
      · split at found
        · exact Option.some.inj found ▸ Nat.zero_le _
        · obtain ⟨below, next, rfl⟩ := Option.map_eq_some_iff.mp found
          exact Nat.succ_le_succ (ih next)

theorem steerPlace_free (sorted : Sorted l) (found : steerPlace loc l = some place) :
    ∀ f ∈ l, f.location ≠ loc := by
  induction l generalizing place with
  | nil => exact fun f none => absurd none List.not_mem_nil
  | cons g rest ih =>
      obtain ⟨above, sorted⟩ := List.pairwise_cons.mp sorted
      unfold steerPlace at found
      split at found
      · exact absurd found.symm (Option.some_ne_none place)
      next other =>
        split at found
        next before =>
          intro f member
          cases List.mem_cons.mp member with
          | inl same => exact same ▸ other
          | inr later => exact (Nat.lt_trans before (above f later)).ne'
        next after =>
          obtain ⟨below, next, -⟩ := Option.map_eq_some_iff.mp found
          intro f member
          cases List.mem_cons.mp member with
          | inl same => exact same ▸ other
          | inr later => exact ih sorted next f later

theorem steerPlace_sorted (sorted : Sorted l) (found : steerPlace r.location l = some place) :
    Sorted (l.insertIdx place r) := by
  induction l generalizing place with
  | nil =>
      obtain rfl := Option.some.inj found
      exact List.pairwise_singleton _ r
  | cons g rest ih =>
      obtain ⟨above, later⟩ := List.pairwise_cons.mp sorted
      unfold steerPlace at found
      split at found
      · exact absurd found.symm (Option.some_ne_none place)
      next other =>
        split at found
        next before =>
          obtain rfl := Option.some.inj found
          apply List.pairwise_cons.mpr
          constructor
          · intro f member
            cases List.mem_cons.mp member with
            | inl same => exact same ▸ before
            | inr behind => exact Nat.lt_trans before (above f behind)
          · exact sorted
        next after =>
          obtain ⟨below, next, rfl⟩ := Option.map_eq_some_iff.mp found
          apply List.pairwise_cons.mpr
          constructor
          · intro f member
            cases (List.mem_insertIdx (steerPlace_le next)).mp member with
            | inl same => exact same ▸ Nat.lt_of_le_of_ne (Nat.le_of_not_lt after) other
            | inr behind => exact above f behind
          · exact ih later next

/-- What `idpf_add_flow_steer` sends. -/
theorem prepare_ok (prepared : s.prepare fsp mem = .ok (place, msg)) :
    steerPlace fsp.location s.user.flowSteerList = some place ∧ msg.ruleId = fsp.location ∧
      msg.qId = fsp.qIndex := by
  unfold prepare at prepared
  -- each check ends the call
  iterate 5
    split at prepared
    · cases prepared
  cases found : steerPlace fsp.location s.user.flowSteerList with
  | none =>
      rw [found] at prepared
      cases prepared
  | some place =>
      rw [found] at prepared
      cases filled : fsp.protoHdrs with
      | none =>
          rw [filled] at prepared
          cases prepared
      | some hdrs =>
          rw [filled] at prepared
          obtain ⟨rfl, rfl⟩ := Prod.mk.inj (Except.ok.inj prepared)
          exact ⟨rfl, rfl, rfl⟩

/-- A rule that the device acknowledges goes into the list; else nothing changes. -/
theorem addFlowSteer_spec (s : FlowSteer) (fsp : FlowSpec) (mem : Bool) (reply : FlowReply) :
    (s.adds fsp mem reply = false ∧ (s.addFlowSteer fsp mem reply).1 = s) ∨
      (s.adds fsp mem reply = true ∧ ∃ place msg, s.prepare fsp mem = .ok (place, msg) ∧
        (s.addFlowSteer fsp mem reply).1 = (s.acknowledge msg).insertRule place fsp) := by
  unfold adds addFlowSteer
  cases prepared : s.prepare fsp mem with
  | error e => exact .inl ⟨rfl, rfl⟩
  | ok found =>
      cases reply with
      | none => exact .inl ⟨rfl, rfl⟩
      | status value =>
          dsimp only
          by_cases success : value = flowRuleSuccess
          · rw [if_neg (not_not.mpr success)]
            exact .inr ⟨decide_eq_true success, found.1, found.2, rfl, rfl⟩
          · rw [if_pos success]
            exact .inl ⟨decide_eq_false success, rfl⟩

theorem Kept.add (kept : s.Kept) (fine : s.ok (.add fsp mem reply) = true) :
    (s.addFlowSteer fsp mem reply).1.Kept := by
  obtain ⟨-, same⟩ | ⟨adds, place, msg, prepared, added⟩ := addFlowSteer_spec s fsp mem reply
  · rw [same]
    exact kept
  · obtain ⟨found, ruleId, qId⟩ := prepare_ok prepared
    unfold FlowSteer.ok at fine
    simp only [adds, Bool.not_true, Bool.false_or, Bool.and_eq_true, decide_eq_true_eq] at fine
    obtain ⟨⟨below, narrow⟩, queue⟩ := fine
    have within := steerPlace_le found
    have free := steerPlace_free kept.sorted found
    have length := List.length_insertIdx_of_le_length within fsp.rule
    have limit := s.maxRules.isLt
    rw [added]
    constructor
    · exact steerPlace_sorted (r := fsp.rule) kept.sorted found
    · change (s.user.numFsteerFltrs + 1) % 2 ^ 32 = _
      rw [Nat.mod_eq_of_lt (by omega), kept.counted]
      exact length.symm
    · change (s.user.flowSteerList.insertIdx place fsp.rule).length ≤ s.maxRules.toNat
      rw [length, ← kept.counted]
      exact below
    · intro l
      change (∃ r ∈ s.user.flowSteerList.insertIdx place fsp.rule, r.location = l) ↔
        Function.update s.steered msg.ruleId (some msg.qId) l ≠ none
      rw [ruleId]
      by_cases here : l = fsp.location
      · rw [here, Function.update_self]
        constructor
        · exact fun _ => Option.some_ne_none _
        · exact fun _ => ⟨fsp.rule, (List.mem_insertIdx within).mpr (.inl rfl), rfl⟩
      · rw [Function.update_of_ne here, ← kept.acknowledged l]
        constructor
        · intro ⟨r, member, same⟩
          cases (List.mem_insertIdx within).mp member with
          | inl new => exact absurd (same.symm.trans (congrArg FlowRule.location new)) here
          | inr old => exact ⟨r, old, same⟩
        · exact fun ⟨r, old, same⟩ => ⟨r, (List.mem_insertIdx within).mpr (.inr old), same⟩
    · intro r member
      change Function.update s.steered msg.ruleId (some msg.qId) r.location = some r.ringCookie ∧
        r.ringCookie < s.numRxq
      rw [ruleId]
      cases (List.mem_insertIdx within).mp member with
      | inl new =>
          have location : r.location = fsp.location := congrArg FlowRule.location new
          have cookie : r.ringCookie = fsp.ringCookie := congrArg FlowRule.ringCookie new
          rw [location, cookie, Function.update_self, qId]
          exact ⟨congrArg some (Nat.mod_eq_of_lt narrow), queue⟩
      | inr old =>
          rw [Function.update_of_ne (free r old)]
          exact kept.queues r old

theorem mem_eraseP (sorted : Sorted l) :
    r ∈ l.eraseP (FlowRule.isAt loc) ↔ r ∈ l ∧ r.location ≠ loc := by
  induction l with
  | nil => exact ⟨fun none => absurd none List.not_mem_nil, fun both => both.1⟩
  | cons g rest ih =>
      obtain ⟨above, later⟩ := List.pairwise_cons.mp sorted
      by_cases here : g.location = loc
      · rw [List.eraseP_cons_of_pos (p := FlowRule.isAt loc) (decide_eq_true here)]
        constructor
        · exact fun behind => ⟨List.mem_cons_of_mem g behind, (here ▸ above r behind).ne'⟩
        · intro ⟨member, other⟩
          cases List.mem_cons.mp member with
          | inl same => exact absurd (same ▸ here) other
          | inr behind => exact behind
      · rw [List.eraseP_cons_of_neg (p := FlowRule.isAt loc)
          (fun same => here (of_decide_eq_true same)), List.mem_cons, List.mem_cons, ih later]
        constructor
        · intro either
          cases either with
          | inl same => exact ⟨.inl same, same ▸ here⟩
          | inr behind => exact ⟨.inr behind.1, behind.2⟩
        · intro ⟨either, other⟩
          exact either.imp_right fun behind => ⟨behind, other⟩

/-- How a deletion ends: the device has acknowledged it, or nothing changes. -/
theorem delFlowSteer_spec (s : FlowSteer) (fsp : FlowSpec) (mem : Bool) (reply : FlowReply) :
    (s.delFlowSteer fsp mem reply).1 = s ∨ (s.delFlowSteer fsp mem reply).1 =
      if s.user.flowSteerList.any (FlowRule.isAt fsp.location) then
        { s with
          steered := Function.update s.steered fsp.location none
          user := { s.user with
            flowSteerList := s.user.flowSteerList.eraseP (FlowRule.isAt fsp.location)
            numFsteerFltrs := (s.user.numFsteerFltrs + (2 ^ 32 - 1)) % 2 ^ 32 } }
      else { s with steered := Function.update s.steered fsp.location none } := by
  unfold delFlowSteer
  split
  · exact .inl rfl
  · split
    · exact .inl rfl
    · cases reply with
      | none => exact .inl rfl
      | status value =>
          dsimp only
          split
          · exact .inl rfl
          · right
            split
            · rfl
            · rfl

theorem Kept.del (kept : s.Kept) : (s.delFlowSteer fsp mem reply).1.Kept := by
  have limit := s.maxRules.isLt
  obtain same | same := delFlowSteer_spec s fsp mem reply
  · rw [same]
    exact kept
  · rw [same]
    split
    next some =>
      obtain ⟨f, member, here⟩ := List.any_eq_true.mp some
      have length := List.length_eraseP_of_mem member here
      have filled := List.length_pos_of_mem member
      have few := kept.few
      constructor
      · exact kept.sorted.sublist List.eraseP_sublist
      · change (s.user.numFsteerFltrs + (2 ^ 32 - 1)) % 2 ^ 32 = _
        rw [kept.counted, length]
        omega
      · exact (List.eraseP_sublist.length_le).trans few
      · intro l
        change (∃ r ∈ s.user.flowSteerList.eraseP (FlowRule.isAt fsp.location),
          r.location = l) ↔ Function.update s.steered fsp.location none l ≠ none
        by_cases gone : l = fsp.location
        · rw [gone, Function.update_self]
          constructor
          · exact fun ⟨r, left, same⟩ => absurd same ((mem_eraseP kept.sorted).mp left).2
          · exact fun other => absurd rfl other
        · rw [Function.update_of_ne gone, ← kept.acknowledged l]
          constructor
          · exact fun ⟨r, left, same⟩ => ⟨r, ((mem_eraseP kept.sorted).mp left).1, same⟩
          · intro ⟨r, old, same⟩
            exact ⟨r, (mem_eraseP kept.sorted).mpr ⟨old, same ▸ gone⟩, same⟩
      · intro r left
        obtain ⟨old, other⟩ := (mem_eraseP kept.sorted).mp left
        change Function.update s.steered fsp.location none r.location = _ ∧ _
        rw [Function.update_of_ne other]
        exact kept.queues r old
    next none =>
      have absent : ∀ r ∈ s.user.flowSteerList, r.location ≠ fsp.location := fun r member here =>
        none (List.any_eq_true.mpr ⟨r, member, decide_eq_true here⟩)
      have unsteered : s.steered fsp.location = Option.none := by
        by_contra some
        obtain ⟨r, member, here⟩ := (kept.acknowledged fsp.location).mpr some
        exact absent r member here
      have same : Function.update s.steered fsp.location Option.none = s.steered := by
        rw [← unsteered]
        exact Function.update_eq_self _ _
      rw [same]
      exact kept

theorem Kept.setChannels (kept : s.Kept) {combined tx rx : Nat} {result : SoftEnd}
    (fine : s.ok (.setChannels combined tx rx result) = true) :
    (s.setChannels combined tx rx result).Kept := by
  unfold FlowSteer.setChannels
  unfold FlowSteer.ok at fine
  dsimp only at fine
  cases changes : s.changes combined tx rx with
  | false => exact kept
  | true =>
      rw [if_neg (Bool.not_true ▸ Bool.false_ne_true)]
      rw [changes, Bool.not_true, Bool.false_or] at fine
      cases result with
      | noMem => exact kept
      | refused => exact kept
      | late =>
          have reaches := List.all_eq_true.mp fine
          exact ⟨kept.sorted, kept.counted, kept.few, kept.acknowledged, fun r member =>
            ⟨(kept.queues r member).1, of_decide_eq_true (reaches r member)⟩⟩
      | done =>
          have reaches := List.all_eq_true.mp fine
          exact ⟨kept.sorted, kept.counted, kept.few, kept.acknowledged, fun r member =>
            ⟨(kept.queues r member).1, of_decide_eq_true (reaches r member)⟩⟩

theorem Init.kept (init : s.Init) : s.Kept := by
  obtain ⟨empty, zero, unsteered⟩ := init
  constructor
  · rw [empty]
    exact List.Pairwise.nil
  · rw [empty, zero]
    rfl
  · rw [empty]
    exact Nat.zero_le _
  · intro l
    rw [empty, unsteered l]
    exact ⟨fun ⟨_, member, _⟩ => absurd member List.not_mem_nil, fun other => absurd rfl other⟩
  · rw [empty]
    exact fun _ none => absurd none List.not_mem_nil

/-- In a run whose requests all meet the condition the list is what the device has acknowledged,
in order and within its bounds. -/
theorem rules_kept (run : Reachable step (fun s op => s.ok op = true) Init s) : s.Kept :=
  run.invariant (fun _ init => init.kept) fun s op t kept fine next => by
    cases op with
    | add fsp mem reply =>
        obtain rfl := Option.some.inj next
        exact kept.add fine
    | del fsp mem reply =>
        obtain rfl := Option.some.inj next
        exact kept.del
    | setChannels combined tx rx result =>
        obtain rfl := Option.some.inj next
        exact kept.setChannels fine

/-- A rule for flows of UDP. -/
def udpRule (location ringCookie : Nat) : FlowSpec :=
  ⟨FlowSpec.udpV4Flow, ⟨1, 2, 3, 4⟩, ⟨0, 0, 0, 65535⟩, ringCookie, location⟩

/-- A vport with `n` queues whose device takes `limit` rules. -/
def plain (n : Nat) (limit : BitVec 32) : FlowSteer where
  vportId := 1
  user := { UserConfig.fresh n with
    numReqTxQs := n
    numReqRxQs := n }
  maxTxq := n
  maxRxq := n
  numRxq := n
  maxRules := limit
  queueAction := true
  tcpCap := true
  udpCap := true
  steered := fun _ => none

/-- Rules come and go, refused ones among them, and the channels are reduced to what is in use. -/
theorem rules_kept_run : ∃ s, Reachable step (fun s op => s.ok op = true) Init s ∧
    s.user.flowSteerList.map FlowRule.location = [3, 7] ∧ s.Kept := by
  obtain ⟨s, run, rules⟩ : ∃ s, execIf step ok (plain 4 2)
      [.add (udpRule 7 1) true (.status 1), .add (udpRule 5 9) true (.status 1),
        .add (udpRule 5 3) true (.status 2), .add (udpRule 9 0) true (.status 1),
        .del (udpRule 9 0) true (.status 1), .add (udpRule 3 0) true (.status 1),
        .add (udpRule 3 1) true (.status 1), .del (udpRule 8 0) true (.status 1),
        .setChannels 2 0 0 .done] = some s ∧ s.user.flowSteerList.map FlowRule.location = [3, 7] := by
    apply Option.map_eq_some_iff.mp
    decide +kernel
  have init : Init (plain 4 2) := ⟨rfl, rfl, fun _ => rfl⟩
  have reached := Reachable.execIf (.start init) run
  exact ⟨s, reached, rules, rules_kept reached⟩

/-- A device that takes one rule is given two, as the limit is only looked at from above. -/
theorem limit_passed : ¬ ∀ s, Reachable step anyStep Init s → s.Kept := by
  intro claim
  obtain ⟨s, run, many, limit⟩ : ∃ s, exec step (plain 4 1)
      [.add (udpRule 0 0) true (.status 1), .add (udpRule 1 0) true (.status 1)] = some s ∧
        s.user.flowSteerList.length = 2 ∧ s.maxRules.toNat = 1 := by
    refine ⟨_, rfl, ?_⟩
    decide +kernel
  have init : Init (plain 4 1) := ⟨rfl, rfl, fun _ => rfl⟩
  have few := (claim s (Reachable.exec (.start init) run)).few
  rw [many, limit] at few
  exact absurd few (by decide)

end FlowSteer

end Idpf
