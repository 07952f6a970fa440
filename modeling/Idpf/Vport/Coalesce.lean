import Idpf.General.Attempts
import Idpf.General.Transition
import Idpf.Vport.VectorMap

/-! The throttling of interrupts that a user asks for: what the vectors have, what the table in
`user_config` has, and what is left of it when the vport is opened again. -/
namespace Idpf
open General

inductive ItrSide where
  | tx | rx
  deriving DecidableEq, Repr

/-- The array of a vector that has the queues of a side. -/
def ItrSide.kind : ItrSide → VecKind
  | .tx => .tx
  | .rx => .rx

/-- `tx_itr_value` and `tx_intr_mode` of a vector, or those of the Rx side; an entry of
`q_coalesce` has the same two. -/
structure ItrSetting where
  usecs : Nat
  dynamic : Bool
  deriving DecidableEq, Repr

/-- What the driver reads of `struct ethtool_coalesce`, for each side. -/
structure EthtoolCoalesce where
  usecs : ItrSide → Nat
  adaptive : ItrSide → Bool

/-- `IDPF_ITR_MAX`. -/
def itrMax : Nat := 0x1FE0

/-- What `idpf_vport_intr_write_itr` writes. -/
def itrRegVal (itr : Nat) : Nat := (itr &&& 0x1FFE) >>> 1

/-- `q_coalesce` of `user_config`, the vectors and their registers, and whether the vport is up.
Nothing reads the vectors of one that is down. -/
structure CoalState where
  up : Bool
  slot : ItrSide → Nat → ItrSetting
  vec : ItrSide → Nat → ItrSetting
  reg : ItrSide → Nat → Nat

def setAt {β : Type*} (f : ItrSide → Nat → β) (sd : ItrSide) (k : Nat) (b : β) :
    ItrSide → Nat → β :=
  fun sd' k' => if sd' = sd ∧ k' = k then b else f sd' k'

theorem setAt_self {β : Type*} (f : ItrSide → Nat → β) (sd : ItrSide) (k : Nat) (b : β) :
    setAt f sd k b sd k = b :=
  if_pos ⟨rfl, rfl⟩

theorem setAt_of_ne {β : Type*} (f : ItrSide → Nat → β) {sd sd' : ItrSide} {k k' : Nat} (b : β)
    (other : ¬(sd' = sd ∧ k' = k)) : setAt f sd k b sd' k' = f sd' k' :=
  if_neg other

theorem setAt_forall {β : Type*} {P : β → Prop} {f : ItrSide → Nat → β} {b : β}
    (all : ∀ sd k, P (f sd k)) (new : P b) (sd sd' : ItrSide) (k k' : Nat) :
    P (setAt f sd k b sd' k') := by
  unfold setAt
  split
  · exact new
  · exact all sd' k'

theorem setAt_eq_self {β : Type*} {f : ItrSide → Nat → β} {sd : ItrSide} {k : Nat} {b : β}
    (there : f sd k = b) : setAt f sd k b = f := by
  funext sd' k'
  unfold setAt
  split
  · next here => rw [here.1, here.2, there]
  · rfl

namespace EthtoolCoalesce

variable (ec : EthtoolCoalesce) (sd : ItrSide)

/-- What is stored for a side: the device supports even values only. -/
def setting : ItrSetting :=
  ⟨if ec.usecs sd % 2 ≠ 0 then ec.usecs sd - 1 else ec.usecs sd, ec.adaptive sd⟩

/-- The first check of `__idpf_set_q_coalesce`, against what the vector has. -/
def fixesAdaptive (old : ItrSetting) : Bool :=
  decide (ec.usecs sd ≠ u16 old.usecs) && ec.adaptive sd

def idle (old : ItrSetting) : Bool := old.dynamic && ec.adaptive sd

/-- `__idpf_set_q_coalesce` refuses it. -/
def refused (old : ItrSetting) : Bool :=
  ec.fixesAdaptive sd old || (!ec.idle sd old && decide (itrMax < ec.usecs sd))

end EthtoolCoalesce

/-- The stores at the end of `__idpf_set_q_coalesce`, for queue `q` on vector `v`. -/
def CoalState.store (s : CoalState) (ec : EthtoolCoalesce) (sd : ItrSide) (q v : Nat) :
    CoalState :=
  { s with
    vec := setAt s.vec sd v (ec.setting sd)
    slot := setAt s.slot sd q (ec.setting sd)
    reg := if ec.adaptive sd then s.reg
      else setAt s.reg sd v (itrRegVal (ec.setting sd).usecs) }

/-- `__idpf_set_q_coalesce`, with whether it returns 0. -/
def setVectorCoalesce (ec : EthtoolCoalesce) (sd : ItrSide) (q v : Nat) (s : CoalState) :
    Bool × CoalState :=
  if ec.fixesAdaptive sd (s.vec sd v) then (false, s)
  else if ec.idle sd (s.vec sd v) then (true, s)
  else if itrMax < ec.usecs sd then (false, s)
  else (true, s.store ec sd q v)

/-- What stays the same from one opening to the next: the queues, the vectors, whether an XDP
program is there, and `max_q`. -/
structure CoalVport where
  rsrc : QVecRsrc
  laid : rsrc.calcNumQGroups = rsrc
  numQVectors : Nat
  vectors : 0 < numQVectors
  xdp : Bool
  maxTxq : Nat
  maxRxq : Nat

/-- The queue that `idpf_set_q_coalesce` looks up; `none` is an access outside of an array or
through NULL. -/
def coalesceQueue (r : QVecRsrc) : ItrSide → Nat → Option VecQueue
  | .tx, q =>
    if r.txSplit then if q < r.numTxqGrp then some (.complq q) else none
    else if q < r.numTxq then some (.txq 0 q) else none
  | .rx, q =>
    if r.rxSplit then if q < r.numRxqGrp then some (.rx q 0) else none
    else if q < r.numRxq then some (.rx 0 q) else none

namespace CoalVport

variable (c : CoalVport)

/-- `q_vector` of that queue. -/
def qVector (sd : ItrSide) (q : Nat) : Option Nat :=
  (coalesceQueue c.rsrc sd q).bind
    (intrMapVectorToQs c.rsrc c.numQVectors .empty).qVector

/-- `idpf_set_q_coalesce`. -/
def setQCoalesce (ec : EthtoolCoalesce) (x : ItrSide × Nat) (s : CoalState) :
    Option (Bool × CoalState) :=
  if s.up then (c.qVector x.1 x.2).map fun v => setVectorCoalesce ec x.1 x.2 v s else none

/-- The queues of a global request, first the Tx queues and then the Rx queues. -/
def allVisits : List (ItrSide × Nat) :=
  let numTxq := if c.xdp then u16 (c.rsrc.numTxq + 65536 - c.rsrc.numXdpTxq) else c.rsrc.numTxq
  (List.range numTxq).map (ItrSide.tx, ·) ++ (List.range c.rsrc.numRxq).map (ItrSide.rx, ·)

def perQVisits (q : Nat) : List (ItrSide × Nat) :=
  (if q < c.rsrc.numTxq then [(.tx, q)] else []) ++
    if q < c.rsrc.numRxq then [(.rx, q)] else []

/-- The check of `idpf_set_coalesce`. -/
def withinMax : Bool :=
  let numTxq := if c.xdp then u16 (c.rsrc.numTxq + 65536 - c.rsrc.numXdpTxq) else c.rsrc.numTxq
  decide (numTxq ≤ c.maxTxq) && decide (c.rsrc.numRxq ≤ c.maxRxq)

/-- `idpf_set_coalesce`. -/
def setCoalesce (ec : EthtoolCoalesce) (s : CoalState) : Option (Bool × CoalState) :=
  if !s.up then some (true, s)
  else if !c.withinMax then some (false, s)
  else attempts (c.setQCoalesce ec) c.allVisits s

/-- `idpf_set_per_q_coalesce`. -/
def setPerQCoalesce (q : Nat) (ec : EthtoolCoalesce) (s : CoalState) :
    Option (Bool × CoalState) :=
  if max c.maxTxq c.maxRxq ≤ q then some (false, s)
  else attempts (c.setQCoalesce ec) (c.perQVisits q) s

/-- What `idpf_vport_open` does with the settings: `idpf_vport_intr_alloc` gives each vector those
in the slot of its own number, `idpf_vport_intr_ena_irq_all` writes the registers of the vectors
that have queues. `profile` is the value of the profile that each vector is in. -/
def openVport (profile : ItrSide → Nat → Nat) (s : CoalState) : CoalState where
  up := true
  slot := s.slot
  vec := s.slot
  reg := fun sd v =>
    if v < c.numQVectors ∧
        (intrMapVectorToQs c.rsrc c.numQVectors .empty).arrays sd.kind v ≠ [] then
      itrRegVal (if (s.slot sd v).dynamic then profile sd v else (s.slot sd v).usecs)
    else s.reg sd v

end CoalVport

/-- What `idpf_vport_stop` does with them: the vectors are freed. -/
def CoalState.stopVport (s : CoalState) : CoalState :=
  { s with
    up := false
    vec := fun _ _ => ⟨0, false⟩ }

/-- What happens to a vport: requests, the work of `net_dim` for a vector, and the two ways through
`idpf_vport_stop` and `idpf_vport_open`. -/
inductive CoalEvent where
  | setCoalesce (ec : EthtoolCoalesce)
  | setPerQCoalesce (q : Nat) (ec : EthtoolCoalesce)
  | dimWork (sd : ItrSide) (v itr : Nat)
  | stop
  | «open» (profile : ItrSide → Nat → Nat)

namespace CoalVport

def react (c : CoalVport) (s : CoalState) : CoalEvent → Option (Bool × CoalState)
  | .setCoalesce ec => c.setCoalesce ec s
  | .setPerQCoalesce q ec => c.setPerQCoalesce q ec s
  | .dimWork sd v itr =>
    if s.up ∧ v < c.numQVectors then
      some (true, { s with reg := setAt s.reg sd v (itrRegVal itr) })
    else none
  | .stop => some (true, if s.up then s.stopVport else s)
  | .open profile => some (if s.up then (false, s) else (true, c.openVport profile s))

def step (c : CoalVport) (s : CoalState) (a : CoalEvent) : Option CoalState :=
  (c.react s a).map Prod.snd

/-- The vector of queue `q` is about to refuse a request. -/
def refusedAt (c : CoalVport) (ec : EthtoolCoalesce) (s : CoalState) (x : ItrSide × Nat) : Bool :=
  ec.refused x.1 (s.vec x.1 (x.2 % c.numQVectors))

def settledAt (c : CoalVport) (ec : EthtoolCoalesce) (s : CoalState) (x : ItrSide × Nat) : Bool :=
  let old := s.vec x.1 (x.2 % c.numQVectors)
  ec.idle x.1 old || decide (old = ec.setting x.1)

def keptAt (c : CoalVport) (ec : EthtoolCoalesce) (s : CoalState) (x : ItrSide × Nat) : Bool :=
  let v := x.2 % c.numQVectors
  ec.idle x.1 (s.vec x.1 v) ||
    (decide (s.vec x.1 v = ec.setting x.1) && decide (s.slot x.1 x.2 = ec.setting x.1) &&
      (ec.adaptive x.1 || decide (s.reg x.1 v = itrRegVal (ec.setting x.1).usecs)))

/-- When a request does what its caller is to expect. No queue is refused after one for which
something changed; a request for one queue is for one that has the number of its vector, or it is
refused, or the vector has what it asks for. -/
def meets (c : CoalVport) (s : CoalState) : CoalEvent → Bool
  | .setCoalesce ec =>
    !s.up || !c.withinMax || orderly (c.refusedAt ec s) (c.keptAt ec s) c.allVisits
  | .setPerQCoalesce q ec =>
    decide (max c.maxTxq c.maxRxq ≤ q) ||
      (orderly (c.refusedAt ec s) (c.keptAt ec s) (c.perQVisits q) &&
        (decide (q < c.numQVectors) || (c.perQVisits q).any (c.refusedAt ec s) ||
          (c.perQVisits q).all (c.settledAt ec s)))
  | _ => true

end CoalVport

def ItrSetting.Valid (old : ItrSetting) : Prop := old.usecs % 2 = 0 ∧ old.usecs ≤ itrMax

namespace CoalState

def Valid (s : CoalState) : Prop := ∀ sd k, (s.slot sd k).Valid ∧ (s.vec sd k).Valid

/-- The vport has just been opened. -/
structure JustOpened (s : CoalState) : Prop where
  up : s.up = true
  valid : s.Valid
  vec : s.vec = s.slot

end CoalState

/-- What is to hold in a state: whatever happens while the vport is down, when it is opened again
each vector has the settings it had; a request that is refused changes nothing. -/
structure CoalVport.Persistent (c : CoalVport) (s : CoalState) : Prop where
  reopened : s.up = true → ∀ (down : List CoalEvent) (profile : ItrSide → Nat → Nat)
    (t : CoalState), (∀ a ∈ down, ∀ p, a ≠ .open p) →
    exec c.step s (.stop :: down ++ [.open profile]) = some t →
    ∀ sd, ∀ v < c.numQVectors, t.vec sd v = s.vec sd v
  unchanged : ∀ a t, c.meets s a = true → c.react s a = some (false, t) → t = s

/-! The vector of a queue. -/

theorem txGroupQueues_complq {r : QVecRsrc} (split : r.txSplit = true) {G m i q : Nat}
    (inside : q < G) :
    (txGroupQueues r (.replicate G m) i)[q]? = some (.complq (i + q)) := by
  induction G generalizing i q with
  | zero => exact absurd inside (Nat.not_lt_zero q)
  | succ G ih =>
      have head : groupTxqs r i m = [.complq i] := if_pos split
      rw [List.replicate_succ, txGroupQueues, head]
      cases q with
      | zero => rfl
      | succ q =>
          rw [List.singleton_append, List.getElem?_cons_succ, ih (Nat.lt_of_succ_lt_succ inside),
            Nat.add_right_comm, Nat.add_assoc]

theorem rxDealt_rxq {r : QVecRsrc} {n G i q c b : Nat} (inside : q < G) :
    (VecQueue.rx (i + q) 0, (c + q) % n) ∈ rxDealt r n (.replicate G 1) i c b := by
  induction G generalizing i q c b with
  | zero => exact absurd inside (Nat.not_lt_zero q)
  | succ G ih =>
      rw [List.replicate_succ, rxDealt]
      cases q with
      | zero => exact List.mem_append_left _ List.mem_cons_self
      | succ q =>
          have later := ih (i := i + 1) (c := c + 1) (b := b + 1) (Nat.lt_of_succ_lt_succ inside)
          rw [Nat.add_right_comm i, Nat.add_right_comm c] at later
          exact List.mem_append_right _ (List.mem_append_right _ later)

namespace CoalVport

variable {c : CoalVport}

theorem mem_dealt {sd : ItrSide} {q : Nat} {vq : VecQueue}
    (queue : coalesceQueue c.rsrc sd q = some vq) :
    (vq, q % c.numQVectors) ∈ c.rsrc.dealt c.numQVectors := by
  rw [QVecRsrc.dealt, List.mem_append]
  cases sd with
  | tx =>
      refine .inr ?_
      suffices entry : (txGroupQueues c.rsrc c.rsrc.txqGroups 0)[q]? = some vq by
        have dealt := mem_deal (n := c.numQVectors) (c := 0) entry
        rwa [Nat.zero_add] at dealt
      rw [QVecRsrc.txqGroups]
      have groups : c.rsrc.numTxqGrp = if c.rsrc.txSplit then c.rsrc.numComplq else 1 :=
        (congrArg QVecRsrc.numTxqGrp c.laid).symm
      rw [coalesceQueue] at queue
      split at queue
      · next split =>
        obtain ⟨inside, ⟨⟩⟩ := Option.ite_none_right_eq_some.mp queue
        rw [txGroupQueues_complq split inside, Nat.zero_add]
      · next single =>
        obtain ⟨inside, ⟨⟩⟩ := Option.ite_none_right_eq_some.mp queue
        rw [groups, if_neg single, if_neg single]
        have all : txGroupQueues c.rsrc (.replicate 1 c.rsrc.numTxq) 0 =
            (List.range c.rsrc.numTxq).map (.txq 0) := by
          rw [List.replicate_one, txGroupQueues, txGroupQueues, groupTxqs, if_neg single,
            List.append_nil]
        rw [all, List.getElem?_map, List.getElem?_range inside]
        rfl
  | rx =>
      refine .inl ?_
      rw [QVecRsrc.rxqGroups]
      have groups : c.rsrc.numRxqGrp = if c.rsrc.rxSplit then c.rsrc.numRxq else 1 :=
        (congrArg QVecRsrc.numRxqGrp c.laid).symm
      rw [coalesceQueue] at queue
      split at queue
      · next split =>
        obtain ⟨inside, ⟨⟩⟩ := Option.ite_none_right_eq_some.mp queue
        have dealt := rxDealt_rxq (r := c.rsrc) (n := c.numQVectors) (i := 0) (c := 0) (b := 0)
          inside
        rw [if_pos split]
        rwa [Nat.zero_add] at dealt
      · next single =>
        obtain ⟨inside, ⟨⟩⟩ := Option.ite_none_right_eq_some.mp queue
        rw [groups, if_neg single, if_neg single, List.replicate_one, rxDealt]
        have entry : (groupRxqs 0 c.rsrc.numRxq)[q]? = some (.rx 0 q) := by
          rw [groupRxqs, List.getElem?_map, List.getElem?_range inside]
          rfl
        have dealt := mem_deal (n := c.numQVectors) (c := 0) entry
        rw [Nat.zero_add] at dealt
        exact List.mem_append_left _ dealt

/-- The vector of queue `q` is the one at its turn. -/
theorem qVector_eq {sd : ItrSide} {q v : Nat} (found : c.qVector sd q = some v) :
    v = q % c.numQVectors := by
  obtain ⟨vq, queue, vector⟩ := Option.bind_eq_some_iff.mp found
  have one : ((c.rsrc.dealt c.numQVectors).map Prod.fst).Nodup :=
    (dealt_fst c.rsrc c.numQVectors).symm ▸ vecQueues_nodup _
  rw [intrMapVectorToQs_eq c.vectors, VectorMap.puts_qVector one (mem_dealt queue)] at vector
  exact (Option.some.inj vector).symm

/-! What a visit does. -/

variable {ec : EthtoolCoalesce} {x y : ItrSide × Nat} {s t : CoalState} {ok : Bool}

theorem setQCoalesce_cases (run : c.setQCoalesce ec x s = some (ok, t)) :
    (c.refusedAt ec s x = true ∧ ok = false ∧ t = s) ∨
    c.refusedAt ec s x = false ∧ ok = true ∧
      (ec.idle x.1 (s.vec x.1 (x.2 % c.numQVectors)) = true ∧ t = s ∨
        ec.idle x.1 (s.vec x.1 (x.2 % c.numQVectors)) = false ∧ ec.usecs x.1 ≤ itrMax ∧
          t = s.store ec x.1 x.2 (x.2 % c.numQVectors)) := by
  rw [setQCoalesce, Option.ite_none_right_eq_some] at run
  obtain ⟨v, found, visit⟩ := Option.map_eq_some_iff.mp run.2
  obtain rfl := qVector_eq found
  rw [refusedAt, EthtoolCoalesce.refused]
  unfold setVectorCoalesce at visit
  split at visit
  · next fixes =>
    obtain ⟨rfl, rfl⟩ := Prod.mk.inj visit
    exact .inl ⟨by rw [fixes, Bool.true_or], rfl, rfl⟩
  · next free =>
    rw [Bool.not_eq_true] at free
    split at visit
    · next idle =>
      obtain ⟨rfl, rfl⟩ := Prod.mk.inj visit
      exact .inr ⟨by rw [free, idle]; rfl, rfl, .inl ⟨idle, rfl⟩⟩
    · next busy =>
      rw [Bool.not_eq_true] at busy
      split at visit
      · next large =>
        obtain ⟨rfl, rfl⟩ := Prod.mk.inj visit
        exact .inl ⟨by rw [busy, decide_eq_true large, Bool.not_false, Bool.true_and, Bool.or_true],
          rfl, rfl⟩
      · next small =>
        obtain ⟨rfl, rfl⟩ := Prod.mk.inj visit
        exact .inr ⟨by rw [free, decide_eq_false small, Bool.and_false, Bool.or_false], rfl,
          .inr ⟨busy, Nat.le_of_not_lt small, rfl⟩⟩

end CoalVport

namespace EthtoolCoalesce

variable {ec : EthtoolCoalesce} {sd : ItrSide} {old : ItrSetting}

theorem setting_valid (small : ec.usecs sd ≤ itrMax) : (ec.setting sd).Valid := by
  unfold ItrSetting.Valid setting
  dsimp only
  split <;> omega

/-- What a request has stored, it does not refuse later. -/
theorem refused_setting (valid : old.Valid) (small : ec.usecs sd ≤ itrMax)
    (accepted : ec.refused sd old = false) : ec.refused sd (ec.setting sd) = false := by
  have word (k : Nat) (le : k ≤ itrMax) : u16 k = k :=
    Nat.mod_eq_of_lt (lt_of_le_of_lt le (by decide))
  unfold refused at accepted ⊢
  rw [Bool.or_eq_false_iff] at accepted ⊢
  refine ⟨?_, by rw [decide_eq_false (Nat.not_lt.mpr small), Bool.and_false]⟩
  have first := accepted.1
  unfold fixesAdaptive at first ⊢
  cases static : ec.adaptive sd with
  | false => exact Bool.and_false _
  | true =>
      rw [static, Bool.and_true, decide_eq_false_iff_not, not_not, word _ valid.2] at first
      have even : (ec.setting sd).usecs = ec.usecs sd :=
        if_neg (not_not.mpr (first ▸ valid.1))
      rw [even, word _ small]
      simp

end EthtoolCoalesce

namespace CoalVport

variable {c : CoalVport} {ec : EthtoolCoalesce} {x y : ItrSide × Nat} {s t : CoalState}

theorem store_valid {sd : ItrSide} {q v : Nat} (valid : s.Valid) (small : ec.usecs sd ≤ itrMax) :
    (s.store ec sd q v).Valid :=
  fun _ _ => ⟨setAt_forall (fun sd k => (valid sd k).1) (EthtoolCoalesce.setting_valid small) ..,
    setAt_forall (fun sd k => (valid sd k).2) (EthtoolCoalesce.setting_valid small) ..⟩

theorem setQCoalesce_attempt (c : CoalVport) (ec : EthtoolCoalesce) :
    Attempt (c.setQCoalesce ec) CoalState.Valid (c.refusedAt ec) (c.keptAt ec) where
  outcome run := by
    obtain ⟨refused, rfl, -⟩ | ⟨accepted, rfl, -⟩ := setQCoalesce_cases run
    · rw [refused]
      rfl
    · rw [accepted]
      rfl
  refusal run := by
    obtain ⟨-, -, same⟩ | ⟨-, ok, -⟩ := setQCoalesce_cases run
    · exact same
    · cases ok
  kept {x s t} keeps run := by
    obtain ⟨-, ok, -⟩ | ⟨-, -, ⟨-, same⟩ | ⟨busy, -, rfl⟩⟩ := setQCoalesce_cases run
    · cases ok
    · exact same
    · simp only [keptAt, busy, Bool.false_or, Bool.and_eq_true, Bool.or_eq_true,
        decide_eq_true_eq] at keeps
      obtain ⟨⟨vec, slot⟩, reg⟩ := keeps
      have reg' : (if ec.adaptive x.1 then s.reg
          else setAt s.reg x.1 (x.2 % c.numQVectors) (itrRegVal (ec.setting x.1).usecs)) =
          s.reg := by
        split
        · rfl
        · next static => exact setAt_eq_self (reg.resolve_left static)
      unfold CoalState.store
      rw [setAt_eq_self vec, setAt_eq_self slot, reg']
  invariant valid run := by
    obtain ⟨-, ok, -⟩ | ⟨-, -, ⟨-, rfl⟩ | ⟨-, small, rfl⟩⟩ := setQCoalesce_cases run
    · cases ok
    · exact valid
    · exact store_valid valid small
  later {x y s t} valid run accepted := by
    obtain ⟨-, ok, -⟩ | ⟨free, -, ⟨-, rfl⟩ | ⟨-, small, rfl⟩⟩ := setQCoalesce_cases run
    · cases ok
    · exact accepted
    · unfold refusedAt CoalState.store
      by_cases here : y.1 = x.1 ∧ y.2 % c.numQVectors = x.2 % c.numQVectors
      · rw [here.1, here.2]
        dsimp only
        rw [setAt_self]
        exact EthtoolCoalesce.refused_setting (valid _ _).2 small free
      · dsimp only
        rw [setAt_of_ne _ _ here]
        exact accepted

theorem settled_later (settled : c.settledAt ec s y = true)
    (run : c.setQCoalesce ec x s = some (true, t)) : c.settledAt ec t y = true := by
  obtain ⟨-, ok, -⟩ | ⟨-, -, ⟨-, rfl⟩ | ⟨-, -, rfl⟩⟩ := setQCoalesce_cases run
  · cases ok
  · exact settled
  · unfold settledAt CoalState.store
    dsimp only
    by_cases here : y.1 = x.1 ∧ y.2 % c.numQVectors = x.2 % c.numQVectors
    · rw [here.1, here.2, setAt_self, decide_eq_true rfl, Bool.or_true]
    · rw [setAt_of_ne _ _ here]
      exact settled

theorem settled_self (run : c.setQCoalesce ec x s = some (true, t)) :
    c.settledAt ec t x = true := by
  obtain ⟨-, ok, -⟩ | ⟨-, -, ⟨idle, rfl⟩ | ⟨-, -, rfl⟩⟩ := setQCoalesce_cases run
  · cases ok
  · exact Bool.or_eq_true_iff.mpr (.inl idle)
  · unfold settledAt CoalState.store
    dsimp only
    rw [setAt_self, decide_eq_true rfl, Bool.or_true]

/-- What a vector gets at the next opening is what it has. -/
def Agree (c : CoalVport) (s : CoalState) : Prop :=
  ∀ sd, ∀ v < c.numQVectors, s.slot sd v = s.vec sd v

theorem agree_visit (agree : c.Agree s)
    (lands : x.2 < c.numQVectors ∨ c.settledAt ec s x = true)
    (run : c.setQCoalesce ec x s = some (true, t)) : c.Agree t := by
  obtain ⟨-, ok, -⟩ | ⟨-, -, ⟨-, rfl⟩ | ⟨busy, -, rfl⟩⟩ := setQCoalesce_cases run
  · cases ok
  · exact agree
  · intro sd v inside
    unfold CoalState.store
    dsimp only
    by_cases own : x.2 < c.numQVectors
    · rw [Nat.mod_eq_of_lt own]
      unfold setAt
      rw [agree sd v inside]
    · have settled := lands.resolve_left own
      unfold settledAt at settled
      dsimp only at settled
      rw [busy, Bool.false_or, decide_eq_true_eq] at settled
      rw [setAt_eq_self settled, setAt_of_ne _ _ fun here => own (here.2.symm.trans_lt inside)]
      exact agree sd v inside

/-! The queues of a request. -/

theorem allVisits_sorted (c : CoalVport) :
    c.allVisits.Pairwise fun x y => x.1 = y.1 → x.2 < y.2 := by
  have side (sd : ItrSide) (m : Nat) : ((List.range m).map (sd, ·)).Pairwise fun x y =>
      x.1 = y.1 → x.2 < y.2 := by
    refine List.pairwise_map.mpr (List.Pairwise.imp ?_ List.pairwise_lt_range)
    exact fun less _ => less
  refine List.pairwise_append.mpr ⟨side .tx _, side .rx _, ?_⟩
  intro x tx y rx same
  obtain ⟨k, -, rfl⟩ := List.mem_map.mp tx
  obtain ⟨l, -, rfl⟩ := List.mem_map.mp rx
  cases same

theorem allVisits_below {r : Nat} (member : x ∈ c.allVisits) (less : r < x.2) :
    (x.1, r) ∈ c.allVisits := by
  rcases List.mem_append.mp member with tx | rx
  · obtain ⟨k, inside, rfl⟩ := List.mem_map.mp tx
    exact List.mem_append_left _ (List.mem_map.mpr
      ⟨r, List.mem_range.mpr (less.trans (List.mem_range.mp inside)), rfl⟩)
  · obtain ⟨k, inside, rfl⟩ := List.mem_map.mp rx
    exact List.mem_append_right _ (List.mem_map.mpr
      ⟨r, List.mem_range.mpr (less.trans (List.mem_range.mp inside)), rfl⟩)

theorem earlier_visit {done rest : List (ItrSide × Nat)} {r : Nat}
    (whole : c.allVisits = done ++ x :: rest) (less : r < x.2) : (x.1, r) ∈ done := by
  have member := allVisits_below (c := c) (x := x) (by rw [whole]; simp) less
  have sorted := c.allVisits_sorted
  rw [whole] at member sorted
  rcases List.mem_append.mp member with before | after
  · exact before
  · have ordered := (List.pairwise_append.mp sorted).2.1
    rcases List.mem_cons.mp after with same | later
    · exact absurd (congrArg Prod.snd same) less.ne
    · exact absurd (List.rel_of_pairwise_cons ordered later rfl) less.not_gt

theorem perQVisits_snd {q : Nat} (member : x ∈ c.perQVisits q) : x.2 = q := by
  rcases List.mem_append.mp member with tx | rx
  · split at tx
    · rw [List.mem_singleton.mp tx]
    · exact absurd tx List.not_mem_nil
  · split at rx
    · rw [List.mem_singleton.mp rx]
    · exact absurd rx List.not_mem_nil

/-! What requests keep. -/

theorem allVisits_agree (agree : c.Agree s)
    (run : attempts (c.setQCoalesce ec) c.allVisits s = some (true, t)) : c.Agree t := by
  have reached := attempts_invariant
    (J := fun done s => c.Agree s ∧ ∀ y ∈ done, c.settledAt ec s y = true)
    ⟨agree, fun _ member => absurd member List.not_mem_nil⟩ ?_ run
  · exact reached.1
  · rintro done x rest s t whole ⟨agree, settled⟩ visit
    refine ⟨agree_visit agree ?_ visit, fun y member => ?_⟩
    · rcases Nat.lt_or_ge x.2 c.numQVectors with own | shared
      · exact .inl own
      · have before := settled _ (earlier_visit whole
          ((Nat.mod_lt x.2 c.vectors).trans_le shared))
        unfold settledAt at before
        rw [Nat.mod_mod] at before
        exact .inr before
    · rcases List.mem_append.mp member with before | here
      · exact settled_later (settled y before) visit
      · rw [List.mem_singleton.mp here]
        exact settled_self visit

theorem perQVisits_agree {q : Nat} (agree : c.Agree s)
    (lands : q < c.numQVectors ∨ ∀ y ∈ c.perQVisits q, c.settledAt ec s y = true)
    (run : attempts (c.setQCoalesce ec) (c.perQVisits q) s = some (true, t)) : c.Agree t := by
  have reached := attempts_invariant
    (J := fun _ s => c.Agree s ∧
      (q < c.numQVectors ∨ ∀ y ∈ c.perQVisits q, c.settledAt ec s y = true))
    ⟨agree, lands⟩ ?_ run
  · exact reached.1
  · rintro done x rest s t whole ⟨agree, lands⟩ visit
    have member : x ∈ c.perQVisits q := by
      rw [whole]
      simp
    refine ⟨agree_visit agree ?_ visit, lands.imp_right fun settled y there =>
      settled_later (settled y there) visit⟩
    exact lands.imp (fun own => (perQVisits_snd member).trans_lt own) fun settled =>
      settled x member

theorem attempts_valid {as : List (ItrSide × Nat)} (valid : s.Valid)
    (run : attempts (c.setQCoalesce ec) as s = some (true, t)) : t.Valid :=
  attempts_invariant (J := fun _ s => s.Valid) valid
    (fun _ _ _ _ _ _ valid visit => (c.setQCoalesce_attempt ec).invariant valid visit) run

theorem attempts_up {as : List (ItrSide × Nat)}
    (run : attempts (c.setQCoalesce ec) as s = some (true, t)) :
    t.up = s.up := by
  refine attempts_invariant (J := fun _ u => u.up = s.up) rfl ?_ run
  intro _ x _ u v _ same visit
  obtain ⟨-, ok, -⟩ | ⟨-, -, ⟨-, rfl⟩ | ⟨-, -, rfl⟩⟩ := setQCoalesce_cases visit
  · cases ok
  · exact same
  · exact same

theorem attempts_down {as : List (ItrSide × Nat)} {ok : Bool} (down : s.up = false)
    (run : attempts (c.setQCoalesce ec) as s = some (ok, t)) : t = s := by
  cases as with
  | nil => exact (Prod.mk.inj (Option.some.inj run)).2.symm
  | cons x as =>
      have fault : c.setQCoalesce ec x s = none := if_neg (by rw [down]; exact Bool.false_ne_true)
      rw [attempts, fault] at run
      cases run

structure Kept (c : CoalVport) (s : CoalState) : Prop where
  valid : s.Valid
  agree : s.up = true → c.Agree s

theorem unchanged {a : CoalEvent} (kept : c.Kept s) (meets : c.meets s a = true)
    (run : c.react s a = some (false, t)) : t = s := by
  have law := c.setQCoalesce_attempt
  cases a with
  | setCoalesce ec =>
      rw [react, setCoalesce] at run
      rw [CoalVport.meets] at meets
      split at run
      · cases run
      · next isUp =>
        split at run
        · exact (Prod.mk.inj (Option.some.inj run)).2.symm
        · next within =>
          rw [Bool.not_eq_true] at isUp within
          rw [isUp, within, Bool.false_or, Bool.false_or] at meets
          exact (law ec).atomic kept.valid meets run
  | setPerQCoalesce q ec =>
      rw [react, setPerQCoalesce] at run
      rw [CoalVport.meets] at meets
      split at run
      · exact (Prod.mk.inj (Option.some.inj run)).2.symm
      · next known =>
        rw [decide_eq_false known, Bool.false_or, Bool.and_eq_true] at meets
        exact (law ec).atomic kept.valid meets.1 run
  | dimWork sd v itr =>
      have ok := (Option.ite_none_right_eq_some.mp run).2
      cases ok
  | stop => cases run
  | «open» profile =>
      have done := Option.some.inj run
      split at done
      · exact (Prod.mk.inj done).2.symm
      · cases done

theorem kept_request {as : List (ItrSide × Nat)} (kept : c.Kept s)
    (agree : c.Agree s → c.Agree t)
    (run : attempts (c.setQCoalesce ec) as s = some (true, t)) : c.Kept t :=
  ⟨attempts_valid kept.valid run, fun up => agree (kept.agree ((attempts_up run).symm.trans up))⟩

/-- A request that meets the condition and is accepted keeps the invariant, and so does all else
that happens. -/
theorem Kept.accepted {a : CoalEvent} (kept : c.Kept s) (meets : c.meets s a = true)
    (run : c.react s a = some (true, t)) : c.Kept t := by
  cases a with
  | setCoalesce ec =>
      rw [react, setCoalesce] at run
      split at run
      · obtain rfl := (Prod.mk.inj (Option.some.inj run)).2
        exact kept
      · split at run
        · cases run
        · exact kept_request kept (fun agree => allVisits_agree agree run) run
  | setPerQCoalesce q ec =>
      rw [react, setPerQCoalesce] at run
      rw [CoalVport.meets] at meets
      split at run
      · cases run
      · next known =>
        rw [decide_eq_false known, Bool.false_or, Bool.and_eq_true] at meets
        have none := (c.setQCoalesce_attempt ec).none_refused meets.1 run
        have lands : q < c.numQVectors ∨ ∀ y ∈ c.perQVisits q, c.settledAt ec s y = true := by
          have cases := meets.2
          rw [Bool.or_eq_true, Bool.or_eq_true, decide_eq_true_eq, List.any_eq_true,
            List.all_eq_true] at cases
          rcases cases with (own | ⟨y, member, refused⟩) | settled
          · exact .inl own
          · exact absurd ((none y member).symm.trans refused) Bool.false_ne_true
          · exact .inr settled
        exact kept_request kept (fun agree => perQVisits_agree agree lands run) run
  | dimWork sd v itr =>
      obtain ⟨-, done⟩ := Option.ite_none_right_eq_some.mp run
      obtain rfl := (Prod.mk.inj (Option.some.inj done)).2
      exact ⟨kept.valid, kept.agree⟩
  | stop =>
      obtain rfl := (Prod.mk.inj (Option.some.inj run)).2
      split
      · exact ⟨fun sd k => ⟨(kept.valid sd k).1, rfl, Nat.zero_le _⟩,
          fun up => absurd up Bool.false_ne_true⟩
      · exact kept
  | «open» profile =>
      have done := Option.some.inj run
      split at done
      · cases done
      · obtain rfl := (Prod.mk.inj done).2
        exact ⟨fun sd k => ⟨(kept.valid sd k).1, (kept.valid sd k).1⟩, fun _ _ _ _ => rfl⟩

theorem Kept.step {a : CoalEvent} (kept : c.Kept s) (meets : c.meets s a = true)
    (run : c.step s a = some t) : c.Kept t := by
  obtain ⟨⟨ok, u⟩, reply, rfl⟩ := Option.map_eq_some_iff.mp run
  cases ok with
  | true => exact kept.accepted meets reply
  | false =>
      obtain rfl := unchanged kept meets reply
      exact kept

theorem step_down {a : CoalEvent} (down : s.up = false) (other : ∀ p, a ≠ .open p)
    (run : c.step s a = some t) : t = s := by
  obtain ⟨⟨ok, u⟩, reply, rfl⟩ := Option.map_eq_some_iff.mp run
  cases a with
  | setCoalesce ec =>
      rw [react, setCoalesce, down] at reply
      exact (Prod.mk.inj (Option.some.inj reply)).2.symm
  | setPerQCoalesce q ec =>
      rw [react, setPerQCoalesce] at reply
      split at reply
      · exact (Prod.mk.inj (Option.some.inj reply)).2.symm
      · exact attempts_down down reply
  | dimWork sd v itr =>
      have up := (Option.ite_none_right_eq_some.mp reply).1.1
      exact absurd (down.symm.trans up) Bool.false_ne_true
  | stop =>
      rw [react, down] at reply
      exact (Prod.mk.inj (Option.some.inj reply)).2.symm
  | «open» profile => exact absurd rfl (other profile)

theorem exec_down {down : List CoalEvent} {profile : ItrSide → Nat → Nat} (isDown : s.up = false)
    (others : ∀ a ∈ down, ∀ p, a ≠ .open p)
    (run : exec c.step s (down ++ [.open profile]) = some t) : t = c.openVport profile s := by
  induction down with
  | nil =>
      obtain ⟨u, first, rest⟩ := Option.bind_eq_some_iff.mp run
      obtain rfl := Option.some.inj rest
      rw [CoalVport.step, react, isDown] at first
      exact (Option.some.inj first).symm
  | cons a down ih =>
      obtain ⟨u, first, rest⟩ := Option.bind_eq_some_iff.mp run
      obtain ⟨other, others⟩ := List.forall_mem_cons.mp others
      obtain rfl := step_down isDown other first
      exact ih others rest

theorem Kept.persistent (kept : c.Kept s) : c.Persistent s where
  reopened up down profile t others run sd v inside := by
    obtain ⟨u, first, rest⟩ := Option.bind_eq_some_iff.mp run
    have stopped : s.stopVport = u := by
      rw [CoalVport.step, react, up] at first
      exact Option.some.inj first
    obtain rfl := exec_down (by rw [← stopped]; rfl) others rest
    rw [← stopped]
    exact kept.agree up sd v inside
  unchanged _ _ := unchanged kept

end CoalVport

/-- In every run from an opening, with requests of which each meets the condition: a vport that is
opened again has the settings it had, and a request that is refused changes nothing. -/
theorem coalesce_persists (c : CoalVport) {s : CoalState}
    (run : Reachable c.step (fun s a => c.meets s a = true) CoalState.JustOpened s) :
    c.Persistent s := by
  refine CoalVport.Kept.persistent (run.invariant ?_ fun _ _ _ kept meets step =>
    kept.step meets step)
  exact fun s opened => ⟨opened.valid, fun _ _ _ _ => by rw [opened.vec]⟩

def fourQueues : CoalVport where
  rsrc := { QVecRsrc.zero true true with
    numTxq := 4, numRxq := 4, numComplq := 4, numBufq := 8, numBufqsPerQgrp := 2
    numTxqGrp := 4, numRxqGrp := 4 }
  laid := rfl
  numQVectors := 2
  vectors := by decide
  xdp := false
  maxTxq := 4
  maxRxq := 4

/-- A new vport after its first opening: both sides of all vectors are adaptive. -/
def CoalState.initial : CoalState where
  up := true
  slot := fun _ _ => ⟨50, true⟩
  vec := fun _ _ => ⟨50, true⟩
  reg := fun _ _ => 1

theorem CoalState.initial_justOpened : CoalState.initial.JustOpened :=
  have preset : ItrSetting.Valid ⟨50, true⟩ := ⟨rfl, by decide⟩
  ⟨rfl, fun _ _ => ⟨preset, preset⟩, rfl⟩

def EthtoolCoalesce.static (tx rx : Nat) : EthtoolCoalesce where
  usecs sd := if sd = .tx then tx else rx
  adaptive _ := false

/-- A global request, then one for a queue with the number of its vector and one for another queue
of that vector that asks for the same; the vport is stopped and opened. -/
theorem coalesce_persists_four :
    ∃ s, execIf fourQueues.step fourQueues.meets .initial [.setCoalesce (.static 100 60),
        .setPerQCoalesce 1 (.static 20 20), .setPerQCoalesce 3 (.static 20 20), .stop,
        .open fun _ _ => 2] = some s ∧ fourQueues.Persistent s := by
  obtain ⟨s, run⟩ := Option.isSome_iff_exists.mp (show (execIf fourQueues.step fourQueues.meets
    .initial [.setCoalesce (.static 100 60), .setPerQCoalesce 1 (.static 20 20),
      .setPerQCoalesce 3 (.static 20 20), .stop, .open fun _ _ => 2]).isSome = true by
    decide +kernel)
  exact ⟨s, run, coalesce_persists fourQueues
    (Reachable.execIf (.start CoalState.initial_justOpened) run)⟩

/-- A request for queue 2 reaches vector 0 and slot 2, so that the next opening gives vector 0 what
it had before. A global request for which the Rx value is too large has changed the Tx side. -/
theorem perQCoalesce_lost :
    (∃ s t, fourQueues.react .initial (.setPerQCoalesce 2 (.static 100 100)) = some (true, s) ∧
      s.vec .tx 0 = ⟨100, false⟩ ∧
      exec fourQueues.step s [.stop, .open fun _ _ => 2] = some t ∧ t.vec .tx 0 = ⟨50, true⟩) ∧
    ∃ t, fourQueues.react .initial (.setCoalesce (.static 100 10000)) = some (false, t) ∧
      t.vec .tx 0 = ⟨100, false⟩ ∧ t.slot .tx 0 = ⟨100, false⟩ ∧
      CoalState.initial.vec .tx 0 = ⟨50, true⟩ :=
  ⟨⟨_, _, rfl, rfl, rfl, rfl⟩, _, rfl, rfl, rfl, rfl⟩

end Idpf
