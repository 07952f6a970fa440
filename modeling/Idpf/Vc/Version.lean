import Mathlib.Tactic.Common
import Mathlib.Data.List.Basic

/-! The state machine of `idpf_vc_core_init` up to the capabilities: version messages are exchanged
until the driver takes one of the replies for an agreement. -/
namespace Idpf

/-- `struct virtchnl2_version_info`. -/
structure Version where
  major : Nat
  minor : Nat
  deriving DecidableEq, Repr

/-- `IDPF_VIRTCHNL_VERSION_MAJOR` and `IDPF_VIRTCHNL_VERSION_MINOR`. -/
def driverVersion : Version := ⟨2, 0⟩

def Version.supported (v : Version) : Bool :=
  decide (v.major < driverVersion.major) ||
    v.major == driverVersion.major && decide (v.minor ≤ driverVersion.minor)

/-- An error of `idpf_vc_xn_exec`, none of which is `-EAGAIN`. -/
structure VcErr where
  code : Int
  negative : code < 0
  final : code ≠ -11

/-- What `idpf_vc_xn_exec` gives for a version message: an error, or the size of the reply and what
its first eight bytes say. -/
inductive VerReply where
  | failed (err : VcErr)
  | reply (size : Nat) (v : Version)

/-- A reply that ends the exchange: an error, too short, or of a later major version. -/
def VerReply.refused : VerReply → Bool
  | .failed _ => true
  | .reply size v => decide (size < 8) || decide (driverVersion.major < v.major)

/-- A whole reply of version `v`. -/
def VerReply.gives (v : Version) : VerReply → Bool
  | .failed _ => false
  | .reply size w => decide (8 ≤ size) && w == v

inductive VcState where
  | verCheck
  | getCaps
  | initSw
  | last
  deriving DecidableEq, Repr

/-- The part of `struct idpf_adapter` that the state machine works on, with the version messages
sent and the number of requests for capabilities. -/
structure VerAdapter where
  state : VcState
  ver : Version
  mbWaitCount : Nat
  removing : Bool
  sent : List Version
  capsAsked : Nat

namespace VerAdapter

/-- The version that the next message has: the one remembered, if there is one. -/
def offer (a : VerAdapter) : Version := if a.ver.major ≠ 0 then a.ver else driverVersion

/-- `idpf_send_ver_msg`. -/
def sendVerMsg (a : VerAdapter) (r : VerReply) : VerAdapter × Int :=
  let b := { a with sent := a.sent ++ [a.offer] }
  match r with
  | .failed err => (b, err.code)
  | .reply size v =>
    if size < 8 then (b, -5)
    else if driverVersion.major < v.major then (b, -22)
    else
      ({ b with ver := v },
        if a.ver.major = 0 ∧ v.major ≠ driverVersion.major ∧ v.minor ≠ driverVersion.minor then -11
        else 0)

/-- The label `init_failed` of `idpf_vc_core_init`, with `IDPF_MB_MAX_ERR`. -/
def initFailed (a : VerAdapter) (err : Int) : VerAdapter × Int :=
  if a.removing then (a, err)
  else
    let a := { a with mbWaitCount := a.mbWaitCount + 1 }
    if 20 < a.mbWaitCount then (a, -14) else ({ a with state := .verCheck }, -11)

end VerAdapter

/-- The loop of `idpf_vc_core_init`: `replies` are those to the version messages in turn and `caps`
is what `idpf_send_get_caps_msg` returns. -/
def coreTurns (replies : Nat → VerReply) (caps : Int) : Nat → VerAdapter → Option (VerAdapter × Int)
  | 0, _ => none
  | fuel + 1, a =>
    match a.state with
    | .initSw => some (a, 0)
    | .verCheck =>
      let r := a.sendVerMsg (replies a.sent.length)
      if r.2 = 0 then coreTurns replies caps fuel { r.1 with state := .getCaps }
      else if r.2 = -11 then coreTurns replies caps fuel r.1
      else some (r.1.initFailed r.2)
    | .getCaps =>
      let a := { a with capsAsked := a.capsAsked + 1 }
      if caps ≠ 0 then some (a.initFailed caps) else some ({ a with state := .initSw }, 0)
    | .last => some (a.initFailed (-22))

/-- The adapter when `idpf_vc_core_init` is called, with a version remembered or none. -/
def coreStart (ver : Version) (mbWaitCount : Nat) (removing : Bool) : VerAdapter :=
  ⟨.verCheck, ver, mbWaitCount, removing, [], 0⟩

/-- A message and at most one more have been sent, capabilities have been asked for only under the
version sent last, which is recorded and supported, and any other end is an error. -/
structure Negotiated (r : VerAdapter × Int) : Prop where
  few : r.1.sent.length ≤ 2
  agreed : 0 < r.1.capsAsked → r.1.sent.getLast? = some r.1.ver ∧ r.1.ver.supported = true
  otherwise : r.1.capsAsked = 0 → r.2 < 0

def Agrees (replies : Nat → VerReply) (caps : Int) (a : VerAdapter) : Prop :=
  ∃ fuel r, coreTurns replies caps fuel a = some r ∧ Negotiated r

/-- The replies under which it does. With a version remembered, the first reply is refused or
repeats that version, which is supported. Without one it is refused or says the version of the driver; or it
says another version of major 1 or 0 whose minor is not 0, and the second is refused or repeats what
the second message has said. -/
def versionsOk (ver : Version) (replies : Nat → VerReply) : Bool :=
  (replies 0).refused ||
    if ver.major ≠ 0 then (replies 0).gives ver && ver.supported
    else (replies 0).gives driverVersion ||
      match replies 0 with
      | .failed _ => true
      | .reply _ v =>
        v.major != driverVersion.major && v.minor != 0 &&
          ((replies 1).refused || (replies 1).gives (if v.major = 0 then driverVersion else v))

theorem VerReply.taken_spec {size : Nat} {v : Version} (whole : 8 ≤ size)
    (major : v.major ≤ driverVersion.major) : (VerReply.reply size v).refused = false ∧
      ∀ w, (VerReply.reply size v).gives w = true ↔ v = w := by
  constructor
  · rw [VerReply.refused, decide_eq_false (Nat.not_lt.mpr whole),
      decide_eq_false (Nat.not_lt.mpr major)]
    rfl
  · intro w
    rw [VerReply.gives, decide_eq_true whole, Bool.true_and, beq_iff_eq]

namespace VerAdapter

/-- A refused reply leaves what is remembered; any other is recorded, and asked about once more if
nothing was remembered and both of its fields differ. -/
theorem sendVerMsg_cases (a : VerAdapter) (r : VerReply) :
    (r.refused = true ∧ ∃ err : Int, err < 0 ∧ err ≠ -11 ∧
      a.sendVerMsg r = ({ a with sent := a.sent ++ [a.offer] }, err)) ∨
    ∃ size v, r = .reply size v ∧ 8 ≤ size ∧ v.major ≤ driverVersion.major ∧
      a.sendVerMsg r = ({ a with sent := a.sent ++ [a.offer], ver := v },
        if a.ver.major = 0 ∧ v.major ≠ driverVersion.major ∧ v.minor ≠ driverVersion.minor then -11
        else 0) := by
  cases r with
  | failed err => exact .inl ⟨rfl, err.code, err.negative, err.final, rfl⟩
  | reply size v =>
      unfold sendVerMsg VerReply.refused
      dsimp only
      by_cases short : size < 8
      · rw [if_pos short]
        exact .inl ⟨by simp [short], -5, by decide, by decide, rfl⟩
      · rw [if_neg short]
        by_cases later : driverVersion.major < v.major
        · rw [if_pos later]
          exact .inl ⟨by simp [later], -22, by decide, by decide, rfl⟩
        · rw [if_neg later]
          exact .inr ⟨size, v, rfl, Nat.le_of_not_lt short, Nat.le_of_not_lt later, rfl⟩

theorem initFailed_fst (a : VerAdapter) (err : Int) : (a.initFailed err).1.sent = a.sent ∧
    (a.initFailed err).1.ver = a.ver ∧ (a.initFailed err).1.capsAsked = a.capsAsked := by
  unfold initFailed
  dsimp only
  split
  · exact ⟨rfl, rfl, rfl⟩
  · split <;> exact ⟨rfl, rfl, rfl⟩

theorem initFailed_snd (a : VerAdapter) {err : Int} (bad : err < 0) : (a.initFailed err).2 < 0 := by
  unfold initFailed
  dsimp only
  split
  · exact bad
  · split
    · exact (by decide : (-14 : Int) < 0)
    · exact (by decide : (-11 : Int) < 0)

end VerAdapter

section Turns

variable {replies : Nat → VerReply} {caps : Int} {a : VerAdapter}

theorem Agrees.next {b : VerAdapter} (h : ∀ fuel, coreTurns replies caps (fuel + 1) a =
    coreTurns replies caps fuel b) : Agrees replies caps a ↔ Agrees replies caps b := by
  constructor
  · rintro ⟨fuel, r, done, good⟩
    cases fuel with
    | zero => exact absurd done nofun
    | succ fuel => exact ⟨fuel, r, (h fuel).symm.trans done, good⟩
  · rintro ⟨fuel, r, done, good⟩
    exact ⟨fuel + 1, r, (h fuel).trans done, good⟩

theorem Agrees.done {r : VerAdapter × Int}
    (h : ∀ fuel, coreTurns replies caps (fuel + 1) a = some r) :
    Agrees replies caps a ↔ Negotiated r := by
  constructor
  · rintro ⟨fuel, r', done, good⟩
    cases fuel with
    | zero => exact absurd done nofun
    | succ fuel =>
        obtain rfl := Option.some.inj ((h fuel).symm.trans done)
        exact good
  · intro good
    exact ⟨1, r, h 0, good⟩

variable (replies caps) in
theorem coreTurns_caps (asked : a.state = .getCaps) : ∃ r : VerAdapter × Int,
    r.1.sent = a.sent ∧ r.1.ver = a.ver ∧ r.1.capsAsked = a.capsAsked + 1 ∧
      ∀ fuel, coreTurns replies caps (fuel + 1) a = some r := by
  by_cases good : caps ≠ 0
  · obtain ⟨sent, ver, count⟩ :=
      VerAdapter.initFailed_fst { a with capsAsked := a.capsAsked + 1 } caps
    refine ⟨_, sent, ver, count, fun fuel => ?_⟩
    rw [coreTurns, asked]
    dsimp only
    rw [if_pos good]
  · refine ⟨({ a with capsAsked := a.capsAsked + 1, state := .initSw }, 0), rfl, rfl, rfl,
      fun fuel => ?_⟩
    rw [coreTurns, asked]
    dsimp only
    rw [if_neg good]

variable (caps) in
/-- A refused reply ends the loop with an error. -/
theorem coreTurns_refused (check : a.state = .verCheck)
    (refused : (replies a.sent.length).refused = true) : ∃ r : VerAdapter × Int,
    r.1.sent = a.sent ++ [a.offer] ∧ r.1.capsAsked = a.capsAsked ∧ r.2 < 0 ∧
      ∀ fuel, coreTurns replies caps (fuel + 1) a = some r := by
  rcases a.sendVerMsg_cases (replies a.sent.length) with
    ⟨-, err, negative, final, eq⟩ | ⟨size, v, reply, whole, major, -⟩
  · obtain ⟨sent, -, count⟩ :=
      VerAdapter.initFailed_fst { a with sent := a.sent ++ [a.offer] } err
    refine ⟨_, sent, count, VerAdapter.initFailed_snd _ negative, fun fuel => ?_⟩
    rw [coreTurns, check]
    dsimp only
    rw [eq]
    dsimp only
    rw [if_neg (Int.ne_of_lt negative), if_neg final, check]
  · rw [reply, (VerReply.taken_spec whole major).1] at refused
    exact absurd refused Bool.false_ne_true

/-- Any other reply moves on to the capabilities, or to another message. -/
theorem coreTurns_replied (check : a.state = .verCheck) {size : Nat} {v : Version}
    (reply : replies a.sent.length = .reply size v) (whole : 8 ≤ size)
    (major : v.major ≤ driverVersion.major) (fuel : Nat) :
    coreTurns replies caps (fuel + 1) a = coreTurns replies caps fuel
      { a with
        sent := a.sent ++ [a.offer]
        ver := v
        state := if a.ver.major = 0 ∧ v.major ≠ driverVersion.major ∧
          v.minor ≠ driverVersion.minor then .verCheck else .getCaps } := by
  have eq : a.sendVerMsg (replies a.sent.length) =
      ({ a with sent := a.sent ++ [a.offer], ver := v },
        if a.ver.major = 0 ∧ v.major ≠ driverVersion.major ∧ v.minor ≠ driverVersion.minor then -11
        else 0) := by
    rw [reply]
    unfold VerAdapter.sendVerMsg
    dsimp only
    rw [if_neg (Nat.not_lt.mpr whole), if_neg (Nat.not_lt.mpr major)]
  rw [coreTurns, check]
  dsimp only
  rw [eq]
  dsimp only
  split
  · next again =>
      rw [if_neg (by decide : (-11 : Int) ≠ 0), if_pos rfl, check]
  · rw [if_pos rfl]

theorem coreTurns_sent {fuel : Nat} {r : VerAdapter × Int} (check : a.state = .verCheck)
    (done : coreTurns replies caps fuel a = some r) : a.sent.length < r.1.sent.length := by
  induction fuel generalizing a with
  | zero => exact absurd done nofun
  | succ fuel ih =>
      cases refused : (replies a.sent.length).refused with
      | true =>
          obtain ⟨r', sent, -, -, result⟩ := coreTurns_refused caps check refused
          obtain rfl := Option.some.inj ((result fuel).symm.trans done)
          rw [sent, List.length_append]
          exact Nat.lt_succ_self _
      | false =>
          rcases a.sendVerMsg_cases (replies a.sent.length) with
            ⟨bad, -⟩ | ⟨size, v, reply, whole, major, -⟩
          · exact absurd (refused.symm.trans bad) nofun
          · rw [coreTurns_replied check reply whole major] at done
            split at done
            · have later := ih rfl done
              rw [List.length_append] at later
              exact Nat.lt_of_succ_lt later
            · cases fuel with
              | zero => exact absurd done nofun
              | succ fuel =>
                  obtain ⟨r', sent, -, -, result⟩ := coreTurns_caps replies
                    caps (a := { a with
                      sent := a.sent ++ [a.offer], ver := v, state := .getCaps }) rfl
                  obtain rfl := Option.some.inj ((result fuel).symm.trans done)
                  rw [sent, List.length_append]
                  exact Nat.lt_succ_self _

end Turns

section Ends

variable {replies : Nat → VerReply} {caps : Int} {a : VerAdapter}

theorem agrees_refused (check : a.state = .verCheck) (fresh : a.capsAsked = 0)
    (refused : (replies a.sent.length).refused = true) :
    Agrees replies caps a ↔ a.sent.length < 2 := by
  obtain ⟨r, sent, count, negative, result⟩ := coreTurns_refused caps check refused
  rw [Agrees.done result]
  have length : r.1.sent.length = a.sent.length + 1 := by
    rw [sent, List.length_append]
    rfl
  constructor
  · intro good
    have few := good.few
    omega
  · intro few
    refine ⟨by omega, fun some => ?_, fun _ => negative⟩
    rw [count, fresh] at some
    exact absurd some (Nat.lt_irrefl 0)

/-- A reply that is taken for an agreement has to be one. -/
theorem agrees_taken (check : a.state = .verCheck) {size : Nat} {v : Version}
    (reply : replies a.sent.length = .reply size v) (whole : 8 ≤ size)
    (major : v.major ≤ driverVersion.major)
    (once : ¬ (a.ver.major = 0 ∧ v.major ≠ driverVersion.major ∧
      v.minor ≠ driverVersion.minor)) :
    Agrees replies caps a ↔ a.sent.length < 2 ∧ v = a.offer ∧ v.supported = true := by
  rw [Agrees.next (coreTurns_replied check reply whole major), if_neg once]
  obtain ⟨r, sent, ver, count, result⟩ := coreTurns_caps replies caps
    (a := { a with sent := a.sent ++ [a.offer], ver := v, state := .getCaps }) rfl
  rw [Agrees.done result]
  have length : r.1.sent.length = a.sent.length + 1 := by
    rw [sent, List.length_append]
    rfl
  have last : r.1.sent.getLast? = some a.offer := by
    rw [sent]
    exact List.getLast?_concat
  have asked : 0 < r.1.capsAsked := by
    rw [count]
    exact Nat.succ_pos _
  constructor
  · intro good
    obtain ⟨same, supported⟩ := good.agreed asked
    have few := good.few
    rw [last, ver] at same
    rw [ver] at supported
    exact ⟨by omega, (Option.some.inj same).symm, supported⟩
  · rintro ⟨few, same, supported⟩
    refine ⟨by omega, fun _ => ?_, fun none => ?_⟩
    · rw [last, ver]
      exact ⟨congrArg some same.symm, supported⟩
    · omega

variable (caps) in
/-- A reply that is asked about once more. -/
theorem agrees_again (check : a.state = .verCheck) {size : Nat} {v : Version}
    (reply : replies a.sent.length = .reply size v) (whole : 8 ≤ size)
    (major : v.major ≤ driverVersion.major)
    (again : a.ver.major = 0 ∧ v.major ≠ driverVersion.major ∧ v.minor ≠ driverVersion.minor) :
    ∃ b : VerAdapter, b.state = .verCheck ∧ b.capsAsked = a.capsAsked ∧
      b.sent = a.sent ++ [a.offer] ∧ b.ver = v ∧
      (Agrees replies caps a ↔ Agrees replies caps b) := by
  refine ⟨{ a with sent := a.sent ++ [a.offer], ver := v }, check, rfl, rfl, rfl, ?_⟩
  rw [Agrees.next (coreTurns_replied check reply whole major), if_pos again, ← check]

theorem not_agrees_twice (check : a.state = .verCheck) (two : 2 ≤ a.sent.length) :
    ¬ Agrees replies caps a := by
  rintro ⟨fuel, r, done, good⟩
  have more := coreTurns_sent check done
  have few := good.few
  omega

theorem agrees_second (check : a.state = .verCheck) (fresh : a.capsAsked = 0)
    (one : a.sent.length = 1) : Agrees replies caps a ↔
      (replies 1).refused = true ∨ (replies 1).gives a.offer = true ∧ a.offer.supported = true := by
  rw [← one]
  rcases a.sendVerMsg_cases (replies a.sent.length) with
    ⟨refused, -⟩ | ⟨size, v, reply, whole, major, -⟩
  · rw [agrees_refused check fresh refused]
    exact ⟨fun _ => .inl refused, fun _ => by omega⟩
  · obtain ⟨taken, gives⟩ := VerReply.taken_spec whole major
    rw [← reply] at taken gives
    rw [taken, gives]
    by_cases again : a.ver.major = 0 ∧ v.major ≠ driverVersion.major ∧
        v.minor ≠ driverVersion.minor
    · obtain ⟨b, check', -, sent, -, same⟩ :=
        agrees_again caps check reply whole major again
      rw [same]
      have two : 2 ≤ b.sent.length := by
        rw [sent, List.length_append, one]
        exact Nat.le_refl 2
      constructor
      · intro agrees
        exact absurd agrees (not_agrees_twice check' two)
      · rintro (none | ⟨same, -⟩)
        · exact absurd none nofun
        · -- nothing is remembered, so the message had the version of the driver
          have offered : a.offer = driverVersion := if_neg (not_not_intro again.1)
          exact absurd (congrArg Version.major (same.trans offered)) again.2.1
    · rw [agrees_taken check reply whole major again, one]
      constructor
      · rintro ⟨-, same, supported⟩
        exact .inr ⟨same, same ▸ supported⟩
      · rintro (none | ⟨same, supported⟩)
        · exact absurd none nofun
        · exact ⟨Nat.lt_succ_self 1, same, same ▸ supported⟩

end Ends

theorem Version.supported_second {v : Version} (major : v.major ≤ driverVersion.major)
    (other : v.major ≠ driverVersion.major) :
    (if v.major = 0 then driverVersion else v).supported = true := by
  split
  · rfl
  · rw [Version.supported, Bool.or_eq_true, decide_eq_true_eq]
    exact .inl (Nat.lt_of_le_of_ne major other)

/-- Version negotiation ends in agreement under exactly the replies of `versionsOk`. -/
theorem version_agreement_iff (replies : Nat → VerReply) (caps : Int) (ver : Version)
    (mbWaitCount : Nat) (removing : Bool) :
    Agrees replies caps (coreStart ver mbWaitCount removing) ↔ versionsOk ver replies = true := by
  rcases (coreStart ver mbWaitCount removing).sendVerMsg_cases (replies 0) with
    ⟨refused, -⟩ | ⟨size, v, reply, whole, major, -⟩
  · rw [agrees_refused rfl rfl refused, versionsOk, refused, Bool.true_or]
    exact ⟨fun _ => rfl, fun _ => Nat.succ_pos 1⟩
  · obtain ⟨taken, gives⟩ := VerReply.taken_spec whole major
    rw [← reply] at taken gives
    rw [versionsOk, taken, Bool.false_or]
    by_cases remembered : ver.major ≠ 0
    · have offered : (coreStart ver mbWaitCount removing).offer = ver := if_pos remembered
      rw [if_pos remembered, Bool.and_eq_true, gives,
        agrees_taken rfl reply whole major (fun again => remembered again.1), offered]
      constructor
      · rintro ⟨-, rfl, supported⟩
        exact ⟨rfl, supported⟩
      · rintro ⟨rfl, supported⟩
        exact ⟨Nat.succ_pos 1, rfl, supported⟩
    · have offered : (coreStart ver mbWaitCount removing).offer = driverVersion :=
        if_neg remembered
      rw [if_neg remembered, Bool.or_eq_true, gives]
      by_cases again : v.major ≠ driverVersion.major ∧ v.minor ≠ driverVersion.minor
      · obtain ⟨b, check, fresh, sent, recorded, same⟩ :=
          agrees_again caps (a := coreStart ver mbWaitCount removing) rfl reply whole
            major ⟨not_not.mp remembered, again⟩
        have second : b.offer = if v.major = 0 then driverVersion else v :=
          recorded ▸ ite_not _ _ _
        have one : b.sent.length = 1 := by
          rw [sent]
          rfl
        have unlike : v ≠ driverVersion := fun same => again.1 (congrArg Version.major same)
        rw [same, agrees_second check fresh one, second, Version.supported_second major again.1,
          reply]
        have minor : v.minor ≠ 0 := again.2
        simp [unlike, again.1, minor]
      · rw [agrees_taken rfl reply whole major (fun both => again both.2), offered, reply]
        constructor
        · rintro ⟨-, same, -⟩
          exact .inl same
        · rintro (same | other)
          · exact ⟨Nat.succ_pos 1, same, same ▸ rfl⟩
          · dsimp only at other
            rw [Bool.and_eq_true, Bool.and_eq_true, bne_iff_ne, bne_iff_ne] at other
            exact absurd other.1 again

/-- Replies of major version 0 leave nothing remembered: answered so each time, the loop never ends,
and the driver sends its own version over and over. -/
theorem coreTurns_endless {replies : Nat → VerReply} {caps : Int} {a : VerAdapter}
    (check : a.state = .verCheck) (none : a.ver.major = 0)
    (zero : ∀ n, ∃ minor, 0 < minor ∧ replies n = .reply 8 ⟨0, minor⟩) (fuel : Nat) :
    coreTurns replies caps fuel a = Option.none := by
  induction fuel generalizing a with
  | zero => rfl
  | succ fuel ih =>
      obtain ⟨minor, some, reply⟩ := zero a.sent.length
      have again : a.ver.major = 0 ∧ (0 : Nat) ≠ driverVersion.major ∧
          minor ≠ driverVersion.minor := ⟨none, by decide, Nat.ne_of_gt some⟩
      rw [coreTurns_replied check reply (Nat.le_refl 8) (Nat.zero_le _), if_pos again]
      exact ih rfl rfl

/-- Three ways to miss agreement on the first message: replies of version 0.1 for ever, a reply of
2.5 taken as it is, and a reply other than the version remembered. -/
theorem version_agreement_missed :
    (∀ fuel, coreTurns (fun _ => .reply 8 ⟨0, 1⟩) 0 fuel (coreStart ⟨0, 0⟩ 0 false) = none) ∧
      ¬ Agrees (fun _ => .reply 8 ⟨2, 5⟩) 0 (coreStart ⟨0, 0⟩ 0 false) ∧
      ¬ Agrees (fun _ => .reply 8 ⟨1, 0⟩) 0 (coreStart ⟨2, 0⟩ 0 false) := by
  refine ⟨coreTurns_endless rfl rfl fun _ => ⟨1, Nat.one_pos, rfl⟩, ?_, ?_⟩
  · rw [agrees_taken rfl rfl (by decide) (by decide) (by decide)]
    decide
  · rw [agrees_taken rfl rfl (by decide) (by decide) (by decide)]
    decide

end Idpf
