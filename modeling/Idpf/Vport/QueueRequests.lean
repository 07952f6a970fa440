import Idpf.Vport.MaxQueues

/-! How many queues the driver asks the device for, through channel changes, XDP programs and hard
resets, and the arrays that were sized by what a vport was granted. -/
namespace Idpf
open General

/-- A config as `idpf_vport_alloc` makes it, with a table of coalesce settings for `n` queues. -/
def UserConfig.fresh (n : Nat) : UserConfig where
  rssKeySize := 0
  rssKey := none
  rssLutSize := 0
  rssLut := none
  qCoalesce := List.replicate n ⟨1, 1, 50, 50⟩
  numReqTxQs := 0
  numReqRxQs := 0
  numReqTxqDesc := 0
  numReqRxqDesc := 0
  xdpProg := false
  macFilterList := []
  numFsteerFltrs := 0
  flowSteerList := []

/-- The completion and buffer queues that go with `tx` and `rx` queues. -/
def withTheirs (txSplit rxSplit : Bool) (bufqs tx rx : Nat) : QueueKind → Nat
  | .tx => tx
  | .rx => rx
  | .compl => if txSplit then tx else 0
  | .buf => if rxSplit then rx * bufqs % 65536 else 0

/-- `idpf_vport_calc_total_qs` for a vport that has a config. -/
def UserConfig.totalQs (user : UserConfig) (txSplit rxSplit : Bool) : QueueKind → Nat :=
  if user.xdpProg then
    withTheirs txSplit rxSplit 1 ((user.numReqTxQs + user.numReqRxQs) % 65536) user.numReqRxQs
  else withTheirs txSplit rxSplit 2 user.numReqTxQs user.numReqRxQs

/-- `idpf_vport_calc_total_qs` for one that has none yet. -/
def firstTotalQs (txSplit rxSplit : Bool) (maxQ : QueueKind → Nat) (cpus : Nat) :
    QueueKind → Nat :=
  withTheirs txSplit rxSplit 2 (min (min 16 (maxQ .tx)) cpus) (min (min 16 (maxQ .rx)) cpus)

/-- How many vectors `idpf_req_rel_vector_indexes` gives; a default vport has one set aside. -/
def grantedVecs (dflt : Bool) (avail req : Nat) : Nat :=
  if req = 0 then 0 else if dflt then 1 + min avail (req - 1) else min avail req

/-- A vport: its counts, its vectors, and the length of `q_vector_idxs`. -/
structure QueueVport where
  rsrc : QVecRsrc
  dflt : Bool
  numQVectors : Nat
  vecIdxs : Nat

namespace QueueVport

/-- The transmit queues that are not for XDP. -/
def plainTxq (v : QueueVport) : Nat := v.rsrc.numTxq - v.rsrc.numXdpTxq

/-- `idpf_vport_alloc_vec_indexes`, with `avail` vectors free. -/
def allocVecIndexes (v : QueueVport) (xdp : Bool) (avail : Nat) : QueueVport :=
  let got := grantedVecs v.dflt avail (v.rsrc.numReqVecs xdp)
  if got = 0 then v else { v with numQVectors := got }

/-- `idpf_vport_adjust_qs` -/
def adjustQs (v : QueueVport) (user : UserConfig) : QueueVport :=
  { v with rsrc :=
      (v.rsrc.initNumQs user.xdpProg (user.totalQs v.rsrc.txSplit v.rsrc.rxSplit)).calcNumQGroups }

/-- The counts in ADD_QUEUES. -/
def addQueuesAsk (v : QueueVport) : QueueKind → Nat
  | .tx => v.rsrc.numTxq
  | .compl => v.rsrc.numComplq
  | .rx => v.rsrc.numRxq
  | .buf => v.rsrc.numBufq

/-- The transmit queues in the groups: one in each in the split model. -/
def groupTxq (v : QueueVport) : Nat := if v.rsrc.txSplit then v.rsrc.numTxqGrp else v.rsrc.numTxq

/-- The rows that `idpf_get_ethtool_stats` writes for the transmit queues of a vport that is up:
none for an XDP queue, though it is counted, and empty ones up to the maximum. -/
def txRows (v : QueueVport) (maxQ : QueueKind → Nat) : Nat :=
  (if v.rsrc.numXdpTxq = 0 then v.groupTxq else min v.groupTxq v.plainTxq) +
    (maxQ .tx - v.groupTxq)

/-- The rows for the receive queues; the empty ones start at the number of groups. -/
def rxRows (v : QueueVport) (maxQ : QueueKind → Nat) : Nat :=
  v.rsrc.numRxq + (maxQ .rx - v.rsrc.numRxqGrp)

end QueueVport

/-- A request to the device, with what the vport was granted when it was made. -/
structure QueueAsk where
  granted : QueueKind → Nat
  asked : QueueKind → Nat

/-- A vport slot over its life: the config and the netdev outlive the vport. `asked` are the
requests of the last step. -/
structure QueueUse where
  config : Option UserConfig
  maxQ : QueueKind → Nat
  netdev : Option (Nat × Nat)
  registered : Bool
  vport : Option QueueVport
  asked : List QueueAsk

/-- A reply to CREATE_VPORT. -/
structure CreateReply where
  txSplit : Bool
  rxSplit : Bool
  numQ : QueueKind → Nat

/-- How building a vport ends: no reply, no vport before or after `idpf_vport_init`, or a vport. -/
inductive CreateEnd where
  | msgFailed
  | early (reply : CreateReply)
  | late (reply : CreateReply)
  | done (reply : CreateReply)

/-- What building a vport meets: the capabilities, what is on the stack, the queue models that are
asked for, the processors and the free vectors. -/
structure CreateEnv where
  caps : QueueCaps
  dflt : Bool
  junk : QueueKind → Nat
  txSplit : Bool
  rxSplit : Bool
  cpus : Nat
  avail : Nat

/-- `max_q` of `idpf_vport_alloc_max_qs`. -/
def CreateEnv.grant (e : CreateEnv) : QueueKind → Nat := e.caps.maxQs e.dflt e.junk

/-- How a soft reset ends: no memory, ADD_QUEUES refused, a failure after the vport has its new
counts, or success. -/
inductive SoftEnd where
  | noMem
  | refused
  | late
  | done
  deriving DecidableEq, Repr

inductive UseOp where
  | create (e : CreateEnv) (result : CreateEnd)
  | register
  | setChannels (combined tx rx avail : Nat) (result : SoftEnd)
  | softReset (result : SoftEnd)
  | xdpSetup (prog : Bool) (queues : Bool) (avail : Nat) (added : Bool)
  | hardReset
  | destroy

namespace QueueUse

/-- The request of CREATE_VPORT. -/
def createAsk (s : QueueUse) (e : CreateEnv) : QueueKind → Nat :=
  match s.config with
  | some user => user.totalQs e.txSplit e.rxSplit
  | none => firstTotalQs e.txSplit e.rxSplit e.grant e.cpus

/-- The config that `idpf_vport_alloc` finds or makes. -/
def configFor (s : QueueUse) (e : CreateEnv) : UserConfig :=
  s.config.getD (UserConfig.fresh (max (e.grant .tx) (e.grant .rx)))

def newVport (e : CreateEnv) (user : UserConfig) (r : CreateReply) : QueueVport :=
  let v : QueueVport :=
    { rsrc := ((QVecRsrc.zero r.txSplit r.rxSplit).initNumQs user.xdpProg r.numQ).calcNumQGroups
      dflt := e.dflt
      numQVectors := 0
      vecIdxs := max (e.grant .tx) (e.grant .rx) }
  v.allocVecIndexes user.xdpProg e.avail

/-- `idpf_init_task` for the slot. -/
def create (s : QueueUse) (e : CreateEnv) (result : CreateEnd) : QueueUse :=
  let s' := { s with asked := [⟨e.grant, s.createAsk e⟩] }
  match result with
  | .msgFailed => s'
  | .early _ => { s' with config := some (s.configFor e) }
  | .late r =>
    { s' with
      config := some ((s.configFor e).initNumReq r.numQ)
      maxQ := e.grant }
  | .done r =>
    { s' with
      config := some ((s.configFor e).initNumReq r.numQ)
      maxQ := e.grant
      netdev := if s.registered then s.netdev else some (e.grant .tx, e.grant .rx)
      vport := some (newVport e (s.configFor e) r) }

/-- `idpf_initiate_soft_reset` of a vport that is to have the counts of `v'`. -/
def reset (s : QueueUse) (v v' : QueueVport) (result : SoftEnd) : QueueUse :=
  match result with
  | .noMem => s
  | .refused => { s with asked := [⟨s.maxQ, v'.addQueuesAsk⟩, ⟨s.maxQ, v.addQueuesAsk⟩] }
  | .late => { s with asked := [⟨s.maxQ, v'.addQueuesAsk⟩], vport := some v' }
  | .done => { s with asked := [⟨s.maxQ, v'.addQueuesAsk⟩], vport := some v' }

/-- `idpf_set_channels`. The request is rolled back after a failure, the counts of the vport are
not. -/
def setChannels (s : QueueUse) (user : UserConfig) (v : QueueVport) (tx rx avail : Nat)
    (result : SoftEnd) : QueueUse :=
  if s.maxQ .tx < tx ∨ s.maxQ .rx < rx then s
  else if tx = user.numReqTxQs ∧ rx = user.numReqRxQs then s
  else
    let user' := { user with
      numReqTxQs := tx
      numReqRxQs := rx }
    let s' := s.reset v ((v.adjustQs user').allocVecIndexes user.xdpProg avail) result
    if result = .done then { s' with config := some user' } else s'

/-- `idpf_xdp_setup_prog`; `queues` is whether the queues of a vport that is down can be
allocated. -/
def xdpSetup (s : QueueUse) (user : UserConfig) (prog queues : Bool) (avail : Nat)
    (added : Bool) : QueueUse :=
  let user' := { user with xdpProg := prog }
  match s.vport with
  | none => { s with config := some user' }
  | some v =>
    if user.xdpProg = prog then s
    else
      let v' := v.adjustQs user'
      let s' := { s with
        config := some user'
        vport := some v' }
      if !queues then s'
      else
        let s' := { s' with asked := [⟨s.maxQ, v'.addQueuesAsk⟩] }
        if added then { s' with vport := some (v'.allocVecIndexes prog avail) } else s'

def stepFrom (s : QueueUse) (o : UseOp) : Option QueueUse :=
  match o, s.config, s.vport with
  | .create e result, _, none => some (s.create e result)
  | .register, _, some _ => some { s with registered := true }
  | .setChannels combined tx rx avail result, some user, some v =>
    if tx ≠ 0 ∧ rx ≠ 0 then some s
    else some (s.setChannels user v (combined + tx) (combined + rx) avail result)
  | .softReset result, some _, some v => some (s.reset v v result)
  | .xdpSetup prog queues avail added, some user, _ =>
    some (s.xdpSetup user prog queues avail added)
  | .hardReset, _, _ => some { s with vport := none }
  | .destroy, _, _ =>
    some { s with
      config := none
      netdev := none
      registered := false
      vport := none }
  | _, _, _ => none

def step (s : QueueUse) (o : UseOp) : Option QueueUse := { s with asked := [] }.stepFrom o

def start : QueueUse where
  config := none
  maxQ := fun _ => 0
  netdev := none
  registered := false
  vport := none
  asked := []

def AsksWithin (s : QueueUse) : Prop := ∀ a ∈ s.asked, ∀ k, a.asked k ≤ a.granted k

/-- The arrays are as long as the counts by which they are indexed: the queues of the netdev, the
coalesce table with the vectors and with every queue number that ethtool may give, the array of
vector indexes, and the rows of statistics. -/
structure ArraysWithin (s : QueueUse) (user : UserConfig) (v : QueueVport) : Prop where
  netdev : ∃ nd, s.netdev = some nd ∧ v.plainTxq ≤ nd.1 ∧ v.rsrc.numRxq ≤ nd.2
  coalesce : max (s.maxQ .tx) (s.maxQ .rx) ≤ user.qCoalesce.length
  vectors : v.numQVectors ≤ user.qCoalesce.length ∧ v.numQVectors ≤ v.vecIdxs
  stats : v.txRows s.maxQ + v.rxRows s.maxQ ≤ s.maxQ .tx + s.maxQ .rx

/-- Requests stay within the grant and arrays are long enough. -/
structure Within (s : QueueUse) : Prop where
  asks : s.AsksWithin
  arrays : ∀ v, s.vport = some v → ∃ user, s.config = some user ∧ s.ArraysWithin user v

/-- The stored request of a config with an XDP program on top fits into a grant. -/
def fitsGrant (user : UserConfig) (maxQ : QueueKind → Nat) : Bool :=
  user.numReqTxQs + (if user.xdpProg then user.numReqRxQs else 0) ≤ maxQ .tx &&
    user.numReqRxQs ≤ maxQ .rx

/-- The device gives no more than it is asked for and enough for the XDP queues, there are buffer
and completion queues for the models it chooses, and the arrays from an earlier grant are long
enough for the new one. -/
def replyFits (s : QueueUse) (e : CreateEnv) (r : CreateReply) : Bool :=
  let asked := s.createAsk e
  let user := s.configFor e
  r.numQ .tx ≤ asked .tx && r.numQ .rx ≤ asked .rx && r.numQ .compl ≤ asked .compl &&
    r.numQ .buf ≤ asked .buf && (!user.xdpProg || r.numQ .rx ≤ r.numQ .tx) &&
    (!r.txSplit || e.caps.share .compl != 0) && (!r.rxSplit || e.caps.share .buf != 0) &&
    (r.rxSplit || (r.numQ .rx ≤ 1 && user.numReqRxQs ≤ 1)) &&
    max (e.grant .tx) (e.grant .rx) ≤ user.qCoalesce.length &&
    (!s.registered ||
      match s.netdev with
      | none => false
      | some nd => e.grant .tx ≤ nd.1 && e.grant .rx ≤ nd.2)

def ok (s : QueueUse) : UseOp → Bool
  | .create e result =>
    (match s.config with
      | none => true
      | some user => fitsGrant user e.grant) &&
    (!e.txSplit || e.caps.share .compl != 0) && (!e.rxSplit || e.caps.share .buf != 0) &&
    match result with
    | .done r => s.replyFits e r
    | _ => true
  | .setChannels combined tx rx _ _ =>
    match s.config, s.vport with
    | some user, some v =>
      s.maxQ .tx < combined + tx || s.maxQ .rx < combined + rx ||
        ((!user.xdpProg || (combined + tx) + (combined + rx) ≤ s.maxQ .tx) &&
          (v.rsrc.rxSplit || combined + rx ≤ 1))
    | _, _ => true
  | .xdpSetup prog _ _ _ =>
    match s.config, s.vport with
    | some user, some _ => !prog || user.numReqTxQs + user.numReqRxQs ≤ s.maxQ .tx
    | _, _ => true
  | _ => true

/-- What a grant looks like: counts far from 16 bits, a completion queue for each transmit queue
and two buffer queues for each receive queue. -/
structure Shaped (maxQ : QueueKind → Nat) (txSplit rxSplit : Bool) : Prop where
  tx : maxQ .tx ≤ 256
  rx : maxQ .rx ≤ 64
  compl : txSplit = true → maxQ .compl = maxQ .tx
  buf : rxSplit = true → maxQ .buf = maxQ .rx * 2

/-- The counts of a vport stay within its grant. -/
structure CountsWithin (maxQ : QueueKind → Nat) (r : QVecRsrc) : Prop where
  tx : r.numTxq ≤ maxQ .tx
  rx : r.numRxq ≤ maxQ .rx
  compl : r.numComplq ≤ maxQ .compl
  buf : r.numBufq ≤ maxQ .buf
  xdp : r.numXdpTxq ≤ r.numTxq
  txGrp : r.txSplit = true → r.numTxqGrp ≤ maxQ .tx
  rxGrp : r.numRxq ≤ r.numRxqGrp

/-- What holds of a live vport with its config. -/
structure Live (s : QueueUse) (user : UserConfig) (v : QueueVport) : Prop where
  shaped : Shaped s.maxQ v.rsrc.txSplit v.rsrc.rxSplit
  fits : fitsGrant user s.maxQ = true
  single : v.rsrc.rxSplit = false → user.numReqRxQs ≤ 1
  counts : CountsWithin s.maxQ v.rsrc
  netdev : ∃ nd, s.netdev = some nd ∧ s.maxQ .tx ≤ nd.1 ∧ s.maxQ .rx ≤ nd.2
  coalesce : max (s.maxQ .tx) (s.maxQ .rx) ≤ user.qCoalesce.length
  vecIdxs : v.vecIdxs = max (s.maxQ .tx) (s.maxQ .rx)
  vectors : v.numQVectors ≤ max (s.maxQ .tx) (s.maxQ .rx)

structure Inv (s : QueueUse) : Prop where
  asks : s.AsksWithin
  live : ∀ v, s.vport = some v → ∃ user, s.config = some user ∧ s.Live user v

variable {s : QueueUse} {user : UserConfig} {v : QueueVport} {maxQ : QueueKind → Nat}

theorem grant_tx_le (e : CreateEnv) : e.grant .tx ≤ 256 := by
  simp only [CreateEnv.grant, QueueCaps.maxQs, QueueCaps.maxTxq]
  split <;> split <;> omega

theorem grant_rx_le (e : CreateEnv) : e.grant .rx ≤ 64 := by
  simp only [CreateEnv.grant, QueueCaps.maxQs, QueueCaps.maxRxq]
  split <;> split <;> omega

theorem grant_shaped {e : CreateEnv} {txSplit rxSplit : Bool}
    (compl : (!txSplit || e.caps.share .compl != 0) = true)
    (buf : (!rxSplit || e.caps.share .buf != 0) = true) : Shaped e.grant txSplit rxSplit := by
  have small := grant_rx_le e
  constructor
  · exact grant_tx_le e
  · exact small
  · intro split
    rw [split, Bool.not_true, Bool.false_or, bne_iff_ne] at compl
    simp only [CreateEnv.grant, QueueCaps.maxQs, compl, if_false]
  · intro split
    rw [split, Bool.not_true, Bool.false_or, bne_iff_ne] at buf
    simp only [CreateEnv.grant, QueueCaps.maxQs, buf, if_false] at small ⊢
    omega

theorem totalQs_le {txSplit rxSplit : Bool} (shaped : Shaped maxQ txSplit rxSplit)
    (fits : fitsGrant user maxQ = true) (k : QueueKind) :
    user.totalQs txSplit rxSplit k ≤ maxQ k := by
  have tx := shaped.tx
  have rx := shaped.rx
  have compl := shaped.compl
  have buf := shaped.buf
  simp only [fitsGrant, Bool.and_eq_true, decide_eq_true_eq] at fits
  obtain ⟨total, request⟩ := fits
  unfold UserConfig.totalQs
  cases xdp : user.xdpProg with
  | true =>
      simp only [xdp, if_true] at total ⊢
      have small : (user.numReqTxQs + user.numReqRxQs) % 65536 =
          user.numReqTxQs + user.numReqRxQs := Nat.mod_eq_of_lt (by omega)
      rw [small]
      cases k with
      | rx => exact request
      | tx => exact total
      | buf =>
          cases rxSplit with
          | false => exact Nat.zero_le _
          | true =>
              rw [buf rfl]
              change user.numReqRxQs * 1 % 65536 ≤ _
              omega
      | compl =>
          cases txSplit with
          | false => exact Nat.zero_le _
          | true =>
              rw [compl rfl]
              exact total
  | false =>
      simp only [xdp, Bool.false_eq_true, if_false, Nat.add_zero] at total ⊢
      cases k with
      | rx => exact request
      | tx => exact total
      | buf =>
          cases rxSplit with
          | false => exact Nat.zero_le _
          | true =>
              rw [buf rfl]
              change user.numReqRxQs * 2 % 65536 ≤ _
              omega
      | compl =>
          cases txSplit with
          | false => exact Nat.zero_le _
          | true =>
              rw [compl rfl]
              exact total

theorem firstTotalQs_le {txSplit rxSplit : Bool} {cpus : Nat}
    (shaped : Shaped maxQ txSplit rxSplit) (k : QueueKind) :
    firstTotalQs txSplit rxSplit maxQ cpus k ≤ maxQ k := by
  have compl := shaped.compl
  have buf := shaped.buf
  have tx : min (min 16 (maxQ .tx)) cpus ≤ maxQ .tx :=
    (Nat.min_le_left _ _).trans (Nat.min_le_right _ _)
  have rx : min (min 16 (maxQ .rx)) cpus ≤ maxQ .rx :=
    (Nat.min_le_left _ _).trans (Nat.min_le_right _ _)
  cases k with
  | rx => exact rx
  | tx => exact tx
  | buf =>
      cases rxSplit with
      | false => exact Nat.zero_le _
      | true =>
          rw [buf rfl]
          change min (min 16 (maxQ .rx)) cpus * 2 % 65536 ≤ _
          omega
  | compl =>
      cases txSplit with
      | false => exact Nat.zero_le _
      | true =>
          rw [compl rfl]
          exact tx

/-- What `idpf_vport_init_num_qs` and `idpf_vport_calc_num_q_groups` make of the counts in a
message. -/
theorem counted (r : QVecRsrc) (xdp : Bool) (numQ : QueueKind → Nat) :
    let r' := (r.initNumQs xdp numQ).calcNumQGroups
    (r'.txSplit = r.txSplit ∧ r'.rxSplit = r.rxSplit) ∧
      (r'.numTxq = numQ .tx ∧ r'.numRxq = numQ .rx) ∧
      r'.numXdpTxq = (if xdp then numQ .rx else 0) ∧
      r'.numComplq = (if r.txSplit then numQ .compl else r.numComplq) ∧
      r'.numBufq = (if r.rxSplit then if xdp then numQ .rx else numQ .buf else 0) ∧
      (r.txSplit = true → r'.numTxqGrp = numQ .compl) ∧
      r'.numRxqGrp = (if r.rxSplit then numQ .rx else 1) := by
  unfold QVecRsrc.initNumQs QVecRsrc.calcNumQGroups
  cases rx : r.rxSplit <;> cases tx : r.txSplit <;> cases xdp <;> simp [*]

theorem counts_of_message {r : QVecRsrc} {xdp : Bool} {numQ : QueueKind → Nat}
    (shaped : Shaped maxQ r.txSplit r.rxSplit) (le : ∀ k, numQ k ≤ maxQ k)
    (enough : xdp = true → numQ .rx ≤ numQ .tx) (single : r.rxSplit = false → numQ .rx ≤ 1)
    (old : r.numComplq ≤ maxQ .compl) :
    CountsWithin maxQ (r.initNumQs xdp numQ).calcNumQGroups := by
  obtain ⟨⟨txSplit, -⟩, ⟨tx, rx⟩, xdpTxq, compl, buf, txGrp, rxGrp⟩ := counted r xdp numQ
  constructor
  · rw [tx]
    exact le .tx
  · rw [rx]
    exact le .rx
  · rw [compl]
    split
    · exact le .compl
    · exact old
  · rw [buf]
    split
    next split =>
      have twice := shaped.buf split
      have rx := le .rx
      have buf := le .buf
      split <;> omega
    · exact Nat.zero_le _
  · rw [xdpTxq, tx]
    split
    next on => exact enough on
    · exact Nat.zero_le _
  · intro split
    rw [txSplit] at split
    rw [txGrp split, ← shaped.compl split]
    exact le .compl
  · rw [rx, rxGrp]
    split
    · exact Nat.le_refl _
    next one => exact single (Bool.eq_false_iff.mpr one)

theorem grantedVecs_le (dflt : Bool) (avail req : Nat) : grantedVecs dflt avail req ≤ req := by
  unfold grantedVecs
  split
  · exact Nat.zero_le _
  · split <;> omega

theorem numReqVecs_le {r : QVecRsrc} {txSplit rxSplit : Bool}
    (shaped : Shaped maxQ txSplit rxSplit) (counts : CountsWithin maxQ r) (xdp : Bool) :
    r.numReqVecs xdp ≤ max (maxQ .tx) (maxQ .rx) := by
  have small := shaped.tx
  have tx := counts.tx
  have rx := counts.rx
  have shared := counts.xdp
  unfold QVecRsrc.numReqVecs
  split <;> omega

/-- Asking for vectors changes nothing but how many there are. -/
theorem allocVecIndexes_spec (v : QueueVport) (xdp : Bool) (avail : Nat) :
    (v.allocVecIndexes xdp avail).rsrc = v.rsrc ∧ (v.allocVecIndexes xdp avail).vecIdxs = v.vecIdxs ∧
      ((v.allocVecIndexes xdp avail).numQVectors = v.numQVectors ∨
        (v.allocVecIndexes xdp avail).numQVectors ≤ v.rsrc.numReqVecs xdp) := by
  unfold QueueVport.allocVecIndexes
  dsimp only
  split
  · exact ⟨rfl, rfl, .inl rfl⟩
  · exact ⟨rfl, rfl, .inr (grantedVecs_le ..)⟩

theorem Live.allocVecIndexes (live : s.Live user v) (xdp : Bool) (avail : Nat) :
    s.Live user (v.allocVecIndexes xdp avail) := by
  obtain ⟨rsrc, idxs, vectors⟩ := allocVecIndexes_spec v xdp avail
  have need := numReqVecs_le live.shaped live.counts xdp
  constructor
  · rw [rsrc]
    exact live.shaped
  · exact live.fits
  · rw [rsrc]
    exact live.single
  · rw [rsrc]
    exact live.counts
  · exact live.netdev
  · exact live.coalesce
  · rw [idxs]
    exact live.vecIdxs
  · obtain same | fewer := vectors
    · rw [same]
      exact live.vectors
    · exact fewer.trans need

theorem Live.adjustQs {user' : UserConfig} (live : s.Live user v)
    (fits : fitsGrant user' s.maxQ = true) (single : v.rsrc.rxSplit = false → user'.numReqRxQs ≤ 1)
    (table : user'.qCoalesce = user.qCoalesce) : s.Live user' (v.adjustQs user') := by
  obtain ⟨⟨txSplit, rxSplit⟩, -⟩ := counted v.rsrc user'.xdpProg
    (user'.totalQs v.rsrc.txSplit v.rsrc.rxSplit)
  have wrap : user'.xdpProg = true → user'.numReqTxQs + user'.numReqRxQs ≤ 256 := by
    intro xdp
    have small := live.shaped.tx
    simp only [fitsGrant, xdp, if_true, Bool.and_eq_true, decide_eq_true_eq] at fits
    omega
  constructor
  · change Shaped s.maxQ (QVecRsrc.calcNumQGroups _).txSplit (QVecRsrc.calcNumQGroups _).rxSplit
    rw [txSplit, rxSplit]
    exact live.shaped
  · exact fits
  · intro one
    exact single (rxSplit ▸ one)
  · apply counts_of_message live.shaped
    · exact totalQs_le live.shaped fits
    · intro xdp
      have small := wrap xdp
      simp only [UserConfig.totalQs, xdp, if_true, withTheirs]
      omega
    · intro one
      have few := single one
      unfold UserConfig.totalQs
      split <;> exact few
    · exact live.counts.compl
  · exact live.netdev
  · rw [table]
    exact live.coalesce
  · exact live.vecIdxs
  · exact live.vectors

theorem addQueuesAsk_le (counts : CountsWithin maxQ v.rsrc) (k : QueueKind) :
    v.addQueuesAsk k ≤ maxQ k := by
  cases k with
  | rx => exact counts.rx
  | tx => exact counts.tx
  | buf => exact counts.buf
  | compl => exact counts.compl

theorem Live.arrays (live : s.Live user v) : s.ArraysWithin user v := by
  have counts := live.counts
  constructor
  · obtain ⟨nd, there, tx, rx⟩ := live.netdev
    refine ⟨nd, there, ?_, counts.rx.trans rx⟩
    exact (Nat.sub_le _ _).trans (counts.tx.trans tx)
  · exact live.coalesce
  · constructor
    · exact live.vectors.trans live.coalesce
    · rw [live.vecIdxs]
      exact live.vectors
  · have tx := counts.tx
    have rx := counts.rx
    have grp := counts.rxGrp
    have txGrp : v.groupTxq ≤ s.maxQ .tx := by
      unfold QueueVport.groupTxq
      split
      next split => exact counts.txGrp split
      · exact tx
    have txRows : v.txRows s.maxQ ≤ s.maxQ .tx := by
      unfold QueueVport.txRows
      split <;> omega
    have rxRows : v.rxRows s.maxQ ≤ s.maxQ .rx := by
      unfold QueueVport.rxRows
      omega
    exact Nat.add_le_add txRows rxRows

theorem Inv.within (inv : s.Inv) : s.Within where
  asks := inv.asks
  arrays := fun v there => by
    obtain ⟨user, config, live⟩ := inv.live v there
    exact ⟨user, config, live.arrays⟩

theorem Live.congr {t : QueueUse} (live : s.Live user v) (maxQ : t.maxQ = s.maxQ)
    (netdev : t.netdev = s.netdev) : t.Live user v := by
  constructor
  · rw [maxQ]
    exact live.shaped
  · rw [maxQ]
    exact live.fits
  · exact live.single
  · rw [maxQ]
    exact live.counts
  · rw [maxQ, netdev]
    exact live.netdev
  · rw [maxQ]
    exact live.coalesce
  · rw [maxQ]
    exact live.vecIdxs
  · rw [maxQ]
    exact live.vectors

theorem inv_of_live {asked : List QueueAsk} (config : s.config = some user)
    (vport : s.vport = some v) (live : s.Live user v) (asks : s.asked = asked)
    (within : ∀ a ∈ asked, ∀ k, a.asked k ≤ a.granted k) : s.Inv where
  asks := by
    unfold AsksWithin
    rw [asks]
    exact within
  live := by
    intro w there
    rw [vport] at there
    obtain rfl := Option.some.inj there
    exact ⟨user, config, live⟩

theorem inv_of_gone (vport : s.vport = none) (asks : s.AsksWithin) : s.Inv where
  asks := asks
  live := fun v there => absurd (there.symm.trans vport) (Option.some_ne_none v)

theorem asked_one {granted asked : QueueKind → Nat} (le : ∀ k, asked k ≤ granted k) :
    ∀ a ∈ [(⟨granted, asked⟩ : QueueAsk)], ∀ k, a.asked k ≤ a.granted k := by
  intro a member k
  rw [List.mem_singleton.mp member]
  exact le k

theorem asked_none : ∀ a ∈ ([] : List QueueAsk), ∀ k, a.asked k ≤ a.granted k :=
  fun _ member => absurd member List.not_mem_nil

theorem Inv.reset {v' : QueueVport} {result : SoftEnd} (config : s.config = some user)
    (vport : s.vport = some v) (quiet : s.asked = []) (old : s.Live user v)
    (new : s.Live user v') : (s.reset v v' result).Inv := by
  have ask := addQueuesAsk_le new.counts
  cases result with
  | noMem => exact inv_of_live config vport old quiet asked_none
  | refused =>
      refine inv_of_live (s := s.reset v v' .refused) config vport (old.congr rfl rfl) rfl ?_
      intro a member k
      obtain rfl | member := List.mem_cons.mp member
      · exact ask k
      · exact asked_one (addQueuesAsk_le old.counts) a member k
  | late => exact inv_of_live config rfl (new.congr rfl rfl) rfl (asked_one ask)
  | done => exact inv_of_live config rfl (new.congr rfl rfl) rfl (asked_one ask)

/-- With its request a vport can also have the config of before: the counts are those of the
request, and only they are rolled back. -/
theorem Live.config {user' : UserConfig} (live : s.Live user' v) (fits : fitsGrant user s.maxQ = true)
    (single : v.rsrc.rxSplit = false → user.numReqRxQs ≤ 1)
    (table : user'.qCoalesce = user.qCoalesce) : s.Live user v where
  shaped := live.shaped
  fits := fits
  single := single
  counts := live.counts
  netdev := live.netdev
  coalesce := table ▸ live.coalesce
  vecIdxs := live.vecIdxs
  vectors := live.vectors

theorem adjustQs_rxSplit (v : QueueVport) (user : UserConfig) :
    (v.adjustQs user).rsrc.rxSplit = v.rsrc.rxSplit :=
  (counted v.rsrc user.xdpProg (user.totalQs v.rsrc.txSplit v.rsrc.rxSplit)).1.2

theorem Inv.setChannels {tx rx avail : Nat} {result : SoftEnd} (config : s.config = some user)
    (vport : s.vport = some v) (quiet : s.asked = []) (live : s.Live user v)
    (good : s.maxQ .tx < tx ∨ s.maxQ .rx < rx ∨
      (user.xdpProg = true → tx + rx ≤ s.maxQ .tx) ∧ (v.rsrc.rxSplit = false → rx ≤ 1)) :
    (s.setChannels user v tx rx avail result).Inv := by
  have same := inv_of_live config vport live quiet asked_none
  unfold QueueUse.setChannels
  split
  · exact same
  next small =>
    split
    · exact same
    · obtain ⟨xdp, single⟩ : (user.xdpProg = true → tx + rx ≤ s.maxQ .tx) ∧
          (v.rsrc.rxSplit = false → rx ≤ 1) := by
        obtain big | big | good := good
        · exact absurd (.inl big) small
        · exact absurd (.inr big) small
        · exact good
      have fits : fitsGrant { user with numReqTxQs := tx, numReqRxQs := rx } s.maxQ = true := by
        simp only [fitsGrant, Bool.and_eq_true, decide_eq_true_eq]
        constructor
        · split
          next on => exact xdp on
          · omega
        · omega
      have new := (live.adjustQs fits single rfl).allocVecIndexes user.xdpProg avail
      dsimp only
      split
      next done =>
        subst done
        exact inv_of_live rfl rfl (new.congr rfl rfl) rfl (asked_one (addQueuesAsk_le new.counts))
      · apply Inv.reset config vport quiet live
        apply new.config live.fits _ rfl
        rw [(allocVecIndexes_spec _ _ _).1, adjustQs_rxSplit]
        exact live.single

theorem Inv.xdpSetup {prog queues added : Bool} {avail : Nat} (config : s.config = some user)
    (quiet : s.asked = []) (inv : s.Inv)
    (good : s.vport ≠ none → prog = true → user.numReqTxQs + user.numReqRxQs ≤ s.maxQ .tx) :
    (s.xdpSetup user prog queues avail added).Inv := by
  unfold QueueUse.xdpSetup
  dsimp only
  split
  next gone =>
    constructor
    · exact inv.asks
    · exact fun v there => absurd (there.symm.trans gone) (Option.some_ne_none v)
  next v there =>
    obtain ⟨user', config', live⟩ := inv.live v there
    obtain rfl := Option.some.inj (config.symm.trans config')
    have fits : fitsGrant { user with xdpProg := prog } s.maxQ = true := by
      have before := live.fits
      simp only [fitsGrant, Bool.and_eq_true, decide_eq_true_eq] at before ⊢
      constructor
      · split
        next on => exact good (there ▸ Option.some_ne_none v) on
        · omega
      · exact before.2
    have new := live.adjustQs fits live.single rfl
    have ask := addQueuesAsk_le new.counts
    split
    · exact inv
    · split
      · exact inv_of_live rfl rfl (new.congr rfl rfl) quiet asked_none
      · split
        · exact inv_of_live rfl rfl ((new.allocVecIndexes prog avail).congr rfl rfl) rfl
            (asked_one ask)
        · exact inv_of_live rfl rfl (new.congr rfl rfl) rfl (asked_one ask)

theorem configFor_initNumReq (s : QueueUse) (e : CreateEnv) (numQ : QueueKind → Nat) :
    ((s.configFor e).initNumReq numQ).qCoalesce = (s.configFor e).qCoalesce ∧
      ((s.configFor e).initNumReq numQ).xdpProg = (s.configFor e).xdpProg := by
  unfold UserConfig.initNumReq
  split
  · exact ⟨rfl, rfl⟩
  · exact ⟨rfl, rfl⟩

theorem createAsk_le {e : CreateEnv}
    (stored : ∀ user, s.config = some user → fitsGrant user e.grant = true)
    (shaped : Shaped e.grant e.txSplit e.rxSplit) (k : QueueKind) :
    s.createAsk e k ≤ e.grant k := by
  cases config : s.config with
  | some user =>
      simp only [createAsk, config]
      exact totalQs_le shaped (stored user config) k
  | none =>
      simp only [createAsk, config]
      exact firstTotalQs_le shaped k

/-- The request that is stored for a new vport fits if the old one did and the reply gives no more
than was asked for. -/
theorem fits_initNumReq {e : CreateEnv} {numQ : QueueKind → Nat}
    (stored : ∀ user, s.config = some user → fitsGrant user e.grant = true)
    (asked : ∀ k, s.createAsk e k ≤ e.grant k) (tx : numQ .tx ≤ s.createAsk e .tx)
    (rx : numQ .rx ≤ s.createAsk e .rx) :
    fitsGrant ((s.configFor e).initNumReq numQ) e.grant = true := by
  have txFits := tx.trans (asked .tx)
  have rxFits := rx.trans (asked .rx)
  cases config : s.config with
  | none =>
      have fresh : s.configFor e = UserConfig.fresh (max (e.grant .tx) (e.grant .rx)) := by
        rw [configFor, config, Option.getD_none]
      rw [fresh]
      simpa [UserConfig.initNumReq, UserConfig.fresh, fitsGrant] using ⟨txFits, rxFits⟩
  | some user =>
      have old : s.configFor e = user := by
        rw [configFor, config, Option.getD_some]
      rw [old]
      unfold UserConfig.initNumReq
      split
      next none =>
        -- a config without a request asks for no queues, and none come back
        have zero : s.createAsk e .tx = 0 ∧ s.createAsk e .rx = 0 := by
          simp only [createAsk, config, UserConfig.totalQs, none]
          split <;> exact ⟨rfl, rfl⟩
        simp only [fitsGrant, Bool.and_eq_true, decide_eq_true_eq]
        split <;> omega
      · exact stored user config

/-- Of a reply that fits comes a vport that is live as it should be. -/
theorem created_live {e : CreateEnv} {r : CreateReply}
    (stored : ∀ user, s.config = some user → fitsGrant user e.grant = true)
    (asked : Shaped e.grant e.txSplit e.rxSplit) (fits : s.replyFits e r = true) :
    (s.create e (.done r)).Live ((s.configFor e).initNumReq r.numQ)
      (newVport e (s.configFor e) r) := by
  simp only [replyFits, Bool.and_eq_true, decide_eq_true_eq] at fits
  obtain ⟨⟨⟨⟨⟨⟨⟨⟨⟨tx, rx⟩, compl⟩, buf⟩, xdp⟩, haveCompl⟩, haveBuf⟩, single⟩, table⟩, netdev⟩ := fits
  have shaped := grant_shaped haveCompl haveBuf
  have ask := createAsk_le stored asked
  have le : ∀ k, r.numQ k ≤ e.grant k := by
    intro k
    cases k with
    | rx => exact rx.trans (ask .rx)
    | tx => exact tx.trans (ask .tx)
    | buf => exact buf.trans (ask .buf)
    | compl => exact compl.trans (ask .compl)
  have one : r.rxSplit = false → r.numQ .rx ≤ 1 ∧ (s.configFor e).numReqRxQs ≤ 1 := by
    intro off
    simpa [off] using single
  have enough : (s.configFor e).xdpProg = true → r.numQ .rx ≤ r.numQ .tx := by
    intro on
    simpa [on] using xdp
  have counts : CountsWithin e.grant (((QVecRsrc.zero r.txSplit r.rxSplit).initNumQs
      (s.configFor e).xdpProg r.numQ).calcNumQGroups) := by
    apply counts_of_message shaped le enough
    · exact fun off => (one off).1
    · exact Nat.zero_le _
  obtain ⟨⟨txSplit, rxSplit⟩, -⟩ := counted (QVecRsrc.zero r.txSplit r.rxSplit)
    (s.configFor e).xdpProg r.numQ
  obtain ⟨coalesce, program⟩ := s.configFor_initNumReq e r.numQ
  obtain ⟨rsrc, idxs, vectors⟩ := allocVecIndexes_spec
    { rsrc := ((QVecRsrc.zero r.txSplit r.rxSplit).initNumQs
        (s.configFor e).xdpProg r.numQ).calcNumQGroups
      dflt := e.dflt
      numQVectors := 0
      vecIdxs := max (e.grant .tx) (e.grant .rx) } (s.configFor e).xdpProg e.avail
  unfold newVport
  constructor
  · change Shaped e.grant _ _
    rw [rsrc, txSplit, rxSplit]
    exact shaped
  · exact fits_initNumReq stored ask tx rx
  · intro off
    rw [rsrc, rxSplit] at off
    obtain ⟨few, old⟩ := one off
    unfold UserConfig.initNumReq
    split
    · exact few
    · exact old
  · rw [rsrc]
    exact counts
  · change ∃ nd, (if s.registered then s.netdev else some (e.grant .tx, e.grant .rx)) = some nd ∧
      e.grant .tx ≤ nd.1 ∧ e.grant .rx ≤ nd.2
    cases known : s.registered with
    | false =>
        rw [if_neg Bool.false_ne_true]
        exact ⟨_, rfl, Nat.le_refl _, Nat.le_refl _⟩
    | true =>
        rw [known, Bool.not_true, Bool.false_or] at netdev
        cases there : s.netdev with
        | none =>
            rw [there] at netdev
            exact Bool.noConfusion netdev
        | some nd =>
            simp only [there, Bool.and_eq_true, decide_eq_true_eq] at netdev
            exact ⟨nd, rfl, netdev⟩
  · rw [coalesce]
    exact table
  · exact idxs
  · obtain same | fewer := vectors
    · rw [same]
      exact Nat.zero_le _
    · exact fewer.trans (numReqVecs_le shaped counts _)

theorem Inv.create {e : CreateEnv} {result : CreateEnd} (gone : s.vport = none)
    (good : s.ok (.create e result) = true) : (s.create e result).Inv := by
  simp only [ok, Bool.and_eq_true] at good
  obtain ⟨⟨⟨request, compl⟩, buf⟩, reply⟩ := good
  have stored : ∀ user, s.config = some user → fitsGrant user e.grant = true := by
    intro user config
    rw [config] at request
    exact request
  have shaped := grant_shaped compl buf
  have ask := asked_one (createAsk_le stored shaped)
  cases result with
  | msgFailed => exact inv_of_gone (s := s.create e .msgFailed) gone ask
  | early r => exact inv_of_gone (s := s.create e (.early r)) gone ask
  | late r => exact inv_of_gone (s := s.create e (.late r)) gone ask
  | done r => exact inv_of_live rfl rfl (created_live stored shaped reply) rfl ask

theorem Inv.stepFrom {o : UseOp} {t : QueueUse} (inv : s.Inv) (quiet : s.asked = [])
    (good : s.ok o = true) (run : s.stepFrom o = some t) : t.Inv := by
  unfold QueueUse.stepFrom at run
  split at run
  next e result _ _ gone =>
    obtain rfl := Option.some.inj run
    exact Inv.create gone good
  next v there =>
    obtain rfl := Option.some.inj run
    obtain ⟨user, config, live⟩ := inv.live v there
    exact inv_of_live (s := { s with registered := true }) config there (live.congr rfl rfl) quiet
      asked_none
  next combined tx rx avail result user v config there =>
    obtain ⟨user', config', live⟩ := inv.live v there
    obtain rfl := Option.some.inj (config.symm.trans config')
    split at run
    · obtain rfl := Option.some.inj run
      exact inv
    · obtain rfl := Option.some.inj run
      apply Inv.setChannels config there quiet live
      simp only [ok, config, there, Bool.or_eq_true, decide_eq_true_eq, Bool.and_eq_true,
        Bool.not_eq_true'] at good
      obtain (big | big) | ⟨xdp, single⟩ := good
      · exact .inl big
      · exact .inr (.inl big)
      · refine .inr (.inr ⟨?_, ?_⟩)
        · intro on
          exact xdp.resolve_left fun off => Bool.noConfusion (off.symm.trans on)
        · intro off
          exact single.resolve_left fun on => Bool.noConfusion (off.symm.trans on)
  next result user v config there =>
    obtain rfl := Option.some.inj run
    obtain ⟨user', config', live⟩ := inv.live v there
    exact Inv.reset config' there quiet live live
  next prog queues avail added user _ config =>
    obtain rfl := Option.some.inj run
    apply Inv.xdpSetup config quiet inv
    intro there on
    obtain ⟨v, there⟩ := Option.ne_none_iff_exists'.mp there
    simp only [ok, config, there, on, Bool.not_true, Bool.false_or, decide_eq_true_eq] at good
    exact good
  next =>
    obtain rfl := Option.some.inj run
    exact inv_of_gone (s := { s with vport := none }) rfl inv.asks
  next =>
    obtain rfl := Option.some.inj run
    constructor
    · exact inv.asks
    · exact fun v there => absurd there.symm (Option.some_ne_none v)
  next => exact absurd run.symm (Option.some_ne_none t)

theorem ok_clear (s : QueueUse) (o : UseOp) : ({ s with asked := [] } : QueueUse).ok o = s.ok o := by
  cases o with
  | create e result => cases result <;> rfl
  | _ => rfl

theorem Inv.step {o : UseOp} {t : QueueUse} (inv : s.Inv) (good : s.ok o = true)
    (run : s.step o = some t) : t.Inv := by
  rw [← ok_clear] at good
  apply Inv.stepFrom _ rfl good run
  constructor
  · exact asked_none
  · intro v there
    obtain ⟨user, config, live⟩ := inv.live v there
    exact ⟨user, config, live.congr rfl rfl⟩

theorem start_inv : start.Inv := inv_of_gone (s := start) rfl asked_none

/-- In a run whose steps are in order no request is for more than the vport was granted, and the
arrays that were sized by grants are long enough. -/
theorem requests_within (s : QueueUse)
    (reach : Reachable QueueUse.step (fun s o => s.ok o = true) (· = start) s) : s.Within := by
  apply Inv.within
  apply reach.invariant
  · rintro _ rfl
    exact start_inv
  · exact fun s o t inv good run => inv.step good run

end QueueUse

/-- A device in the split queue model with 16 transmit and receive queues and all that goes with
them. -/
def splitMaxQ : QueueKind → Nat
  | .rx => 16
  | .tx => 16
  | .buf => 32
  | .compl => 16

theorem splitMaxQ_lt (k : QueueKind) : splitMaxQ k < 65536 := by
  cases k <;> decide

theorem oneVport_lt : 1 < 65536 := by decide

def splitCaps : QueueCaps := ⟨splitMaxQ, 1, 1, splitMaxQ_lt, oneVport_lt⟩

/-- Building the first vport of that device with so many processors. -/
def splitEnv (cpus : Nat) : CreateEnv where
  caps := splitCaps
  dflt := true
  junk := fun _ => 0
  txSplit := true
  rxSplit := true
  cpus := cpus
  avail := 16

/-- The device gives `n` queues each. -/
def splitReply (n : Nat) : CreateReply := ⟨true, true, withTheirs true true 2 n n⟩

theorem QueueUse.requests_within_run : ∃ s : QueueUse, s.Within ∧ s.asked ≠ [] := by
  have run : (execIf QueueUse.step QueueUse.ok QueueUse.start
      [.create (splitEnv 4) (.done (splitReply 4)), .register, .setChannels 8 0 0 16 .done,
        .setChannels 6 1 0 16 .late, .xdpSetup true true 16 true, .hardReset,
        .create (splitEnv 4) (.done ⟨true, true, withTheirs true true 1 16 8⟩),
        .softReset .refused]).map (fun s => s.asked.length) = some 2 := by
    decide +kernel
  obtain ⟨s, steps, two⟩ := Option.map_eq_some_iff.mp run
  have reached : Reachable QueueUse.step (fun s o => s.ok o = true) (· = QueueUse.start) s :=
    Reachable.execIf (.start rfl) steps
  refine ⟨s, QueueUse.requests_within s reached, ?_⟩
  intro none
  rw [none] at two
  exact Nat.zero_ne_add_one 1 two

/-- With 16 processors the vport has all its transmit queues, and an XDP program makes the driver
ask for 16 more than it was granted. -/
theorem xdp_asks_beyond_grant : ∃ s : QueueUse,
    Reachable QueueUse.step anyStep (· = QueueUse.start) s ∧ ¬ s.Within := by
  have run : (exec QueueUse.step QueueUse.start
      [.create (splitEnv 16) (.done (splitReply 16)), .register,
        .xdpSetup true true 16 true]).map
        (fun s => s.asked.map fun a => (a.granted .tx, a.asked .tx)) = some [(16, 32)] := by
    decide +kernel
  obtain ⟨s, steps, asks⟩ := Option.map_eq_some_iff.mp run
  refine ⟨s, Reachable.exec (.start rfl) steps, ?_⟩
  intro within
  have member : ((16, 32) : Nat × Nat) ∈ s.asked.map fun a => (a.granted .tx, a.asked .tx) := by
    rw [asks]
    exact List.mem_singleton.mpr rfl
  obtain ⟨a, listed, same⟩ := List.mem_map.mp member
  have le := within.asks a listed .tx
  obtain ⟨granted, asked⟩ := Prod.mk.inj same
  omega

end Idpf

