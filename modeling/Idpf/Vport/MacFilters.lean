import Idpf.General.Transition
import Idpf.Vport.ConfigChunks
import Mathlib.Data.List.Nodup

/-! MAC filters: the list of a vport, what the device has, the messages between them, and the
handler for asynchronous messages that the device refuses. The adapter has
`VIRTCHNL2_CAP_MACFILTER`. -/
namespace Idpf
open General

/-- What a call meets: memory for a new filter, what its messages meet, and which of those that are
not acknowledged the device has carried out all the same. -/
structure MacEnv where
  filterAlloc : Bool
  chunk : ChunkEnv
  applied : Nat → Bool

/-- A message that the device gets, for the vport in this slot. -/
structure MacRequest where
  vport : Nat
  add : Bool
  macs : List Mac
  deriving DecidableEq, Repr

namespace MacRequest

def apply (hw : Mac → Bool) (r : MacRequest) (a : Mac) : Bool := if a ∈ r.macs then r.add else hw a

def applyAll (l : List MacRequest) (hw : Mac → Bool) : Mac → Bool := l.foldl apply hw

end MacRequest

def ChunkMsg.macs (m : ChunkMsg) : List Mac :=
  m.entries.filterMap fun
    | some (.mac a _) => some a
    | _ => none

def takenMacs (i : Nat) (add : Bool) (took : Nat → Bool) : Nat → List ChunkMsg → List MacRequest
  | _, [] => []
  | k, m :: msgs =>
    if took k then ⟨i, add, m.macs⟩ :: takenMacs i add took (k + 1) msgs
    else takenMacs i add took (k + 1) msgs

/-! The list. -/

def onMacFilter (a : Mac) (g : MacFilter → MacFilter) : List MacFilter → List MacFilter
  | [] => []
  | f :: fs => if f.macaddr = a then g f :: fs else f :: onMacFilter a g fs

/-- `idpf_find_mac_filter`. -/
def findMacFilter (fs : List MacFilter) (a : Mac) : Option MacFilter :=
  fs.find? fun f => f.macaddr = a

/-- `__idpf_del_mac_filter`. -/
def unlinkMacFilter (fs : List MacFilter) (a : Mac) : List MacFilter :=
  fs.eraseP fun f => f.macaddr = a

/-- `__idpf_add_mac_filter`. -/
def linkMacFilter (alloc : Bool) (fs : List MacFilter) (a : Mac) : Option (List MacFilter) :=
  if (findMacFilter fs a).isSome then
    some (onMacFilter a (fun f => { f with remove := false }) fs)
  else if alloc then some (fs ++ [{ macaddr := a, add := true, remove := false }])
  else none

/-- `is_valid_ether_addr`; the first octet is the uppermost one. -/
def isValidEtherAddr (a : Mac) : Bool := !a.getLsbD 40 && a != 0

/-- A vport: its ID, its list, `default_mac_addr` and `dev_addr`, and whether it is up; the filters
that the device has for it, and the addresses that it has been asked for. -/
structure MacVport where
  vportId : Nat
  filters : List MacFilter
  defaultMacAddr : Mac
  devAddr : Mac
  up : Bool
  hw : Mac → Bool
  asked : Mac → Bool

/-- What a call leaves, the messages of it that the device gets, and what it returns. -/
structure MacCall where
  vport : MacVport
  took : List MacRequest := []
  ret : Int := 0

namespace MacVport

/-- `idpf_add_del_mac_filters` for the vport in slot `i`. -/
def addDel (v : MacVport) (i : Nat) (add async : Bool) (env : MacEnv) : MacCall :=
  let r := addDelMacFilters v.filters v.defaultMacAddr v.vportId add env.chunk
  { vport := { v with filters := r.2 }
    took := takenMacs i add (fun k => decide (0 ≤ env.chunk.reply k) || !async && env.applied k) 0
      r.1.msgs
    ret := r.1.ret }

/-- `idpf_add_mac_filter`. -/
def addMacFilter (v : MacVport) (i : Nat) (a : Mac) (async : Bool) (env : MacEnv) : MacCall :=
  match linkMacFilter env.filterAlloc v.filters a with
  | none => { vport := v, ret := -12 }
  | some filters =>
    let v := { v with filters, asked := Function.update v.asked a true }
    if v.up then v.addDel i true async env else { vport := v }

/-- `idpf_del_mac_filter`. -/
def delMacFilter (v : MacVport) (i : Nat) (a : Mac) (async : Bool) (env : MacEnv) : MacCall :=
  if (findMacFilter v.filters a).isNone then { vport := v, ret := -22 }
  else
    let v := { v with
      filters := onMacFilter a (fun f => { f with remove := true }) v.filters
      asked := Function.update v.asked a false }
    if v.up then
      let r := v.addDel i false async env
      if r.ret ≠ 0 then r
      else { r with vport := { r.vport with filters := unlinkMacFilter r.vport.filters a } }
    else { vport := { v with filters := unlinkMacFilter v.filters a } }

/-- `idpf_set_mac`. -/
def setMac (v : MacVport) (i : Nat) (a : Mac) (env : MacEnv) : MacCall :=
  if !isValidEtherAddr a then { vport := v, ret := -99 }
  else if v.devAddr = a then { vport := v }
  else
    let old := v.defaultMacAddr
    let r := { v with defaultMacAddr := a }.addMacFilter i a false env
    if r.ret ≠ 0 then
      { r with vport := { r.vport with
          filters := unlinkMacFilter r.vport.filters a
          defaultMacAddr := v.devAddr
          asked := v.asked } }
    else if isValidEtherAddr old then
      { r with vport := { r.vport with
          filters := unlinkMacFilter r.vport.filters old
          devAddr := a
          asked := Function.update r.vport.asked old false } }
    else { r with vport := { r.vport with devAddr := a } }

/-- `idpf_restore_mac_filters`, when the vport is opened; `opens` is whether it comes up then. -/
def restore (v : MacVport) (i : Nat) (opens : Bool) (env : MacEnv) : MacCall :=
  let marked := v.filters.map fun f => { f with add := true }
  let r := { v with filters := marked }.addDel i true false env
  { r with vport := { r.vport with up := opens } }

/-- `idpf_remove_mac_filters`, when the vport is stopped. -/
def remove (v : MacVport) (i : Nat) (env : MacEnv) : MacCall :=
  let marked := v.filters.map fun f => { f with remove := true }
  { v with up := false, filters := marked }.addDel i false false env

end MacVport

/-- The payload of a reply that reports an error. -/
structure MacPayload where
  replySz : Nat
  vportId : Nat
  numMacAddr : Nat
  macAddr : Nat → Mac

namespace MacPayload

def listed (p : MacPayload) (f : MacFilter) : Nat :=
  (List.range p.numMacAddr).countP fun k => p.macAddr k = f.macaddr

def whole (p : MacPayload) : Bool :=
  decide (8 ≤ p.replySz) && decide (8 + 8 * p.numMacAddr ≤ p.replySz)

end MacPayload

/-- What becomes of the first message in flight: the device carries it out, refuses it, or no reply
comes. -/
inductive MacAnswer where
  | ok
  | refused (p : MacPayload)
  | lost (applied : Bool)

/-- The adapter, with a vport in each of its slots: the asynchronous messages in flight, and the
filters that have been taken off a list and not been freed. -/
structure MacSystem where
  maxVports : Nat
  vport : Nat → MacVport
  flight : List MacRequest
  unfreed : List MacFilter

inductive MacOp where
  | add (i : Nat) (a : Mac) (async : Bool) (env : MacEnv)
  | del (i : Nat) (a : Mac) (async : Bool) (env : MacEnv)
  | setMac (i : Nat) (a : Mac) (env : MacEnv)
  | restore (i : Nat) (opens : Bool) (env : MacEnv)
  | remove (i : Nat) (env : MacEnv)
  | answer (r : MacAnswer)

namespace MacSystem

def setVport (s : MacSystem) (i : Nat) (v : MacVport) : MacSystem :=
  { s with vport := Function.update s.vport i v }

/-- `idpf_vid_to_vport`, with the slot. -/
def vidToVport (s : MacSystem) (vId : Nat) : Option Nat :=
  (List.range s.maxVports).find? fun i => (s.vport i).vportId = vId

/-- `idpf_mac_filter_async_handler` for a reply that reports an error. `none` is a configuration
behind the array, or an entry taken off its list for the second time. -/
def asyncHandler (s : MacSystem) (p : MacPayload) : Option (MacSystem × Int) :=
  if !p.whole then some (s, -22)
  else
    match s.vidToVport p.vportId with
    | none => some (s, -22)
    | some _ =>
      if s.maxVports ≤ p.vportId then none
      else
        let v := s.vport p.vportId
        if v.filters.any fun f => 1 < p.listed f then none
        else
          some ({ s.setVport p.vportId { v with
              filters := v.filters.filter fun f => p.listed f = 0 } with
            unfreed := s.unfreed ++ v.filters.filter fun f => p.listed f ≠ 0 }, 0)

/-- A call that does not wait puts its messages in flight; those of one that waits are carried out
when it returns, and so are those sent before, in their order. -/
def call (s : MacSystem) (i : Nat) (async : Bool) (r : MacCall) : Option MacSystem :=
  if async then some { s.setVport i r.vport with flight := s.flight ++ r.took }
  else if s.flight = [] then
    some (s.setVport i { r.vport with hw := MacRequest.applyAll r.took r.vport.hw })
  else none

def takes (s : MacSystem) (r : MacRequest) : MacSystem :=
  s.setVport r.vport { s.vport r.vport with hw := MacRequest.apply (s.vport r.vport).hw r }

def step (s : MacSystem) : MacOp → Option MacSystem
  | .add i a async env => s.call i async ((s.vport i).addMacFilter i a async env)
  | .del i a async env => s.call i async ((s.vport i).delMacFilter i a async env)
  | .setMac i a env => s.call i false ((s.vport i).setMac i a env)
  | .restore i opens env =>
    if (s.vport i).up then none else s.call i false ((s.vport i).restore i opens env)
  | .remove i env =>
    if (s.vport i).up then s.call i false ((s.vport i).remove i env) else none
  | .answer ans =>
    match s.flight with
    | [] => none
    | r :: flight =>
      let s := { s with flight }
      match ans with
      | .ok => some (s.takes r)
      | .refused p => (s.asyncHandler p).map Prod.fst
      | .lost applied => some (if applied then s.takes r else s)

/-- The filters that the device will have for a vport when it has carried out what is in flight. -/
def due (s : MacSystem) (i : Nat) : Mac → Bool :=
  MacRequest.applyAll (s.flight.filter fun r => r.vport = i) (s.vport i).hw

end MacSystem

/-! What the messages of a call do. -/

/-- Every message about `n` filters has its buffer and is acknowledged. -/
def AllSent (n : Nat) (env : ChunkEnv) : Prop :=
  env.listAlloc = true ∧ ∀ k < (n + numFiltersPerMsg - 1) / numFiltersPerMsg,
    0 ≤ env.reply k ∧ (k = 0 ∨ n < numFiltersPerMsg * (k + 1) → env.chunkAlloc k = true)

theorem macTurns_ret {vportId msgs i total : Nat} {env : ChunkEnv} {held : Bool}
    {macs : List (Option MsgEntry)}
    (sent : ∀ k < msgs, 0 ≤ env.reply (i + k) ∧
      (held = false ∧ k = 0 ∨ total < numFiltersPerMsg * (k + 1) →
        env.chunkAlloc (i + k) = true)) :
    (macTurns vportId env msgs i held macs total).ret = 0 := by
  induction msgs generalizing i total macs held with
  | zero => rfl
  | succ msgs ih =>
      obtain ⟨reply, alloc⟩ := sent 0 (Nat.succ_pos _)
      rw [Nat.add_zero] at reply alloc
      unfold numFiltersPerMsg at sent alloc ih
      have buffer : ¬ ((!held || min total 20 != 20) && !env.chunkAlloc i) = true := by
        intro fails
        simp only [Bool.and_eq_true, Bool.or_eq_true, Bool.not_eq_true', bne_iff_ne] at fails
        have buffer := alloc (fails.1.imp (fun none => ⟨none, rfl⟩) (fun short => by omega))
        rw [Nat.add_zero, fails.2] at buffer
        exact Bool.noConfusion buffer
      rw [macTurns]
      unfold numFiltersPerMsg
      dsimp only
      rw [if_neg buffer, if_neg (Int.not_lt.mpr reply)]
      apply ih
      intro k bound
      have later := sent (k + 1) (by omega)
      rw [show i + 1 + k = i + (k + 1) by omega]
      refine ⟨later.1, fun need => later.2 ?_⟩
      rcases need with ⟨none, -⟩ | short
      · simp at none
      · right
        omega

/-- A loop that returns 0 has all its messages acknowledged. -/
theorem macTurns_taken {vportId msgs i total : Nat} {env : ChunkEnv} {held : Bool}
    {macs : List (Option MsgEntry)} {slot : Nat} {add : Bool} {took : Nat → Bool}
    (all : ∀ k, 0 ≤ env.reply k → took k = true)
    (ret : (macTurns vportId env msgs i held macs total).ret = 0) :
    takenMacs slot add took i (macTurns vportId env msgs i held macs total).msgs =
      (macTurns vportId env msgs i held macs total).msgs.map fun m => ⟨slot, add, m.macs⟩ := by
  induction msgs generalizing i total macs held with
  | zero => rfl
  | succ msgs ih =>
      rw [macTurns] at ret ⊢
      dsimp only at ret ⊢
      split at ret
      · simp at ret
      · next buffer =>
        rw [if_neg buffer]
        split at ret
        · next bad => exact absurd ret (by dsimp only; omega)
        · next good =>
          rw [if_neg good, takenMacs, if_pos (all i (Int.not_lt.mp good)), ih ret, List.map_cons]

theorem applyAll_map (slot : Nat) (add : Bool) (msgs : List ChunkMsg) (hw : Mac → Bool) (a : Mac) :
    MacRequest.applyAll (msgs.map fun m => ⟨slot, add, m.macs⟩) hw a =
      if a ∈ msgs.flatMap ChunkMsg.macs then add else hw a := by
  induction msgs generalizing hw with
  | nil => rfl
  | cons m msgs ih =>
      refine (ih _).trans ?_
      rw [List.flatMap_cons]
      by_cases later : a ∈ msgs.flatMap ChunkMsg.macs
      · rw [if_pos later, if_pos (List.mem_append_right _ later)]
      · rw [if_neg later, MacRequest.apply]
        simp only [List.mem_append, later, or_false]

theorem chunkMacs_eq {msgs : List ChunkMsg} {filters : List MacFilter} {dflt : Mac}
    (whole : msgs.flatMap ChunkMsg.entries = (filters.map (MacFilter.entry dflt)).map some) :
    msgs.flatMap ChunkMsg.macs = filters.map MacFilter.macaddr := by
  have gathered : msgs.flatMap ChunkMsg.macs = (msgs.flatMap ChunkMsg.entries).filterMap fun
      | some (.mac a _) => some a
      | _ => none := List.filterMap_flatMap.symm
  rw [gathered, whole]
  simp [List.filterMap_map, Function.comp_def, MacFilter.entry]

namespace MacVport

variable {v : MacVport} {i : Nat} {add async : Bool} {env : MacEnv}

def marks (v : MacVport) (add : Bool) : Nat := v.filters.countP (MacFilter.wanted add)

def marked (v : MacVport) (add : Bool) : List Mac :=
  (v.filters.filter (MacFilter.wanted add)).map MacFilter.macaddr

/-- A call none of whose messages fails, if it has any. -/
structure Sent (v : MacVport) (add : Bool) (r : MacCall) : Prop where
  ret : r.ret = 0
  vport : r.vport = { v with filters := v.filters.map (MacFilter.cleared add) }
  took : ∀ hw a, MacRequest.applyAll r.took hw a = if a ∈ v.marked add then add else hw a

theorem addDel_slot : ∀ r ∈ (v.addDel i add async env).took, r.vport = i := by
  have taken (took : Nat → Bool) (k : Nat) (msgs : List ChunkMsg) :
      ∀ r ∈ takenMacs i add took k msgs, r.vport = i := by
    induction msgs generalizing k with
    | nil => simp [takenMacs]
    | cons m msgs ih =>
        intro r
        rw [takenMacs]
        split
        · rintro (_ | ⟨_, member⟩)
          · rfl
          · exact ih _ r member
        · exact ih _ r
  exact taken _ _ _

theorem marked_nil (none : v.marks add = 0) : v.marked add = [] := by
  rw [marks, List.countP_eq_length_filter] at none
  rw [marked, List.eq_nil_of_length_eq_zero none, List.map_nil]

theorem cleared_of_none (none : v.marks add = 0) :
    v.filters.map (MacFilter.cleared add) = v.filters := by
  have off := List.countP_eq_zero.mp none
  refine (List.map_congr_left fun f member => ?_).trans (List.map_id _)
  exact if_neg (off f member)

theorem addDel_sent (sent : v.marks add = 0 ∨ AllSent (v.marks add) env.chunk) :
    Sent v add (v.addDel i add async env) := by
  by_cases none : v.marks add = 0
  · have nothing : addDelMacFilters v.filters v.defaultMacAddr v.vportId add env.chunk =
        (⟨[], 0⟩, v.filters) := if_pos none
    constructor
    · rw [addDel, nothing]
    · rw [addDel, nothing, cleared_of_none none]
    · intro hw a
      rw [addDel, nothing, marked_nil none]
      rfl
  · obtain ⟨alloc, all⟩ := sent.resolve_left none
    have full : (v.filters.filter (MacFilter.wanted add)).map (MacFilter.entry v.defaultMacAddr) ≠
        [] := by
      rw [marks, List.countP_eq_length_filter] at none
      intro empty
      exact none (by rw [List.map_eq_nil_iff.mp empty, List.length_nil])
    let c : ChunkSource := ⟨⟨4096, by decide⟩, QVecRsrc.zero true true, [], [], v.filters,
      v.defaultMacAddr, v.vportId⟩
    have count : (c.list (.macs add)).length = v.marks add := chunkSource_macs_length c add
    have msgs := addDelMacFilters_some c add full alloc
    have ret : (addDelMacFilters v.filters v.defaultMacAddr v.vportId add env.chunk).1.ret = 0 := by
      refine (congrArg ChunkSend.ret msgs).trans (macTurns_ret fun k bound => ?_)
      rw [count] at bound ⊢
      rw [Nat.zero_add]
      exact ⟨(all k bound).1, fun need => (all k bound).2 (need.imp_left And.right)⟩
    obtain ⟨enough, tight⟩ := roundUp_turns (c.list (.macs add)).length (p := numFiltersPerMsg)
      (by decide)
    have cover : TurnsCover 8 8 _ ((c.list (.macs add)).map some)
        (addDelMacFilters c.filters c.dflt c.vportId add env.chunk).1 :=
      msgs ▸ macTurns_cover (Nat.le_refl _) (List.length_map _) enough tight
    constructor
    · exact ret
    · have left : (addDelMacFilters v.filters v.defaultMacAddr v.vportId add env.chunk).2 =
          v.filters.map (MacFilter.cleared add) := by
        rw [addDelMacFilters, if_neg (show ¬ v.filters.countP _ = 0 from none), alloc, fillMacs_eq]
        rfl
      rw [addDel, left]
    · intro hw a
      have taken : (v.addDel i add async env).took =
          (addDelMacFilters c.filters c.dflt c.vportId add env.chunk).1.msgs.map
            fun m => ⟨i, add, m.macs⟩ := by
        change takenMacs i add _ 0
          (addDelMacFilters c.filters c.dflt c.vportId add env.chunk).1.msgs = _
        rw [msgs]
        exact macTurns_taken (fun k good => by simp [good]) (msgs ▸ ret)
      rw [taken, applyAll_map, chunkMacs_eq (cover.whole ret)]
      rfl

theorem addDel_failed (some : v.marks add ≠ 0) (fails : env.chunk.listAlloc = false) :
    v.addDel i add async env = { vport := v, ret := -12 } := by
  have nothing : addDelMacFilters v.filters v.defaultMacAddr v.vportId add env.chunk =
      (⟨[], -12⟩, v.filters) := by
    rw [addDelMacFilters, if_neg (show ¬ v.filters.countP _ = 0 from some), fails]
    rfl
  rw [addDel, nothing]
  rfl

end MacVport

end Idpf
