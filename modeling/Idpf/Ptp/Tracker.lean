import Mathlib.Data.List.Basic

/-! The tracker of Tx timestamps: one entry a latch, searched for the packet's buffer and for the
state that is expected of it. -/
namespace Idpf

/-- `idpf_ptp_tx_tstamp_state` -/
inductive TsState where
  | free
  | request
  | readValue
  deriving DecidableEq, Repr

/-- `idpf_ptp_tx_tstamp_status`, with the address of the packet's buffer. -/
structure TsStatus where
  skb : Option Nat
  state : TsState
  deriving DecidableEq, Repr

theorem TsState.request_ne_free : TsState.request ≠ .free := fun same => TsState.noConfusion same

theorem TsState.readValue_ne_free : TsState.readValue ≠ .free :=
  fun same => TsState.noConfusion same

namespace TsStatus

def busy (t : TsStatus) : Bool := t.state ≠ .free

/-- An entry that is given a new state; a free one follows no packet. -/
def moved (t : TsStatus) (expected : TsState) : TsStatus where
  skb := if expected = .free then none else t.skb
  state := expected

/-- `idpf_ptp_update_tstamp_tracker`; `none` where there is no such entry. -/
def update (skb : Option Nat) (current expected : TsState) :
    List TsStatus → Option (List TsStatus)
  | [] => none
  | t :: ts =>
    if t.skb = skb ∧ t.state = current then some (t.moved expected :: ts)
    else (update skb current expected ts).map (t :: ·)

/-- The loop of `idpf_tx_read_tstamp`: the first free entry follows the packet. -/
def claim (skb : Nat) : List TsStatus → Option (List TsStatus)
  | [] => none
  | t :: ts =>
    if t.state ≠ .free then (claim skb ts).map (t :: ·)
    else some (⟨some skb, .request⟩ :: ts)

def followed (ts : List TsStatus) : List (Option Nat) := (ts.filter busy).map (·.skb)

variable {skb : Option Nat} {current expected : TsState} {ts ts' : List TsStatus}

theorem update_spec (found : update skb current expected ts = some ts') :
    ∃ before after, ts = before ++ ⟨skb, current⟩ :: after ∧
      ts' = before ++ (TsStatus.mk skb current).moved expected :: after := by
  induction ts generalizing ts' with
  | nil => exact absurd found.symm (Option.some_ne_none _)
  | cons t ts ih =>
      unfold update at found
      split at found
      next same =>
        obtain rfl := Option.some.inj found
        obtain ⟨rfl, rfl⟩ := same
        exact ⟨[], ts, rfl, rfl⟩
      · obtain ⟨rest, changed, rfl⟩ := Option.map_eq_some_iff.mp found
        obtain ⟨before, after, rfl, rfl⟩ := ih changed
        exact ⟨t :: before, after, rfl, rfl⟩

theorem update_none (missing : update skb current expected ts = none) :
    ⟨skb, current⟩ ∉ ts := by
  induction ts with
  | nil => exact List.not_mem_nil
  | cons t ts ih =>
      unfold update at missing
      split at missing
      · exact absurd missing (Option.some_ne_none _)
      next other =>
        intro member
        cases List.mem_cons.mp member with
        | inl here =>
            exact other ⟨congrArg TsStatus.skb here.symm, congrArg TsStatus.state here.symm⟩
        | inr rest => exact ih (Option.map_eq_none_iff.mp missing) rest

theorem claim_spec {p : Nat} (found : claim p ts = some ts') :
    ∃ before t after, ts = before ++ t :: after ∧ t.state = .free ∧
      ts' = before ++ ⟨some p, .request⟩ :: after := by
  induction ts generalizing ts' with
  | nil => exact absurd found.symm (Option.some_ne_none _)
  | cons t ts ih =>
      unfold claim at found
      split at found
      · obtain ⟨rest, changed, rfl⟩ := Option.map_eq_some_iff.mp found
        obtain ⟨before, u, after, rfl, free, rfl⟩ := ih changed
        exact ⟨t :: before, u, after, rfl, free, rfl⟩
      next free =>
        obtain rfl := Option.some.inj found
        exact ⟨[], t, ts, rfl, not_not.mp free, rfl⟩

theorem followed_length {p : Nat} (missing : claim p ts = none) :
    (followed ts).length = ts.length := by
  induction ts with
  | nil => rfl
  | cons t ts ih =>
      unfold claim at missing
      split at missing
      next taken =>
        have rest := ih (Option.map_eq_none_iff.mp missing)
        have busy : t.busy = true := decide_eq_true taken
        unfold followed at rest ⊢
        rw [List.filter_cons_of_pos busy, List.map_cons, List.length_cons, List.length_cons, rest]
      · exact absurd missing (Option.some_ne_none _)

theorem mem_followed {x : Option Nat} :
    x ∈ followed ts ↔ ∃ state, state ≠ .free ∧ ⟨x, state⟩ ∈ ts := by
  unfold followed
  constructor
  · intro member
    obtain ⟨t, kept, rfl⟩ := List.mem_map.mp member
    obtain ⟨inside, busy⟩ := List.mem_filter.mp kept
    exact ⟨t.state, of_decide_eq_true busy, inside⟩
  · intro ⟨state, taken, inside⟩
    exact List.mem_map.mpr ⟨_, List.mem_filter.mpr ⟨inside, decide_eq_true taken⟩, rfl⟩

theorem followed_append (ts us : List TsStatus) :
    followed (ts ++ us) = followed ts ++ followed us := by
  unfold followed
  rw [List.filter_append, List.map_append]

theorem followed_busy {state : TsState} (taken : state ≠ .free) :
    followed (⟨skb, state⟩ :: ts) = skb :: followed ts := by
  have busy : (TsStatus.mk skb state).busy = true := decide_eq_true taken
  unfold followed
  rw [List.filter_cons_of_pos busy, List.map_cons]

theorem followed_free {t : TsStatus} (free : t.state = .free) :
    followed (t :: ts) = followed ts := by
  have idle : ¬ t.busy = true := fun busy => of_decide_eq_true busy free
  unfold followed
  rw [List.filter_cons_of_neg idle]

theorem update_length (found : update skb current expected ts = some ts') :
    ts'.length = ts.length := by
  obtain ⟨before, after, rfl, rfl⟩ := update_spec found
  simp only [List.length_append, List.length_cons]

theorem followed_update (taken : current ≠ .free) (stays : expected ≠ .free)
    (found : update skb current expected ts = some ts') : followed ts' = followed ts := by
  obtain ⟨before, after, rfl, rfl⟩ := update_spec found
  unfold moved
  rw [if_neg stays, followed_append, followed_append, followed_busy taken, followed_busy stays]

theorem followed_freed (taken : current ≠ .free)
    (found : update skb current .free ts = some ts') :
    (followed ts).Perm (skb :: followed ts') := by
  obtain ⟨before, after, rfl, rfl⟩ := update_spec found
  rw [followed_append, followed_append, followed_busy taken, followed_free rfl]
  exact List.perm_middle

theorem mem_update (once : (followed ts).Nodup) (taken : current ≠ .free)
    (found : update skb current expected ts = some ts') {u : TsStatus} (member : u ∈ ts') :
    u = (TsStatus.mk skb current).moved expected ∨ u ∈ ts ∧ (u.state ≠ .free → u.skb ≠ skb) := by
  obtain ⟨before, after, rfl, rfl⟩ := update_spec found
  rw [followed_append, followed_busy taken] at once
  obtain ⟨away, -⟩ := List.nodup_cons.mp (List.perm_middle.nodup_iff.mp once)
  have other (inside : u ∈ before ++ after) (busy : u.state ≠ .free) : u.skb ≠ skb := by
    rintro rfl
    rw [← followed_append] at away
    exact away (mem_followed.mpr ⟨u.state, busy, inside⟩)
  cases List.mem_append.mp member with
  | inl left =>
      exact .inr ⟨List.mem_append_left _ left, other (List.mem_append_left _ left)⟩
  | inr right =>
      cases List.mem_cons.mp right with
      | inl here => exact .inl here
      | inr rest =>
          exact .inr ⟨List.mem_append_right _ (List.mem_cons_of_mem _ rest),
            other (List.mem_append_right _ rest)⟩

theorem mem_update_of_ne (found : update skb current expected ts = some ts') {u : TsStatus}
    (member : u ∈ ts) (other : u.skb ≠ skb) : u ∈ ts' := by
  obtain ⟨before, after, rfl, rfl⟩ := update_spec found
  cases List.mem_append.mp member with
  | inl left => exact List.mem_append_left _ left
  | inr right =>
      cases List.mem_cons.mp right with
      | inl here => exact absurd (congrArg TsStatus.skb here) other
      | inr rest => exact List.mem_append_right _ (List.mem_cons_of_mem _ rest)

theorem claim_length {p : Nat} (found : claim p ts = some ts') : ts'.length = ts.length := by
  obtain ⟨before, t, after, rfl, -, rfl⟩ := claim_spec found
  simp only [List.length_append, List.length_cons]

theorem followed_claim {p : Nat} (found : claim p ts = some ts') :
    (followed ts').Perm (some p :: followed ts) := by
  obtain ⟨before, t, after, rfl, free, rfl⟩ := claim_spec found
  rw [followed_append, followed_append, followed_busy TsState.request_ne_free, followed_free free]
  exact List.perm_middle

theorem mem_claim {p : Nat} (found : claim p ts = some ts') {u : TsStatus} (member : u ∈ ts') :
    u = ⟨some p, .request⟩ ∨ u ∈ ts := by
  obtain ⟨before, t, after, rfl, -, rfl⟩ := claim_spec found
  cases List.mem_append.mp member with
  | inl left => exact .inr (List.mem_append_left _ left)
  | inr right =>
      cases List.mem_cons.mp right with
      | inl here => exact .inl here
      | inr rest => exact .inr (List.mem_append_right _ (List.mem_cons_of_mem _ rest))

end TsStatus

end Idpf
