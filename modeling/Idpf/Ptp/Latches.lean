import Idpf.General.Transition
import Idpf.Ptp.Tracker
import Mathlib.Data.List.Perm.Basic
import Mathlib.Data.Multiset.MapFold

/-! The Tx timestamp latches of a vport, from the transmit path through the completion and the read
over the mailbox to the stack. The lists stay under their lock for a whole request, read or reply,
so that these are one step each. -/
namespace Idpf
open General

/-- `idpf_ptp_tx_tstamp`, with the address of the packet's buffer. `id` tells the latches apart, and
`pkt`, which is history, is the packet that the latch was taken for. -/
structure TsLatch where
  id : Nat
  idx : Nat
  skb : Option Nat
  pkt : Nat
  deriving DecidableEq, Repr

/-- One latch of a reply. `measured` is the packet whose departure the value is about. -/
structure TsEntry where
  index : Nat
  valid : Bool
  measured : Nat

/-- A vport as far as it is about Tx timestamps. `refs` are the references to buffers that latches
hold; `touched` says that the latches were used after their release. `flight` are the packets that
have a latch and have not left their queue, `reads` the messages that wait for a reply, with index
and packet of each latch asked for, `stamps` the timestamps given to the stack: whose packet's, and
what was measured. -/
structure TsVport where
  numEntries : Nat
  free : List TsLatch
  inUse : List TsLatch
  status : List TsStatus
  refs : Multiset Nat
  queued : Bool
  released : Bool
  touched : Bool
  sent : Nat
  flight : List (Nat × Nat)
  reads : List (List (Nat × Nat))
  stamps : List (Nat × Nat)

/-- The steps. `leave` is a packet that goes without its timestamp being read: dropped on the
transmit path, cleaned with the ring, or freed with the queue. `lost` is a message that never has a
reply. -/
inductive TsOp where
  | xmit (skb : Nat)
  | complete (i : Nat)
  | leave (i : Nat)
  | task (alloc sent : Bool)
  | reply (k : Nat) (entries : List TsEntry)
  | lost (k : Nat)
  | release

namespace TsVport

/-- `idpf_ptp_request_ts`. The queues keep their pointer to the latches beyond the release. -/
def requestTs (s : TsVport) (skb : Nat) : TsVport :=
  if s.released then { s with touched := true }
  else
    match s.free with
    | [] => s
    | l :: rest =>
      { s with
        free := rest
        inUse := { l with
          skb := some skb
          pkt := s.sent } :: s.inUse
        refs := skb ::ₘ s.refs
        sent := s.sent + 1
        flight := (skb, s.sent) :: s.flight }

/-- `idpf_tx_read_tstamp` -/
def readTstamp (s : TsVport) (skb : Nat) : TsVport :=
  if s.released then { s with touched := true }
  else
    match TsStatus.claim skb s.status with
    | none => s
    | some status =>
      { s with
        status := status
        queued := true }

/-- The loop of `idpf_ptp_get_tx_tstamp` over the latches in use: the tracker after it, and the
latches that are asked for. -/
def collect : List TsLatch → List TsStatus → List TsStatus × List (Nat × Nat)
  | [], status => (status, [])
  | l :: ls, status =>
    match TsStatus.update l.skb .request .readValue status with
    | none => collect ls status
    | some status =>
      let r := collect ls status
      (r.1, (l.idx, l.pkt) :: r.2)

/-- `idpf_ptp_get_tx_tstamp` -/
def getTxTstamp (s : TsVport) (alloc sent : Bool) : TsVport :=
  if !alloc then s
  else
    let r := collect s.inUse s.status
    { s with
      status := r.1
      reads := if sent then s.reads ++ [r.2] else s.reads }

def emptied (l : TsLatch) : TsLatch := { l with skb := none }

/-- The references left after `consume_skb`. -/
def consume (refs : Multiset Nat) (skb : Option Nat) : Multiset Nat := skb.elim refs refs.erase

/-- `idpf_ptp_get_tstamp_value` on a latch just taken off its list, and whether it went well. -/
def getTstampValue (s : TsVport) (l : TsLatch) (measured : Nat) : TsVport × Bool :=
  match TsStatus.update l.skb .readValue .free s.status with
  | none =>
    ({ s with
      refs := consume s.refs l.skb
      free := emptied l :: s.free }, false)
  | some status =>
    ({ s with
      status := status
      stamps := (l.pkt, measured) :: s.stamps
      refs := consume s.refs l.skb
      free := emptied l :: s.free }, true)

/-- The loop of `idpf_ptp_get_tx_tstamp_async_handler`. -/
def handle (s : TsVport) : List TsEntry → TsVport
  | [] => s
  | e :: es =>
    if !e.valid then s.handle es
    else if s.inUse.isEmpty then s
    else
      match s.inUse.find? fun l => l.idx = e.index with
      | none => s.handle es
      | some l =>
        let r := { s with inUse := s.inUse.erase l }.getTstampValue l e.measured
        if r.2 then r.1.handle es else r.1

/-- `idpf_ptp_release_vport_tstamp` -/
def release (s : TsVport) : TsVport :=
  { s with
    queued := false
    free := []
    inUse := []
    status := []
    refs := s.inUse.foldl (fun refs l => consume refs l.skb) s.refs
    released := true }

/-- One step. A buffer that comes to be sent is in no queue and is held by no latch; the work may
also run when nothing is queued, for a completion queues it while it runs. -/
def step (s : TsVport) : TsOp → Option TsVport
  | .xmit skb =>
    if skb ∈ s.flight.map Prod.fst ∨ skb ∈ s.refs then none else some (s.requestTs skb)
  | .complete i =>
    match s.flight[i]? with
    | none => none
    | some p => some ({ s with flight := s.flight.eraseIdx i }.readTstamp p.1)
  | .leave i =>
    if i < s.flight.length then some { s with flight := s.flight.eraseIdx i } else none
  | .task alloc sent =>
    if s.released then none else some ({ s with queued := false }.getTxTstamp alloc sent)
  | .reply k entries =>
    if k < s.reads.length then
      let s' := { s with reads := s.reads.eraseIdx k }
      some (if s.released then s' else s'.handle entries)
    else none
  | .lost k =>
    if k < s.reads.length then some { s with reads := s.reads.eraseIdx k } else none
  | .release => some (if s.released then s else s.release)

/-- The latches of a reply to GET_VPORT_TX_TSTAMP_CAPS, each put at the head of the free list. -/
def start (indexes : List Nat) : TsVport where
  numEntries := indexes.length
  free := (indexes.mapIdx fun i index => ⟨i, index, none, 0⟩).reverse
  inUse := []
  status := List.replicate indexes.length ⟨none, .free⟩
  refs := 0
  queued := false
  released := false
  touched := false
  sent := 0
  flight := []
  reads := []
  stamps := []

/-- A latch in use waits for a packet in flight, for a read that is queued, or for the reply to a
read. -/
def Awaited (s : TsVport) (l : TsLatch) : Prop :=
  (∃ p, l.skb = some p ∧ (p, l.pkt) ∈ s.flight) ∨
    (s.queued = true ∧ ⟨l.skb, .request⟩ ∈ s.status) ∨
    (⟨l.skb, .readValue⟩ ∈ s.status ∧ ∃ asked ∈ s.reads, (l.idx, l.pkt) ∈ asked)

/-- What has to hold: until the release each latch is once in one of the lists, after it in none;
the references held are those of the latches in use, one each; each of these is awaited, so that
all latches are free when nothing is under way; a packet has at most one timestamp, its own; and
nothing released is used. -/
structure Kept (s : TsVport) : Prop where
  latches : ((s.free ++ s.inUse).map TsLatch.id).Perm
    (if s.released then [] else List.range s.numEntries)
  refs : ((s.inUse.map TsLatch.skb : List (Option Nat)) : Multiset (Option Nat)) =
    s.refs.map some
  idle : ∀ l ∈ s.free, l.skb = none
  awaited : ∀ l ∈ s.inUse, s.Awaited l
  undrained : s.flight = [] → s.queued = false → s.reads = [] → s.inUse = []
  own : ∀ x ∈ s.stamps, x.1 = x.2
  once : (s.stamps.map Prod.fst).Nodup
  untouched : s.touched = false

/-- A valid entry is about a latch that was read, with the timestamp of its packet. -/
def fits (s : TsVport) (e : TsEntry) : Bool :=
  !e.valid || s.inUse.all fun l =>
    l.idx ≠ e.index || (l.pkt = e.measured && ⟨l.skb, .readValue⟩ ∈ s.status)

/-- No latch waits for the reply to message `k`, up to those that `answered` is about. -/
def settled (s : TsVport) (k : Nat) (answered : Nat → Bool) : Bool :=
  s.inUse.all fun l =>
    ((s.reads[k]?).getD []).all (fun asked => asked ≠ (l.idx, l.pkt)) || answered l.idx

/-- The steps after which each latch is still accounted for: no packet goes without its timestamp
being read, no read that was requested fails, a reply answers, with valid latches and the right
timestamps, all that is waited for, and the latches are not used after their release, nor one index
by two packets. -/
def ok (s : TsVport) : TsOp → Bool
  | .xmit _ => !s.released && (s.free.head?.all fun l => l.idx ∉ s.inUse.map TsLatch.idx)
  | .complete _ => !s.released
  | .leave _ => s.released
  | .task alloc sent => (alloc && sent) || s.status.all fun t => t.state ≠ .request
  | .reply k entries =>
    s.released || (entries.all s.fits &&
      s.settled k fun index => entries.any fun e => e.valid && e.index = index)
  | .lost k => s.released || s.settled k fun _ => false
  | .release => true

end TsVport

end Idpf
