import Idpf.Tx.Frame

/-! Copy-mode XDP transmission of single-buffer frames. -/
namespace Idpf
open General

/-- Result of `idpf_xmit_xdpq`: `sent` stands for `IDPF_XDP_TX`. -/
structure XdpResult where
  q : TxQueue
  sent : Bool
  charged : Nat
  mapped : List (Nat × DmaMap)

/-- `idpf_xmit_xdpq` on a split queue; `dma` is the result of mapping the frame.
`idpf_prepare_xdp_tx_splitq_desc` assigns `eop_cmd`, so the RE bit or-ed into it
before is not in the descriptor although it has been charged. -/
def txXmitXdpq (q : TxQueue) (frame size : Nat) (dma : Option Nat) : XdpResult :=
  match dma with
  | none => ⟨q, false, 0, []⟩
  | some addr =>
    let m : DmaMap := ⟨addr, q.mem.nextMap⟩
    let q := { q with mem := { q.mem with nextMap := q.mem.nextMap + 1 } }
    if q.descUnused = 0 then ⟨q.record (.unmap m), false, 0, []⟩
    else
      let ntu := q.nextToUse
      match nextBufId q ntu with
      | none => ⟨q.record (.unmap m), false, 0, []⟩
      | some (buf, q') =>
        let re := q.flowSchEn && txSplitqNeedRe q.descCount ntu q.lastRe
        let q' := q'.modBuf buf fun e =>
          { e with
            type := .xdpTx, rsIdx := ntu, skb := frame, dma := m, len := size
            packets := 1, bytes := size, next := none }
        ⟨{ q' with
            lastRe := if re then ntu else q.lastRe
            ring := Function.update q.ring ntu (.data addr size buf true false)
            nextToUse := bump q.descCount ntu },
          true, re.toNat, [(buf, m)]⟩

def xdpFits (q : TxQueue) (dma : Option Nat) : Bool :=
  dma.isSome && q.descUnused != 0 && (nextRefill q.flowSchEn q.refillq).isSome

def xdpAsksRe (q : TxQueue) : Bool :=
  q.flowSchEn && txSplitqNeedRe q.descCount q.nextToUse q.lastRe

/-- A frame that fits is sent; any other leaves the queue as it was but for the
kernel's memory. -/
theorem txXmitXdpq_cases (q : TxQueue) (frame size : Nat) (dma : Option Nat) :
    let r := txXmitXdpq q frame size dma
    (xdpFits q dma = false ∧ r.sent = false ∧ r.charged = 0 ∧ q.OnlyBufs r.q) ∨
      (xdpFits q dma = true ∧ r.sent = true ∧ r.charged = (xdpAsksRe q).toNat ∧
        r.q.descCount = q.descCount ∧ r.q.nextToClean = q.nextToClean ∧
        r.q.nextToUse = bump q.descCount q.nextToUse) := by
  unfold xdpFits txXmitXdpq
  cases dma with
  | none => exact .inl ⟨rfl, rfl, rfl, rfl⟩
  | some addr =>
      by_cases full : q.descUnused = 0
      · refine .inl ?_
        have full' : { q with
          mem := { q.mem with nextMap := q.mem.nextMap + 1 } }.descUnused = 0 := full
        simp only [full, full', if_true, bne_self_eq_false, Bool.and_false, Bool.false_and,
          true_and]
        rfl
      · have full' : { q with
          mem := { q.mem with nextMap := q.mem.nextMap + 1 } }.descUnused ≠ 0 := full
        have refill := nextBufId_refill
          { q with mem := { q.mem with nextMap := q.mem.nextMap + 1 } } q.nextToUse
        cases got : nextBufId
            { q with mem := { q.mem with nextMap := q.mem.nextMap + 1 } } q.nextToUse with
        | none =>
            rw [got] at refill
            have spent : nextRefill q.flowSchEn q.refillq = none := refill.symm
            refine .inl ?_
            simp only [if_neg full', got, spent, Option.isSome_none, Bool.and_false, true_and]
            rfl
        | some r =>
            rw [got] at refill
            have more : (nextRefill q.flowSchEn q.refillq).isSome = true :=
              congrArg Option.isSome refill.symm
            have only := nextBufId_onlyBufs got
            refine .inr ?_
            simp only [if_neg full', got, more, Option.isSome_some, Bool.and_true, Bool.true_and,
              bne_iff_ne, ne_eq, full, not_false_eq_true, true_and, xdpAsksRe]
            exact ⟨only.same.descCount, only.same.nextToClean, trivial⟩

/-- What a refused frame leaves: its mapping, if there was one, is undone. -/
def XdpRefused (q : TxQueue) (dma : Option Nat) (r : XdpResult) : Prop :=
  r.sent = false ∧ r.mapped = [] ∧ r.q = { q with mem := { q.mem with
    nextMap := q.mem.nextMap + dma.isSome.toNat
    log := q.mem.log ++ dma.toList.map fun addr => .unmap ⟨addr, q.mem.nextMap⟩ } }

/-- What a frame put on the ring with buffer `b` leaves. -/
structure XdpSent (q : TxQueue) (frame size addr b : Nat) (r : XdpResult) : Prop where
  sent : r.sent = true
  mapped : r.mapped = [(b, ⟨addr, q.mem.nextMap⟩)]
  bufs : r.q.bufs = Function.update q.bufs b { q.bufs b with
    type := .xdpTx, rsIdx := q.nextToUse, skb := frame, dma := ⟨addr, q.mem.nextMap⟩, len := size
    packets := 1, bytes := size, next := none }
  mem : r.q.mem = { q.mem with nextMap := q.mem.nextMap + 1 }
  room : q.descUnused ≠ 0
  flow : r.q.flowSchEn = q.flowSchEn
  use : r.q.nextToUse = bump q.descCount q.nextToUse
  clean : r.q.nextToClean = q.nextToClean
  count : r.q.descCount = q.descCount
  size : r.q.bufPoolSize = q.bufPoolSize
  missTag : r.q.missTagEn = q.missTagEn

/-- On a flow-scheduled queue a frame is refused, or takes the oldest free ID. -/
theorem txXmitXdpq_flow {q : TxQueue} {free : List Nat} (flow : q.flowSchEn = true)
    (refill : RflFree q.refillq free) (frame size : Nat) (dma : Option Nat) :
    XdpRefused q dma (txXmitXdpq q frame size dma) ∨
      ∃ addr b rest, dma = some addr ∧ free = b :: rest ∧
        XdpSent q frame size addr b (txXmitXdpq q frame size dma) ∧
        RflFree (txXmitXdpq q frame size dma).q.refillq rest ∧
        (txXmitXdpq q frame size dma).q.refillq.descCount = q.refillq.descCount := by
  cases dma with
  | none =>
      refine .inl ⟨rfl, rfl, ?_⟩
      simp [txXmitXdpq]
  | some addr =>
      by_cases full : { q with
          mem := { q.mem with nextMap := q.mem.nextMap + 1 } }.descUnused = 0
      · refine .inl ?_
        rw [txXmitXdpq]
        dsimp only
        rw [if_pos full]
        exact ⟨rfl, rfl, rfl⟩
      · cases free with
        | nil =>
            refine .inl ?_
            rw [txXmitXdpq]
            dsimp only
            rw [if_neg full, nextBufId, if_pos flow, refill.get_none]
            exact ⟨rfl, rfl, rfl⟩
        | cons b rest =>
            obtain ⟨r, got, left, size'⟩ := refill.get
            refine .inr ⟨addr, b, rest, rfl, rfl, ?_⟩
            rw [txXmitXdpq]
            dsimp only
            rw [if_neg full, nextBufId, if_pos flow, got]
            exact ⟨⟨rfl, rfl, rfl, rfl, full, rfl, rfl, rfl, rfl, rfl, rfl⟩, left, size'⟩

/-- On a queue scheduled by its ring a frame is refused, or takes the buffer of its
descriptor. -/
theorem txXmitXdpq_ring {q : TxQueue} (ring : q.flowSchEn = false) (frame size : Nat)
    (dma : Option Nat) : XdpRefused q dma (txXmitXdpq q frame size dma) ∨
      ∃ addr, dma = some addr ∧
        XdpSent q frame size addr q.nextToUse (txXmitXdpq q frame size dma) := by
  cases dma with
  | none =>
      refine .inl ⟨rfl, rfl, ?_⟩
      simp [txXmitXdpq]
  | some addr =>
      have flow : ¬ q.flowSchEn = true := by rw [ring]; exact Bool.false_ne_true
      by_cases full : { q with
          mem := { q.mem with nextMap := q.mem.nextMap + 1 } }.descUnused = 0
      · refine .inl ?_
        rw [txXmitXdpq]
        dsimp only
        rw [if_pos full]
        exact ⟨rfl, rfl, rfl⟩
      · refine .inr ⟨addr, rfl, ?_⟩
        rw [txXmitXdpq]
        dsimp only
        rw [if_neg full, nextBufId, if_neg flow]
        exact ⟨rfl, rfl, rfl, rfl, full, rfl, rfl, rfl, rfl, rfl, rfl⟩

end Idpf
