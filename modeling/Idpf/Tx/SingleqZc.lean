import Idpf.Tx.ZeroCopy
import Idpf.Tx.CompletionRing

/-! A Tx queue of the single queue model with an AF_XDP pool. RS is set on the last
descriptor of a batch only, and one poll cleans up to the descriptor that carries it. -/
namespace Idpf
open General

/-- A base descriptor of this path, with RS next to EOP and the type field the
device writes back. -/
structure XskBaseDesc where
  addr : Nat := 0
  len : Nat := 0
  rs : Bool := false
  done : Bool := false
  deriving DecidableEq, Repr

/-- The queue with its base descriptors; `nextRsIdx` is `xdp_next_rs_idx`. -/
structure XskSingleqTxq where
  x : XskTxq
  base : Nat → XskBaseDesc
  nextRsIdx : Nat

/-- A batch of `idpf_xmit_singleq_zc` under way; `last` is the slot `tx_desc` points to,
with the frame in it. -/
structure XskSingleqBatch where
  s : XskSingleqTxq
  ntu : Nat
  last : Option (Nat × XskDesc)

/-- One frame is put into the buffer and the descriptor of its slot. -/
def xskSingleqPut (b : XskSingleqBatch) (d : XskDesc) (pool : List XskDesc) : XskSingleqBatch where
  s :=
    { x := { b.s.x with q := b.s.x.q.modBuf b.ntu fun e => { e with bytes := d.len }, pool }
      base := Function.update b.s.base b.ntu ⟨d.addr, d.len, false, false⟩
      nextRsIdx := b.ntu }
  ntu := bump b.s.x.q.descCount b.ntu
  last := some (b.ntu, d)

/-- The loop of `idpf_xmit_singleq_zc`, and whether budget is left behind it. -/
def xskSingleqTurns : Nat → XskSingleqBatch → XskSingleqBatch × Bool
  | 0, b => (b, false)
  | budget + 1, b =>
    match b.s.x.pool with
    | [] => (b, decide (0 < budget))
    | d :: pool => xskSingleqTurns budget (xskSingleqPut b d pool)

/-- `idpf_xmit_singleq_zc`. -/
def xmitSingleqZc (s : XskSingleqTxq) (budget : Nat) : XskSingleqTxq × Bool :=
  let r := xskSingleqTurns (min budget s.x.q.descUnused) ⟨s, s.x.q.nextToUse, none⟩
  match r.1.last with
  | none => (r.1.s, r.2)
  | some (i, d) =>
    ({ r.1.s with
        x := { r.1.s.x with q := { r.1.s.x.q with nextToUse := r.1.ntu } }
        base := Function.update r.1.s.base i ⟨d.addr, d.len, true, false⟩ }, r.2)

/-- `idpf_prepare_for_xmit_zc`. -/
def prepareForXmitZc (q : TxQueue) : Nat := min q.descUnused (q.descCount / 4)

/-- `frames_ready` of `idpf_tx_singleq_clean_zc`, whose `ntc` is an `s16`. -/
def singleqFramesReady (s : XskSingleqTxq) : Nat :=
  let ntc := s16 s.x.q.nextToClean
  if (s.base s.nextRsIdx).done then
    if (s.nextRsIdx : Int) ≥ ntc then ((s.nextRsIdx - ntc) % 65536).toNat
    else ((s.nextRsIdx + s.x.q.descCount - ntc) % 65536).toNat
  else 0

/-- What a poll leaves: the queue, `*cleaned` and the value returned. -/
structure XskPoll where
  s : XskSingleqTxq
  cleaned : Nat
  done : Bool

/-- `idpf_tx_singleq_clean_zc`. -/
def txSingleqCleanZc (s : XskSingleqTxq) : XskPoll :=
  let r := txCleanZc s.x s.x.q.nextToClean (singleqFramesReady s) 0 {}
  let t := xmitSingleqZc { s with x := r.x } (prepareForXmitZc r.x.q)
  ⟨t.1, r.ss.packets, t.2⟩

def XskSingleqTxq.writeBack (s : XskSingleqTxq) (i : Nat) : XskSingleqTxq :=
  { s with base := Function.update s.base i { s.base i with done := true } }

/-- A queue that has just been set up, with frames waiting in its pool. -/
def xskSingleqAlloc (descCount : Nat) (pool : List XskDesc) (frameLen : Nat) : XskSingleqTxq where
  x := ⟨{ txQueueAlloc descCount descCount 8 true with flowSchEn := false }, 0, pool, frameLen, 0,
    []⟩
  base := fun _ => {}
  nextRsIdx := 0

/-- A ring of the single queue model with both of its indices inside. -/
structure XskSingleqTxq.OnRing (s : XskSingleqTxq) : Prop where
  size : s.x.q.descCount ≤ maxDescs
  clean : s.x.q.nextToClean < s.x.q.descCount
  rs : s.nextRsIdx < s.x.q.descCount
  mode : s.x.q.flowSchEn = false

/-- `XDP_TX` frames among `slots`; the others are frames of user space. -/
def XskTxq.xdpIn (x : XskTxq) (slots : List Nat) : List Nat :=
  slots.filter fun b => (x.q.bufs b).skb ≠ 0

def XskTxq.xskIn (x : XskTxq) (slots : List Nat) : Nat :=
  slots.countP fun b => (x.q.bufs b).skb = 0

/-- Exactly the frames in `slots` are completed: each `XDP_TX` frame is unmapped and
returned, the others are counted for the pool, and `next_to_clean` is behind them. -/
structure ZcCleaned (x : XskTxq) (slots : List Nat) (t : XskTxq) (cleaned : Nat) : Prop where
  returned : t.returned = x.returned ++ (x.xdpIn slots).map fun b => (x.q.bufs b).skb
  unmapped : t.q.mem.log = x.q.mem.log ++ (x.xdpIn slots).map fun b => .unmap (x.q.bufs b).dma
  cleared : ∀ b ∈ slots, (t.q.bufs b).skb = 0
  kept : ∀ b ∉ slots, (t.q.bufs b).skb = (x.q.bufs b).skb
  completed : t.completed = x.completed + x.xskIn slots
  cleaned : cleaned = slots.length
  next : t.q.nextToClean = (x.q.nextToClean + slots.length) % x.q.descCount

/-- The slots from `next_to_clean` up to the RS descriptor, without it. -/
def XskSingleqTxq.beforeRs (s : XskSingleqTxq) : List Nat :=
  ringSlots s.x.q.descCount s.x.q.nextToClean
    (ringDist s.x.q.descCount s.x.q.nextToClean s.nextRsIdx)

def XskSingleqTxq.throughRs (s : XskSingleqTxq) : List Nat :=
  ringSlots s.x.q.descCount s.x.q.nextToClean
    (ringDist s.x.q.descCount s.x.q.nextToClean s.nextRsIdx + 1)

section Ready

variable {s : XskSingleqTxq}

/-- The count is the distance to the RS descriptor, which leaves that one out. -/
theorem singleqFramesReady_done (v : s.OnRing) (done : (s.base s.nextRsIdx).done = true) :
    singleqFramesReady s = ringDist s.x.q.descCount s.x.q.nextToClean s.nextRsIdx := by
  have size := v.size
  have clean := v.clean
  have rs := v.rs
  have small : s16 (s.x.q.nextToClean : Int) = s.x.q.nextToClean := by
    unfold s16
    unfold maxDescs at size
    omega
  unfold singleqFramesReady ringDist
  dsimp only
  rw [small, if_pos done]
  unfold maxDescs at size
  split <;> split <;> omega

theorem throughRs_length (s : XskSingleqTxq) : s.throughRs.length = s.beforeRs.length + 1 := by
  simp [XskSingleqTxq.throughRs, XskSingleqTxq.beforeRs, ringSlots]

end Ready

/-! The transmit half of a poll moves neither what has been given back nor
`next_to_clean`. -/

structure ZcSent (x y : XskTxq) : Prop where
  returned : y.returned = x.returned
  completed : y.completed = x.completed
  log : y.q.mem.log = x.q.mem.log
  clean : y.q.nextToClean = x.q.nextToClean
  skb : ∀ b, (y.q.bufs b).skb = (x.q.bufs b).skb

theorem ZcSent.trans {x y z : XskTxq} (h : ZcSent x y) (h' : ZcSent y z) : ZcSent x z where
  returned := h'.returned.trans h.returned
  completed := h'.completed.trans h.completed
  log := h'.log.trans h.log
  clean := h'.clean.trans h.clean
  skb b := (h'.skb b).trans (h.skb b)

theorem xskSingleqPut_sent (b : XskSingleqBatch) (d : XskDesc) (pool : List XskDesc) :
    ZcSent b.s.x (xskSingleqPut b d pool).s.x := by
  refine ⟨rfl, rfl, rfl, rfl, ?_⟩
  intro c
  rw [xskSingleqPut]
  dsimp only
  by_cases own : c = b.ntu
  · rw [own, TxQueue.modBuf_same]
  · rw [TxQueue.modBuf_other _ _ own]

theorem xskSingleqTurns_sent (budget : Nat) (b : XskSingleqBatch) :
    ZcSent b.s.x (xskSingleqTurns budget b).1.s.x := by
  induction budget generalizing b with
  | zero => exact ⟨rfl, rfl, rfl, rfl, fun _ => rfl⟩
  | succ budget ih =>
      cases more : b.s.x.pool with
      | nil =>
          rw [xskSingleqTurns, more]
          exact ⟨rfl, rfl, rfl, rfl, fun _ => rfl⟩
      | cons d pool =>
          rw [xskSingleqTurns, more]
          exact (xskSingleqPut_sent b d pool).trans (ih (xskSingleqPut b d pool))

theorem xmitSingleqZc_sent (s : XskSingleqTxq) (budget : Nat) :
    ZcSent s.x (xmitSingleqZc s budget).1.x := by
  have turns := xskSingleqTurns_sent (min budget s.x.q.descUnused) ⟨s, s.x.q.nextToUse, none⟩
  unfold xmitSingleqZc
  dsimp only
  split
  · exact turns
  · exact ⟨turns.returned, turns.completed, turns.log, turns.clean, turns.skb⟩

theorem ZcCleaned.send {x t u : XskTxq} {slots : List Nat} {cleaned : Nat}
    (v : ZcCleaned x slots t cleaned) (sent : ZcSent t u) : ZcCleaned x slots u cleaned where
  returned := sent.returned.trans v.returned
  unmapped := sent.log.trans v.unmapped
  cleared b member := (sent.skb b).trans (v.cleared b member)
  kept b other := (sent.skb b).trans (v.kept b other)
  completed := sent.completed.trans v.completed
  cleaned := v.cleaned
  next := sent.clean.trans v.next

/-! The loop of `idpf_tx_clean_zc` on a queue without flow scheduling. -/

/-- What cleaning `slots` one after the other does. -/
structure ZcTurned (s : XskClean) (slots : List Nat) (r : XskClean) : Prop where
  returned : r.x.returned = s.x.returned ++ (s.x.xdpIn slots).map fun b => (s.x.q.bufs b).skb
  log : r.x.q.mem.log = s.x.q.mem.log ++ (s.x.xdpIn slots).map fun b => .unmap (s.x.q.bufs b).dma
  cleared : ∀ b ∈ slots, (r.x.q.bufs b).skb = 0
  kept : ∀ b ∉ slots, r.x.q.bufs b = s.x.q.bufs b
  frames : r.xskFrames = s.xskFrames + s.x.xskIn slots
  completed : r.x.completed = s.x.completed
  packets : r.ss.packets = s.ss.packets
  clean : r.x.q.nextToClean = s.x.q.nextToClean
  count : r.x.q.descCount = s.x.q.descCount
  mode : r.x.q.flowSchEn = s.x.q.flowSchEn

theorem ZcTurned.nil (s : XskClean) : ZcTurned s [] s where
  returned := (List.append_nil _).symm
  log := (List.append_nil _).symm
  cleared := nofun
  kept _ _ := rfl
  frames := rfl
  completed := rfl
  packets := rfl
  clean := rfl
  count := rfl
  mode := rfl

theorem txCleanZcTurn_turned {s : XskClean} (mode : s.x.q.flowSchEn = false) (bufId b : Nat) :
    ZcTurned s [b] (txCleanZcTurn bufId b s) := by
  by_cases frame : (s.x.q.bufs b).skb = 0
  · have turn : txCleanZcTurn bufId b s = { s with xskFrames := s.xskFrames + 1 } := by
      simp [txCleanZcTurn, frame, mode]
    have xdp : s.x.xdpIn [b] = [] := by simp [XskTxq.xdpIn, frame]
    have xsk : s.x.xskIn [b] = 1 := by simp [XskTxq.xskIn, frame]
    rw [turn]
    refine ⟨?_, ?_, ?_, fun _ _ => rfl, ?_, rfl, rfl, rfl, rfl, rfl⟩
    · rw [xdp, List.map_nil, List.append_nil]
    · rw [xdp, List.map_nil, List.append_nil]
    · intro c member
      rw [List.mem_singleton.mp member]
      exact frame
    · rw [xsk]
  · have turn : txCleanZcTurn bufId b s = ⟨cleanXdpTxBuf s.x b,
        { s.ss with bytes := u32 (s.ss.bytes + (s.x.q.bufs b).bytes) }, s.xskFrames⟩ := by
      simp [txCleanZcTurn, frame, mode, cleanXdpTxBuf, TxQueue.modBuf, TxQueue.record]
    have xdp : s.x.xdpIn [b] = [b] := by simp [XskTxq.xdpIn, frame]
    have xsk : s.x.xskIn [b] = 0 := by simp [XskTxq.xskIn, frame]
    rw [turn]
    refine ⟨?_, ?_, ?_, ?_, ?_, rfl, rfl, rfl, rfl, mode ▸ rfl⟩
    · rw [xdp]
      rfl
    · rw [xdp]
      rfl
    · intro c member
      rw [List.mem_singleton.mp member, cleanXdpTxBuf]
      dsimp only
      rw [TxQueue.modBuf_same]
    · intro c other
      rw [cleanXdpTxBuf]
      dsimp only
      rw [TxQueue.modBuf_other _ _ (mt List.mem_singleton.mpr other)]
      rfl
    · rw [xsk]
      rfl

theorem ZcTurned.cons {s t r : XskClean} {b : Nat} {slots : List Nat} (one : ZcTurned s [b] t)
    (fresh : b ∉ slots) (rest : ZcTurned t slots r) : ZcTurned s (b :: slots) r := by
  have same : ∀ c ∈ slots, t.x.q.bufs c = s.x.q.bufs c := by
    intro c member
    apply one.kept
    intro clash
    rw [List.mem_singleton.mp clash] at member
    exact fresh member
  have xdp : s.x.xdpIn (b :: slots) = s.x.xdpIn [b] ++ t.x.xdpIn slots := by
    rw [← List.singleton_append, XskTxq.xdpIn, List.filter_append]
    congr 1
    apply List.filter_congr
    intro c member
    rw [same c member]
  have xsk : s.x.xskIn (b :: slots) = s.x.xskIn [b] + t.x.xskIn slots := by
    rw [← List.singleton_append, XskTxq.xskIn, List.countP_append]
    congr 1
    apply List.countP_congr
    intro c member
    rw [same c member]
  have inside : ∀ c ∈ t.x.xdpIn slots, t.x.q.bufs c = s.x.q.bufs c := by
    intro c member
    exact same c (List.mem_filter.mp member).1
  constructor
  · rw [rest.returned, one.returned, xdp, List.map_append, List.append_assoc]
    congr 2
    apply List.map_congr_left
    intro c member
    rw [inside c member]
  · rw [rest.log, one.log, xdp, List.map_append, List.append_assoc]
    congr 2
    apply List.map_congr_left
    intro c member
    rw [inside c member]
  · intro c member
    by_cases later : c ∈ slots
    · exact rest.cleared c later
    · rw [rest.kept c later]
      apply one.cleared
      exact List.mem_singleton.mpr ((List.mem_cons.mp member).resolve_right later)
  · intro c other
    rw [rest.kept c (mt (List.mem_cons_of_mem b) other)]
    apply one.kept
    intro clash
    exact other (List.mem_singleton.mp clash ▸ List.mem_cons_self)
  · rw [rest.frames, one.frames, xsk, Nat.add_assoc]
  · exact rest.completed.trans one.completed
  · exact rest.packets.trans one.packets
  · exact rest.clean.trans one.clean
  · exact rest.count.trans one.count
  · exact rest.mode.trans one.mode

/-- The loop cleans the `k` slots from its index on. -/
theorem txCleanZcTurns_turned {k ntc : Nat} {s : XskClean} (mode : s.x.q.flowSchEn = false)
    (start : ntc < s.x.q.descCount) (lap : k ≤ s.x.q.descCount) (bufId : Nat) :
    ZcTurned s (ringSlots s.x.q.descCount ntc k) (txCleanZcTurns bufId k ntc ntc s) := by
  have here : ntc % s.x.q.descCount = ntc := Nat.mod_eq_of_lt start
  have pos : 0 < s.x.q.descCount := Nat.zero_lt_of_lt start
  induction k generalizing ntc s with
  | zero => exact .nil s
  | succ k ih =>
      have one := txCleanZcTurn_turned mode bufId ntc
      have nodup := ringSlots_nodup (n := s.x.q.descCount) ntc lap
      have next : bump s.x.q.descCount ntc = (ntc + 1) % s.x.q.descCount := by
        have next := bump_mod pos ntc
        rwa [here] at next
      rw [ringSlots_cons, here] at nodup ⊢
      have fresh := (List.nodup_cons.mp nodup).1
      rw [txCleanZcTurns, next]
      have rest := @ih ((ntc + 1) % s.x.q.descCount) (txCleanZcTurn bufId ntc s)
        (one.mode.trans mode) (by rw [one.count]; exact Nat.mod_lt _ pos)
        (by rw [one.count]; omega) (by rw [one.count, Nat.mod_mod]) (by rw [one.count]; exact pos)
      rw [one.count, ringSlots_mod] at rest
      exact one.cons fresh rest

/-- A pass over `k` slots reports `k` packets. -/
theorem txCleanZc_packets {x : XskTxq} {k : Nat} (mode : x.q.flowSchEn = false)
    (clean : x.q.nextToClean < x.q.descCount) (size : x.q.descCount ≤ maxDescs)
    (lap : k ≤ x.q.descCount) (bufId : Nat) :
    (txCleanZc x x.q.nextToClean k bufId {}).ss.packets = k := by
  have packets : u32 (0 + k) = k := by
    unfold maxDescs at size
    unfold u32
    omega
  have turned := txCleanZcTurns_turned (s := ⟨x, {}, 0⟩) mode clean lap bufId
  unfold txCleanZc
  split
  · next none => exact none.symm
  · split
    · exact packets
    · rw [mode, if_neg Bool.false_ne_true, txCleanZcEnd, turned.packets]
      exact packets

/-- A pass over the `k` slots from `next_to_clean` on cleans them, provided the count of
active `XDP_TX` frames is not zero while there is one among them. -/
theorem txCleanZc_cleaned {x : XskTxq} {k : Nat} (mode : x.q.flowSchEn = false)
    (clean : x.q.nextToClean < x.q.descCount) (size : x.q.descCount ≤ maxDescs)
    (lap : k ≤ x.q.descCount) (bufId : Nat)
    (active : x.active = 0 →
      ∀ b ∈ ringSlots x.q.descCount x.q.nextToClean k, (x.q.bufs b).skb = 0) :
    ZcCleaned x (ringSlots x.q.descCount x.q.nextToClean k)
      (txCleanZc x x.q.nextToClean k bufId {}).x
      (txCleanZc x x.q.nextToClean k bufId {}).ss.packets := by
  have length : (ringSlots x.q.descCount x.q.nextToClean k).length = k := by simp [ringSlots]
  have packets := txCleanZc_packets mode clean size lap bufId
  have wrap : (if x.q.nextToClean + k ≥ x.q.descCount then x.q.nextToClean + k - x.q.descCount
      else x.q.nextToClean + k) = (x.q.nextToClean + k) % x.q.descCount := by
    split
    · next over_ => rw [Nat.mod_eq_sub_mod over_, Nat.mod_eq_of_lt (by omega)]
    · next under => exact (Nat.mod_eq_of_lt (by omega)).symm
  unfold txCleanZc at packets ⊢
  split
  · next none =>
      subst none
      exact ⟨(List.append_nil _).symm, (List.append_nil _).symm,
        fun b member => absurd member List.not_mem_nil, fun _ _ => rfl, rfl, rfl,
        (Nat.mod_eq_of_lt clean).symm⟩
  · next some =>
      rw [if_neg some] at packets
      split
      · next idle =>
          have plain := active idle
          have xdp : x.xdpIn (ringSlots x.q.descCount x.q.nextToClean k) = [] := by
            rw [XskTxq.xdpIn, List.filter_eq_nil_iff]
            intro b member
            simp [plain b member]
          have xsk : x.xskIn (ringSlots x.q.descCount x.q.nextToClean k) = k := by
            rw [XskTxq.xskIn, List.countP_eq_length.mpr, length]
            intro b member
            simp [plain b member]
          rw [if_pos idle] at packets
          refine ⟨?_, ?_, plain, fun _ _ => rfl, ?_, ?_, ?_⟩
          · rw [xdp]
            exact (List.append_nil _).symm
          · rw [xdp]
            exact (List.append_nil _).symm
          · rw [xsk]
            rfl
          · rw [length]
            exact packets
          · rw [length]
            exact wrap
      · next busy =>
          have turned := txCleanZcTurns_turned (s := ⟨x, {}, 0⟩) mode clean lap bufId
          rw [if_neg busy, mode, if_neg Bool.false_ne_true] at packets
          rw [mode, if_neg Bool.false_ne_true]
          refine ⟨turned.returned, turned.log, turned.cleared, ?_, ?_, ?_, ?_⟩
          · intro b other
            exact congrArg TxBuf.skb (turned.kept b other)
          · rw [txCleanZcEnd, turned.completed, turned.frames, Nat.zero_add]
          · rw [length]
            exact packets
          · rw [txCleanZcEnd, turned.clean, turned.count, length]
            exact wrap

/-- One poll cleans exactly the frames before the RS descriptor. -/
theorem txSingleqCleanZc_beforeRs {s : XskSingleqTxq} (v : s.OnRing)
    (done : (s.base s.nextRsIdx).done = true)
    (active : s.x.active = 0 → ∀ b ∈ s.beforeRs, (s.x.q.bufs b).skb = 0) :
    ZcCleaned s.x s.beforeRs (txSingleqCleanZc s).s.x (txSingleqCleanZc s).cleaned := by
  have cleaned := txCleanZc_cleaned v.mode v.clean v.size
    (Nat.le_of_lt (ringDist_lt (i := s.x.q.nextToClean) v.rs)) 0 active
  rw [← singleqFramesReady_done v done] at cleaned
  rw [XskSingleqTxq.beforeRs, ← singleqFramesReady_done v done]
  exact cleaned.send (xmitSingleqZc_sent { s with x := _ } _)

/-- No poll cleans the frames through the RS descriptor when the device has written
that one done: the frame in it is left. -/
theorem singleq_rs_frame_left (s : XskSingleqTxq) (v : s.OnRing)
    (done : (s.base s.nextRsIdx).done = true) :
    ¬ ZcCleaned s.x s.throughRs (txSingleqCleanZc s).s.x (txSingleqCleanZc s).cleaned := by
  intro exactly
  have lap := ringDist_lt (n := s.x.q.descCount) (i := s.x.q.nextToClean) v.rs
  have size := v.size
  have reported : (txSingleqCleanZc s).cleaned = s.beforeRs.length := by
    have length : s.beforeRs.length = singleqFramesReady s := by
      rw [singleqFramesReady_done v done, XskSingleqTxq.beforeRs]
      simp [ringSlots]
    have inside : ringDist s.x.q.descCount s.x.q.nextToClean s.nextRsIdx ≤ s.x.q.descCount :=
      Nat.le_of_lt lap
    rw [← singleqFramesReady_done v done] at inside
    rw [length]
    exact txCleanZc_packets v.mode v.clean v.size inside 0
  have claimed := exactly.cleaned
  rw [throughRs_length] at claimed
  omega

/-- Two frames have been sent in one batch, and the device has written back the second. -/
def singleqSentTwo : XskSingleqTxq :=
  (txSingleqCleanZc (xskSingleqAlloc 64 [⟨4096, 60⟩, ⟨8192, 60⟩] 2048)).s.writeBack 1

theorem singleqSentTwo_onRing : singleqSentTwo.OnRing where
  size := by decide +kernel
  clean := by decide +kernel
  rs := by decide +kernel
  mode := by decide +kernel

theorem singleq_rs_frame_left_two : singleqSentTwo.OnRing ∧
    ¬ ZcCleaned singleqSentTwo.x singleqSentTwo.throughRs (txSingleqCleanZc singleqSentTwo).s.x
      (txSingleqCleanZc singleqSentTwo).cleaned :=
  ⟨singleqSentTwo_onRing,
    singleq_rs_frame_left singleqSentTwo singleqSentTwo_onRing (by decide +kernel)⟩

/-- The poll reports one of the two frames, and `next_to_clean` stays at the RS
descriptor, where a further poll finds nothing to clean. -/
theorem singleq_one_of_two :
    singleqSentTwo.throughRs = [0, 1] ∧ (singleqSentTwo.base 1).rs = true ∧
      (singleqSentTwo.base singleqSentTwo.nextRsIdx).done = true ∧
      (txSingleqCleanZc singleqSentTwo).s.x.completed = 1 ∧
      (txSingleqCleanZc singleqSentTwo).s.x.q.nextToClean = 1 ∧
      (txSingleqCleanZc (txSingleqCleanZc singleqSentTwo).s).cleaned = 0 ∧
      ¬ ZcCleaned singleqSentTwo.x singleqSentTwo.throughRs (txSingleqCleanZc singleqSentTwo).s.x
        (txSingleqCleanZc singleqSentTwo).cleaned := by
  refine ⟨by decide +kernel, by decide +kernel, by decide +kernel, by decide +kernel,
    by decide +kernel, by decide +kernel, ?_⟩
  intro exactly
  have claimed := exactly.cleaned
  revert claimed
  decide +kernel

end Idpf
