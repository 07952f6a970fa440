import Mathlib.Data.List.Basic

/-! What ethtool is told about statistics: how many there are, what they are called, and the values,
in the order in which the driver writes them. -/
namespace Idpf

/-- The fields of `q_stats.tx` that are reported. -/
inductive TxStat where
  | packets
  | bytes
  | lsoPkts
  deriving DecidableEq, Repr

/-- `idpf_gstrings_tx_queue_stats` -/
def txQueueStats : List (String × TxStat) :=
  [("pkts", .packets), ("bytes", .bytes), ("lso_pkts", .lsoPkts)]

/-- The fields of `q_stats.rx` that are reported. -/
inductive RxStat where
  | packets
  | bytes
  | rscPkts
  deriving DecidableEq, Repr

/-- `idpf_gstrings_rx_queue_stats` -/
def rxQueueStats : List (String × RxStat) :=
  [("pkts", .packets), ("bytes", .bytes), ("rx_gro_hw_pkts", .rscPkts)]

/-- The fields of `port_stats` that are reported, those of `vport_stats` among them. -/
inductive PortStat where
  | rxHwCsumErr
  | rxHsplit
  | rxHsplitHbo
  | rxBadDescs
  | txDrops
  | txDmaMapErrs
  | txReinjectionTimeouts
  | txLinearize
  | txBusy
  | rxUnicast
  | rxMulticast
  | rxBroadcast
  | rxUnknownProtocol
  | txUnicast
  | txMulticast
  | txBroadcast
  | txLsoPkts
  | txLsoBytes
  | txLsoSegsTot
  | rxPageRecycles
  | rxPageReallocs
  | rxRscPkts
  | rxRscBytes
  | rxRscSegsTot
  deriving DecidableEq, Repr

/-- `idpf_gstrings_port_stats` -/
def portStats : List (String × PortStat) :=
  [("rx-csum_errors", .rxHwCsumErr), ("rx-hsplit", .rxHsplit), ("rx-hsplit_hbo", .rxHsplitHbo),
    ("rx-bad_descs", .rxBadDescs), ("tx-skb_drops", .txDrops), ("tx-dma_map_errs", .txDmaMapErrs),
    ("tx-reinjection-timeouts", .txReinjectionTimeouts), ("tx-linearized_pkts", .txLinearize),
    ("tx-busy_events", .txBusy), ("rx-unicast_pkts", .rxUnicast),
    ("rx-multicast_pkts", .rxMulticast), ("rx-broadcast_pkts", .rxBroadcast),
    ("rx-unknown_protocol", .rxUnknownProtocol), ("tx-unicast_pkts", .txUnicast),
    ("tx-multicast_pkts", .txMulticast), ("tx-broadcast_pkts", .txBroadcast),
    ("tx-lso_pkts", .txLsoPkts), ("tx-lso_bytes", .txLsoBytes),
    ("tx-lso_segs_tot", .txLsoSegsTot), ("rx-page_recycles", .rxPageRecycles),
    ("rx-page_reallocs", .rxPageReallocs), ("rx-gro_hw_pkts", .rxRscPkts),
    ("rx-gro_hw_bytes", .rxRscBytes), ("rx-gro_hw_segs_tot", .rxRscSegsTot)]

/-- The fields of `struct virtchnl2_phy_port_stats`. -/
inductive PhyPortStat where
  | rxBytes
  | rxUnicastPkts
  | rxMulticastPkts
  | rxBroadcastPkts
  | rxSize64Pkts
  | rxSize127Pkts
  | rxSize255Pkts
  | rxSize511Pkts
  | rxSize1023Pkts
  | rxSize1518Pkts
  | rxSizeJumboPkts
  | rxXonEvents
  | rxXoffEvents
  | rxUndersizedPkts
  | rxFragmentedPkts
  | rxOversizedPkts
  | rxJabberPkts
  | rxCsumErrors
  | rxLengthErrors
  | rxDroppedPkts
  | rxCrcErrors
  | rxRuntErrors
  | rxIllegalBytes
  | rxTotalPkts
  | txBytes
  | txUnicastPkts
  | txMulticastPkts
  | txBroadcastPkts
  | txErrors
  | txTimeoutEvents
  | txSize64Pkts
  | txSize127Pkts
  | txSize255Pkts
  | txSize511Pkts
  | txSize1023Pkts
  | txSize1518Pkts
  | txSizeJumboPkts
  | txXonEvents
  | txXoffEvents
  | txDroppedLinkDownPkts
  | txTotalPkts
  | macLocalFaults
  | macRemoteFaults
  deriving DecidableEq, Repr

/-- `idpf_gstrings_phy_port_stats` -/
def phyPortStats : List (String × PhyPortStat) :=
  [("port-rx_bytes", .rxBytes), ("port-rx-unicast_pkts", .rxUnicastPkts),
    ("port-rx-multicast_pkts", .rxMulticastPkts), ("port-rx-broadcast_pkts", .rxBroadcastPkts),
    ("port-rx_size-64_pkts", .rxSize64Pkts), ("port-rx_size-127_pkts", .rxSize127Pkts),
    ("port-rx_size-255_pkts", .rxSize255Pkts), ("port-rx_size-511_pkts", .rxSize511Pkts),
    ("port-rx_size-1023_pkts", .rxSize1023Pkts), ("port-rx_size-1518_pkts", .rxSize1518Pkts),
    ("port-rx_size-jumbo_pkts", .rxSizeJumboPkts), ("port-rx-xon_events", .rxXonEvents),
    ("port-rx-xoff_events", .rxXoffEvents), ("port-rx-undersized_pkts", .rxUndersizedPkts),
    ("port-rx-fragmented_pkts", .rxFragmentedPkts), ("port-rx-oversized_pkts", .rxOversizedPkts),
    ("port-rx-jabber_pkts", .rxJabberPkts), ("port-rx-csum_errors", .rxCsumErrors),
    ("port-rx-length_errors", .rxLengthErrors), ("port-rx-dropped_pkts", .rxDroppedPkts),
    ("port-rx-crc_errors", .rxCrcErrors), ("port-rx-runt_errors", .rxRuntErrors),
    ("port-rx-illegal_bytes", .rxIllegalBytes), ("port-rx-total_pkts", .rxTotalPkts),
    ("port-tx-bytes", .txBytes), ("port-tx-unicast_pkts", .txUnicastPkts),
    ("port-tx-multicast_pkts", .txMulticastPkts), ("port-tx-broadcast_pkts", .txBroadcastPkts),
    ("port-tx-errors", .txErrors), ("port-tx-timeout_events", .txTimeoutEvents),
    ("port-tx_size-64_pkts", .txSize64Pkts), ("port-tx_size-127_pkts", .txSize127Pkts),
    ("port-tx_size-255_pkts", .txSize255Pkts), ("port-tx_size-511_pkts", .txSize511Pkts),
    ("port-tx_size-1023_pkts", .txSize1023Pkts), ("port-tx_size-1518_pkts", .txSize1518Pkts),
    ("port-tx_size-jumbo_pkts", .txSizeJumboPkts), ("port-tx-xon_events", .txXonEvents),
    ("port-tx-xoff_events", .txXoffEvents),
    ("port-tx-dropped_link_down_pkts", .txDroppedLinkDownPkts),
    ("port-tx-total_pkts", .txTotalPkts), ("port-mac-local_faults", .macLocalFaults),
    ("port-mac-remote_faults", .macRemoteFaults)]

/-- IDPF_MAX_SEGS -/
def maxSegs : Nat := 16

/-- Where a value is read from. Queues are told apart by their numbers; `zero` is a value written for
a queue that does not exist, and `beyond` one that is read past the end of the table of port
statistics. -/
inductive StatCell where
  | phy (f : PhyPortStat)
  | port (f : PortStat)
  | lsoSeg (i : Nat)
  | rscSeg (i : Nat)
  | tx (idx : Nat) (f : TxStat)
  | rx (idx : Nat) (f : RxStat)
  | zero
  | beyond (i : Nat)
  deriving DecidableEq, Repr

/-- A queue with its number and `__IDPF_Q_XDP`. -/
structure StatQueue where
  idx : Nat
  xdp : Bool
  deriving DecidableEq, Repr

def Numbered (grps : List (List (Option StatQueue))) : Prop :=
  ∀ i (q : StatQueue), grps.flatten[i]? = some (some q) → q.idx = i

/-- A vport with the queues of its groups, for the calls of ethtool. Queues are allocated, and
numbered, while the vport is up. -/
structure StatVport where
  up : Bool
  uplink : Bool
  maxTxq : Nat
  maxRxq : Nat
  txqGrps : List (List (Option StatQueue))
  rxqGrps : List (List (Option StatQueue))
  allocated : up = true → ∀ grp ∈ txqGrps ++ rxqGrps, none ∉ grp
  txNumbered : Numbered txqGrps
  rxNumbered : Numbered rxqGrps

/-- How often a copy is made anew because a counter has changed meanwhile. -/
structure Retries where
  phy : Nat
  port : Nat
  tx : Nat → Nat
  rx : Nat → Nat

/-! The strings -/

/-- `__idpf_add_qstat_strings` -/
def addQstatStrings {α : Type} (p : List String) (stats : List (String × α)) (type : String)
    (idx : Nat) : List String :=
  p ++ stats.map fun e => type ++ ("_q-" ++ (toString idx ++ ("_" ++ e.1)))

/-- The strings for segment counts of `idpf_add_stat_strings` -/
def segStrings (name : String) : List String :=
  (List.range maxSegs).map fun i => name ++ toString (i + 1)

namespace StatVport

/-- `idpf_get_stat_strings` -/
def getStatStrings (v : StatVport) : List String :=
  let p := if v.uplink then phyPortStats.map Prod.fst else []
  let p := p ++ portStats.map Prod.fst ++ segStrings "lso_num_segs_" ++
    segStrings "rx-gro_hw_num_segs_"
  let p := (List.range v.maxTxq).foldl (fun p i => addQstatStrings p txQueueStats "tx" i) p
  (List.range v.maxRxq).foldl (fun p i => addQstatStrings p rxQueueStats "rx" i) p

/-- `idpf_get_sset_count` of ETH_SS_STATS -/
def getSsetCount (v : StatVport) : Nat :=
  portStats.length + txQueueStats.length * v.maxTxq + rxQueueStats.length * v.maxRxq +
    (if v.uplink then phyPortStats.length else 0) + maxSegs * 2

end StatVport

/-! The values: `data` are those written so far. -/

/-- A copy that is made anew goes to the same place. -/
def copied {α : Type} (l : List α) : Nat → List α
  | 0 => l
  | retry + 1 => copied l retry

/-- `idpf_add_queue_stats` of a transmit queue -/
def addTxQueueStats (data : List StatCell) (q : StatQueue) (retry : Nat) : List StatCell :=
  data ++ copied (txQueueStats.map fun e => .tx q.idx e.2) retry

/-- `idpf_add_queue_stats` of a receive queue -/
def addRxQueueStats (data : List StatCell) (q : StatQueue) (retry : Nat) : List StatCell :=
  data ++ copied (rxQueueStats.map fun e => .rx q.idx e.2) retry

/-- `idpf_add_empty_queue_stats` -/
def addEmptyQueueStats (data : List StatCell) (len : Nat) : List StatCell :=
  data ++ List.replicate len .zero

/-- `idpf_add_phy_port_stats` -/
def addPhyPortStats (data : List StatCell) (retry : Nat) : List StatCell :=
  data ++ copied (phyPortStats.map fun e => .phy e.2) retry

/-- What the `i`-th entry of the table of port statistics leads to. -/
def portCell (i : Nat) : StatCell :=
  match portStats[i]? with
  | some e => .port e.2
  | none => .beyond i

/-- The loop of `idpf_add_port_stats`; `size` has grown when it starts again. -/
def portCopy (size : Nat) : Nat → List StatCell
  | 0 => (List.range size).map portCell ++ (List.range maxSegs).map .lsoSeg ++
      (List.range maxSegs).map .rscSeg
  | retry + 1 => portCopy (size + maxSegs + maxSegs) retry

/-- `idpf_add_port_stats` -/
def addPortStats (data : List StatCell) (retry : Nat) : List StatCell :=
  data ++ portCopy portStats.length retry

/-- The loop body for a transmit queue: an XDP queue is skipped, and counted. -/
def addTxq (retry : Nat → Nat) (s : List StatCell × Nat) (txq : Option StatQueue) :
    List StatCell × Nat :=
  match txq with
  | none => (addEmptyQueueStats s.1 txQueueStats.length, s.2 + 1)
  | some q => if q.xdp then (s.1, s.2 + 1) else (addTxQueueStats s.1 q (retry q.idx), s.2 + 1)

def addRxq (retry : Nat → Nat) (data : List StatCell) (rxq : Option StatQueue) : List StatCell :=
  match rxq with
  | none => addEmptyQueueStats data rxQueueStats.length
  | some q => addRxQueueStats data q (retry q.idx)

namespace StatVport

/-- The transmit queues, with empty ones from their number up to the maximum. -/
def addTxqs (v : StatVport) (retry : Nat → Nat) (data : List StatCell) : List StatCell :=
  let s := v.txqGrps.foldl (fun s grp => grp.foldl (addTxq retry) s) (data, 0)
  (List.range' s.2 (v.maxTxq - s.2)).foldl
    (fun data _ => addEmptyQueueStats data txQueueStats.length) s.1

/-- The receive queues, with empty ones from the number of groups up to the maximum. -/
def addRxqs (v : StatVport) (retry : Nat → Nat) (data : List StatCell) : List StatCell :=
  let data := v.rxqGrps.foldl (fun data grp => grp.foldl (addRxq retry) data) data
  (List.range' v.rxqGrps.length (v.maxRxq - v.rxqGrps.length)).foldl
    (fun data _ => addEmptyQueueStats data rxQueueStats.length) data

/-- `idpf_get_ethtool_stats` -/
def getEthtoolStats (v : StatVport) (r : Retries) : List StatCell :=
  if !v.up then []
  else
    let data := if v.uplink then addPhyPortStats [] r.phy else []
    v.addRxqs r.rx (v.addTxqs r.tx (addPortStats data r.port))

/-- What each string stands for: a queue that there is, or nothing. -/
def named (v : StatVport) : List (String × StatCell) :=
  (if v.uplink then phyPortStats.map fun e => (e.1, .phy e.2) else []) ++
    portStats.map (fun e => (e.1, .port e.2)) ++
    (List.range maxSegs).map (fun i => ("lso_num_segs_" ++ toString (i + 1), .lsoSeg i)) ++
    (List.range maxSegs).map (fun i => ("rx-gro_hw_num_segs_" ++ toString (i + 1), .rscSeg i)) ++
    (List.range v.maxTxq).flatMap (fun i => txQueueStats.map fun e =>
      ("tx_q-" ++ (toString i ++ ("_" ++ e.1)),
        if i < v.txqGrps.flatten.length then .tx i e.2 else .zero)) ++
    (List.range v.maxRxq).flatMap fun i => rxQueueStats.map fun e =>
      ("rx_q-" ++ (toString i ++ ("_" ++ e.1)),
        if i < v.rxqGrps.flatten.length then .rx i e.2 else .zero)

/-- As many values are written as are announced and as there are strings, and each value is what its
string stands for. -/
structure Reported (v : StatVport) (r : Retries) : Prop where
  count : (v.getEthtoolStats r).length = v.getSsetCount
  strings : v.getStatStrings.length = v.getSsetCount
  values : ∀ k : Nat, v.getStatStrings[k]? = (v.named[k]?).map Prod.fst ∧
    (v.getEthtoolStats r)[k]? = (v.named[k]?).map Prod.snd

/-- The vport is up, the port statistics are copied once, the XDP queues are just the transmit queues
beyond the maximum, and the receive queues are as many as their groups, up to the maximum. -/
structure Regular (v : StatVport) (r : Retries) : Prop where
  up : v.up = true
  once : r.port = 0
  tx : ∀ q, some q ∈ v.txqGrps.flatten → (q.xdp = true ↔ v.maxTxq ≤ q.idx)
  rx : v.rxqGrps.flatten.length + (v.maxRxq - v.rxqGrps.length) = v.maxRxq

end StatVport

/-! The lists that the loops make. -/

theorem copied_eq {α : Type} (l : List α) (retry : Nat) : copied l retry = l := by
  induction retry with
  | zero => rfl
  | succ retry ih => exact ih

theorem portCopy_eq (size retry : Nat) :
    portCopy size retry = (List.range (size + retry * (maxSegs * 2))).map portCell ++
      (List.range maxSegs).map .lsoSeg ++ (List.range maxSegs).map .rscSeg := by
  induction retry generalizing size with
  | zero => rw [Nat.zero_mul, Nat.add_zero, portCopy]
  | succ retry ih =>
      have more : size + maxSegs + maxSegs + retry * (maxSegs * 2) =
          size + (retry + 1) * (maxSegs * 2) := by
        unfold maxSegs
        omega
      rw [portCopy, ih, more]

/-- The values of the `i`-th transmit queue. -/
def txCells (i : Nat) : List StatCell := txQueueStats.map fun e => .tx i e.2

def rxCells (i : Nat) : List StatCell := rxQueueStats.map fun e => .rx i e.2

def noCells (len : Nat) : List StatCell := List.replicate len .zero

def txRow : Option StatQueue → List StatCell
  | none => noCells txQueueStats.length
  | some q => if q.xdp then [] else txCells q.idx

def rxRow : Option StatQueue → List StatCell
  | none => noCells rxQueueStats.length
  | some q => rxCells q.idx

theorem foldl_addTxq (retry : Nat → Nat) (qs : List (Option StatQueue)) (data : List StatCell)
    (n : Nat) :
    qs.foldl (addTxq retry) (data, n) = (data ++ qs.flatMap txRow, n + qs.length) := by
  induction qs generalizing data n with
  | nil => simp
  | cons txq qs ih =>
      have one : addTxq retry (data, n) txq = (data ++ txRow txq, n + 1) := by
        cases txq with
        | none => rfl
        | some q =>
            unfold addTxq txRow
            dsimp only
            split
            · rw [List.append_nil]
            · rw [addTxQueueStats, copied_eq]
              rfl
      rw [List.foldl_cons, one, ih, List.flatMap_cons, List.append_assoc, List.length_cons,
        Nat.add_assoc, Nat.add_comm 1]

theorem foldl_addRxq (retry : Nat → Nat) (qs : List (Option StatQueue)) (data : List StatCell) :
    qs.foldl (addRxq retry) data = data ++ qs.flatMap rxRow := by
  induction qs generalizing data with
  | nil => simp
  | cons rxq qs ih =>
      have one : addRxq retry data rxq = data ++ rxRow rxq := by
        cases rxq with
        | none => rfl
        | some q =>
            rw [addRxq, addRxQueueStats, copied_eq]
            rfl
      rw [List.foldl_cons, one, ih, List.flatMap_cons, List.append_assoc]

theorem foldl_addEmpty (len start count : Nat) (data : List StatCell) :
    (List.range' start count).foldl (fun data _ => addEmptyQueueStats data len) data =
      data ++ (List.range' start count).flatMap fun _ => noCells len := by
  induction count generalizing start data with
  | zero => simp
  | succ count ih =>
      rw [List.range'_succ, List.foldl_cons, ih, List.flatMap_cons]
      exact List.append_assoc _ _ _

namespace StatVport

variable {v : StatVport} {r : Retries}

theorem addTxqs_eq (v : StatVport) (retry : Nat → Nat) (data : List StatCell) :
    v.addTxqs retry data = data ++ v.txqGrps.flatten.flatMap txRow ++
      (List.range' v.txqGrps.flatten.length (v.maxTxq - v.txqGrps.flatten.length)).flatMap
        fun _ => noCells txQueueStats.length := by
  unfold addTxqs
  rw [← List.foldl_flatten, foldl_addTxq, Nat.zero_add]
  dsimp only
  rw [foldl_addEmpty]

theorem addRxqs_eq (v : StatVport) (retry : Nat → Nat) (data : List StatCell) :
    v.addRxqs retry data = data ++ v.rxqGrps.flatten.flatMap rxRow ++
      (List.range' v.rxqGrps.length (v.maxRxq - v.rxqGrps.length)).flatMap
        fun _ => noCells rxQueueStats.length := by
  unfold addRxqs
  rw [← List.foldl_flatten, foldl_addRxq]
  dsimp only
  rw [foldl_addEmpty]

/-- The values of a vport that is up. -/
theorem getEthtoolStats_eq (up : v.up = true) (r : Retries) :
    v.getEthtoolStats r =
      (if v.uplink then phyPortStats.map fun e => .phy e.2 else []) ++
        portCopy portStats.length r.port ++
        (v.txqGrps.flatten.flatMap txRow ++
          (List.range' v.txqGrps.flatten.length (v.maxTxq - v.txqGrps.flatten.length)).flatMap
            fun _ => noCells txQueueStats.length) ++
        (v.rxqGrps.flatten.flatMap rxRow ++
          (List.range' v.rxqGrps.length (v.maxRxq - v.rxqGrps.length)).flatMap
            fun _ => noCells rxQueueStats.length) := by
  unfold getEthtoolStats addPhyPortStats
  rw [up, addRxqs_eq, addTxqs_eq, addPortStats, copied_eq]
  simp only [Bool.not_true, Bool.false_eq_true, if_false, List.nil_append, List.append_assoc]

theorem foldl_addQstatStrings {α : Type} (stats : List (String × α)) (type : String)
    (idxs : List Nat) (p : List String) :
    idxs.foldl (fun p i => addQstatStrings p stats type i) p =
      p ++ idxs.flatMap fun i =>
        stats.map fun e => type ++ ("_q-" ++ (toString i ++ ("_" ++ e.1))) := by
  induction idxs generalizing p with
  | nil => exact (List.append_nil p).symm
  | cons i idxs ih =>
      rw [List.foldl_cons, ih, List.flatMap_cons]
      exact List.append_assoc _ _ _

theorem length_flatMap_const {α β : Type} {f : α → List β} {len : Nat} {l : List α}
    (each : ∀ i, (f i).length = len) : (l.flatMap f).length = len * l.length := by
  induction l with
  | nil => rfl
  | cons i l ih =>
      rw [List.flatMap_cons, List.length_append, each, ih, List.length_cons, Nat.mul_succ,
        Nat.add_comm]

theorem getStatStrings_eq (v : StatVport) : v.getStatStrings = v.named.map Prod.fst := by
  unfold getStatStrings
  dsimp only
  rw [foldl_addQstatStrings, foldl_addQstatStrings]
  unfold named segStrings
  simp only [List.map_append, List.map_flatMap, List.map_map, Function.comp_def]
  cases v.uplink with
  | true => rfl
  | false => rfl

/-- The values that are to be. -/
theorem named_cells (v : StatVport) :
    v.named.map Prod.snd =
      (if v.uplink then phyPortStats.map fun e => .phy e.2 else []) ++
        portCopy portStats.length 0 ++
        ((List.range v.maxTxq).flatMap fun i =>
          if i < v.txqGrps.flatten.length then txCells i else noCells txQueueStats.length) ++
        ((List.range v.maxRxq).flatMap fun i =>
          if i < v.rxqGrps.flatten.length then rxCells i else noCells rxQueueStats.length) := by
  have tx (i : Nat) : (if i < v.txqGrps.flatten.length then txCells i
      else noCells txQueueStats.length) = txQueueStats.map fun e =>
        if i < v.txqGrps.flatten.length then .tx i e.2 else .zero := by
    split
    · rfl
    · rfl
  have rx (i : Nat) : (if i < v.rxqGrps.flatten.length then rxCells i
      else noCells rxQueueStats.length) = rxQueueStats.map fun e =>
        if i < v.rxqGrps.flatten.length then .rx i e.2 else .zero := by
    split
    · rfl
    · rfl
  have port : (List.range portStats.length).map portCell = portStats.map fun e => .port e.2 := rfl
  unfold named portCopy
  simp only [List.map_append, List.map_flatMap, List.map_map, Function.comp_def, port, tx, rx]
  cases v.uplink with
  | true => simp only [if_true, List.map_map, Function.comp_def, List.append_assoc]
  | false => simp only [Bool.false_eq_true, if_false, List.map_nil, List.append_assoc]

theorem named_length (v : StatVport) : v.named.length = v.getSsetCount := by
  have tx : ((List.range v.maxTxq).flatMap fun i => if i < v.txqGrps.flatten.length then txCells i
      else noCells txQueueStats.length).length = txQueueStats.length * v.maxTxq := by
    rw [length_flatMap_const, List.length_range]
    intro i
    split
    · rfl
    · rfl
  have rx : ((List.range v.maxRxq).flatMap fun i => if i < v.rxqGrps.flatten.length then rxCells i
      else noCells rxQueueStats.length).length = rxQueueStats.length * v.maxRxq := by
    rw [length_flatMap_const, List.length_range]
    intro i
    split
    · rfl
    · rfl
  have port : (portCopy portStats.length 0).length = portStats.length + maxSegs * 2 := rfl
  have length := congrArg List.length (named_cells v)
  rw [List.length_map, List.length_append, List.length_append, List.length_append, tx, rx,
    port] at length
  rw [length]
  unfold getSsetCount
  cases v.uplink with
  | true =>
      simp only [if_true, List.length_map]
      omega
  | false =>
      simp only [Bool.false_eq_true, if_false, List.length_nil]
      omega

/-- The rows of queues that are there, each under its number. -/
theorem rows_flatMap {qs : List (Option StatQueue)} {row : Option StatQueue → List StatCell}
    {cells : Nat → List StatCell}
    (each : ∀ i txq, qs[i]? = some txq → row txq = cells i) :
    qs.flatMap row = (List.range qs.length).flatMap cells := by
  have same : qs.map row = (List.range qs.length).map cells := by
    apply List.ext_getElem?
    intro i
    rw [List.getElem?_map, List.getElem?_map]
    cases there : qs[i]? with
    | none =>
        have out : (List.range qs.length)[i]? = none := by
          rw [List.getElem?_eq_none_iff, List.length_range]
          exact List.getElem?_eq_none_iff.mp there
        rw [out]
        rfl
    | some txq =>
        have low : i < qs.length := (List.getElem?_eq_some_iff.mp there).1
        rw [List.getElem?_range low]
        exact congrArg some (each i txq there)
  rw [List.flatMap_def, List.flatMap_def, same]

/-- Rows up to a maximum, of which the last ones are empty. -/
theorem padded_rows {n most : Nat} (le : n ≤ most) (cells : Nat → List StatCell)
    (none : List StatCell) :
    (List.range n).flatMap cells ++ (List.range' n (most - n)).flatMap (fun _ => none) =
      (List.range most).flatMap fun i => if i < n then cells i else none := by
  obtain ⟨more, rfl⟩ := Nat.exists_eq_add_of_le le
  have split : List.range (n + more) = List.range n ++ List.range' n more := by
    rw [List.range_eq_range', List.range_eq_range', ← List.range'_append_1]
    simp
  rw [Nat.add_sub_cancel_left, split, List.flatMap_append]
  congr 1
  · apply List.flatMap_congr
    intro i member
    exact (if_pos (List.mem_range.mp member)).symm
  · apply List.flatMap_congr
    intro i member
    exact (if_neg (Nat.not_lt.mpr (List.mem_range'_1.mp member).1)).symm

theorem queue_at {grps : List (List (Option StatQueue))} (inside : ∀ grp ∈ grps, none ∉ grp)
    (numbered : Numbered grps) {i : Nat} {queue : Option StatQueue}
    (place : grps.flatten[i]? = some queue) : ∃ q : StatQueue, queue = some q ∧ q.idx = i := by
  cases queue with
  | none =>
      obtain ⟨grp, listed, own⟩ := List.mem_flatten.mp (List.mem_of_getElem? place)
      exact absurd own (inside grp listed)
  | some q => exact ⟨q, rfl, numbered i q place⟩

theorem tx_at (up : v.up = true) {i : Nat} {txq : Option StatQueue}
    (place : v.txqGrps.flatten[i]? = some txq) : ∃ q : StatQueue, txq = some q ∧ q.idx = i :=
  queue_at (fun grp listed => v.allocated up grp (List.mem_append_left _ listed)) v.txNumbered place

theorem rx_at (up : v.up = true) {i : Nat} {rxq : Option StatQueue}
    (place : v.rxqGrps.flatten[i]? = some rxq) : ∃ q : StatQueue, rxq = some q ∧ q.idx = i :=
  queue_at (fun grp listed => v.allocated up grp (List.mem_append_right _ listed)) v.rxNumbered place

/-- The transmit rows, where the XDP queues are those beyond the maximum. -/
theorem tx_rows (up : v.up = true)
    (xdp : ∀ q, some q ∈ v.txqGrps.flatten → (q.xdp = true ↔ v.maxTxq ≤ q.idx)) :
    v.txqGrps.flatten.flatMap txRow ++
        (List.range' v.txqGrps.flatten.length (v.maxTxq - v.txqGrps.flatten.length)).flatMap
          (fun _ => noCells txQueueStats.length) =
      (List.range v.maxTxq).flatMap fun i =>
        if i < v.txqGrps.flatten.length then txCells i else noCells txQueueStats.length := by
  generalize queues : v.txqGrps.flatten = qs at xdp
  have row : ∀ i txq, qs[i]? = some txq → (i < v.maxTxq → txRow txq = txCells i) ∧
      (v.maxTxq ≤ i → txRow txq = []) := by
    intro i txq place
    obtain ⟨q, rfl, idx⟩ := tx_at up (queues ▸ place)
    have which := xdp q (List.mem_of_getElem? place)
    rw [idx] at which
    unfold txRow
    dsimp only
    constructor
    · intro low
      rw [if_neg fun on => absurd (which.mp on) (Nat.not_le.mpr low), idx]
    · exact fun high => if_pos (which.mpr high)
  cases Nat.le_total qs.length v.maxTxq with
  | inl few =>
      rw [← padded_rows few, rows_flatMap]
      intro i txq place
      exact (row i txq place).1 (Nat.lt_of_lt_of_le (List.getElem?_eq_some_iff.mp place).1 few)
  | inr many =>
      have first : (qs.take v.maxTxq).flatMap txRow = (List.range v.maxTxq).flatMap txCells := by
        have length := List.length_take_of_le many
        rw [@rows_flatMap _ _ txCells, length]
        intro i txq place
        have low := (List.getElem?_eq_some_iff.mp place).1
        rw [length] at low
        rw [List.getElem?_take_of_lt low] at place
        exact (row i txq place).1 low
      have rest : (qs.drop v.maxTxq).flatMap txRow = [] := by
        apply List.flatMap_eq_nil_iff.mpr
        intro txq member
        obtain ⟨i, place⟩ := List.mem_iff_getElem?.mp member
        rw [List.getElem?_drop] at place
        exact (row _ txq place).2 (Nat.le_add_right _ _)
      have whole : (qs.take v.maxTxq ++ qs.drop v.maxTxq).flatMap txRow = _ := List.flatMap_append
      rw [List.take_append_drop, first, rest, List.append_nil] at whole
      rw [whole, Nat.sub_eq_zero_of_le many, List.range'_zero, List.flatMap_nil, List.append_nil]
      apply List.flatMap_congr
      intro i member
      exact (if_pos (Nat.lt_of_lt_of_le (List.mem_range.mp member) many)).symm

/-- The receive rows, where there are as many queues as groups. -/
theorem rx_rows (up : v.up = true)
    (same : v.rxqGrps.flatten.length + (v.maxRxq - v.rxqGrps.length) = v.maxRxq) :
    v.rxqGrps.flatten.flatMap rxRow ++
        (List.range' v.rxqGrps.length (v.maxRxq - v.rxqGrps.length)).flatMap
          (fun _ => noCells rxQueueStats.length) =
      (List.range v.maxRxq).flatMap fun i =>
        if i < v.rxqGrps.flatten.length then rxCells i else noCells rxQueueStats.length := by
  have few : v.rxqGrps.flatten.length ≤ v.maxRxq := same ▸ Nat.le_add_right _ _
  have count : v.maxRxq - v.rxqGrps.flatten.length = v.maxRxq - v.rxqGrps.length := by omega
  have rows : v.rxqGrps.flatten.flatMap rxRow =
      (List.range v.rxqGrps.flatten.length).flatMap rxCells := by
    apply rows_flatMap
    intro i rxq place
    obtain ⟨q, rfl, idx⟩ := rx_at up place
    exact congrArg rxCells idx
  have empty (start : Nat) : (List.range' start (v.maxRxq - v.rxqGrps.length)).flatMap
      (fun _ => noCells rxQueueStats.length) = (List.replicate (v.maxRxq - v.rxqGrps.length)
        (noCells rxQueueStats.length)).flatten := by
    rw [List.flatMap_def, List.map_const', List.length_range']
  rw [rows, ← padded_rows few, count, empty, empty]

theorem reported_of_regular (fine : v.Regular r) : v.Reported r := by
  have same : v.getEthtoolStats r = v.named.map Prod.snd := by
    rw [getEthtoolStats_eq fine.up, named_cells, fine.once, tx_rows fine.up fine.tx,
      rx_rows fine.up fine.rx]
  constructor
  · rw [same, List.length_map]
    exact v.named_length
  · rw [getStatStrings_eq, List.length_map]
    exact v.named_length
  · intro k
    rw [same, getStatStrings_eq, List.getElem?_map, List.getElem?_map]
    exact ⟨rfl, rfl⟩

/-- A value that is to be is one of these. -/
theorem mem_named {c : StatCell} (member : c ∈ v.named.map Prod.snd) :
    (∃ f, c = .phy f) ∨ c ∈ portCopy portStats.length 0 ∨
      (∃ i < v.maxTxq, i < v.txqGrps.flatten.length ∧ c ∈ txCells i) ∨ (∃ i, c ∈ rxCells i) ∨
        c = .zero := by
  rw [named_cells, List.mem_append, List.mem_append, List.mem_append] at member
  obtain ((phy | port) | tx) | rx := member
  · left
    split at phy
    · obtain ⟨e, -, rfl⟩ := List.mem_map.mp phy
      exact ⟨e.2, rfl⟩
    · cases phy
  · exact .inr (.inl port)
  · obtain ⟨i, low, own⟩ := List.mem_flatMap.mp tx
    split at own
    next there => exact .inr (.inr (.inl ⟨i, List.mem_range.mp low, there, own⟩))
    · exact .inr (.inr (.inr (.inr (List.eq_of_mem_replicate own))))
  · obtain ⟨i, -, own⟩ := List.mem_flatMap.mp rx
    split at own
    · exact .inr (.inr (.inr (.inl ⟨i, own⟩)))
    · exact .inr (.inr (.inr (.inr (List.eq_of_mem_replicate own))))

theorem idx_of_txCells {i j : Nat} {f : TxStat} (member : .tx i f ∈ txCells j) : i = j := by
  obtain ⟨e, -, same⟩ := List.mem_map.mp member
  exact (StatCell.tx.inj same).1.symm

/-- The copy of the port statistics has nothing of queues. -/
theorem tx_not_port {size retry i : Nat} {f : TxStat} : .tx i f ∉ portCopy size retry := by
  intro member
  rw [portCopy_eq, List.mem_append, List.mem_append] at member
  obtain (port | lso) | rsc := member
  · obtain ⟨k, -, same⟩ := List.mem_map.mp port
    unfold portCell at same
    split at same
    · cases same
    · cases same
  · obtain ⟨k, -, same⟩ := List.mem_map.mp lso
    cases same
  · obtain ⟨k, -, same⟩ := List.mem_map.mp rsc
    cases same

theorem tx_not_padding {len start count i : Nat} {f : TxStat} :
    .tx i f ∉ (List.range' start count).flatMap fun _ => noCells len := by
  intro member
  obtain ⟨k, -, own⟩ := List.mem_flatMap.mp member
  cases List.eq_of_mem_replicate own

theorem tx_written (up : v.up = true) {i : Nat} {f : TxStat}
    (written : .tx i f ∈ v.getEthtoolStats r) :
    ∃ q : StatQueue, some q ∈ v.txqGrps.flatten ∧ q.xdp = false ∧ q.idx = i := by
  rw [getEthtoolStats_eq up] at written
  simp only [List.mem_append] at written
  obtain ((phy | port) | tx | pad) | rx | pad := written
  · split at phy
    · obtain ⟨e, -, same⟩ := List.mem_map.mp phy
      cases same
    · cases phy
  · exact absurd port tx_not_port
  · obtain ⟨txq, there, own⟩ := List.mem_flatMap.mp tx
    cases txq with
    | none => cases List.eq_of_mem_replicate own
    | some q =>
        refine ⟨q, there, ?_⟩
        unfold txRow at own
        dsimp only at own
        split at own
        · cases own
        next off => exact ⟨Bool.eq_false_iff.mpr off, (idx_of_txCells own).symm⟩
  · exact absurd pad tx_not_padding
  · obtain ⟨rxq, -, own⟩ := List.mem_flatMap.mp rx
    cases rxq with
    | none => cases List.eq_of_mem_replicate own
    | some q =>
        obtain ⟨e, -, same⟩ := List.mem_map.mp own
        cases same
  · exact absurd pad tx_not_padding

theorem packets_mem (i : Nat) : .tx i .packets ∈ txCells i := List.mem_cons_self

theorem beyond_not_named : .beyond portStats.length ∉ v.named.map Prod.snd := by
  intro member
  obtain ⟨f, phy⟩ | port | ⟨i, -, -, tx⟩ | ⟨i, rx⟩ | zero := mem_named member
  · cases phy
  · exact absurd port (by decide)
  · obtain ⟨e, -, same⟩ := List.mem_map.mp tx
    cases same
  · obtain ⟨e, -, same⟩ := List.mem_map.mp rx
    cases same
  · cases zero

theorem tx_named {i : Nat} {f : TxStat} (named : .tx i f ∈ v.named.map Prod.snd) : i < v.maxTxq := by
  obtain ⟨g, phy⟩ | port | ⟨j, low, -, tx⟩ | ⟨j, rx⟩ | zero := mem_named named
  · cases phy
  · exact absurd port tx_not_port
  · rw [idx_of_txCells tx]
    exact low
  · obtain ⟨e, -, same⟩ := List.mem_map.mp rx
    cases same
  · cases zero

theorem packets_named {i : Nat} (low : i < v.maxTxq) (there : i < v.txqGrps.flatten.length) :
    .tx i .packets ∈ v.named.map Prod.snd := by
  rw [named_cells]
  apply List.mem_append_left
  apply List.mem_append_right
  refine List.mem_flatMap.mpr ⟨i, List.mem_range.mpr low, ?_⟩
  rw [if_pos there]
  exact packets_mem i

theorem packets_written (up : v.up = true) {q : StatQueue} (there : some q ∈ v.txqGrps.flatten)
    (off : q.xdp = false) : .tx q.idx .packets ∈ v.getEthtoolStats r := by
  rw [getEthtoolStats_eq up]
  apply List.mem_append_left
  apply List.mem_append_right
  apply List.mem_append_left
  refine List.mem_flatMap.mpr ⟨some q, there, ?_⟩
  unfold txRow
  dsimp only
  rw [off]
  exact packets_mem q.idx

theorem once_of_same (up : v.up = true) (same : v.getEthtoolStats r = v.named.map Prod.snd) :
    r.port = 0 := by
  cases port : r.port with
  | zero => rfl
  | succ retry =>
      apply absurd _ (@beyond_not_named v)
      rw [← same, getEthtoolStats_eq up, port, portCopy_eq]
      apply List.mem_append_left
      apply List.mem_append_left
      apply List.mem_append_right
      apply List.mem_append_left
      apply List.mem_append_left
      refine List.mem_map.mpr ⟨portStats.length, List.mem_range.mpr ?_, rfl⟩
      unfold maxSegs
      omega

theorem tx_of_same (up : v.up = true) (same : v.getEthtoolStats r = v.named.map Prod.snd) :
    ∀ q, some q ∈ v.txqGrps.flatten → (q.xdp = true ↔ v.maxTxq ≤ q.idx) := by
  intro q there
  obtain ⟨i, place⟩ := List.mem_iff_getElem?.mp there
  have idx := v.txNumbered i q place
  constructor
  · intro on
    by_contra low
    have named := packets_named (Nat.lt_of_not_le low)
      (idx ▸ (List.getElem?_eq_some_iff.mp place).1 : q.idx < v.txqGrps.flatten.length)
    rw [← same] at named
    obtain ⟨q', there', off, idx'⟩ := tx_written up named
    obtain ⟨j, place'⟩ := List.mem_iff_getElem?.mp there'
    have one : j = i := (v.txNumbered j q' place').symm.trans (idx'.trans idx)
    rw [one, place] at place'
    rw [← Option.some.inj (Option.some.inj place'), on] at off
    cases off
  · intro high
    by_contra off
    have written := @packets_written v r up q there (Bool.eq_false_iff.mpr off)
    rw [same] at written
    exact absurd (tx_named written) (Nat.not_lt.mpr high)

theorem regular_of_reported (good : v.Reported r) : v.Regular r := by
  have same : v.getEthtoolStats r = v.named.map Prod.snd := by
    apply List.ext_getElem?
    intro k
    rw [List.getElem?_map]
    exact (good.values k).2
  have up : v.up = true := by
    by_contra down
    have none : v.getEthtoolStats r = [] := by
      unfold getEthtoolStats
      rw [Bool.eq_false_iff.mpr down]
      rfl
    have count := good.count
    have some : portStats.length = 24 := rfl
    rw [none, List.length_nil] at count
    unfold getSsetCount at count
    omega
  have once := once_of_same up same
  have tx := tx_of_same up same
  refine ⟨up, once, tx, ?_⟩
  rw [getEthtoolStats_eq up, named_cells, once, tx_rows up tx] at same
  have lengths := congrArg List.length (List.append_cancel_left same)
  have row : ∀ rxq, (rxRow rxq).length = rxQueueStats.length := by
    intro rxq
    cases rxq with
    | none => rfl
    | some q => rfl
  have cells : ∀ i, (if i < v.rxqGrps.flatten.length then rxCells i
      else noCells rxQueueStats.length).length = rxQueueStats.length := by
    intro i
    split
    · rfl
    · rfl
  have three : rxQueueStats.length = 3 := rfl
  rw [List.length_append, length_flatMap_const row, length_flatMap_const (fun _ => rfl),
    length_flatMap_const cells, List.length_range, List.length_range', noCells,
    List.length_replicate, three] at lengths
  omega

/-- The statistics are laid out as their strings say if and only if the vport is regular and the
port statistics are copied in one go. -/
theorem stats_reported_iff (v : StatVport) (r : Retries) : v.Reported r ↔ v.Regular r :=
  ⟨regular_of_reported, reported_of_regular⟩

/-- Groups of one queue each, as in the split queue model; those from `offset` on are for XDP. -/
def splitGroups (n offset : Nat) : List (List (Option StatQueue)) :=
  (List.range n).map fun i => [some ⟨i, decide (offset ≤ i)⟩]

theorem splitGroups_allocated (n offset : Nat) : ∀ grp ∈ splitGroups n offset, none ∉ grp := by
  intro grp member
  obtain ⟨i, -, rfl⟩ := List.mem_map.mp member
  intro own
  cases List.mem_singleton.mp own

theorem splitGroups_numbered (n offset : Nat) : Numbered (splitGroups n offset) := by
  intro i q place
  have flat : (splitGroups n offset).flatten =
      (List.range n).map fun i => some ⟨i, decide (offset ≤ i)⟩ := by
    rw [splitGroups, ← List.flatMap_def]
    exact List.flatMap_pure_eq_map _ _
  rw [flat, List.getElem?_map] at place
  obtain ⟨j, there, same⟩ := Option.map_eq_some_iff.mp place
  obtain ⟨low, number⟩ := List.getElem?_eq_some_iff.mp there
  rw [List.getElem_range] at number
  rw [← Option.some.inj same, number]

/-- A vport that is up, in the split queue model, with `xdp` queues for XDP behind the others. -/
def splitUp (most txq rxq xdp : Nat) : StatVport where
  up := true
  uplink := false
  maxTxq := most
  maxRxq := most
  txqGrps := splitGroups (txq + xdp) txq
  rxqGrps := splitGroups rxq rxq
  allocated := by
    intro _ grp member
    cases List.mem_append.mp member with
    | inl tx => exact splitGroups_allocated _ _ grp tx
    | inr rx => exact splitGroups_allocated _ _ grp rx
  txNumbered := splitGroups_numbered _ _
  rxNumbered := splitGroups_numbered _ _

/-- With one retry of the port statistics 32 values too many are written, and with two XDP queues six
too few. -/
theorem stats_miscounted :
    let once : Retries := ⟨0, 0, fun _ => 0, fun _ => 0⟩
    let again : Retries := { once with port := 1 }
    ((splitUp 4 2 2 0).Reported once ∧
      ((splitUp 4 2 2 0).getEthtoolStats again).length = (splitUp 4 2 2 0).getSsetCount + 32 ∧
      ¬ (splitUp 4 2 2 0).Reported again) ∧
      ((splitUp 4 2 2 2).getEthtoolStats once).length + 6 = (splitUp 4 2 2 2).getSsetCount ∧
      ¬ (splitUp 4 2 2 2).Reported once := by
  intro once again
  have more : ((splitUp 4 2 2 0).getEthtoolStats again).length =
      (splitUp 4 2 2 0).getSsetCount + 32 := by decide +kernel
  have fewer : ((splitUp 4 2 2 2).getEthtoolStats once).length + 6 =
      (splitUp 4 2 2 2).getSsetCount := by decide +kernel
  refine ⟨⟨?_, more, ?_⟩, fewer, ?_⟩
  · apply reported_of_regular
    constructor
    · rfl
    · rfl
    · intro q there
      have few : ∀ q ∈ (splitUp 4 2 2 0).txqGrps.flatten, q = some ⟨0, false⟩ ∨
          q = some ⟨1, false⟩ := by decide
      obtain first | second := few _ there
      · obtain rfl := Option.some.inj first
        decide
      · obtain rfl := Option.some.inj second
        decide
    · rfl
  · intro good
    have count := good.count
    omega
  · intro good
    have count := good.count
    omega

end StatVport

end Idpf
