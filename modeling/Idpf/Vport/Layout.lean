import Idpf.Vport.QueueChunks

/-! The groups that a vport lays its queues out in, and the arrays that are filled from them. -/
namespace Idpf

/-- A reply to VIRTCHNL2_OP_CREATE_VPORT, as far as queues go: the models and the granted
counts. -/
structure QueueGrant where
  txSplit : Bool
  rxSplit : Bool
  numQ : QueueKind → Nat

/-- What `idpf_vport_init` derives from the reply, `xdp` being whether a program is attached. -/
def QueueGrant.rsrc (g : QueueGrant) (xdp : Bool) : QVecRsrc :=
  ((QVecRsrc.zero g.txSplit g.rxSplit).initNumQs xdp g.numQ).calcNumQGroups

/-- The indexes at which `idpf_fast_path_txq_init` writes `vport->txqs`, `k` being the first: one
for each queue of each group. -/
def txqIndexes : List Nat → Nat → List Nat
  | [], _ => []
  | size :: groups, k => (List.range size).map (k + ·) ++ txqIndexes groups (k + size)

/-- The indexes at which an array of `num` entries is read for groups of these sizes. -/
def readIndexes : List Nat → Nat → Nat → List Nat
  | [], _, _ => []
  | size :: groups, k, num =>
    let read := min size (num - k)
    (List.range read).map (k + ·) ++ readIndexes groups (k + read) num

/-- Tx and Rx groups cover the granted queues, and laying them out stays within `vport->txqs` and
within the arrays of IDs and registers. -/
structure LaidOut (g : QueueGrant) (xdp : Bool) : Prop where
  txqs : ∀ k ∈ txqIndexes (g.rsrc xdp).txqGroups 0, k < (g.rsrc xdp).numTxq
  txTotal : (g.rsrc xdp).txqGroups.sum = g.numQ .tx
  rxTotal : (g.rsrc xdp).rxqGroups.sum = g.numQ .rx
  arrays : ∀ (type : BitVec 32) (chunks : List QueueChunk),
    ∀ groups ∈ [(g.rsrc xdp).txqGroups, (g.rsrc xdp).rxqGroups, (g.rsrc xdp).complqGroups,
      (g.rsrc xdp).bufqGroups],
    (∀ k ∈ readIndexes groups 0 (getQueueIds maxQids type chunks).length, k < maxQids) ∧
      ∀ k ∈ readIndexes groups 0 (getQReg maxQids type chunks).length, k < maxQids

theorem txqIndexes_eq (groups : List Nat) (k : Nat) :
    txqIndexes groups k = List.range' k groups.sum := by
  induction groups generalizing k with
  | nil => rfl
  | cons size groups ih =>
    rw [txqIndexes, ih, List.sum_cons, ← List.range'_append_1, ← List.range'_eq_map_range]

theorem mem_readIndexes {groups : List Nat} {k num i : Nat} (member : i ∈ readIndexes groups k num) :
    i < num := by
  induction groups generalizing k with
  | nil => exact absurd member List.not_mem_nil
  | cons size groups ih =>
    rcases List.mem_append.mp member with here | rest
    · obtain ⟨j, inside, rfl⟩ := List.mem_map.mp here
      have := List.mem_range.mp inside
      omega
    · exact ih rest

theorem rsrc_txqGroups (g : QueueGrant) (xdp : Bool) :
    (g.rsrc xdp).txqGroups.sum = if g.txSplit then g.numQ .compl else g.numQ .tx := by
  cases g with
  | mk txSplit rxSplit numQ =>
    cases txSplit <;> cases rxSplit <;> cases xdp <;>
      simp [QueueGrant.rsrc, QVecRsrc.txqGroups, QVecRsrc.calcNumQGroups, QVecRsrc.initNumQs,
        QVecRsrc.zero]

theorem rsrc_rxqGroups (g : QueueGrant) (xdp : Bool) :
    (g.rsrc xdp).rxqGroups.sum = g.numQ .rx := by
  cases g with
  | mk txSplit rxSplit numQ =>
    cases txSplit <;> cases rxSplit <;> cases xdp <;>
      simp [QueueGrant.rsrc, QVecRsrc.rxqGroups, QVecRsrc.calcNumQGroups, QVecRsrc.initNumQs,
        QVecRsrc.zero]

theorem rsrc_numTxq (g : QueueGrant) (xdp : Bool) : (g.rsrc xdp).numTxq = g.numQ .tx := by
  cases g with
  | mk txSplit rxSplit numQ =>
    cases txSplit <;> cases rxSplit <;> cases xdp <;>
      simp [QueueGrant.rsrc, QVecRsrc.calcNumQGroups, QVecRsrc.initNumQs, QVecRsrc.zero]

/-- The layout is right exactly if in the split model there are as many completion queues as
transmit queues. -/
theorem laidOut_iff (g : QueueGrant) (xdp : Bool) :
    LaidOut g xdp ↔ (g.txSplit = true → g.numQ .compl = g.numQ .tx) := by
  constructor
  · intro laid split
    rw [← laid.txTotal, rsrc_txqGroups, if_pos split]
  · intro ratio
    have total : (g.rsrc xdp).txqGroups.sum = g.numQ .tx := by
      rw [rsrc_txqGroups]
      split
      · next split => exact ratio split
      · rfl
    constructor
    · intro k member
      rw [txqIndexes_eq, List.mem_range'_1, total] at member
      rw [rsrc_numTxq]
      omega
    · exact total
    · exact rsrc_rxqGroups g xdp
    · intro type chunks groups _
      rw [getQueueIds_eq, getQReg_eq]
      constructor
      · intro k member
        exact (mem_readIndexes member).trans_le (ChunkWalk.fill_length_le _ _)
      · intro k member
        exact (mem_readIndexes member).trans_le (ChunkWalk.fill_length_le _ _)

/-- Two completion queues for one transmit queue: the second group is laid out behind the end of
`vport->txqs`. -/
theorem second_group_behind_txqs :
    ¬ LaidOut ⟨true, true, fun | .tx => 1 | .compl => 2 | .rx => 1 | .buf => 2⟩ false := by
  intro laid
  have behind := laid.txqs 1 (by decide)
  exact absurd behind (by decide)

end Idpf
