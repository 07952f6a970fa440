import Mathlib.Logic.Function.Basic

/-! How many queues and descriptors a vport has, and what the user asked for. -/
namespace Idpf

/-- The four kinds of queues that the device hands out. -/
inductive QueueKind where
  | rx
  | tx
  | buf
  | compl
  deriving DecidableEq, Repr

abbrev Mac := BitVec 48

/-- An entry of `mac_filter_list`. -/
structure MacFilter where
  macaddr : Mac
  add : Bool
  remove : Bool
  deriving DecidableEq, Repr

/-- `struct idpf_q_coalesce`. -/
structure Coalesce where
  txIntrMode : Nat
  rxIntrMode : Nat
  txCoalesceUsecs : Nat
  rxCoalesceUsecs : Nat
  deriving DecidableEq, Repr

/-- An entry of `flow_steer_list`: the location of the rule and the queue it steers flows into. -/
structure FlowRule where
  location : Nat
  ringCookie : Nat
  deriving DecidableEq, Repr

/-- `struct idpf_vport_user_config_data`, with `xdpProg` for whether a program is attached. The
key and the table of RSS are `none` where their pointers are NULL. -/
structure UserConfig where
  rssKeySize : Nat
  rssKey : Option (List Nat)
  rssLutSize : Nat
  rssLut : Option (List Nat)
  qCoalesce : List Coalesce
  numReqTxQs : Nat
  numReqRxQs : Nat
  numReqTxqDesc : Nat
  numReqRxqDesc : Nat
  xdpProg : Bool
  macFilterList : List MacFilter
  numFsteerFltrs : Nat
  flowSteerList : List FlowRule
  deriving DecidableEq, Repr

/-- The counts of `struct idpf_q_vec_rsrc` and, of `struct idpf_vport`, `num_xdp_txq`. -/
structure QVecRsrc where
  txSplit : Bool
  rxSplit : Bool
  numTxq : Nat
  numRxq : Nat
  numComplq : Nat
  numBufq : Nat
  numTxqGrp : Nat
  numRxqGrp : Nat
  numXdpTxq : Nat
  txqDescCount : Nat
  complqDescCount : Nat
  rxqDescCount : Nat
  bufqDescCount : List Nat
  numBufqsPerQgrp : Nat
  bufqSize : List Nat
  deriving DecidableEq, Repr

namespace QVecRsrc

/-- `rsrc` of a new vport: what kzalloc gives, with the two queue models set. -/
def zero (txSplit rxSplit : Bool) : QVecRsrc where
  txSplit := txSplit
  rxSplit := rxSplit
  numTxq := 0
  numRxq := 0
  numComplq := 0
  numBufq := 0
  numTxqGrp := 0
  numRxqGrp := 0
  numXdpTxq := 0
  txqDescCount := 0
  complqDescCount := 0
  rxqDescCount := 0
  bufqDescCount := [0, 0]
  numBufqsPerQgrp := 0
  bufqSize := [0, 0]

/-- `idpf_vport_init_num_qs` on the queues: `numQ` are the counts in the message. -/
def initNumQs (r : QVecRsrc) (xdp : Bool) (numQ : QueueKind → Nat) : QVecRsrc :=
  let r := { r with
    numTxq := numQ .tx
    numRxq := numQ .rx
    numComplq := if r.txSplit then numQ .compl else r.numComplq
    numBufq := if r.rxSplit then numQ .buf else r.numBufq
    numXdpTxq := if xdp then numQ .rx else 0 }
  if r.rxSplit then
    if xdp then
      { r with
        numBufqsPerQgrp := 1
        bufqSize := r.bufqSize.set 0 4096
        numBufq := r.numRxq }
    else
      { r with
        numBufqsPerQgrp := 2
        bufqSize := [4096, 2048] }
  else
    { r with
      numBufqsPerQgrp := 0
      numBufq := 0
      bufqSize := r.bufqSize.set 0 2048 }

/-- `idpf_vport_calc_num_q_desc`. Buffer queues keep a count they have. -/
def calcNumQDesc (r : QVecRsrc) (user : UserConfig) : QVecRsrc :=
  let rxq := if user.numReqRxqDesc = 0 then 512 else user.numReqRxqDesc
  { r with
    txqDescCount := if user.numReqTxqDesc = 0 then 512 else user.numReqTxqDesc
    complqDescCount :=
      if r.txSplit then
        if user.numReqTxqDesc = 0 then 512 else max user.numReqTxqDesc 256
      else 0
    rxqDescCount := rxq
    bufqDescCount := r.bufqDescCount.mapIdx fun i n =>
      if i < r.numBufqsPerQgrp ∧ n = 0 then rxq / r.numBufqsPerQgrp else n }

/-- `idpf_vport_calc_num_q_groups`. -/
def calcNumQGroups (r : QVecRsrc) : QVecRsrc :=
  { r with
    numTxqGrp := if r.txSplit then r.numComplq else 1
    numRxqGrp := if r.rxSplit then r.numRxq else 1 }

/-- What `idpf_vport_alloc_vec_indexes` asks for: XDP queues share the vectors of the others. The
count is in 16 bits. -/
def numReqVecs (r : QVecRsrc) (xdp : Bool) : Nat :=
  if xdp then max ((r.numTxq + 65536 - r.numXdpTxq) % 65536) r.numRxq else max r.numTxq r.numRxq

end QVecRsrc

/-- The part of `idpf_vport_init_num_qs` that is about `user_config`: the counts are recorded only
while nobody has asked for any. -/
def UserConfig.initNumReq (user : UserConfig) (numQ : QueueKind → Nat) : UserConfig :=
  if user.numReqTxQs = 0 ∧ user.numReqRxQs = 0 then
    { user with
      numReqTxQs := numQ .tx
      numReqRxQs := numQ .rx }
  else user

end Idpf
