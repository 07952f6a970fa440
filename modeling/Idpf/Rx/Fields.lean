import Idpf.Tx.Basic

/-! Receive descriptors of a split queue, socket buffers under construction, and
what `idpf_rx_process_skb_fields` takes from the one into the other. -/
namespace Idpf

/-- The `width` bits of a word from bit `lo` on, as `FIELD_GET` reads them. -/
def bits (word lo width : Nat) : Nat := word / 2 ^ lo % 2 ^ width

def bit (word i : Nat) : Bool := bits word i 1 == 1

/-- `struct virtchnl2_rx_flex_desc_adv_nic_3`, the words the driver reads. -/
structure RxDesc where
  rxdidUcast : Nat := 2
  statusErr0Qw0 : Nat := 0
  ptypeErrFflags0 : Nat := 0
  pktlenGenBufqId : Nat := 0
  hdrlenFlags : Nat := 0
  statusErr0Qw1 : Nat := 0
  tsLow : Nat := 0
  bufId : Nat := 0
  misc : Nat := 0
  hash1 : Nat := 0
  hash2 : Nat := 0
  hash3 : Nat := 0
  l2tag1 : Nat := 0
  tsHigh : Nat := 0
  deriving DecidableEq, Repr

namespace RxDesc

def rxdid (d : RxDesc) : Nat := bits d.rxdidUcast 0 4
def pktLen (d : RxDesc) : Nat := bits d.pktlenGenBufqId 0 14
def gen (d : RxDesc) : Bool := bit d.pktlenGenBufqId 14
def bufqId (d : RxDesc) : Nat := bits d.pktlenGenBufqId 15 1
def hdrLen (d : RxDesc) : Nat := bits d.hdrlenFlags 0 10
def rsc (d : RxDesc) : Bool := bit d.hdrlenFlags 10
def eof (d : RxDesc) : Bool := bit d.statusErr0Qw1 1
def hbo (d : RxDesc) : Bool := bit d.statusErr0Qw1 2
def l3l4p (d : RxDesc) : Bool := bit d.statusErr0Qw1 3
def xsumIpe (d : RxDesc) : Bool := bit d.statusErr0Qw1 4
def xsumL4e (d : RxDesc) : Bool := bit d.statusErr0Qw1 5
def xsumEipe (d : RxDesc) : Bool := bit d.statusErr0Qw1 6
def ipv6exadd (d : RxDesc) : Bool := bit d.statusErr0Qw0 1
def l2tag1p (d : RxDesc) : Bool := bit d.statusErr0Qw0 5
def ptype (d : RxDesc) : Nat := bits d.ptypeErrFflags0 0 10
def rawCsumInv (d : RxDesc) : Bool := bit d.ptypeErrFflags0 12
def tstampValid (d : RxDesc) : Bool := bit d.tsLow 0

end RxDesc

/-- `VIRTCHNL2_RXDID_2_FLEX_SPLITQ`. -/
def rxdid2FlexSplitq : Nat := 2

def ethHlen : Nat := 14
def vlanVidMask : Nat := 0x0fff

inductive OuterIpVer where
  | none | ipv4 | ipv6 | other
  deriving DecidableEq, Repr

inductive InnerProt where
  | none | udp | tcp | sctp | icmp | timesync | other
  deriving DecidableEq, Repr

inductive PayloadLayer where
  | none | pay2 | pay3 | pay4 | other
  deriving DecidableEq, Repr

/-- `struct idpf_rx_ptype_decoded`, the fields receive processing looks at. -/
structure RxPtype where
  known : Bool := false
  outerIp : Bool := false
  outerIpVer : OuterIpVer := .none
  innerProt : InnerProt := .none
  payloadLayer : PayloadLayer := .none
  deriving DecidableEq, Repr

inductive PktHashType where
  | none | l2 | l3 | l4
  deriving DecidableEq, Repr

/-- `skb->ip_summed`. -/
inductive IpSummed where
  | none | unnecessary | complete | partly
  deriving DecidableEq, Repr

/-- What `idpf_rx_rsc` leaves for segmentation. The TCP checksum field then holds
the pseudo header's, which is a function of the packet and not written out. -/
structure RscInfo where
  segments : Nat
  segLen : Nat
  ipv4 : Bool
  deriving DecidableEq, Repr

/-- A received `struct sk_buff`: its octets from the MAC header on, how many of them
have been pulled, and the fields set from the descriptor. `overrun` says that a fragment
was written behind the array of fragments. -/
structure RxSkb where
  linear : List UInt8
  frags : List (List UInt8) := []
  pulled : Nat := 0
  protocol : Nat := 0
  hash : Option (Nat × PktHashType) := none
  hwtstamp : Option Nat := none
  ipSummed : IpSummed := .none
  csum : Nat := 0
  rsc : Option RscInfo := none
  vlan : Option (Nat × Nat) := none
  overrun : Bool := false
  deriving DecidableEq, Repr

namespace RxSkb

def octets (s : RxSkb) : List UInt8 := s.linear ++ s.frags.flatten

/-- `skb->data` on. -/
def data (s : RxSkb) : List UInt8 := s.octets.drop s.pulled

def len (s : RxSkb) : Nat := s.data.length

def dataLen (s : RxSkb) : Nat := s.frags.flatten.length

end RxSkb

/-- Features and tables of a queue that receive processing depends on. -/
structure RxFeatures where
  rxhash : Bool := true
  rxcsum : Bool := true
  tstmpEn : Bool := false
  simics : Bool := false
  cachedPhcTime : Nat := 0
  vlanProto : Nat := 0x8100
  ptypeLkup : Nat → RxPtype := fun _ => {}

/-- The octet at an offset from `skb->data`; behind the end of the data it is
whatever the memory there holds. -/
def RxSkb.peek (s : RxSkb) (beyond : Nat → UInt8) (i : Nat) : Nat :=
  ((s.data[i]?).getD (beyond (i - s.len))).toNat

/-- `eth_type_trans`: the Ethernet header is pulled, if there is one, and the
protocol read from where it stood. -/
def ethTypeTrans (s : RxSkb) (beyond : Nat → UInt8) : RxSkb :=
  let proto := s.peek beyond 12 * 256 + s.peek beyond 13
  let s := if ethHlen ≤ s.len then { s with pulled := s.pulled + ethHlen } else s
  if 0x0600 ≤ proto then { s with protocol := proto }
  else if s.data.take 2 = [0xff, 0xff] then { s with protocol := 0x0001 }
  else { s with protocol := 0x0004 }

/-- `idpf_ptype_to_htype`. -/
def ptypeToHtype (p : RxPtype) : PktHashType :=
  if !p.known then .none
  else if p.payloadLayer = .pay2 ∧ p.innerProt ≠ .none then .l4
  else if p.payloadLayer = .pay2 ∧ p.outerIp then .l3
  else if !p.outerIp then .l2
  else .none

/-- `idpf_rx_hash`. -/
def rxHash (f : RxFeatures) (s : RxSkb) (d : RxDesc) (p : RxPtype) : RxSkb :=
  if !f.rxhash then s
  else { s with hash := some (d.hash1 + d.hash2 * 65536 + d.hash3 * 16777216, ptypeToHtype p) }

/-- `idpf_ptp_tstamp_extend_32b_to_64b`. -/
def tstampExtend (cachedPhcTime inTimestamp : Nat) : Nat :=
  let delta := u32Sub inTimestamp cachedPhcTime
  if delta > 4294967295 / 2 then
    (cachedPhcTime + (18446744073709551616 - u32Sub cachedPhcTime inTimestamp)) %
      18446744073709551616
  else (cachedPhcTime + delta) % 18446744073709551616

/-- `idpf_rx_hwtstamp`. -/
def rxHwtstamp (f : RxFeatures) (d : RxDesc) (s : RxSkb) : RxSkb :=
  if !d.tstampValid then s
  else { s with hwtstamp := some (tstampExtend f.cachedPhcTime d.tsHigh) }

/-- `IDPF_RX_PTYPE_TO_IPV`. -/
def RxPtype.isIpv (p : RxPtype) (v : OuterIpVer) : Bool := p.outerIp && p.outerIpVer == v

/-- `idpf_rx_rsc`, `none` for an error. -/
def rxRsc (s : RxSkb) (d : RxDesc) (p : RxPtype) : Option RxSkb :=
  let ipv4 := p.isIpv .ipv4
  if !p.outerIp then none
  else if d.misc = 0 then none
  else if !(ipv4 ^^ p.isIpv .ipv6) then none
  else
    let segments := u16 ((s.dataLen + d.misc - 1) / d.misc)
    if segments = 1 then some s
    else some { s with rsc := some ⟨segments, d.misc, ipv4⟩, ipSummed := .partly }

/-- `csum_unfold` of the inverted, byte-swapped raw checksum. -/
def rawCsum (csum : Nat) : Nat := 65535 - (csum % 256 * 256 + csum / 256 % 256)

/-- `eth_type_vlan`. -/
def ethTypeVlan (protocol : Nat) : Bool := protocol == 0x8100 || protocol == 0x88a8

/-- `idpf_rx_csum` on the bits `idpf_rx_splitq_extract_csum_bits` extracts. -/
def rxCsum (f : RxFeatures) (s : RxSkb) (d : RxDesc) (p : RxPtype) : RxSkb :=
  if !f.rxcsum then s
  else if !d.l3l4p then s
  else if p.isIpv .ipv4 && (d.xsumIpe || d.xsumEipe) then s
  else if p.isIpv .ipv6 && d.ipv6exadd then s
  else if ethTypeVlan s.protocol then s
  else if d.xsumL4e then s
  else match p.innerProt with
    | .icmp | .tcp | .udp =>
      if !d.rawCsumInv then
        { s with
          csum := rawCsum d.misc
          ipSummed := if f.simics then .unnecessary else .complete }
      else { s with ipSummed := .unnecessary }
    | .sctp => { s with ipSummed := .unnecessary }
    | _ => s

/-- `idpf_rx_process_skb_fields`, `none` for an error. -/
def rxProcessSkbFields (f : RxFeatures) (s : RxSkb) (d : RxDesc) (beyond : Nat → UInt8) :
    Option RxSkb :=
  let s := ethTypeTrans s beyond
  let p := f.ptypeLkup d.ptype
  if !p.known then some s
  else
    let s := rxHash f s d p
    let s := if f.tstmpEn then rxHwtstamp f d s else s
    if d.rsc then rxRsc s d p else some (rxCsum f s d p)

/-- `idpf_get_vlan_tci`. -/
def getVlanTci (d : RxDesc) : Nat := if d.l2tag1p then d.l2tag1 else 0

/-- The skb as `idpf_receive_skb` passes it to `napi_gro_receive`. -/
def receiveSkb (f : RxFeatures) (s : RxSkb) (vlanTci : Nat) : RxSkb :=
  if vlanTci % (vlanVidMask + 1) ≠ 0 then { s with vlan := some (f.vlanProto, vlanTci) } else s

end Idpf
