import Idpf.Rx.ZeroCopy
import Mathlib.Algebra.Order.Floor.Div

/-! `idpf_rx_rsc` with the offsets and lengths it writes, and the TCP packet they are to
describe. -/
namespace Idpf

/-- `DIV_ROUND_UP` -/
def divRoundUp (n d : Nat) : Nat := (n + d - 1) / d

theorem divRoundUp_le {n d q : Nat} (pos : 0 < d) : divRoundUp n d ≤ q ↔ n ≤ d * q :=
  ceilDiv_le_iff_le_mul pos

/-- The pseudo header whose checksum takes the place of the TCP checksum. -/
structure PseudoHeader where
  addrs : List UInt8
  len : Int
  deriving DecidableEq, Repr

/-- The fields for resegmentation. The headers are offsets from the MAC header. `tcp_gro_complete`
takes `gso_segs` from `count` and has the checksum start at the transport header. -/
structure GroFields where
  count : Nat
  gsoSize : Nat
  gsoIpv4 : Bool
  networkHeader : Nat
  transportHeader : Nat
  check : PseudoHeader
  deriving DecidableEq, Repr

/-- `sizeof(struct iphdr)` or `sizeof(struct ipv6hdr)` -/
def ipHdrSize (ipv4 : Bool) : Nat := if ipv4 then 20 else 40

/-- Source and destination address of the header at `skb->data`. -/
def RxSkb.addrs (s : RxSkb) (ipv4 : Bool) : List UInt8 :=
  if ipv4 then (s.data.drop 12).take 8 else (s.data.drop 8).take 32

/-- `idpf_rx_rsc`, `none` for an error. It succeeds without writing a field where it counts one
segment. -/
def rxRscFields (s : RxSkb) (d : RxDesc) (p : RxPtype) : Option (Option GroFields) :=
  let ipv4 := p.isIpv .ipv4
  if !p.outerIp then none
  else if d.misc = 0 then none
  else if !(ipv4 ^^ p.isIpv .ipv6) then none
  else
    let segments := u16 (divRoundUp s.dataLen d.misc)
    if segments = 1 then some none
    else some (some
      { count := segments
        gsoSize := d.misc
        gsoIpv4 := ipv4
        networkHeader := s.pulled
        transportHeader := s.pulled + ipHdrSize ipv4
        check := ⟨s.addrs ipv4, s.len - ipHdrSize ipv4⟩ })

def RxSkb.withGro (s : RxSkb) : Option GroFields → RxSkb
  | none => s
  | some g => { s with rsc := some ⟨g.count, g.gsoSize, g.gsoIpv4⟩, ipSummed := .partly }

theorem rxRsc_eq (s : RxSkb) (d : RxDesc) (p : RxPtype) :
    rxRsc s d p = (rxRscFields s d p).map s.withGro := by
  unfold rxRsc rxRscFields
  dsimp only
  split
  · rfl
  · split
    · rfl
    · split
      · rfl
      · unfold divRoundUp
        split <;> rfl

/-- A TCP packet by its parts: what comes before the IP header, that header with its options or the
chain of IPv6 headers, the TCP header and the payload. -/
structure TcpPacket where
  l2 : List UInt8
  ip : List UInt8
  tcp : List UInt8
  payload : List UInt8
  l2_len : 14 ≤ l2.length
  ip_len : 20 ≤ ip.length
  tcp_len : 20 ≤ tcp.length
  headers : l2.length + ip.length + tcp.length ≤ 65535

namespace TcpPacket

def octets (pkt : TcpPacket) : List UInt8 := pkt.l2 ++ pkt.ip ++ pkt.tcp ++ pkt.payload

@[simp] theorem octets_length (pkt : TcpPacket) : pkt.octets.length =
    pkt.l2.length + pkt.ip.length + pkt.tcp.length + pkt.payload.length := by
  simp only [octets, List.length_append]

end TcpPacket

/-- An skb with the packet, however it is spread over the linear part and the fragments, after
`eth_type_trans`. -/
structure Carries (s : RxSkb) (pkt : TcpPacket) : Prop where
  octets : s.octets = pkt.octets
  pulled : s.pulled = ethHlen

/-- Fields that describe a packet the device has put together from segments of `segLen`. -/
structure Describes (g : GroFields) (pkt : TcpPacket) (segLen : Nat) : Prop where
  count : g.count = divRoundUp pkt.payload.length segLen
  some : 1 ≤ g.count
  size : g.gsoSize = segLen
  transport : g.transportHeader = pkt.l2.length + pkt.ip.length
  covers : g.check.len = pkt.tcp.length + pkt.payload.length

def RscDescribed (r : Option GroFields) (pkt : TcpPacket) (segLen : Nat) : Prop :=
  match r with
  | none => divRoundUp pkt.payload.length segLen = 1
  | some g => Describes g pkt segLen

/-- The packets that the count of the paged octets and the fixed header sizes fit: no multiple of
the segment length lies between the paged octets and the payload, the segments can be counted in 16
bits, and where there are several the TCP header comes right behind an IP header of the fixed size
behind an Ethernet header. -/
structure RscPlain (pkt : TcpPacket) (paged segLen ipSize : Nat) : Prop where
  payload : 0 < pkt.payload.length
  few : pkt.payload.length ≤ segLen * 65535
  paged : ∀ q, paged ≤ segLen * q ↔ pkt.payload.length ≤ segLen * q
  plain : pkt.payload.length ≤ segLen ∨ pkt.l2.length + pkt.ip.length = ethHlen + ipSize

section

variable {s : RxSkb} {pkt : TcpPacket} {d : RxDesc} {p : RxPtype} {r : Option GroFields}

theorem Carries.dataLen_le (carries : Carries s pkt) : s.dataLen ≤ 65535 + pkt.payload.length := by
  have total := congrArg List.length carries.octets
  have headers := pkt.headers
  rw [pkt.octets_length, RxSkb.octets, List.length_append] at total
  unfold RxSkb.dataLen
  omega

theorem Carries.len (carries : Carries s pkt) : s.len + ethHlen =
    pkt.l2.length + pkt.ip.length + pkt.tcp.length + pkt.payload.length := by
  have mac := pkt.l2_len
  have len : s.len = pkt.octets.length - ethHlen := by
    unfold RxSkb.len RxSkb.data
    rw [List.length_drop, carries.octets, carries.pulled]
  rw [pkt.octets_length] at len
  unfold ethHlen at len ⊢
  omega

/-- What a success tells of the descriptor and of the fields. -/
theorem rxRscFields_done (done : rxRscFields s d p = some r) :
    0 < d.misc ∧
      (u16 (divRoundUp s.dataLen d.misc) = 1 ∧ r = none ∨
        u16 (divRoundUp s.dataLen d.misc) ≠ 1 ∧ ∃ g, r = some g ∧
          g.count = u16 (divRoundUp s.dataLen d.misc) ∧ g.gsoSize = d.misc ∧
          g.transportHeader = s.pulled + ipHdrSize (p.isIpv .ipv4) ∧
          g.check.len = s.len - ipHdrSize (p.isIpv .ipv4)) := by
  unfold rxRscFields at done
  dsimp only at done
  split at done
  · exact nomatch done
  · split at done
    · exact nomatch done
    · next some =>
      split at done
      · exact nomatch done
      · refine ⟨Nat.pos_of_ne_zero some, ?_⟩
        split at done
        · next one => exact Or.inl ⟨one, (Option.some.inj done).symm⟩
        · next more =>
          exact Or.inr ⟨more, _, (Option.some.inj done).symm, rfl, rfl, rfl, rfl⟩

/-- The count of the paged octets is that of the payload where no multiple of the segment length
lies between them. -/
theorem count_iff {paged payload segLen : Nat} (pos : 0 < segLen) (le : paged ≤ 65535 + payload) :
    u16 (divRoundUp paged segLen) = divRoundUp payload segLen ↔
      payload ≤ segLen * 65535 ∧ ∀ q, paged ≤ segLen * q ↔ payload ≤ segLen * q := by
  have near : divRoundUp paged segLen ≤ divRoundUp payload segLen + 65535 := by
    have fits : payload ≤ segLen * divRoundUp payload segLen :=
      (divRoundUp_le pos).mp (Nat.le_refl _)
    have split : segLen * (divRoundUp payload segLen + 65535) =
        segLen * divRoundUp payload segLen + segLen * 65535 := Nat.mul_add _ _ _
    rw [divRoundUp_le pos]
    omega
  have same : divRoundUp paged segLen = divRoundUp payload segLen ↔
      ∀ q, paged ≤ segLen * q ↔ payload ≤ segLen * q := by
    constructor
    · intro eq q
      rw [← divRoundUp_le pos, ← divRoundUp_le pos, eq]
    · intro between
      apply Nat.le_antisymm
      · rw [divRoundUp_le pos, between, ← divRoundUp_le pos]
      · rw [divRoundUp_le pos, ← between, ← divRoundUp_le pos]
  rw [← divRoundUp_le pos, ← same]
  unfold u16
  omega

theorem divRoundUp_one {n d : Nat} (pos : 0 < d) : divRoundUp n d = 1 ↔ 0 < n ∧ n ≤ d := by
  have one := @divRoundUp_le n d 1 pos
  have zero := @divRoundUp_le n d 0 pos
  omega

theorem divRoundUp_pos {n d : Nat} (pos : 0 < d) : 1 ≤ divRoundUp n d ↔ 0 < n := by
  have zero := @divRoundUp_le n d 0 pos
  omega

theorem RscPlain.count {ipSize : Nat} (plain : RscPlain pkt s.dataLen d.misc ipSize)
    (pos : 0 < d.misc) (carries : Carries s pkt) :
    u16 (divRoundUp s.dataLen d.misc) = divRoundUp pkt.payload.length d.misc :=
  (count_iff pos carries.dataLen_le).mpr ⟨plain.few, plain.paged⟩

theorem none_described_iff {ipSize : Nat} (pos : 0 < d.misc) (carries : Carries s pkt)
    (one : u16 (divRoundUp s.dataLen d.misc) = 1) :
    divRoundUp pkt.payload.length d.misc = 1 ↔ RscPlain pkt s.dataLen d.misc ipSize := by
  constructor
  · intro single
    obtain ⟨some, le⟩ := (divRoundUp_one pos).mp single
    have fits := (count_iff pos carries.dataLen_le).mp (one.trans single.symm)
    exact ⟨some, fits.1, fits.2, Or.inl le⟩
  · intro plain
    exact (plain.count pos carries).symm.trans one

/-- A packet with fields. -/
theorem some_described_iff {g : GroFields} {ipSize : Nat} (pos : 0 < d.misc)
    (carries : Carries s pkt) (more : u16 (divRoundUp s.dataLen d.misc) ≠ 1)
    (count : g.count = u16 (divRoundUp s.dataLen d.misc)) (size : g.gsoSize = d.misc)
    (transport : g.transportHeader = s.pulled + ipSize) (covers : g.check.len = s.len - ipSize) :
    Describes g pkt d.misc ↔ RscPlain pkt s.dataLen d.misc ipSize := by
  have len := carries.len
  rw [carries.pulled] at transport
  constructor
  · intro ok
    have same := count.symm.trans ok.count
    have fits := (count_iff pos carries.dataLen_le).mp same
    have some := ok.some
    rw [ok.count, divRoundUp_pos pos] at some
    exact ⟨some, fits.1, fits.2, Or.inr (ok.transport.symm.trans transport)⟩
  · intro plain
    have same := plain.count pos carries
    have several : ¬ pkt.payload.length ≤ d.misc := by
      intro le
      exact more (same.trans ((divRoundUp_one pos).mpr ⟨plain.payload, le⟩))
    have headers := plain.plain.resolve_left several
    constructor
    · exact count.trans same
    · rw [count, same]
      exact (divRoundUp_pos pos).mpr plain.payload
    · exact size
    · exact transport.trans headers.symm
    · omega

/-- The fields describe a packet that is plain, and no other. With the fields written the packet has
more than one segment. -/
theorem rsc_described_iff (carries : Carries s pkt) (done : rxRscFields s d p = some r) :
    (RscDescribed r pkt d.misc ↔
      RscPlain pkt s.dataLen d.misc (ipHdrSize (p.isIpv .ipv4))) ∧
    ((∃ g, r = some g ∧ Describes g pkt d.misc) ↔
      RscPlain pkt s.dataLen d.misc (ipHdrSize (p.isIpv .ipv4)) ∧ d.misc < pkt.payload.length) := by
  obtain ⟨pos, ⟨one, rfl⟩ | ⟨more, g, rfl, count, size, transport, covers⟩⟩ := rxRscFields_done done
  · constructor
    · exact none_described_iff pos carries one
    · constructor
      · rintro ⟨g, eq, _⟩
        exact nomatch eq
      · rintro ⟨plain, several⟩
        have single := (none_described_iff pos carries one).mpr plain
        exact absurd ((divRoundUp_one pos).mp single).2 (Nat.not_le.mpr several)
  · have fields := some_described_iff pos carries more count size transport covers
    constructor
    · exact fields
    · constructor
      · rintro ⟨g', eq, ok⟩
        obtain rfl := Option.some.inj eq
        have plain := fields.mp ok
        refine ⟨plain, Nat.lt_of_not_le fun le => more ?_⟩
        exact (plain.count pos carries).trans ((divRoundUp_one pos).mpr ⟨plain.payload, le⟩)
      · rintro ⟨plain, _⟩
        exact ⟨g, rfl, fields.mpr plain⟩

end

section Built

variable {s : RxSkb} {pkt : TcpPacket} {d : RxDesc} {f : RxFeatures} {beyond : Nat → UInt8}
  {segLen ipSize : Nat}

/-- `eth_type_trans` pulls the Ethernet header of an skb that has just been built. -/
theorem carries_ethTypeTrans (octets : s.octets = pkt.octets) (fresh : s.pulled = 0) :
    Carries (ethTypeTrans s beyond) pkt := by
  have mac := pkt.l2_len
  have long : ethHlen ≤ s.len := by
    unfold RxSkb.len RxSkb.data ethHlen
    rw [fresh, List.drop_zero, octets, pkt.octets_length]
    omega
  unfold ethTypeTrans
  rw [if_pos long, fresh, Nat.zero_add]
  dsimp only
  split
  · exact ⟨octets, rfl⟩
  · split <;> exact ⟨octets, rfl⟩

theorem Carries.congr {s₁ : RxSkb} (same : s₁.packet = s.packet) (carries : Carries s pkt) :
    Carries s₁ pkt := by
  simp only [RxSkb.packet, Prod.mk.injEq] at same
  obtain ⟨linear, frags, pulled, _⟩ := same
  constructor
  · rw [← carries.octets, RxSkb.octets, RxSkb.octets, linear, frags]
  · exact pulled.trans carries.pulled

/-- A flagged packet of a known type goes to `idpf_rx_rsc` with what its buffers held. The hash and
the time stamp come before it and leave the packet as it is. -/
theorem rxProcessSkbFields_rsc (known : (f.ptypeLkup d.ptype).known = true) (flag : d.rsc = true)
    (octets : s.octets = pkt.octets) (fresh : s.pulled = 0) :
    ∃ s₁ : RxSkb, Carries s₁ pkt ∧ rxProcessSkbFields f s d beyond =
      (rxRscFields s₁ d (f.ptypeLkup d.ptype)).map s₁.withGro := by
  unfold rxProcessSkbFields
  simp only [known, flag, Bool.not_true, Bool.false_eq_true, if_false, if_true, rxRsc_eq]
  have pulled : Carries (ethTypeTrans s beyond) pkt := carries_ethTypeTrans octets fresh
  refine ⟨_, pulled.congr ?_, rfl⟩
  split
  · rw [rxHwtstamp_packet, rxHash_packet]
  · exact rxHash_packet f _ d _

/-- Header split puts the payload in the pages: what is left are the limits of the fields. -/
theorem RscPlain.of_split (some : 0 < pkt.payload.length)
    (few : pkt.payload.length ≤ segLen * 65535)
    (headers : pkt.l2.length + pkt.ip.length = ethHlen + ipSize) :
    RscPlain pkt pkt.payload.length segLen ipSize :=
  ⟨some, few, fun _ => Iff.rfl, Or.inr headers⟩

end Built

/-- Several segments in IPv4 behind an Ethernet header, with or without IP options. -/
def ipv4Tcp (opts : List UInt8) (payload : Nat) (short : opts.length ≤ 40) : TcpPacket where
  l2 := List.replicate 12 0 ++ [8, 0]
  ip := (0x45 + UInt8.ofNat (opts.length / 4)) :: (List.replicate 19 0 ++ opts)
  tcp := List.replicate 12 0 ++ [0x50] ++ List.replicate 7 0
  payload := List.replicate payload 0
  l2_len := by decide
  ip_len := by
    rw [List.length_cons, List.length_append, List.length_replicate]
    omega
  tcp_len := by decide
  headers := by
    simp only [List.length_cons, List.length_append, List.length_replicate, List.length_nil]
    omega

def ipv4TcpType : RxPtype :=
  { known := true, outerIp := true, outerIpVer := .ipv4, innerProt := .tcp, payloadLayer := .pay2 }

def splitSkb (pkt : TcpPacket) : RxSkb :=
  { linear := pkt.l2 ++ pkt.ip ++ pkt.tcp, frags := [pkt.payload], pulled := 14 }

def twoSegments : TcpPacket := ipv4Tcp [] 176 (by decide)
def twoWithOptions : TcpPacket := ipv4Tcp [1, 1, 1, 1] 176 (by decide)
def twoSegmentsDesc : RxDesc := { misc := 88, hdrlenFlags := 1024 }

theorem rsc_described_two :
    RscDescribed (some ⟨2, 88, true, 14, 34, ⟨List.replicate 8 0, 196⟩⟩) twoSegments
      twoSegmentsDesc.misc := by
  have carries : Carries (splitSkb twoSegments) twoSegments := ⟨by decide +kernel, rfl⟩
  have paged : (splitSkb twoSegments).dataLen = twoSegments.payload.length := by decide +kernel
  have done : rxRscFields (splitSkb twoSegments) twoSegmentsDesc ipv4TcpType =
      some (some ⟨2, 88, true, 14, 34, ⟨List.replicate 8 0, 196⟩⟩) := by decide +kernel
  apply (rsc_described_iff carries done).1.mpr
  rw [paged]
  exact RscPlain.of_split (by decide +kernel) (by decide +kernel) (by decide +kernel)

/-- Two segments that fit the linear part are counted as none, and with four octets of IP options
the transport header is put four octets before the TCP header. -/
theorem rsc_fields_untrue :
    (rxRscFields { linear := twoSegments.octets, pulled := 14 } twoSegmentsDesc ipv4TcpType =
        some (some ⟨0, 88, true, 14, 34, ⟨List.replicate 8 0, 196⟩⟩) ∧
      ¬ RscDescribed (some ⟨0, 88, true, 14, 34, ⟨List.replicate 8 0, 196⟩⟩) twoSegments 88) ∧
    (rxRscFields (splitSkb twoWithOptions) twoSegmentsDesc ipv4TcpType =
        some (some ⟨2, 88, true, 14, 34, ⟨List.replicate 8 0, 200⟩⟩) ∧
      ¬ RscDescribed (some ⟨2, 88, true, 14, 34, ⟨List.replicate 8 0, 200⟩⟩)
        twoWithOptions 88) := by
  refine ⟨⟨by decide +kernel, ?_⟩, by decide +kernel, ?_⟩
  · intro ok
    exact absurd ok.some (by decide)
  · intro ok
    exact absurd ok.transport (by decide +kernel)

end Idpf
