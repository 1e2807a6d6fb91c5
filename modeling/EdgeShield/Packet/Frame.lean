import Mathlib.Tactic.IntervalCases
import EdgeShield.Packet.Decode

/-!
# Frames as they are written

An Ethernet frame with an IPv4 datagram, field by field: `Ipv4Datagram` has a header of
`ihl` words with its options, a transport header of one of the kinds the decoder knows
(`TransportPart`), and a payload.  The fields that the decoder does not look at are there
as plain bytes and stay arbitrary.

The decoder gives back what was written (`decodePacket_ethernet`).  Each part is read at
the offset where the parts before it end: `decodeEthernet_encode`, `decodeIpv4_encode` and
`decodeTransport_encode` say so for one part with anything behind it.
-/

namespace EdgeShield.Packet

open EdgeShield.Lib EdgeShield.Common

/-! ### The parts -/

/-- The transport part of a datagram.  A TCP header has `dataOffset` words. -/
inductive TransportPart where
  | tcp (sourcePort destinationPort : UInt16) (sequence : Vector UInt8 8) (dataOffset : Nat)
      (least : 5 ≤ dataOffset) (most : dataOffset ≤ 15) (reserved : Fin 16) (fields : Vector UInt8 7)
      (options : Vector UInt8 (4 * dataOffset - 20))
  | udp (sourcePort destinationPort : UInt16) (fields : Vector UInt8 4)
  | icmp (icmpType icmpCode : UInt8) (fields : Vector UInt8 2)
  | other (protocol : UInt8) (hprotocol : protocol ∉ [1, 6, 17])

namespace TransportPart

def protocol : TransportPart → UInt8
  | tcp .. => 6
  | udp .. => 17
  | icmp .. => 1
  | other protocol _ => protocol

def encode : TransportPart → List UInt8
  | tcp sourcePort destinationPort sequence dataOffset _ _ reserved fields options =>
    beBytes sourcePort ++ (beBytes destinationPort ++ (sequence.toList ++
      (UInt8.ofNat (dataOffset * 16 + reserved) :: (fields.toList ++ options.toList))))
  | udp sourcePort destinationPort fields =>
    beBytes sourcePort ++ (beBytes destinationPort ++ fields.toList)
  | icmp icmpType icmpCode fields => icmpType :: icmpCode :: fields.toList
  | other _ _ => []

def header : TransportPart → Option TransportHeader
  | tcp sourcePort destinationPort .. => some (.tcp ⟨sourcePort.toNat, destinationPort.toNat⟩)
  | udp sourcePort destinationPort _ => some (.udp ⟨sourcePort.toNat, destinationPort.toNat⟩)
  | icmp icmpType icmpCode _ => some (.icmp ⟨icmpType, icmpCode⟩)
  | other _ _ => none

end TransportPart

structure Ipv4Datagram where
  ihl : Nat
  least : 5 ≤ ihl
  most : ihl ≤ 15
  tos : UInt8
  totalLength : UInt16
  fragment : Vector UInt8 4
  ttl : UInt8
  checksum : Vector UInt8 2
  source : Vector UInt8 4
  destination : Vector UInt8 4
  options : Vector UInt8 (4 * ihl - 20)
  transport : TransportPart
  payload : List UInt8

namespace Ipv4Datagram

def headerBytes (d : Ipv4Datagram) : List UInt8 :=
  UInt8.ofNat (64 + d.ihl) :: d.tos :: (beBytes d.totalLength ++ (d.fragment.toList ++
    (d.ttl :: d.transport.protocol :: (d.checksum.toList ++ (d.source.toList ++
      (d.destination.toList ++ d.options.toList))))))

def encode (d : Ipv4Datagram) : List UInt8 :=
  d.headerBytes ++ (d.transport.encode ++ d.payload)

def header (d : Ipv4Datagram) : Ipv4Header where
  source := .v4 d.source
  destination := .v4 d.destination
  protocol := d.transport.protocol
  totalLength := d.totalLength.toNat
  headerLength := d.ihl * 4

@[simp] theorem headerLength_header (d : Ipv4Datagram) : d.header.headerLength = d.ihl * 4 := rfl

end Ipv4Datagram

def ethernetBytes (destination source : Vector UInt8 6) (ethertype : UInt16) : List UInt8 :=
  destination.toList ++ (source.toList ++ beBytes ethertype)

/-! ### Lengths -/

theorem length_ethernetBytes (destination source : Vector UInt8 6) (ethertype : UInt16) :
    (ethernetBytes destination source ethertype).length = 14 := by
  simp only [ethernetBytes, List.length_append, Vector.length_toList, beBytes, List.length_cons,
    List.length_nil]

theorem Ipv4Datagram.length_headerBytes (d : Ipv4Datagram) : d.headerBytes.length = d.ihl * 4 := by
  have hleast := d.least
  simp only [headerBytes, List.length_append, List.length_cons, Vector.length_toList, beBytes,
    List.length_nil]
  omega

def TransportPart.size : TransportPart → Nat
  | tcp _ _ _ dataOffset .. => 4 * dataOffset
  | udp .. => 8
  | icmp .. => 4
  | other .. => 0

theorem TransportPart.length_encode (t : TransportPart) : t.encode.length = t.size := by
  cases t with
  | tcp sourcePort destinationPort sequence dataOffset least most reserved fields options =>
    simp only [encode, size, List.length_append, List.length_cons, Vector.length_toList, beBytes,
      List.length_nil]
    omega
  | udp sourcePort destinationPort fields =>
    simp only [encode, size, List.length_append, List.length_cons, Vector.length_toList, beBytes,
      List.length_nil]
  | icmp icmpType icmpCode fields =>
    simp only [encode, size, List.length_cons, Vector.length_toList]
  | other protocol hprotocol => rfl

theorem TransportPart.size_mod (t : TransportPart) : t.size % 4 = 0 := by
  cases t with
  | tcp sourcePort destinationPort sequence dataOffset => exact Nat.mul_mod_right 4 dataOffset
  | udp sourcePort destinationPort fields =>
    show 8 % 4 = 0
    rfl
  | icmp icmpType icmpCode fields =>
    show 4 % 4 = 0
    rfl
  | other protocol hprotocol => rfl

/-! ### Reading a part back -/

theorem mac6_of_drop {n : Nat} (v : View n) {m : Vector UInt8 6} {rest : List UInt8} {i : Nat}
    (h : v.bytes.drop i = m.toList ++ rest) (hi : i + 5 < n) : mac6 v i hi = m := by
  refine Vector.ext fun k hk => ?_
  rw [← v.byte_of_vector h k hk (by omega)]
  interval_cases k <;> rfl

theorem ip4_of_drop {n : Nat} (v : View n) {a : Vector UInt8 4} {rest : List UInt8} {i : Nat}
    (h : v.bytes.drop i = a.toList ++ rest) (hi : i + 3 < n) : ip4 v i hi = a := by
  refine Vector.ext fun k hk => ?_
  rw [← v.byte_of_vector h k hk (by omega)]
  interval_cases k <;> rfl

theorem decodeEthernet_encode (destination source : Vector UInt8 6) (ethertype : UInt16)
    (rest : List UInt8) (linkHeaderLen : Nat) :
    decodeEthernet ⟨ethernetBytes destination source ethertype ++ rest, linkHeaderLen⟩ =
      .ok ⟨source, destination, ethertype.toNat⟩ := by
  obtain ⟨v, hv, hbytes⟩ : ∃ v : View 14,
      View.new 14 (ethernetBytes destination source ethertype ++ rest) = some v ∧
        v.bytes = ethernetBytes destination source ethertype ++ rest := by
    refine View.exists_new ?_
    rw [List.length_append, length_ethernetBytes]
    omega
  have h0 : v.bytes.drop 0 = destination.toList ++ (source.toList ++ (beBytes ethertype ++ rest)) := by
    rw [hbytes]
    simp only [ethernetBytes, List.drop_zero, List.append_assoc]
  have h6 := drop_to_of_drop 6 h0 (by rw [Vector.length_toList])
  have h12 := drop_to_of_drop 12 h6 (by rw [Vector.length_toList])
  rw [decodeEthernet]
  simp only [hv]
  rw [mac6_of_drop v h0, mac6_of_drop v h6, v.be16_of_drop h12]

theorem decodeIpv4_encode (d : Ipv4Datagram) (rest : List UInt8) :
    decodeIpv4 (d.headerBytes ++ rest) = .ok d.header := by
  have hleast := d.least
  have hmost := d.most
  obtain ⟨v, hv, hbytes⟩ : ∃ v : View 20, View.new 20 (d.headerBytes ++ rest) = some v ∧
      v.bytes = d.headerBytes ++ rest := by
    refine View.exists_new ?_
    rw [List.length_append, d.length_headerBytes]
    omega
  have h0 : v.bytes.drop 0 = [UInt8.ofNat (64 + d.ihl), d.tos] ++ (beBytes d.totalLength ++
      (d.fragment.toList ++ ([d.ttl, d.transport.protocol] ++ (d.checksum.toList ++
        (d.source.toList ++ (d.destination.toList ++ (d.options.toList ++ rest))))))) := by
    rw [hbytes]
    simp only [Ipv4Datagram.headerBytes, List.drop_zero, List.cons_append, List.append_assoc,
      List.nil_append]
  have h2 := drop_to_of_drop 2 h0 rfl
  have h4 := drop_to_of_drop 4 h2 rfl
  have h8 := drop_to_of_drop 8 h4 (by rw [Vector.length_toList])
  have h10 := drop_to_of_drop 10 h8 rfl
  have h12 := drop_to_of_drop 12 h10 (by rw [Vector.length_toList])
  have h16 := drop_to_of_drop 16 h12 (by rw [Vector.length_toList])
  have hihl : (v.byte 0 (by decide)).toNat % 16 * 4 = d.ihl * 4 := by
    rw [v.byte_of_drop h0 0 (by decide)]
    simp only [List.cons_append, List.getD_cons_zero, UInt8.toNat_ofNat']
    omega
  have hprotocol : v.byte 9 (by decide) = d.transport.protocol :=
    v.byte_of_drop h8 1 (by decide)
  rw [decodeIpv4]
  simp only [hv]
  rw [ip4_of_drop v h12, ip4_of_drop v h16, v.be16_of_drop h2, hihl, hprotocol]
  rfl

theorem decodeTransport_encode (ip : Ipv4Header) (t : TransportPart) (rest : List UInt8)
    (hprotocol : ip.protocol = t.protocol) :
    decodeTransport ip (t.encode ++ rest) = .ok (t.header, t.size) := by
  have hlen := t.length_encode
  rw [decodeTransport, hprotocol]
  cases t with
  | tcp sourcePort destinationPort sequence dataOffset least most reserved fields options =>
    have hle : 20 ≤ ((TransportPart.tcp sourcePort destinationPort sequence dataOffset least most
        reserved fields options).encode ++ rest).length := by
      rw [List.length_append, hlen, TransportPart.size]
      omega
    obtain ⟨v, hv, hbytes⟩ := View.exists_new hle
    have h0 : v.bytes.drop 0 = beBytes sourcePort ++ (beBytes destinationPort ++
        (sequence.toList ++ ([UInt8.ofNat (dataOffset * 16 + reserved)] ++
          (fields.toList ++ (options.toList ++ rest))))) := by
      rw [hbytes]
      simp only [TransportPart.encode, List.drop_zero, List.cons_append, List.append_assoc,
        List.nil_append]
    have h2 := drop_to_of_drop 2 h0 rfl
    have h4 := drop_to_of_drop 4 h2 rfl
    have h12 := drop_to_of_drop 12 h4 (by rw [Vector.length_toList])
    have hoffset : (v.byte 12 (by decide)).toNat / 16 * 4 = 4 * dataOffset := by
      have hreserved := reserved.isLt
      rw [v.byte_of_drop h12 0 (by decide)]
      simp only [List.cons_append, List.getD_cons_zero, UInt8.toNat_ofNat']
      omega
    simp only [TransportPart.protocol, if_true, hv]
    rw [v.be16_of_drop h0, v.be16_of_drop h2, hoffset]
    rfl
  | udp sourcePort destinationPort fields =>
    have hle : 8 ≤ ((TransportPart.udp sourcePort destinationPort fields).encode ++
        rest).length := by
      rw [List.length_append, hlen, TransportPart.size]
      omega
    obtain ⟨v, hv, hbytes⟩ := View.exists_new hle
    have h0 : v.bytes.drop 0 = beBytes sourcePort ++ (beBytes destinationPort ++
        (fields.toList ++ rest)) := by
      rw [hbytes]
      simp only [TransportPart.encode, List.drop_zero, List.append_assoc]
    have h2 := drop_to_of_drop 2 h0 rfl
    rw [TransportPart.protocol, if_neg (by decide), if_pos rfl]
    simp only [hv]
    rw [v.be16_of_drop h0, v.be16_of_drop h2]
    rfl
  | icmp icmpType icmpCode fields =>
    have hle : 4 ≤ ((TransportPart.icmp icmpType icmpCode fields).encode ++ rest).length := by
      rw [List.length_append, hlen, TransportPart.size]
      omega
    rw [TransportPart.protocol, if_neg (by decide), if_neg (by decide), if_pos rfl,
      View.new_of_le hle]
    rfl
  | other protocol hother =>
    have h1 : protocol ≠ 1 := fun h => hother (by simp [h])
    have h6 : protocol ≠ 6 := fun h => hother (by simp [h])
    have h17 : protocol ≠ 17 := fun h => hother (by simp [h])
    rw [TransportPart.protocol, if_neg h6, if_neg h17, if_neg h1]
    rfl

/-! ### The whole frame -/

/-- **The decoder gives back what was written**: behind an Ethernet header with EtherType
`0x0800` the fields of the datagram and its payload, and behind any other EtherType
nothing but the Ethernet header. -/
theorem decodePacket_ethernet (destination source : Vector UInt8 6) (linkHeaderLen : Nat) :
    (∀ d : Ipv4Datagram,
      decodePacket ⟨ethernetBytes destination source 0x0800 ++ d.encode, linkHeaderLen⟩ =
        .ok
          { raw := ⟨ethernetBytes destination source 0x0800 ++ d.encode, linkHeaderLen⟩
            ethernet := ⟨source, destination, 0x0800⟩
            ipv4 := some d.header
            transport := d.transport.header
            payload := d.payload }) ∧
    ∀ (ethertype : UInt16) (rest : List UInt8), ethertype ≠ 0x0800 →
      decodePacket ⟨ethernetBytes destination source ethertype ++ rest, linkHeaderLen⟩ =
        .ok
          { raw := ⟨ethernetBytes destination source ethertype ++ rest, linkHeaderLen⟩
            ethernet := ⟨source, destination, ethertype.toNat⟩
            ipv4 := none
            transport := none
            payload := [] } := by
  refine ⟨fun d => ?_, fun ethertype rest hne => ?_⟩
  · have h14 : (ethernetBytes destination source 0x0800 ++ d.encode).drop 14 = d.encode :=
      List.drop_left' (length_ethernetBytes destination source 0x0800)
    have hlen : (ethernetBytes destination source 0x0800 ++ d.encode).length =
        14 + (d.ihl * 4 + (d.transport.size + d.payload.length)) := by
      simp only [Ipv4Datagram.encode, List.length_append, length_ethernetBytes,
        d.length_headerBytes, d.transport.length_encode]
    have htransport : (ethernetBytes destination source 0x0800 ++ d.encode).drop
        (14 + d.ihl * 4) = d.transport.encode ++ d.payload :=
      drop_to_of_drop _ h14 (by rw [d.length_headerBytes])
    have hpayload : (ethernetBytes destination source 0x0800 ++ d.encode).drop
        (14 + d.ihl * 4 + d.transport.size) = d.payload :=
      drop_to_of_drop _ htransport (by rw [d.transport.length_encode])
    have hipv4 : decodeIpv4 d.encode = .ok d.header := decodeIpv4_encode d _
    have htransport' : decodeTransport d.header (d.transport.encode ++ d.payload) =
        .ok (d.transport.header, d.transport.size) := decodeTransport_encode _ _ _ rfl
    rw [decodePacket, decodeEthernet_encode, Run.ok_bind]
    dsimp only
    rw [if_pos (by decide), sliceFrom_of_le (by omega), Run.ok_bind, h14, hipv4, Run.ok_bind,
      Ipv4Datagram.headerLength_header, sliceFrom_of_le (by omega), Run.ok_bind, htransport,
      htransport', Run.ok_bind]
    dsimp only
    rw [sliceFrom_of_le (by omega), Run.ok_bind, hpayload]
    rfl
  · have htype : ¬ethertype.toNat = 0x0800 := fun h => hne (UInt16.toNat_inj.mp h)
    rw [decodePacket, decodeEthernet_encode, Run.ok_bind, if_neg htype]
    rfl

def pingDatagram : Ipv4Datagram where
  ihl := 5
  least := by decide
  most := by decide
  tos := 0
  totalLength := 28
  fragment := .replicate 4 0
  ttl := 64
  checksum := .replicate 2 0
  source := #v[10, 0, 0, 1]
  destination := #v[10, 0, 0, 2]
  options := #v[]
  transport := .icmp 8 0 (.replicate 2 0)
  payload := [0, 1, 0, 1]

theorem decodePacket_ping :
    decodePacket ⟨ethernetBytes (.replicate 6 1) (.replicate 6 2) 0x0800 ++ pingDatagram.encode,
        14⟩ =
      .ok
        { raw := ⟨ethernetBytes (.replicate 6 1) (.replicate 6 2) 0x0800 ++ pingDatagram.encode, 14⟩
          ethernet := ⟨.replicate 6 2, .replicate 6 1, 0x0800⟩
          ipv4 := some ⟨.v4 #v[10, 0, 0, 1], .v4 #v[10, 0, 0, 2], 1, 28, 20⟩
          transport := some (.icmp ⟨8, 0⟩)
          payload := [0, 1, 0, 1] } ∧
    decodePacket ⟨ethernetBytes (.replicate 6 1) (.replicate 6 2) 0x0806 ++ [0, 1], 14⟩ =
      .ok
        { raw := ⟨ethernetBytes (.replicate 6 1) (.replicate 6 2) 0x0806 ++ [0, 1], 14⟩
          ethernet := ⟨.replicate 6 2, .replicate 6 1, 0x0806⟩
          ipv4 := none
          transport := none
          payload := [] } :=
  ⟨(decodePacket_ethernet _ _ 14).1 pingDatagram,
    (decodePacket_ethernet _ _ 14).2 0x0806 [0, 1] (by decide)⟩

end EdgeShield.Packet
