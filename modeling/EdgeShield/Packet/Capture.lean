import EdgeShield.Packet.Frame

/-!
# Captured frames

`crates/packet/src/capture.rs`: each captured frame is stored with the length of its link
header, which `linktypeToHeaderLen` gives for the link type of the interface.

For the link headers of the table this length is right (`length_encode`).  The decoder does not
ask for it.  It reads an Ethernet header and goes on at byte 14, so a datagram is decoded as it
would be on Ethernet exactly when its link is Ethernet (`headerHonoured_iff`).
-/

namespace EdgeShield.Packet

open EdgeShield.Lib EdgeShield.Common

/-- `linktype_to_header_len`, of the link type's number. -/
def linktypeToHeaderLen (linktype : Int) : Nat :=
  if linktype = 1 then 14
  else if linktype = 12 then 0
  else if linktype = 113 then 16
  else 14

/-- A link header in front of an IPv4 datagram, for the link types of the table. -/
inductive LinkHeader where
  | ethernet (destination source : Vector UInt8 6)
  | rawIp
  | linuxSll (packetType deviceType addressLength : Vector UInt8 2) (address : Vector UInt8 8)

namespace LinkHeader

def linktype : LinkHeader → Int
  | ethernet .. => 1
  | rawIp => 12
  | linuxSll .. => 113

def encode : LinkHeader → List UInt8
  | ethernet destination source => ethernetBytes destination source 0x0800
  | rawIp => []
  | linuxSll packetType deviceType addressLength address =>
    packetType.toList ++ (deviceType.toList ++ (addressLength.toList ++
      (address.toList ++ beBytes 0x0800)))

/-- The datagram as the capture thread hands it on. -/
def captured (h : LinkHeader) (d : Ipv4Datagram) : PacketBuf :=
  ⟨h.encode ++ d.encode, linktypeToHeaderLen h.linktype⟩

theorem length_encode (h : LinkHeader) : h.encode.length = linktypeToHeaderLen h.linktype := by
  cases h with
  | ethernet destination source => exact length_ethernetBytes destination source 0x0800
  | rawIp => rfl
  | linuxSll packetType deviceType addressLength address =>
    simp only [encode, List.length_append, Vector.length_toList]
    rfl

/-- **The link header is honoured**: the datagram is decoded to what it is decoded to behind
an Ethernet header. -/
def Honoured (h : LinkHeader) (d : Ipv4Datagram) (destination source : Vector UInt8 6) : Prop :=
  ∃ p q, decodePacket (h.captured d) = .ok p ∧
    decodePacket ((ethernet destination source).captured d) = .ok q ∧
    p.ipv4 = q.ipv4 ∧ p.transport = q.transport ∧ p.payload = q.payload

theorem decodePacket_captured_ethernet (destination source : Vector UInt8 6) (d : Ipv4Datagram) :
    ∃ p, decodePacket ((ethernet destination source).captured d) = .ok p ∧
      p.ipv4 = some d.header ∧ p.transport = d.transport.header ∧ p.payload = d.payload :=
  ⟨_, (decodePacket_ethernet destination source _).1 d, rfl, rfl, rfl⟩

/-- Behind a link header of another length the payload is cut at another place: all the
header lengths that the decoder adds up are multiples of four. -/
theorem length_mod_of_honoured {h : LinkHeader} {d : Ipv4Datagram}
    {destination source : Vector UInt8 6} (hh : h.Honoured d destination source) :
    h.encode.length % 4 = 2 := by
  obtain ⟨p, q, hp, hq, hip, -, hpayload⟩ := hh
  obtain ⟨q', hq', hipq, -, hpayloadq⟩ := decodePacket_captured_ethernet destination source d
  rw [hq'] at hq
  cases hq
  obtain ⟨hihl, hle, hcut⟩ := decodePacket_ipv4 hp (hip.trans hipq)
  rw [Ipv4Datagram.headerLength_header] at hihl
  have hlen := congrArg List.length (hcut.symm.trans (hpayload.trans hpayloadq))
  have hoffset : payloadOffset (h.captured d).raw % 4 = 2 := by
    have hmod := transportSize_mod ((h.captured d).raw.getD 23 0)
      ((h.captured d).raw.drop (14 + ihlBytes (h.captured d).raw))
    rw [payloadOffset, ← hihl]
    rw [← hihl] at hmod
    omega
  have hsize : d.transport.size % 4 = 0 := d.transport.size_mod
  rw [List.length_drop] at hlen
  simp only [captured, Ipv4Datagram.encode, List.length_append, d.length_headerBytes,
    d.transport.length_encode] at hlen hle hoffset
  omega

/-- **When the link header is honoured**: for every link header of the table, every datagram
and every Ethernet header to compare with, exactly on Ethernet. -/
theorem headerHonoured_iff (h : LinkHeader) (d : Ipv4Datagram) (destination source : Vector UInt8 6) :
    h.Honoured d destination source ↔ h.linktype = 1 := by
  constructor
  · intro hh
    have hmod := length_mod_of_honoured hh
    cases h with
    | ethernet destination' source' => rfl
    | rawIp => cases hmod
    | linuxSll packetType deviceType addressLength address =>
      rw [length_encode] at hmod
      have h16 : 16 % 4 = 2 := hmod
      exact absurd h16 (by decide)
  · intro hlink
    cases h with
    | ethernet destination' source' =>
      obtain ⟨p, hp, hip, ht, hpayload⟩ := decodePacket_captured_ethernet destination' source' d
      obtain ⟨q, hq, hiq, htq, hpayloadq⟩ := decodePacket_captured_ethernet destination source d
      exact ⟨p, q, hp, hq, hip.trans hiq.symm, ht.trans htq.symm, hpayload.trans hpayloadq.symm⟩
    | rawIp => cases hlink
    | linuxSll packetType deviceType addressLength address => cases hlink

/-- On a raw IP link the decoder takes the source address for the EtherType and finds no
IPv4 header: not every link header is honoured. -/
theorem headerHonoured_broken_on_rawIp :
    (∃ p, decodePacket (rawIp.captured pingDatagram) = .ok p ∧ p.ethernet.ethertype = 0x0a00 ∧
      p.ipv4 = none) ∧
    ¬∀ (h : LinkHeader) (d : Ipv4Datagram) (destination source : Vector UInt8 6),
      h.Honoured d destination source := by
  constructor
  · have hview : (decodePacket (rawIp.captured pingDatagram)).map
        (fun p => (p.ethernet.ethertype, p.ipv4)) = .ok (0x0a00, none) := by decide +kernel
    cases hp : decodePacket (rawIp.captured pingDatagram) with
    | error e =>
      rw [hp] at hview
      cases hview
    | ok p =>
      rw [hp] at hview
      have he := Except.ok.inj hview
      exact ⟨p, rfl, congrArg Prod.fst he, congrArg Prod.snd he⟩
  · intro hall
    have hmod := length_mod_of_honoured (hall rawIp pingDatagram (.replicate 6 0) (.replicate 6 0))
    cases hmod

end LinkHeader

end EdgeShield.Packet
