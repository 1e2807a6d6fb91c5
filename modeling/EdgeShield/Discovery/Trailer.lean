import EdgeShield.Discovery.Engine
import EdgeShield.Packet.Frame

/-!
# Bytes behind the datagram

A frame can be longer than its datagram: Ethernet pads short frames, and anything can be
appended.  The IPv4 header says where the datagram ends (`totalLengthOf`), and the decoder
reads that field, but it lets the payload reach to the end of the frame.

`extract` is what `process_packet` takes from a frame besides its headers.  Two frames that
agree up to the end of the datagram give the same extraction exactly when they also agree
behind it (`extract_eq_iff`).
-/

namespace EdgeShield.Discovery

open EdgeShield.Lib EdgeShield.Common EdgeShield.Packet EdgeShield.Protocol
open EdgeShield.Common (Protocol)

def totalLengthOf (raw : List UInt8) : Nat :=
  (raw.getD 16 0).toNat * 256 + (raw.getD 17 0).toNat

/-- An Ethernet frame with an IPv4 datagram, whose total length covers its headers and lies
inside the frame. -/
structure Covered (raw : List UInt8) : Prop where
  ethertype : (raw.getD 12 0).toNat * 256 + (raw.getD 13 0).toNat = 0x0800
  header : 20 ≤ totalLengthOf raw
  least : ihlBytes raw + transportLeast (raw.getD 23 0) ≤ totalLengthOf raw
  transport : payloadOffset raw ≤ 14 + totalLengthOf raw
  inside : 14 + totalLengthOf raw ≤ raw.length

/-- What a packet gives besides its headers. -/
structure Extraction where
  payload : List UInt8
  protocol : Protocol
  dhcp : Run Empty (Option String × Option String)
  mdns : Run Empty (Option String)

def extraction (p : DecodedPacket) : Extraction where
  payload := p.payload
  protocol := classify p
  dhcp := dhcpNames (classify p) p.payload
  mdns := mdnsName (classify p) p.payload

def extract (buf : PacketBuf) : Run PacketError Extraction := (decodePacket buf).map extraction

theorem decodePacket_of_covered (buf : PacketBuf) (h : Covered buf.raw) :
    ∃ p, decodePacket buf = .ok p ∧ p.payload = buf.raw.drop (payloadOffset buf.raw) := by
  have hinside := h.inside
  have hheader := h.header
  have hleast := h.least
  have htransport := h.transport
  obtain ⟨p, ip, hp, hip⟩ := decodePacket_of_headers ⟨by omega, h.ethertype⟩ (by omega) (by omega)
  exact ⟨p, hp, (decodePacket_ipv4 hp hip).2.2⟩

/-! ### Two frames with the same datagram -/

section TwoFrames

variable {f g : List UInt8} {n : Nat}

theorem getD_of_take_eq (h : f.take n = g.take n) {i : Nat} (hi : i < n) :
    f.getD i 0 = g.getD i 0 := by
  rw [List.getD_eq_getElem?_getD, List.getD_eq_getElem?_getD, ← List.getElem?_take_of_lt hi, h,
    List.getElem?_take_of_lt hi]

theorem payloadOffset_of_take_eq (h : f.take n = g.take n) (hn : 34 ≤ n)
    (hleast : 14 + ihlBytes f + transportLeast (f.getD 23 0) ≤ n) :
    payloadOffset f = payloadOffset g := by
  have hihl : ihlBytes f = ihlBytes g := by
    rw [ihlBytes, ihlBytes, getD_of_take_eq h (by omega)]
  have hprotocol : f.getD 23 0 = g.getD 23 0 := getD_of_take_eq h (by omega)
  rw [payloadOffset, payloadOffset, ← hihl, ← hprotocol]
  -- only the data offset of a TCP header is read from the transport part
  by_cases h6 : f.getD 23 0 = 6
  · have h20 : transportLeast (f.getD 23 0) = 20 := by rw [transportLeast, if_pos h6]
    rw [transportSize, transportSize, if_pos h6, if_pos h6, getD_drop, getD_drop,
      getD_of_take_eq h (by omega)]
  · rw [transportSize, transportSize, if_neg h6, if_neg h6]

/-- **When a trailer has no influence**: of two frames that agree up to the end of their
datagram, the extraction is the same exactly when they agree behind it as well. -/
theorem extract_eq_iff (hf : Covered f) (hg : Covered g)
    (hagree : f.take (14 + totalLengthOf f) = g.take (14 + totalLengthOf f))
    (linkHeaderLen : Nat) :
    extract ⟨f, linkHeaderLen⟩ = extract ⟨g, linkHeaderLen⟩ ↔
      f.drop (14 + totalLengthOf f) = g.drop (14 + totalLengthOf f) := by
  have hheader := hf.header
  have hleast := hf.least
  obtain ⟨p, hp, hpayload⟩ := decodePacket_of_covered ⟨f, linkHeaderLen⟩ hf
  obtain ⟨q, hq, hpayloadq⟩ := decodePacket_of_covered ⟨g, linkHeaderLen⟩ hg
  have hoffset := payloadOffset_of_take_eq hagree (by omega) (by omega)
  constructor
  · intro h
    rw [extract, extract, hp, hq] at h
    have hsame : p.payload = q.payload := congrArg Extraction.payload (Except.ok.inj h)
    rw [hpayload, hpayloadq, ← hoffset] at hsame
    have hsplit : 14 + totalLengthOf f =
        payloadOffset f + (14 + totalLengthOf f - payloadOffset f) := by
      have htransport := hf.transport
      omega
    rw [hsplit, ← List.drop_drop, ← List.drop_drop, hsame]
  · intro h
    have hfg : f = g := by
      rw [← List.take_append_drop (14 + totalLengthOf f) f, hagree, h, List.take_append_drop]
    rw [hfg]

end TwoFrames

/-! ### A trailer that is read -/

def synDatagram : Ipv4Datagram where
  __ := pingDatagram
  totalLength := 40
  transport := .tcp 40000 40001 (.replicate 8 0) 5 pingDatagram.least pingDatagram.most
    ⟨0, by decide⟩ (.replicate 7 0) pingDatagram.options
  payload := []

def synFrame (trailer : List UInt8) : List UInt8 :=
  ethernetBytes (.replicate 6 1) (.replicate 6 2) 0x0800 ++ (synDatagram.encode ++ trailer)

theorem covered_synFrame (trailer : List UInt8) (h : trailer = [] ∨ trailer = [1] ∨
    trailer = ascii "GET / ") : Covered (synFrame trailer) := by
  rcases h with rfl | rfl | rfl
  · exact ⟨by decide, by decide, by decide, by decide, by decide⟩
  · exact ⟨by decide, by decide, by decide, by decide, by decide⟩
  · exact ⟨by decide, by decide, by decide, by decide, by decide⟩

/-- One byte behind the segment changes the extraction. -/
theorem extract_synFrame_ne : extract ⟨synFrame [], 14⟩ ≠ extract ⟨synFrame [1], 14⟩ := by
  intro h
  have hdrop := (extract_eq_iff (covered_synFrame [] (.inl rfl))
    (covered_synFrame [1] (.inr (.inl rfl))) (by decide) 14).mp h
  exact absurd hdrop (by decide)

/-- **A trailer is taken for payload**: behind a TCP segment without payload it is the
payload, and with an HTTP request line in it the packet is HTTP. -/
theorem trailer_read_as_payload :
    ((extract ⟨synFrame [], 14⟩).map fun x => (x.payload, x.protocol)) = .ok ([], .tcp) ∧
    ((extract ⟨synFrame (ascii "GET / "), 14⟩).map fun x => (x.payload, x.protocol)) =
      .ok (ascii "GET / ", .http) ∧
    ¬∀ (f g : List UInt8) (linkHeaderLen : Nat), Covered f → Covered g →
      f.take (14 + totalLengthOf f) = g.take (14 + totalLengthOf f) →
      extract ⟨f, linkHeaderLen⟩ = extract ⟨g, linkHeaderLen⟩ := by
  have htcp : ((extract ⟨synFrame [], 14⟩).map fun x => (x.payload, x.protocol)) =
      .ok ([], .tcp) := by decide +kernel
  have hhttp : ((extract ⟨synFrame (ascii "GET / "), 14⟩).map fun x => (x.payload, x.protocol)) =
      .ok (ascii "GET / ", .http) := by decide +kernel
  refine ⟨htcp, hhttp, fun hall => ?_⟩
  have h := hall (synFrame []) (synFrame (ascii "GET / ")) 14 (covered_synFrame [] (.inl rfl))
    (covered_synFrame _ (.inr (.inr rfl))) (by decide)
  rw [h, hhttp] at htcp
  exact absurd htcp (by decide)

end EdgeShield.Discovery
