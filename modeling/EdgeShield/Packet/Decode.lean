import EdgeShield.Lib.Bytes
import EdgeShield.Common.Types

/-!
# Packet decoding

`crates/packet/src/decode.rs`: `decodePacket` reads the Ethernet header, and for
EtherType `0x0800` the IPv4 and transport headers behind it.  The three lengths
that become slice offsets all come from the frame: its own length, the IHL nibble
and the TCP data-offset nibble.

The packet library's constructors are `View.new`: a view exactly when the slice
has at least the minimal header length (14, 20, 20, 8 and 4 bytes for Ethernet,
IPv4, TCP, UDP and ICMP), and its getters read the standard fields.  The slices
`buf.raw[14..]`, `buf.raw[transport_offset..]` and
`buf.raw[transport_offset + payload_end..]` are checked reads, so a slice outside
the buffer is a panic.

`HeadersFit` is the condition on the bytes of a frame under which no slice goes
out: where the decoder reads an IPv4 header at all, the header length that the IHL
announces lies inside the frame, and so does the one a TCP data offset announces.
`decodePacket_returns_iff` says that it is the exact one.
-/

namespace EdgeShield.Packet

open EdgeShield.Lib EdgeShield.Common

inductive PacketError where
  | captureOpen (interface source : String)
  | truncated (expected actual : Nat)
  | unsupportedLinkType (linkType : UInt8)
  | capture (message : String)
  deriving DecidableEq, Repr

/-- A captured raw packet: the bytes with the link-layer header, and its length. -/
structure PacketBuf where
  raw : List UInt8
  linkHeaderLen : Nat
  deriving DecidableEq, Repr

structure EthernetHeader where
  source : Vector UInt8 6
  destination : Vector UInt8 6
  ethertype : Nat
  deriving DecidableEq, Repr

structure Ipv4Header where
  source : IpAddr
  destination : IpAddr
  protocol : UInt8
  totalLength : Nat
  headerLength : Nat
  deriving DecidableEq, Repr

structure TcpHeader where
  sourcePort : Nat
  destinationPort : Nat
  deriving DecidableEq, Repr

structure UdpHeader where
  sourcePort : Nat
  destinationPort : Nat
  deriving DecidableEq, Repr

structure IcmpHeader where
  icmpType : UInt8
  icmpCode : UInt8
  deriving DecidableEq, Repr

inductive TransportHeader where
  | tcp (header : TcpHeader)
  | udp (header : UdpHeader)
  | icmp (header : IcmpHeader)
  deriving DecidableEq, Repr

/-- A decoded packet.  `payload` is what follows the transport header. -/
structure DecodedPacket where
  raw : PacketBuf
  ethernet : EthernetHeader
  ipv4 : Option Ipv4Header
  transport : Option TransportHeader
  payload : List UInt8
  deriving DecidableEq, Repr

/-! ### The decoder -/

def mac6 {n : Nat} (v : View n) (i : Nat) (h : i + 5 < n) : Vector UInt8 6 :=
  #v[v.byte i (by omega), v.byte (i + 1) (by omega), v.byte (i + 2) (by omega),
    v.byte (i + 3) (by omega), v.byte (i + 4) (by omega), v.byte (i + 5) h]

def ip4 {n : Nat} (v : View n) (i : Nat) (h : i + 3 < n) : Vector UInt8 4 :=
  #v[v.byte i (by omega), v.byte (i + 1) (by omega), v.byte (i + 2) (by omega),
    v.byte (i + 3) h]

def decodeEthernet (buf : PacketBuf) : Run PacketError EthernetHeader :=
  match View.new 14 buf.raw with
  | none => .err (.truncated 14 buf.raw.length)
  | some ethernet =>
    .ok
      { source := mac6 ethernet 6 (by decide)
        destination := mac6 ethernet 0 (by decide)
        ethertype := ethernet.be16 12 (by decide) }

/-- The IHL counts 32-bit words, and its nibble reaches 15. -/
def decodeIpv4 (data : List UInt8) : Run PacketError Ipv4Header :=
  match View.new 20 data with
  | none => .err (.truncated 20 data.length)
  | some ipv4 =>
    .ok
      { source := .v4 (ip4 ipv4 12 (by decide))
        destination := .v4 (ip4 ipv4 16 (by decide))
        protocol := ipv4.byte 9 (by decide)
        totalLength := ipv4.be16 2 (by decide)
        headerLength := (ipv4.byte 0 (by decide)).toNat % 16 * 4 }

/-- The transport header and the offset of its payload, counted from the start of
the transport data. -/
def decodeTransport (ip : Ipv4Header) (data : List UInt8) :
    Run PacketError (Option TransportHeader × Nat) :=
  if ip.protocol = 6 then
    match View.new 20 data with
    | none => .err (.truncated 20 data.length)
    | some tcp =>
      .ok (some (.tcp ⟨tcp.be16 0 (by decide), tcp.be16 2 (by decide)⟩),
        (tcp.byte 12 (by decide)).toNat / 16 * 4)
  else if ip.protocol = 17 then
    match View.new 8 data with
    | none => .err (.truncated 8 data.length)
    | some udp =>
      .ok (some (.udp ⟨udp.be16 0 (by decide), udp.be16 2 (by decide)⟩), 8)
  else if ip.protocol = 1 then
    match View.new 4 data with
    | none => .err (.truncated 4 data.length)
    | some icmp =>
      .ok (some (.icmp ⟨icmp.byte 0 (by decide), icmp.byte 1 (by decide)⟩), 4)
  else
    .ok (none, 0)

def decodePacket (buf : PacketBuf) : Run PacketError DecodedPacket := do
  let ethernet ← decodeEthernet buf
  if ethernet.ethertype = 0x0800 then
    let ipHeader ← decodeIpv4 (← sliceFrom buf.raw 14)
    let transportOffset := 14 + ipHeader.headerLength
    let (transport, payloadEnd) ← decodeTransport ipHeader (← sliceFrom buf.raw transportOffset)
    let payload ← sliceFrom buf.raw (transportOffset + payloadEnd)
    return { raw := buf, ethernet, ipv4 := some ipHeader, transport, payload }
  else
    return { raw := buf, ethernet, ipv4 := none, transport := none, payload := [] }

/-! ### What each part returns -/

theorem decodeEthernet_of_lt {buf : PacketBuf} (h : buf.raw.length < 14) :
    decodeEthernet buf = .err (.truncated 14 buf.raw.length) := by
  rw [decodeEthernet, View.new_of_lt h]

theorem decodeEthernet_of_le {buf : PacketBuf} (h : 14 ≤ buf.raw.length) :
    ∃ e, decodeEthernet buf = .ok e ∧
      e.ethertype = (buf.raw.getD 12 0).toNat * 256 + (buf.raw.getD 13 0).toNat := by
  rw [decodeEthernet, View.new_of_le h]
  exact ⟨_, rfl, by simp only [View.be16, View.byte_eq_getD]⟩

theorem decodeIpv4_of_lt {data : List UInt8} (h : data.length < 20) :
    decodeIpv4 data = .err (.truncated 20 data.length) := by
  rw [decodeIpv4, View.new_of_lt h]

theorem decodeIpv4_of_le {data : List UInt8} (h : 20 ≤ data.length) :
    ∃ ip, decodeIpv4 data = .ok ip ∧ ip.protocol = data.getD 9 0 ∧
      ip.headerLength = (data.getD 0 0).toNat % 16 * 4 := by
  rw [decodeIpv4, View.new_of_le h]
  exact ⟨_, rfl, by simp only [View.byte_eq_getD], by simp only [View.byte_eq_getD]⟩

def transportLeast (protocol : UInt8) : Nat :=
  if protocol = 6 then 20 else if protocol = 17 then 8 else if protocol = 1 then 4 else 0

def transportSize (protocol : UInt8) (data : List UInt8) : Nat :=
  if protocol = 6 then (data.getD 12 0).toNat / 16 * 4
  else if protocol = 17 then 8
  else if protocol = 1 then 4
  else 0

theorem transportSize_of_ne {protocol : UInt8} (h : protocol ≠ 6) (data : List UInt8) :
    transportSize protocol data = transportLeast protocol := by
  rw [transportSize, transportLeast, if_neg h, if_neg h]

theorem decodeTransport_spec (ip : Ipv4Header) (data : List UInt8) :
    (data.length < transportLeast ip.protocol ∧
      decodeTransport ip data = .err (.truncated (transportLeast ip.protocol) data.length)) ∨
    (transportLeast ip.protocol ≤ data.length ∧
      ∃ t, decodeTransport ip data = .ok (t, transportSize ip.protocol data)) := by
  unfold decodeTransport transportLeast transportSize
  have hview : ∀ n : Nat, (data.length < n ∧ View.new n data = none) ∨
      (n ≤ data.length ∧ ∃ v : View n, View.new n data = some v ∧ v.bytes = data) := by
    intro n
    rcases lt_or_ge data.length n with h | h
    · exact .inl ⟨h, View.new_of_lt h⟩
    · exact .inr ⟨h, View.exists_new h⟩
  split
  · rcases hview 20 with ⟨hlt, hnew⟩ | ⟨hle, v, hnew, hbytes⟩
    · simp only [hnew]
      exact .inl ⟨hlt, trivial⟩
    · simp only [hnew, View.byte_eq_getD, hbytes]
      exact .inr ⟨hle, _, rfl⟩
  · split
    · rcases hview 8 with ⟨hlt, hnew⟩ | ⟨hle, v, hnew, _⟩
      · simp only [hnew]
        exact .inl ⟨hlt, trivial⟩
      · simp only [hnew]
        exact .inr ⟨hle, _, rfl⟩
    · split
      · rcases hview 4 with ⟨hlt, hnew⟩ | ⟨hle, v, hnew, _⟩
        · simp only [hnew]
          exact .inl ⟨hlt, trivial⟩
        · simp only [hnew]
          exact .inr ⟨hle, _, rfl⟩
      · exact .inr ⟨Nat.zero_le _, _, rfl⟩

/-! ### When the announced headers fit the frame -/

/-- The decoder reads an IPv4 header: EtherType `0x0800` and twenty bytes behind
the Ethernet header. -/
def ReadsIpv4 (raw : List UInt8) : Prop :=
  34 ≤ raw.length ∧ (raw.getD 12 0).toNat * 256 + (raw.getD 13 0).toNat = 0x0800

def ihlBytes (raw : List UInt8) : Nat := (raw.getD 14 0).toNat % 16 * 4

def dataOffsetBytes (raw : List UInt8) : Nat :=
  (raw.getD (14 + ihlBytes raw + 12) 0).toNat / 16 * 4

def HeadersFit (raw : List UInt8) : Prop :=
  ReadsIpv4 raw → 14 + ihlBytes raw ≤ raw.length ∧
    (raw.getD 23 0 = 6 → 14 + ihlBytes raw + 20 ≤ raw.length →
      14 + ihlBytes raw + dataOffsetBytes raw ≤ raw.length)

instance (raw : List UInt8) : Decidable (ReadsIpv4 raw) := inferInstanceAs (Decidable (_ ∧ _))

instance (raw : List UInt8) : Decidable (HeadersFit raw) :=
  inferInstanceAs (Decidable (_ → _ ∧ (_ → _ → _)))

/-- The decoder returns: `Ok`, or an error, and the error is `Truncated`. -/
def Returns (r : Run PacketError DecodedPacket) : Prop :=
  (∃ p, r = .ok p) ∨ ∃ expected actual, r = .err (.truncated expected actual)

theorem not_returns_panic : ¬ Returns .panic := by
  rintro (⟨_, h⟩ | ⟨_, _, h⟩)
  · cases h
  · cases h

theorem getD_drop (raw : List UInt8) (i j : Nat) : (raw.drop i).getD j 0 = raw.getD (i + j) 0 := by
  rw [List.getD_eq_getElem?_getD, List.getElem?_drop, ← List.getD_eq_getElem?_getD]

/-- **Exactly the frames whose announced headers fit are decoded without a
panic**, to a packet or to a `Truncated` error. -/
theorem decodePacket_returns_iff (buf : PacketBuf) :
    Returns (decodePacket buf) ↔ HeadersFit buf.raw := by
  rw [decodePacket]
  rcases lt_or_ge buf.raw.length 14 with h14 | h14
  · rw [decodeEthernet_of_lt h14]
    exact ⟨fun _ hr => absurd hr.1 (by omega), fun _ => Or.inr ⟨14, _, rfl⟩⟩
  obtain ⟨e, he, hty⟩ := decodeEthernet_of_le h14
  rw [he, Run.ok_bind]
  by_cases h800 : e.ethertype = 0x0800
  swap
  · rw [if_neg h800]
    exact ⟨fun _ hr => absurd (hty.trans hr.2) h800, fun _ => Or.inl ⟨_, rfl⟩⟩
  rw [if_pos h800, sliceFrom_of_le h14, Run.ok_bind]
  rcases lt_or_ge buf.raw.length 34 with h34 | h34
  · rw [decodeIpv4_of_lt (by rw [List.length_drop]; omega)]
    exact ⟨fun _ hr => absurd hr.1 (by omega), fun _ => Or.inr ⟨20, _, rfl⟩⟩
  have h20 : 20 ≤ (buf.raw.drop 14).length := by rw [List.length_drop]; omega
  obtain ⟨ip, hip, hproto, hlen⟩ := decodeIpv4_of_le h20
  rw [getD_drop] at hproto hlen
  have hihl : ip.headerLength = ihlBytes buf.raw := hlen
  have hr : ReadsIpv4 buf.raw := ⟨h34, hty ▸ h800⟩
  rw [hip, Run.ok_bind, hihl]
  dsimp only
  by_cases hfit : 14 + ihlBytes buf.raw ≤ buf.raw.length
  swap
  · rw [sliceFrom_of_lt (by omega)]
    exact ⟨fun h => absurd h not_returns_panic, fun h => absurd (h hr).1 hfit⟩
  rw [sliceFrom_of_le hfit, Run.ok_bind]
  have hleast : buf.raw.getD 23 0 = 6 → transportLeast ip.protocol = 20 := by
    intro h6
    rw [hproto, transportLeast, if_pos h6]
  have hsize : buf.raw.getD 23 0 = 6 →
      transportSize ip.protocol (buf.raw.drop (14 + ihlBytes buf.raw)) = dataOffsetBytes buf.raw := by
    intro h6
    rw [hproto, transportSize, if_pos h6, getD_drop, dataOffsetBytes]
  rcases decodeTransport_spec ip (buf.raw.drop (14 + ihlBytes buf.raw)) with
    ⟨hlt, ht⟩ | ⟨hle, t, ht⟩
  · rw [ht]
    refine ⟨fun _ _ => ⟨hfit, fun h6 h20 => ?_⟩, fun _ => Or.inr ⟨_, _, rfl⟩⟩
    rw [hleast h6, List.length_drop] at hlt
    omega
  · rw [ht, Run.ok_bind]
    dsimp only
    rw [List.length_drop] at hle
    by_cases hn : 14 + ihlBytes buf.raw +
        transportSize ip.protocol (buf.raw.drop (14 + ihlBytes buf.raw)) ≤ buf.raw.length
    · rw [sliceFrom_of_le hn]
      refine ⟨fun _ _ => ⟨hfit, fun h6 _ => ?_⟩, fun _ => Or.inl ⟨_, rfl⟩⟩
      rw [← hsize h6]
      exact hn
    · rw [sliceFrom_of_lt (by omega)]
      refine ⟨fun h => absurd h not_returns_panic, fun h => absurd ?_ hn⟩
      by_cases h6 : buf.raw.getD 23 0 = 6
      · rw [hleast h6] at hle
        rw [hsize h6]
        exact (h hr).2 h6 (by omega)
      · rw [transportSize_of_ne fun h => h6 (hproto.symm.trans h)]
        omega

/-! ### Where the payload starts -/

theorem transportSize_mod (protocol : UInt8) (data : List UInt8) :
    transportSize protocol data % 4 = 0 := by
  unfold transportSize
  split
  · exact Nat.mul_mod_left _ 4
  · split
    · rfl
    · split
      · rfl
      · rfl

def payloadOffset (raw : List UInt8) : Nat :=
  14 + ihlBytes raw + transportSize (raw.getD 23 0) (raw.drop (14 + ihlBytes raw))

theorem decodePacket_ipv4 {buf : PacketBuf} {p : DecodedPacket} {ip : Ipv4Header}
    (h : decodePacket buf = .ok p) (hip : p.ipv4 = some ip) :
    ip.headerLength = ihlBytes buf.raw ∧ payloadOffset buf.raw ≤ buf.raw.length ∧
      p.payload = buf.raw.drop (payloadOffset buf.raw) := by
  rw [decodePacket] at h
  obtain ⟨e, -, h⟩ := Run.bind_eq_ok.mp h
  split at h
  swap
  · cases h
    cases hip
  obtain ⟨data, hdata, h⟩ := Run.bind_eq_ok.mp h
  obtain ⟨header, hheader, h⟩ := Run.bind_eq_ok.mp h
  obtain ⟨transportData, htdata, h⟩ := Run.bind_eq_ok.mp h
  obtain ⟨⟨t, n⟩, ht, h⟩ := Run.bind_eq_ok.mp h
  obtain ⟨payload, hpayload, h⟩ := Run.bind_eq_ok.mp h
  cases h
  cases hip
  obtain ⟨-, rfl⟩ := sliceFrom_eq_ok.mp hdata
  obtain ⟨-, rfl⟩ := sliceFrom_eq_ok.mp htdata
  obtain ⟨hle, rfl⟩ := sliceFrom_eq_ok.mp hpayload
  have h20 : 20 ≤ (buf.raw.drop 14).length := by
    by_contra hlt
    rw [decodeIpv4_of_lt (Nat.lt_of_not_le hlt)] at hheader
    cases hheader
  obtain ⟨header', hheader', hprotocol, hlen⟩ := decodeIpv4_of_le h20
  rw [hheader'] at hheader
  cases hheader
  rw [getD_drop] at hprotocol hlen
  have hihl : ip.headerLength = ihlBytes buf.raw := hlen
  have hsize : n = transportSize (buf.raw.getD 23 0) (buf.raw.drop (14 + ihlBytes buf.raw)) := by
    rcases decodeTransport_spec ip (buf.raw.drop (14 + ip.headerLength)) with
      ⟨-, he'⟩ | ⟨-, t', ht'⟩
    · rw [he'] at ht
      cases ht
    · rw [ht', hprotocol, hihl] at ht
      cases ht
      rfl
  rw [payloadOffset, ← hsize, ← hihl]
  exact ⟨rfl, hle, rfl⟩

theorem decodePacket_of_headers {buf : PacketBuf} (h : ReadsIpv4 buf.raw)
    (hleast : 14 + ihlBytes buf.raw + transportLeast (buf.raw.getD 23 0) ≤ buf.raw.length)
    (hoffset : payloadOffset buf.raw ≤ buf.raw.length) :
    ∃ p ip, decodePacket buf = .ok p ∧ p.ipv4 = some ip := by
  obtain ⟨h34, hty⟩ := h
  obtain ⟨e, he, hety⟩ := decodeEthernet_of_le (by omega : 14 ≤ buf.raw.length)
  have h20 : 20 ≤ (buf.raw.drop 14).length := by
    rw [List.length_drop]
    omega
  obtain ⟨ip, hip, hprotocol, hlen⟩ := decodeIpv4_of_le h20
  rw [getD_drop] at hprotocol hlen
  have hproto : ip.protocol = buf.raw.getD 23 0 := hprotocol
  have hihl : ip.headerLength = ihlBytes buf.raw := hlen
  have htransport : ∃ t, decodeTransport ip (buf.raw.drop (14 + ihlBytes buf.raw)) =
      .ok (t, transportSize (buf.raw.getD 23 0) (buf.raw.drop (14 + ihlBytes buf.raw))) := by
    rcases decodeTransport_spec ip (buf.raw.drop (14 + ihlBytes buf.raw)) with
      ⟨hlt, -⟩ | ⟨-, t, ht⟩
    · rw [hproto, List.length_drop] at hlt
      omega
    · rw [hproto] at ht
      exact ⟨t, ht⟩
  obtain ⟨t, ht⟩ := htransport
  refine ⟨⟨buf, e, some ip, t, buf.raw.drop (payloadOffset buf.raw)⟩, ip, ?_, rfl⟩
  rw [decodePacket, he, Run.ok_bind, if_pos (hety.trans hty), sliceFrom_of_le (by omega),
    Run.ok_bind, hip, Run.ok_bind, hihl]
  dsimp only
  rw [sliceFrom_of_le (by omega), Run.ok_bind, ht, Run.ok_bind]
  dsimp only
  rw [← payloadOffset, sliceFrom_of_le hoffset]
  rfl

/-- A frame of 34 bytes whose IHL nibble is 15: EtherType `0x0800`, and nothing
behind the first twenty bytes of the IPv4 header. -/
def shortIhlFrame : PacketBuf where
  raw := List.replicate 12 0 ++ [8, 0, 0x4f] ++ List.replicate 19 0
  linkHeaderLen := 14

theorem decodePacket_panics_on_short_ihl :
    decodePacket shortIhlFrame = .panic ∧ ¬ ∀ buf : PacketBuf, Returns (decodePacket buf) := by
  have h : decodePacket shortIhlFrame = .panic := by decide
  exact ⟨h, fun hall => not_returns_panic (h ▸ hall shortIhlFrame)⟩

end EdgeShield.Packet
