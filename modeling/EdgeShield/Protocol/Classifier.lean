import EdgeShield.Packet.Decode

/-!
# Protocol classification

`crates/protocol/src/classifier.rs`: a decoded packet is classified by its
EtherType, its transport header and its ports, and a TCP payload on any other
port by the HTTP request or status line it starts with.

`bannerPrefixes` are the texts that such a line starts with, and `tcpProtocol` is the
protocol of a TCP packet by them.  The check of the length in front of the scan lets no
payload of four bytes through, and two of the texts have four bytes: `classify_tcp_iff`
says that `classify` gives the protocol of the packet except for these two payloads on
ports that say nothing.
-/

namespace EdgeShield.Protocol

open EdgeShield.Common EdgeShield.Packet
open EdgeShield.Common (Protocol)

def ascii (s : String) : List UInt8 := s.toList.map fun c => UInt8.ofNat c.toNat

def methods : List (List UInt8) :=
  ["GET ", "POST ", "PUT ", "DELETE ", "HEAD ", "OPTIONS ", "PATCH ", "TRACE ", "CONNECT "].map
    ascii

def isHttpBanner (payload : List UInt8) : Bool :=
  if payload.length < 5 then false
  else if methods.any fun method => method.isPrefixOf payload then true
  else 7 ≤ payload.length && payload.take 7 == ascii "HTTP/1."

def classifyTcp (srcPort dstPort : Nat) (payload : List UInt8) : Protocol :=
  if srcPort = 53 ∨ dstPort = 53 then .dns
  else if srcPort = 80 ∨ dstPort = 80 then .http
  else if srcPort = 443 ∨ dstPort = 443 then .https
  else if isHttpBanner payload then .http
  else .tcp

def classifyUdp (srcPort dstPort : Nat) : Protocol :=
  if srcPort = 53 ∨ dstPort = 53 then .dns
  else if srcPort = 67 ∨ dstPort = 67 ∨ srcPort = 68 ∨ dstPort = 68 then .dhcp
  else if srcPort = 5353 ∨ dstPort = 5353 then .mdns
  else if srcPort = 123 ∨ dstPort = 123 then .ntp
  else .udp

def classify (packet : DecodedPacket) : Protocol :=
  if packet.ethernet.ethertype = 0x0806 then .arp
  else
    match packet.ipv4 with
    | none => .other 0
    | some _ =>
      match packet.transport with
      | some (.tcp tcp) => classifyTcp tcp.sourcePort tcp.destinationPort packet.payload
      | some (.udp udp) => classifyUdp udp.sourcePort udp.destinationPort
      | some (.icmp _) => .icmp
      | none => .ipv4

/-! ### TCP packets by their specification -/

def bannerPrefixes : List (List UInt8) :=
  ["GET ", "POST ", "PUT ", "DELETE ", "HEAD ", "OPTIONS ", "PATCH ", "TRACE ", "CONNECT ",
    "HTTP/1."].map ascii

/-- The protocol of a TCP packet: by its ports, DNS before HTTP before HTTPS, and then by
its payload. -/
def tcpProtocol (srcPort dstPort : Nat) (payload : List UInt8) : Protocol :=
  if srcPort = 53 ∨ dstPort = 53 then .dns
  else if srcPort = 80 ∨ dstPort = 80 then .http
  else if srcPort = 443 ∨ dstPort = 443 then .https
  else if ∃ banner ∈ bannerPrefixes, banner <+: payload then .http
  else .tcp

def KnownPort (port : Nat) : Prop := port = 53 ∨ port = 80 ∨ port = 443

instance (port : Nat) : Decidable (KnownPort port) := by unfold KnownPort; infer_instance

/-- The texts that are shorter than the check of the length allows. -/
def shortBanners : List (List UInt8) := ["GET ", "PUT "].map ascii

theorem length_of_mem_bannerPrefixes {banner : List UInt8} (h : banner ∈ bannerPrefixes) :
    4 ≤ banner.length ∧ (banner.length = 4 → banner ∈ shortBanners) := by
  have hall : ∀ b ∈ bannerPrefixes, 4 ≤ b.length ∧ (b.length = 4 → b ∈ shortBanners) := by
    decide
  exact hall banner h

theorem bannerPrefixes_eq : bannerPrefixes = methods ++ [ascii "HTTP/1."] := rfl

theorem isHttpBanner_of_le {payload : List UInt8} (h : 5 ≤ payload.length) :
    isHttpBanner payload = true ↔ ∃ banner ∈ bannerPrefixes, banner <+: payload := by
  have hstatus : (7 ≤ payload.length && payload.take 7 == ascii "HTTP/1.") = true ↔
      ascii "HTTP/1." <+: payload := by
    rw [Bool.and_eq_true, decide_eq_true_eq, beq_iff_eq, List.prefix_iff_eq_take]
    refine ⟨fun hs => hs.2.symm, fun hs => ⟨?_, hs.symm⟩⟩
    have hlen := congrArg List.length hs
    rw [List.length_take] at hlen
    have hseven : (ascii "HTTP/1.").length = 7 := rfl
    omega
  rw [isHttpBanner, if_neg (by omega), bannerPrefixes_eq]
  simp only [List.mem_append, List.mem_singleton, or_and_right, exists_or, exists_eq_left]
  rw [← hstatus]
  by_cases hm : (methods.any fun method => method.isPrefixOf payload) = true
  · rw [if_pos hm]
    obtain ⟨method, hmem, hprefix⟩ := List.any_eq_true.mp hm
    exact ⟨fun _ => .inl ⟨method, hmem, List.isPrefixOf_iff_prefix.mp hprefix⟩, fun _ => rfl⟩
  · rw [if_neg hm, or_iff_right]
    rintro ⟨method, hmem, hprefix⟩
    exact hm (List.any_eq_true.mpr ⟨method, hmem, List.isPrefixOf_iff_prefix.mpr hprefix⟩)

/-- **What the check of the length costs**: the scan accepts what starts with a prefix, but
not the prefixes of four bytes on their own. -/
theorem isHttpBanner_iff (payload : List UInt8) :
    isHttpBanner payload = true ↔
      (∃ banner ∈ bannerPrefixes, banner <+: payload) ∧ payload ∉ shortBanners := by
  by_cases hlen : 5 ≤ payload.length
  · rw [isHttpBanner_of_le hlen, and_iff_left]
    intro hshort
    have hfour : ∀ b ∈ shortBanners, b.length = 4 := by decide
    have := hfour payload hshort
    omega
  · rw [isHttpBanner, if_pos (by omega)]
    refine ⟨fun h => (by cases h), ?_⟩
    rintro ⟨⟨banner, hmem, hprefix⟩, hnot⟩
    obtain ⟨hfour, hshort⟩ := length_of_mem_bannerPrefixes hmem
    have hle := hprefix.length_le
    have heq : banner = payload := hprefix.eq_of_length (by omega)
    exact absurd (heq ▸ hshort (by omega)) hnot

theorem exists_banner_of_mem_shortBanners {payload : List UInt8} (h : payload ∈ shortBanners) :
    ∃ banner ∈ bannerPrefixes, banner <+: payload := by
  have hall : ∀ b ∈ shortBanners, b ∈ bannerPrefixes := by decide
  exact ⟨payload, hall payload h, List.prefix_rfl⟩

theorem classifyTcp_eq_iff (srcPort dstPort : Nat) (payload : List UInt8) :
    classifyTcp srcPort dstPort payload = tcpProtocol srcPort dstPort payload ↔
      KnownPort srcPort ∨ KnownPort dstPort ∨ payload ∉ shortBanners := by
  rw [classifyTcp, tcpProtocol, KnownPort, KnownPort]
  by_cases hdns : srcPort = 53 ∨ dstPort = 53
  · rw [if_pos hdns, if_pos hdns]
    exact iff_of_true rfl (by tauto)
  by_cases hhttp : srcPort = 80 ∨ dstPort = 80
  · rw [if_neg hdns, if_neg hdns, if_pos hhttp, if_pos hhttp]
    exact iff_of_true rfl (by tauto)
  by_cases hhttps : srcPort = 443 ∨ dstPort = 443
  · rw [if_neg hdns, if_neg hdns, if_neg hhttp, if_neg hhttp, if_pos hhttps, if_pos hhttps]
    exact iff_of_true rfl (by tauto)
  rw [if_neg hdns, if_neg hdns, if_neg hhttp, if_neg hhttp, if_neg hhttps, if_neg hhttps]
  have hports : (srcPort = 53 ∨ srcPort = 80 ∨ srcPort = 443) ∨
      (dstPort = 53 ∨ dstPort = 80 ∨ dstPort = 443) ∨ payload ∉ shortBanners ↔
      payload ∉ shortBanners := by tauto
  rw [hports]
  by_cases hshort : payload ∈ shortBanners
  · rw [if_neg fun h => ((isHttpBanner_iff payload).mp h).2 hshort,
      if_pos (exists_banner_of_mem_shortBanners hshort)]
    exact iff_of_false (by decide) (not_not.mpr hshort)
  · have hscan := isHttpBanner_iff payload
    rw [and_iff_left hshort] at hscan
    by_cases hb : ∃ banner ∈ bannerPrefixes, banner <+: payload
    · rw [if_pos (hscan.mpr hb), if_pos hb]
      exact iff_of_true rfl hshort
    · rw [if_neg (mt hscan.mp hb), if_neg hb]
      exact iff_of_true rfl hshort

structure IsTcp (packet : DecodedPacket) (tcp : TcpHeader) : Prop where
  ethertype : packet.ethernet.ethertype = 0x0800
  ipv4 : packet.ipv4.isSome
  transport : packet.transport = some (.tcp tcp)

theorem IsTcp.classify_eq {packet : DecodedPacket} {tcp : TcpHeader} (h : IsTcp packet tcp) :
    classify packet = classifyTcp tcp.sourcePort tcp.destinationPort packet.payload := by
  obtain ⟨ip, hip⟩ := Option.isSome_iff_exists.mp h.ipv4
  rw [classify, h.ethertype, if_neg (by decide), hip, h.transport]

/-- **A TCP packet gets its protocol** exactly when one of its ports decides or its payload
is not a prefix of four bytes. -/
theorem classify_tcp_iff {packet : DecodedPacket} {tcp : TcpHeader} (h : IsTcp packet tcp) :
    classify packet = tcpProtocol tcp.sourcePort tcp.destinationPort packet.payload ↔
      KnownPort tcp.sourcePort ∨ KnownPort tcp.destinationPort ∨
        packet.payload ∉ shortBanners := by
  rw [h.classify_eq]
  exact classifyTcp_eq_iff _ _ _

/-- A frame from port 12345 to port 8080 with the given payload, as it is captured. -/
def bannerFrame (payload : List UInt8) : PacketBuf where
  raw := [0, 0, 0, 0, 0, 2, 0, 0, 0, 0, 0, 1, 8, 0] ++
    [0x45, 0, 0, UInt8.ofNat (40 + payload.length), 0, 0, 0, 0, 64, 6, 0, 0, 10, 0, 0, 1,
      10, 0, 0, 2] ++
    [0x30, 0x39, 0x1f, 0x90, 0, 0, 0, 0, 0, 0, 0, 0, 0x50, 2, 255, 255, 0, 0, 0, 0] ++ payload
  linkHeaderLen := 14

def bannerPacket (payload : List UInt8) : DecodedPacket where
  raw := bannerFrame payload
  ethernet := ⟨#v[0, 0, 0, 0, 0, 1], #v[0, 0, 0, 0, 0, 2], 0x0800⟩
  ipv4 := some ⟨.ofOctets 10 0 0 1, .ofOctets 10 0 0 2, 6, 40 + payload.length, 20⟩
  transport := some (.tcp ⟨12345, 8080⟩)
  payload := payload

theorem classify_tcp_iff_request :
    classify (bannerPacket (ascii "GET / HTTP/1.1")) =
      tcpProtocol 12345 8080 (ascii "GET / HTTP/1.1") :=
  (@classify_tcp_iff (bannerPacket (ascii "GET / HTTP/1.1")) ⟨12345, 8080⟩ ⟨rfl, rfl, rfl⟩).mpr
    (.inr (.inr (by decide)))

/-- **The first four bytes of a request** are no HTTP. -/
theorem classify_get_ne : decodePacket (bannerFrame (ascii "GET ")) =
      .ok (bannerPacket (ascii "GET ")) ∧
    IsTcp (bannerPacket (ascii "GET ")) ⟨12345, 8080⟩ ∧
    classify (bannerPacket (ascii "GET ")) = .tcp ∧
    tcpProtocol 12345 8080 (ascii "GET ") = .http := by
  refine ⟨by decide +kernel, ⟨rfl, rfl, rfl⟩, by decide +kernel, ?_⟩
  rw [tcpProtocol, if_neg (by decide), if_neg (by decide), if_neg (by decide), if_pos]
  exact exists_banner_of_mem_shortBanners (by decide)

end EdgeShield.Protocol
