import Mathlib.Data.Finmap
import Mathlib.Data.Finset.Sort
import Mathlib.Data.List.Lex
import Mathlib.Order.Lattice.Nat
import Mathlib.Tactic.Common

/-!
# Core domain types

`crates/common/src/types.rs` and `time.rs`: protocols, addresses, timestamps and
the device record with its three updates.

A `BTreeSet` is a `Finset` and a `BTreeMap` is a `Finmap`: both are determined by
what they contain, and their iteration order is the sorted one (`Finset.sort`).
Counters are `u64` values, held as naturals that `saturatingAdd` never takes past
`u64Max`.  A `Timestamp` is a `DateTime<Utc>`, in nanoseconds since the epoch;
its text form keeps milliseconds (`Timestamp.truncMillis`).
-/

namespace EdgeShield.Common

/-! ### Saturating counters -/

def u64Max : Nat := 2 ^ 64 - 1

def saturatingAdd (a b : Nat) : Nat := min u64Max (a + b)

/-- Adding to a value that was cut off at the top is adding and then cutting off:
a chain of saturating additions is the cut-off sum. -/
theorem saturatingAdd_min (a b : Nat) : saturatingAdd (min u64Max a) b = min u64Max (a + b) := by
  unfold saturatingAdd
  omega

/-! ### Timestamps -/

/-- A UTC time, in nanoseconds since the epoch. -/
structure Timestamp where
  nanos : Int
  deriving DecidableEq, Repr

/-- What `%Y-%m-%dT%H:%M:%S%.3fZ` keeps: whole milliseconds, rounded down. -/
def Timestamp.truncMillis (t : Timestamp) : Timestamp := ⟨t.nanos / 1000000 * 1000000⟩

/-! ### Addresses -/

structure MacAddress where
  bytes : Vector UInt8 6
  deriving DecidableEq, Repr

def MacAddress.ofBytes (a b c d e f : UInt8) : MacAddress := ⟨#v[a, b, c, d, e, f]⟩

def hexDigit (n : Nat) : Char :=
  if n < 10 then Char.ofNat (48 + n) else Char.ofNat (55 + n)

/-- `{:02X}`. -/
def hexByte (b : UInt8) : List Char := [hexDigit (b.toNat / 16), hexDigit (b.toNat % 16)]

def MacAddress.toString (m : MacAddress) : String :=
  String.ofList ((m.bytes.toList.map hexByte).intersperse [':']).flatten

theorem hexDigit_injective : ∀ a b : Fin 16, hexDigit a = hexDigit b → a = b := by decide

theorem hexByte_injective : Function.Injective hexByte := by
  intro a b h
  simp only [hexByte, List.cons.injEq, and_true] at h
  have ha := a.toNat_lt
  have hb := b.toNat_lt
  have hhi := hexDigit_injective ⟨a.toNat / 16, by omega⟩ ⟨b.toNat / 16, by omega⟩ h.1
  have hlo := hexDigit_injective ⟨a.toNat % 16, by omega⟩ ⟨b.toNat % 16, by omega⟩ h.2
  simp only [Fin.mk.injEq] at hhi hlo
  exact UInt8.toNat_inj.mp (by omega)

theorem hexText_injective : ∀ {l l' : List UInt8}, l.length = l'.length →
    ((l.map hexByte).intersperse [':']).flatten = ((l'.map hexByte).intersperse [':']).flatten →
    l = l' := by
  intro l
  induction l with
  | nil => intro l' hlen _; exact (List.eq_nil_of_length_eq_zero hlen.symm).symm
  | cons a l ih =>
    intro l' hlen h
    cases l' with
    | nil => cases hlen
    | cons a' l' =>
      cases l with
      | nil =>
        rw [List.eq_nil_of_length_eq_zero (Nat.succ.inj hlen).symm] at h ⊢
        have ha : hexByte a = hexByte a' := by simpa using h
        rw [hexByte_injective ha]
      | cons b l =>
        cases l' with
        | nil => cases hlen
        | cons b' l' =>
          simp only [List.map_cons, List.intersperse_cons_cons, List.flatten_cons] at h
          obtain ⟨ha, hrest⟩ := List.append_inj h rfl
          obtain ⟨_, hrest⟩ := List.append_inj hrest rfl
          rw [hexByte_injective ha, ih (Nat.succ.inj hlen) hrest]

theorem MacAddress.toString_injective : Function.Injective MacAddress.toString := by
  intro a b h
  have hl := hexText_injective (by simp) (String.ofList_injective h)
  cases a
  cases b
  exact congrArg MacAddress.mk (Vector.toList_inj.mp hl)

/-- An IP address.  The order is that of `IpAddr`: `V4` before `V6`, then by
octets. -/
inductive IpAddr where
  | v4 (octets : Vector UInt8 4)
  | v6 (octets : Vector UInt8 16)
  deriving DecidableEq, Repr

def IpAddr.ofOctets (a b c d : UInt8) : IpAddr := .v4 #v[a, b, c, d]

def IpAddr.key : IpAddr → List Nat
  | .v4 o => 0 :: o.toList.map UInt8.toNat
  | .v6 o => 1 :: o.toList.map UInt8.toNat

theorem IpAddr.key_injective : Function.Injective IpAddr.key := by
  have hmap : Function.Injective (List.map UInt8.toNat) :=
    List.map_injective_iff.mpr fun _ _ h => UInt8.toNat_inj.mp h
  intro a b h
  cases a with
  | v4 o =>
    cases b with
    | v4 o' =>
      rw [key, key, List.cons.injEq] at h
      rw [Vector.toList_inj.mp (hmap h.2)]
    | v6 o' => simp [key] at h
  | v6 o =>
    cases b with
    | v4 o' => simp [key] at h
    | v6 o' =>
      rw [key, key, List.cons.injEq] at h
      rw [Vector.toList_inj.mp (hmap h.2)]

instance : LinearOrder IpAddr := LinearOrder.lift' IpAddr.key IpAddr.key_injective

/-! ### Protocols -/

/-- A protocol detected on the network; `other` is an unknown one, by number. -/
inductive Protocol where
  | arp | ipv4 | icmp | tcp | udp | dns | dhcp | http | https | mdns | ntp
  | other (n : UInt8)
  deriving DecidableEq, Repr

/-- The position in the derived order: the variants as declared. -/
def Protocol.rank : Protocol → Nat
  | .arp => 0
  | .ipv4 => 1
  | .icmp => 2
  | .tcp => 3
  | .udp => 4
  | .dns => 5
  | .dhcp => 6
  | .http => 7
  | .https => 8
  | .mdns => 9
  | .ntp => 10
  | .other n => 11 + n.toNat

theorem Protocol.rank_injective : Function.Injective Protocol.rank := by
  intro a b h
  cases a <;> cases b <;> simp only [rank] at h <;> first | rfl | omega | skip
  next m n => rw [UInt8.toNat_inj.mp (by omega : m.toNat = n.toNat)]

instance : LinearOrder Protocol := LinearOrder.lift' Protocol.rank Protocol.rank_injective

def Protocol.toString : Protocol → String
  | .arp => "ARP"
  | .ipv4 => "IPv4"
  | .icmp => "ICMP"
  | .tcp => "TCP"
  | .udp => "UDP"
  | .dns => "DNS"
  | .dhcp => "DHCP"
  | .http => "HTTP"
  | .https => "HTTPS"
  | .mdns => "mDNS"
  | .ntp => "NTP"
  | .other n => "UNKNOWN(" ++ Nat.repr n.toNat ++ ")"

/-! ### Devices -/

abbrev ProtocolStats := Finmap fun _ : Protocol => Nat

/-- `*entry(p).or_insert(0) = entry.saturating_add(1)`. -/
def ProtocolStats.bump (stats : ProtocolStats) (p : Protocol) : ProtocolStats :=
  stats.insert p (saturatingAdd ((stats.lookup p).getD 0) 1)

theorem ProtocolStats.lookup_bump (stats : ProtocolStats) (p q : Protocol) :
    (stats.bump p).lookup q =
      if q = p then some (saturatingAdd ((stats.lookup p).getD 0) 1) else stats.lookup q := by
  unfold bump
  split
  · next h => rw [h, Finmap.lookup_insert]
  · next h => rw [Finmap.lookup_insert_of_ne _ h]

structure Device where
  mac : MacAddress
  ips : Finset IpAddr
  hostname : Option String
  firstSeen : Timestamp
  lastSeen : Timestamp
  packetCount : Nat
  bytesSent : Nat
  bytesReceived : Nat
  protocols : Finset Protocol
  vendor : Option String
  dhcpVendorClass : Option String
  protocolStats : ProtocolStats
  deriving DecidableEq

namespace Device

/-- `Device::new`; `now` is the clock read that it makes. -/
def new (mac : MacAddress) (now : Timestamp) : Device where
  mac := mac
  ips := ∅
  hostname := none
  firstSeen := now
  lastSeen := now
  packetCount := 0
  bytesSent := 0
  bytesReceived := 0
  protocols := ∅
  vendor := none
  dhcpVendorClass := none
  protocolStats := ∅

def recordSent (d : Device) (bytes : Nat) (protocol : Protocol) (now : Timestamp) : Device :=
  { d with
    packetCount := saturatingAdd d.packetCount 1
    bytesSent := saturatingAdd d.bytesSent bytes
    protocols := insert protocol d.protocols
    protocolStats := d.protocolStats.bump protocol
    lastSeen := now }

def recordReceived (d : Device) (bytes : Nat) (protocol : Protocol) (now : Timestamp) : Device :=
  { d with
    packetCount := saturatingAdd d.packetCount 1
    bytesReceived := saturatingAdd d.bytesReceived bytes
    protocols := insert protocol d.protocols
    protocolStats := d.protocolStats.bump protocol
    lastSeen := now }

def addIp (d : Device) (ip : IpAddr) : Device := { d with ips := insert ip d.ips }

/-- The records that `new` and the three updates build. -/
inductive Recorded : Device → Prop where
  | new (mac : MacAddress) (now : Timestamp) : Recorded (Device.new mac now)
  | sent {d : Device} (h : Recorded d) (bytes : UInt64) (protocol : Protocol) (now : Timestamp) :
      Recorded (d.recordSent bytes.toNat protocol now)
  | received {d : Device} (h : Recorded d) (bytes : UInt64) (protocol : Protocol)
      (now : Timestamp) : Recorded (d.recordReceived bytes.toNat protocol now)
  | ip {d : Device} (h : Recorded d) (ip : IpAddr) : Recorded (d.addIp ip)

/-- The counters are `u64` values. -/
structure CountersFit (d : Device) : Prop where
  packets : d.packetCount ≤ u64Max
  sent : d.bytesSent ≤ u64Max
  received : d.bytesReceived ≤ u64Max

end Device

end EdgeShield.Common
