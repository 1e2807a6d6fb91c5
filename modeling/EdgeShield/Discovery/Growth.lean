import EdgeShield.Discovery.Engine

/-!
# Records only grow

A packet adds to the records of its endpoints and takes nothing away: addresses and
protocols are sets that grow, names stay once they are there, and counters go up until
they stop at `u64Max`.  `Grows` is the order that this makes.

The counters go up only because they are `u64` values: a larger number would be cut off
by the next addition.  `WithinU64` says so of a record, and the updates keep it.
-/

namespace EdgeShield.Discovery

open EdgeShield.Lib EdgeShield.Common EdgeShield.Packet EdgeShield.Protocol EdgeShield.Storage
open EdgeShield.Common (Protocol)

structure WithinU64 (d : Device) : Prop where
  counters : d.CountersFit
  stats : ∀ p n, d.protocolStats.lookup p = some n → n ≤ u64Max

def StatsGrow (stats stats' : ProtocolStats) : Prop :=
  ∀ p n, stats.lookup p = some n → ∃ n', stats'.lookup p = some n' ∧ n ≤ n'

structure CountersGrow (d d' : Device) : Prop where
  packetCount : d.packetCount ≤ d'.packetCount
  bytesSent : d.bytesSent ≤ d'.bytesSent
  bytesReceived : d.bytesReceived ≤ d'.bytesReceived

/-- What the first record knows about its device, the second one knows too. -/
structure Grows (d d' : Device) : Prop extends CountersGrow d d' where
  mac : d'.mac = d.mac
  firstSeen : d'.firstSeen = d.firstSeen
  vendor : d'.vendor = d.vendor
  hostname : ∀ name, d.hostname = some name → d'.hostname = some name
  vendorClass : ∀ name, d.dhcpVendorClass = some name → d'.dhcpVendorClass = some name
  ips : d.ips ⊆ d'.ips
  protocols : d.protocols ⊆ d'.protocols
  stats : StatsGrow d.protocolStats d'.protocolStats

theorem Grows.refl (d : Device) : Grows d d where
  mac := rfl
  firstSeen := rfl
  vendor := rfl
  hostname _ h := h
  vendorClass _ h := h
  ips := Finset.Subset.refl _
  protocols := Finset.Subset.refl _
  packetCount := le_rfl
  bytesSent := le_rfl
  bytesReceived := le_rfl
  stats _ n h := ⟨n, h, le_rfl⟩

theorem Grows.trans {d d' d'' : Device} (h : Grows d d') (h' : Grows d' d'') : Grows d d'' where
  mac := h'.mac.trans h.mac
  firstSeen := h'.firstSeen.trans h.firstSeen
  vendor := h'.vendor.trans h.vendor
  hostname name hn := h'.hostname name (h.hostname name hn)
  vendorClass name hn := h'.vendorClass name (h.vendorClass name hn)
  ips := h.ips.trans h'.ips
  protocols := h.protocols.trans h'.protocols
  packetCount := h.packetCount.trans h'.packetCount
  bytesSent := h.bytesSent.trans h'.bytesSent
  bytesReceived := h.bytesReceived.trans h'.bytesReceived
  stats p n hn := by
    obtain ⟨n', hn', hle⟩ := h.stats p n hn
    obtain ⟨n'', hn'', hle'⟩ := h'.stats p n' hn'
    exact ⟨n'', hn'', hle.trans hle'⟩

/-! ### The updates of a packet -/

theorem le_saturatingAdd {a : Nat} (h : a ≤ u64Max) (b : Nat) : a ≤ saturatingAdd a b := by
  unfold saturatingAdd
  omega

theorem saturatingAdd_le (a b : Nat) : saturatingAdd a b ≤ u64Max := Nat.min_le_left _ _

theorem statsGrow_bump {stats : ProtocolStats}
    (h : ∀ p n, stats.lookup p = some n → n ≤ u64Max) (p : Protocol) :
    StatsGrow stats (stats.bump p) := by
  intro q n hn
  rw [ProtocolStats.lookup_bump]
  by_cases hq : q = p
  · subst hq
    exact ⟨_, if_pos rfl, by rw [hn]; exact le_saturatingAdd (h q n hn) 1⟩
  · exact ⟨n, by rw [if_neg hq, hn], le_rfl⟩

theorem le_of_lookup_bump {stats : ProtocolStats}
    (h : ∀ p n, stats.lookup p = some n → n ≤ u64Max) (p : Protocol) :
    ∀ q n, (stats.bump p).lookup q = some n → n ≤ u64Max := by
  intro q n hn
  rw [ProtocolStats.lookup_bump] at hn
  split at hn
  · cases hn
    exact saturatingAdd_le _ _
  · exact h q n hn

theorem countersFit_newDevice (ouiMap : Nat → Option String) (mac : MacAddress)
    (now : Timestamp) : (newDevice ouiMap mac now).CountersFit :=
  ⟨Nat.zero_le _, Nat.zero_le _, Nat.zero_le _⟩

theorem withinU64_newDevice (ouiMap : Nat → Option String) (mac : MacAddress) (now : Timestamp) :
    WithinU64 (newDevice ouiMap mac now) where
  counters := countersFit_newDevice ouiMap mac now
  stats _ _ h := by cases h

theorem countersFit_sourceRecord {d : Device} (h : d.CountersFit) (x : Sighting)
    (now : Timestamp) : (sourceRecord x now d).CountersFit := by
  rw [sourceRecord_eq]
  exact ⟨saturatingAdd_le _ _, saturatingAdd_le _ _, h.received⟩

theorem countersFit_destinationRecord {d : Device} (h : d.CountersFit) (x : Sighting)
    (now : Timestamp) : (destinationRecord x now d).CountersFit := by
  rw [destinationRecord_eq]
  exact ⟨saturatingAdd_le _ _, h.sent, saturatingAdd_le _ _⟩

theorem countersGrow_sourceRecord {d : Device} (h : d.CountersFit) (x : Sighting)
    (now : Timestamp) : CountersGrow d (sourceRecord x now d) := by
  rw [sourceRecord_eq]
  exact ⟨le_saturatingAdd h.packets 1, le_saturatingAdd h.sent _, le_rfl⟩

theorem countersGrow_destinationRecord {d : Device} (h : d.CountersFit) (x : Sighting)
    (now : Timestamp) : CountersGrow d (destinationRecord x now d) := by
  rw [destinationRecord_eq]
  exact ⟨le_saturatingAdd h.packets 1, le_rfl, le_saturatingAdd h.received _⟩

theorem WithinU64.sourceRecord {d : Device} (h : WithinU64 d) (x : Sighting) (now : Timestamp) :
    WithinU64 (sourceRecord x now d) := by
  refine ⟨countersFit_sourceRecord h.counters x now, ?_⟩
  rw [sourceRecord_eq]
  exact le_of_lookup_bump h.stats _

theorem WithinU64.destinationRecord {d : Device} (h : WithinU64 d) (x : Sighting)
    (now : Timestamp) : WithinU64 (destinationRecord x now d) := by
  rw [destinationRecord_eq]
  exact ⟨⟨saturatingAdd_le _ _, h.counters.sent, saturatingAdd_le _ _⟩,
    le_of_lookup_bump h.stats _⟩

theorem grows_sourceRecord {d : Device} (h : WithinU64 d) (x : Sighting) (now : Timestamp) :
    Grows d (sourceRecord x now d) := by
  have hcounters := countersGrow_sourceRecord h.counters x now
  rw [sourceRecord_eq] at hcounters ⊢
  exact
    { hcounters with
      mac := rfl
      firstSeen := rfl
      vendor := rfl
      hostname := fun name hn => by simp [hn]
      vendorClass := fun name hn => by simp [hn]
      ips := Finset.subset_union_left
      protocols := Finset.subset_insert _ _
      stats := statsGrow_bump h.stats _ }

theorem grows_destinationRecord {d : Device} (h : WithinU64 d) (x : Sighting) (now : Timestamp) :
    Grows d (destinationRecord x now d) := by
  have hcounters := countersGrow_destinationRecord h.counters x now
  rw [destinationRecord_eq] at hcounters ⊢
  exact
    { hcounters with
      mac := rfl
      firstSeen := rfl
      vendor := rfl
      hostname := fun _ hn => hn
      vendorClass := fun _ hn => hn
      ips := Finset.subset_union_left
      protocols := Finset.subset_insert _ _
      stats := statsGrow_bump h.stats _ }

end EdgeShield.Discovery
