import EdgeShield.Discovery.Hostname

/-!
# Whose DHCP options they are

`Device::dhcp_vendor_class` is documented as the client's self-reported vendor class,
populated from DHCP DISCOVER and REQUEST packets.  `parse_dhcp` returns the message type,
but nothing looks at it: the options of every DHCP frame go to the record of its sender, so
a server's OFFER that repeats a client's options labels the server.

A record keeps the first vendor class and the first name that its device sent, whatever
message they came in.  So the labels come from clients exactly when no device sends a
foreign one first (`clientLabelled_iff`).
-/

namespace EdgeShield.Discovery

open EdgeShield.Lib EdgeShield.Common EdgeShield.Packet EdgeShield.Protocol EdgeShield.Storage
open EdgeShield.Common (Protocol)

def Sighting.dhcpInfo (x : Sighting) : Option DhcpInfo :=
  if x.protocol = .dhcp then
    match parseDhcp x.packet.payload with
    | .ok info => some info
    | .error _ => none
  else none

def Sighting.FromClient (x : Sighting) : Prop :=
  ∃ info, x.dhcpInfo = some info ∧ (info.messageType = some 1 ∨ info.messageType = some 3)

theorem sight_dhcp {buf : PacketBuf} {x : Sighting} (h : sight buf = .ok (some x)) :
    x.dhcpHostname = x.dhcpInfo.bind DhcpInfo.hostname ∧
      x.dhcpVendorClass = x.dhcpInfo.bind DhcpInfo.vendorClass := by
  unfold sight at h
  split at h
  · cases h
  · cases h
  next decoded _ =>
  obtain ⟨⟨hostname, vendorClass⟩, hnames, h⟩ := Run.bind_eq_ok.mp h
  obtain ⟨name, _, h⟩ := Run.bind_eq_ok.mp h
  cases h
  simp only [Sighting.dhcpInfo]
  rw [dhcpNames] at hnames
  by_cases hdhcp : classify decoded = .dhcp
  · rw [if_pos hdhcp] at hnames
    rw [if_pos hdhcp]
    obtain ⟨info, hinfo, hnames⟩ := Run.bind_eq_ok.mp hnames
    cases hp : parseDhcp decoded.payload with
    | ok i =>
      rw [hp] at hinfo
      cases hinfo
      cases hnames
      exact ⟨rfl, rfl⟩
    | error e =>
      rw [hp] at hinfo
      cases e with
      | err u =>
        cases hinfo
        cases hnames
        exact ⟨rfl, rfl⟩
      | panic => cases hinfo
  · rw [if_neg hdhcp] at hnames
    rw [if_neg hdhcp]
    cases hnames
    exact ⟨rfl, rfl⟩

section Labels

variable {ouiMap : Nat → Option String}

theorem firstKept_vendorClass :
    FirstKept ouiMap Device.dhcpVendorClass Sighting.dhcpVendorClass where
  source x now d := by rw [sourceRecord_eq]
  destination x now d := by rw [destinationRecord_eq]
  fresh m now := rfl

/-- The frame of this sighting gave `m` its hostname. -/
def NamedBy (ouiMap : Nat → Option String) (m : MacAddress) (frames : List Frame)
    (x : Sighting) : Prop :=
  ∃ pre f post s outs s' evs, frames = pre ++ f :: post ∧ sight f.buf = .ok (some x) ∧
    (discovery ouiMap).run .new pre = some (s, outs) ∧
    (discovery ouiMap).step s f = some (s', evs) ∧
    (s.get m).bind Device.hostname = none ∧ (s'.get m).bind Device.hostname ≠ none

/-- **The DHCP labels come from clients**: a vendor class stands in a DISCOVER or REQUEST
that the device sent, and a hostname that came by DHCP came in one. -/
structure ClientLabelled (ouiMap : Nat → Option String) (frames : List Frame)
    (s : MemoryStore) : Prop where
  vendorClass : ∀ m d v, s.get m = some d → d.dhcpVendorClass = some v →
    ∃ x ∈ sightingsFrom m frames, x.FromClient ∧ x.dhcpVendorClass = some v
  hostname : ∀ m x, NamedBy ouiMap m frames x → x.dhcpHostname ≠ none →
    x.srcMac = m ∧ x.FromClient

/-- The first vendor class that `m` sent stands in no DISCOVER or REQUEST of `m`. -/
def ForeignVendorClass (m : MacAddress) (frames : List Frame) : Prop :=
  ∃ pre x post v, sightingsFrom m frames = pre ++ x :: post ∧ x.dhcpVendorClass = some v ∧
    (∀ y ∈ pre, y.dhcpVendorClass = none) ∧
    ∀ y ∈ sightingsFrom m frames, y.FromClient → y.dhcpVendorClass ≠ some v

/-- The first name that `m` sent is a DHCP hostname in another message than a DISCOVER or
REQUEST. -/
def ForeignHostname (m : MacAddress) (frames : List Frame) : Prop :=
  ∃ pre x post, sightingsFrom m frames = pre ++ x :: post ∧ x.dhcpHostname ≠ none ∧
    (∀ y ∈ pre, y.name = none) ∧ ¬x.FromClient

theorem sightingsFrom_split {m : MacAddress} {f : Frame} {x : Sighting}
    (h : sightingFrom m f = some x) (before after : List Frame) :
    sightingsFrom m (before ++ f :: after) =
      sightingsFrom m before ++ x :: sightingsFrom m after := by
  rw [sightingsFrom, List.filterMap_append, List.filterMap_cons_some h]
  rfl

theorem namedBy_iff {frames : List Frame} {s : MemoryStore} {outs : List (List DiscoveryEvent)}
    (h : (discovery ouiMap).run .new frames = some (s, outs)) (m : MacAddress) (x : Sighting) :
    NamedBy ouiMap m frames x ↔ ∃ pre post, sightingsFrom m frames = pre ++ x :: post ∧
      x.name ≠ none ∧ ∀ y ∈ pre, y.name = none := by
  have hkept : FirstKept ouiMap Device.hostname Sighting.name := firstKept_hostname
  constructor
  · rintro ⟨pre, f, post, s₁, outs₁, s₂, evs, rfl, hx, hpre, hf, hnone, hsome⟩
    have hstep := hkept.step hf m
    rw [hnone, Option.none_or] at hstep
    rw [hstep] at hsome
    rw [hkept.run hpre m, List.head?_eq_none_iff, List.filterMap_eq_nil_iff] at hnone
    cases hsight : sightingFrom m f with
    | none =>
      rw [hsight] at hsome
      exact absurd rfl hsome
    | some y =>
      obtain ⟨hy, _⟩ := sightingFrom_eq_some.mp hsight
      rw [hx] at hy
      cases hy
      rw [hsight, Option.bind_some] at hsome
      exact ⟨_, _, sightingsFrom_split hsight pre post, hsome, hnone⟩
  · rintro ⟨pre, post, he, hname, hpre⟩
    obtain ⟨before, rest, rfl, hbefore, hrest⟩ := List.filterMap_eq_append_iff.mp he
    obtain ⟨skipped, f, after, rfl, hskip, hsight, _⟩ := List.filterMap_eq_cons_iff.mp hrest
    rw [← List.append_assoc] at h ⊢
    obtain ⟨s₁, outs₁, outs₂, h₁, h₂, rfl⟩ := (discovery ouiMap).run_append.mp h
    obtain ⟨s₂, evs, outs', hf, _, rfl⟩ := (discovery ouiMap).run_cons.mp h₂
    have hnone : (s₁.get m).bind Device.hostname = none := by
      rw [hkept.run h₁ m, List.head?_eq_none_iff, List.filterMap_eq_nil_iff]
      intro y hy
      have hsame : sightingsFrom m (before ++ skipped) = pre := by
        rw [sightingsFrom, List.filterMap_append, hbefore,
          List.filterMap_eq_nil_iff.mpr hskip, List.append_nil]
      rw [hsame] at hy
      exact hpre y hy
    refine ⟨before ++ skipped, f, after, s₁, outs₁, s₂, evs, rfl,
      (sightingFrom_eq_some.mp hsight).1, h₁, hf, hnone, ?_⟩
    rw [hkept.step hf m, hnone, Option.none_or, hsight, Option.bind_some]
    exact hname

/-- **When the DHCP labels come from clients.**  After a run, every label is a client's
exactly when no device sends a foreign vendor class or a foreign DHCP hostname first. -/
theorem clientLabelled_iff {frames : List Frame} {s : MemoryStore}
    {outs : List (List DiscoveryEvent)} (h : (discovery ouiMap).run .new frames = some (s, outs)) :
    ClientLabelled ouiMap frames s ↔
      ∀ m, ¬ForeignVendorClass m frames ∧ ¬ForeignHostname m frames := by
  have hclass : ∀ m v, (s.get m).bind Device.dhcpVendorClass = some v ↔
      ∃ pre x post, sightingsFrom m frames = pre ++ x :: post ∧ x.dhcpVendorClass = some v ∧
        ∀ y ∈ pre, y.dhcpVendorClass = none := by
    intro m v
    rw [firstKept_vendorClass.run h m, List.head?_filterMap, List.findSome?_eq_some_iff]
  constructor
  · intro hl m
    constructor
    · rintro ⟨pre, x, post, v, he, hv, hpre, hforeign⟩
      obtain ⟨d, hd, hdv⟩ := Option.bind_eq_some_iff.mp ((hclass m v).mpr ⟨pre, x, post, he, hv, hpre⟩)
      obtain ⟨y, hy, hclient, hyv⟩ := hl.vendorClass m d v hd hdv
      exact hforeign y hy hclient hyv
    · rintro ⟨pre, x, post, he, hdhcp, hpre, hforeign⟩
      have hname : x.name ≠ none := by
        obtain ⟨n, hn⟩ := Option.ne_none_iff_exists'.mp hdhcp
        rw [Sighting.name, hn, Option.some_or]
        exact Option.some_ne_none n
      exact hforeign (hl.hostname m x ((namedBy_iff h m x).mpr ⟨pre, post, he, hname, hpre⟩) hdhcp).2
  · intro hno
    constructor
    · intro m d v hd hv
      obtain ⟨pre, x, post, he, hxv, hpre⟩ := (hclass m v).mp (by rw [hd]; exact hv)
      by_contra hnone
      refine (hno m).1 ⟨pre, x, post, v, he, hxv, hpre, fun y hy hclient hyv => ?_⟩
      exact hnone ⟨y, hy, hclient, hyv⟩
    · intro m x hnamed hdhcp
      obtain ⟨pre, post, he, -, hpre⟩ := (namedBy_iff h m x).mp hnamed
      constructor
      · have hmem : x ∈ sightingsFrom m frames := by
          rw [he]
          exact List.mem_append_right _ List.mem_cons_self
        obtain ⟨f, _, hf⟩ := List.mem_filterMap.mp hmem
        exact (sightingFrom_eq_some.mp hf).2
      · by_contra hforeign
        exact (hno m).2 ⟨pre, x, post, he, hdhcp, hpre, hforeign⟩

end Labels

/-! ### A client and a server -/

/-- A DHCP message of a type, with the hostname `b` and the vendor class `v`. -/
def messageFrame (messageType : UInt8) : Frame :=
  udpFrame (0, 67) (List.replicate 240 0 ++
    [0x63, 0x82, 0x53, 0x63, 53, 1, messageType, 60, 1, 118, 12, 1, 98, 255])

def ShowsMessage (messageType : UInt8) (x : Sighting) : Prop :=
  sightingFrom senderMac (messageFrame messageType) = some x ∧ x.dhcpHostname = some "b" ∧
    x.dhcpVendorClass = some "v" ∧ x.dhcpInfo = some ⟨some "b", some "v", some messageType⟩

theorem showsMessage_of_view (messageType : UInt8)
    (hview : (sightingFrom senderMac (messageFrame messageType)).map
      (fun x => (x.dhcpHostname, x.dhcpVendorClass, x.dhcpInfo)) =
        some (some "b", some "v", some ⟨some "b", some "v", some messageType⟩)) :
    ∃ x, ShowsMessage messageType x := by
  obtain ⟨x, hx, he⟩ := Option.map_eq_some_iff.mp hview
  exact ⟨x, hx, congrArg Prod.fst he, congrArg (·.2.1) he, congrArg (·.2.2) he⟩

theorem run_messageFrame {messageType : UInt8} {x : Sighting} (h : ShowsMessage messageType x) :
    ∃ s outs, (discovery fun _ => none).run .new [messageFrame messageType] = some (s, outs) ∧
      sightingsFrom senderMac [messageFrame messageType] = [x] := by
  obtain ⟨s, evs, hs⟩ : ∃ s evs, (discovery fun _ => none).step .new (messageFrame messageType) =
      some (s, evs) := step_isSome_of_sighting h.1 .new
  refine ⟨s, [evs], (discovery _).run_cons.mpr ⟨s, evs, [], hs, rfl, rfl⟩, ?_⟩
  rw [sightingsFrom, List.filterMap_cons_some h.1, List.filterMap_nil]

theorem clientLabelled_request :
    ∃ s outs, (discovery fun _ => none).run .new [messageFrame 3] = some (s, outs) ∧
      ClientLabelled (fun _ => none) [messageFrame 3] s := by
  obtain ⟨x, hx⟩ := showsMessage_of_view 3 (by decide +kernel)
  obtain ⟨s, outs, h, hsent⟩ := run_messageFrame hx
  have hclient : x.FromClient := ⟨_, hx.2.2.2, .inr rfl⟩
  -- the only sighting is that of the REQUEST
  have honly : ∀ m y, y ∈ sightingsFrom m [messageFrame 3] → y = x := by
    intro m y hy
    obtain ⟨f, hf, hfy⟩ := List.mem_filterMap.mp hy
    rw [List.mem_singleton.mp hf] at hfy
    have hsight := (sightingFrom_eq_some.mp hfy).1
    rw [(sightingFrom_eq_some.mp hx.1).1] at hsight
    cases hsight
    rfl
  refine ⟨s, outs, h, (clientLabelled_iff h).mpr fun m => ⟨?_, ?_⟩⟩
  · rintro ⟨pre, y, post, v, he, hv, -, hforeign⟩
    have hmem : y ∈ sightingsFrom m [messageFrame 3] := he ▸ List.mem_append_right _ List.mem_cons_self
    exact hforeign y hmem (honly m y hmem ▸ hclient) hv
  · rintro ⟨pre, y, post, he, -, -, hforeign⟩
    have hmem : y ∈ sightingsFrom m [messageFrame 3] := he ▸ List.mem_append_right _ List.mem_cons_self
    exact hforeign (honly m y hmem ▸ hclient)

/-- **An OFFER labels the server**: it has sent no DISCOVER or REQUEST, and gets the vendor
class that it repeats. -/
theorem clientLabelled_broken_by_offer :
    ∃ s outs, (discovery fun _ => none).run .new [messageFrame 2] = some (s, outs) ∧
      (s.get senderMac).bind Device.dhcpVendorClass = some "v" ∧
      (s.get senderMac).bind Device.hostname = some "b" ∧
      ¬ClientLabelled (fun _ => none) [messageFrame 2] s := by
  obtain ⟨x, hx⟩ := showsMessage_of_view 2 (by decide +kernel)
  obtain ⟨s, outs, h, hsent⟩ := run_messageFrame hx
  have hclass := firstKept_vendorClass.run h senderMac
  have hname := hostname_run h senderMac
  have hxn : x.name = some "b" := by rw [Sighting.name, hx.2.1, Option.some_or]
  rw [hsent, List.filterMap_cons_some hx.2.2.1, List.head?_cons] at hclass
  rw [hsent, firstName, List.filterMap_cons_some hxn, List.head?_cons] at hname
  refine ⟨s, outs, h, hclass, hname, fun hl => ?_⟩
  obtain ⟨d, hd, hdv⟩ := Option.bind_eq_some_iff.mp hclass
  obtain ⟨y, hy, ⟨info, hinfo, htype⟩, -⟩ := hl.vendorClass senderMac d "v" hd hdv
  rw [hsent] at hy
  rw [List.mem_singleton.mp hy, hx.2.2.2] at hinfo
  cases hinfo
  exact absurd htype (by decide)

end EdgeShield.Discovery
