import EdgeShield.Discovery.ChangeLog
import EdgeShield.Protocol.MdnsMessage

/-!
# Where a hostname comes from

A DHCP hostname and an mDNS hostname go into the same field, each only where there is
none yet.  So a device keeps the first name that one of its frames carries
(`hostname_run`), and the comment in `process_packet` that DHCP is authoritative and mDNS
a fallback holds only as long as no mDNS frame comes first (`MdnsFirst`).
-/

namespace EdgeShield.Discovery

open EdgeShield.Lib EdgeShield.Common EdgeShield.Packet EdgeShield.Protocol EdgeShield.Storage

def Sighting.name (x : Sighting) : Option String := x.dhcpHostname.or x.mdnsHostname

def sightingFrom (m : MacAddress) (frame : Frame) : Option Sighting :=
  match sight frame.buf with
  | .ok (some x) => if x.srcMac = m then some x else none
  | _ => none

theorem sightingFrom_eq_some {m : MacAddress} {f : Frame} {x : Sighting} :
    sightingFrom m f = some x ↔ sight f.buf = .ok (some x) ∧ x.srcMac = m := by
  rw [sightingFrom]
  split
  · next y hy =>
    rw [hy, Except.ok.injEq, Option.some.injEq, Option.ite_none_right_eq_some, Option.some.injEq]
    exact ⟨fun h => ⟨h.2, h.2 ▸ h.1⟩, fun h => ⟨h.1 ▸ h.2, h.1⟩⟩
  · next hno => exact ⟨fun h => (by cases h), fun h => absurd h.1 (hno x)⟩

def sightingsFrom (m : MacAddress) (frames : List Frame) : List Sighting :=
  frames.filterMap (sightingFrom m)

def dhcpHostnames (m : MacAddress) (frames : List Frame) : List String :=
  (sightingsFrom m frames).filterMap Sighting.dhcpHostname

/-- A device that sent a DHCP hostname has one of these. -/
def DhcpAuthoritative (frames : List Frame) (s : MemoryStore) : Prop :=
  ∀ m, dhcpHostnames m frames ≠ [] →
    ∃ d h, s.get m = some d ∧ d.hostname = some h ∧ h ∈ dhcpHostnames m frames

/-- The first name that `m` sent came by mDNS, and no DHCP frame of `m` carries it. -/
def MdnsFirst (m : MacAddress) (frames : List Frame) : Prop :=
  ∃ pre x post n, sightingsFrom m frames = pre ++ x :: post ∧ (∀ y ∈ pre, y.name = none) ∧
    x.dhcpHostname = none ∧ x.mdnsHostname = some n ∧ n ∉ dhcpHostnames m frames

def firstName (xs : List Sighting) : Option String := (xs.filterMap Sighting.name).head?

section Run

variable {ouiMap : Nat → Option String}

/-- A field of the record that takes over the first value among the frames of its device:
a frame that the device sent adds its value where there is none, and no other frame changes
the field. -/
structure FirstKept (ouiMap : Nat → Option String) (field : Device → Option String)
    (carried : Sighting → Option String) : Prop where
  source : ∀ x now d, field (sourceRecord x now d) = (field d).or (carried x)
  destination : ∀ x now d, field (destinationRecord x now d) = field d
  fresh : ∀ m now, field (newDevice ouiMap m now) = none

theorem firstKept_hostname : FirstKept ouiMap Device.hostname Sighting.name where
  source x now d := by
    rw [sourceRecord_eq]
    rfl
  destination x now d := by rw [destinationRecord_eq]
  fresh m now := rfl

namespace FirstKept

variable {field : Device → Option String} {carried : Sighting → Option String}

theorem step (hk : FirstKept ouiMap field carried) {s s' : MemoryStore} {f : Frame}
    {evs : List DiscoveryEvent} (hs : (discovery ouiMap).step s f = some (s', evs))
    (m : MacAddress) :
    (s'.get m).bind field = ((s.get m).bind field).or ((sightingFrom m f).bind carried) := by
  cases macStep_of_step ouiMap hs m with
  | absent hunseen hget _ =>
    have hnone : sightingFrom m f = none := by
      rw [Option.eq_none_iff_forall_ne_some]
      intro x hx
      obtain ⟨hsight, hm⟩ := sightingFrom_eq_some.mp hx
      exact hunseen x hsight hm.symm
    rw [hget, hnone, Option.bind_none, Option.or_none]
  | source x hx hsrc hget _ =>
    subst hsrc
    rw [hget, sightingFrom_eq_some.mpr ⟨hx, rfl⟩, Option.bind_some, Option.bind_some, hk.source,
      oldSource]
    cases s.get x.srcMac with
    | none => rw [Option.getD_none, hk.fresh, Option.bind_none]
    | some d => rfl
  | destination x hx hsrc hdst hget _ =>
    subst hdst
    have hnone : sightingFrom x.dstMac f = none := by
      simp only [sightingFrom, hx]
      rw [if_neg (Ne.symm hsrc)]
    rw [hget, hnone, Option.bind_none, Option.or_none, Option.bind_some, hk.destination,
      oldDestination]
    cases s.get x.dstMac with
    | none => rw [Option.getD_none, hk.fresh, Option.bind_none]
    | some d => rfl

/-- **The field after a run** is the first value that the device sent. -/
theorem run (hk : FirstKept ouiMap field carried) {frames : List Frame} {s : MemoryStore}
    {outs : List (List DiscoveryEvent)} (h : (discovery ouiMap).run .new frames = some (s, outs))
    (m : MacAddress) :
    (s.get m).bind field = ((sightingsFrom m frames).filterMap carried).head? := by
  refine (discovery ouiMap).run_induction (P := fun frames _ s =>
    (s.get m).bind field = ((sightingsFrom m frames).filterMap carried).head?) ?_ ?_ h
  · rw [MemoryStore.get_new]
    rfl
  · intro frames outs s f s' evs _ ih hs
    have hsnoc : sightingsFrom m (frames ++ [f]) =
        sightingsFrom m frames ++ [f].filterMap (sightingFrom m) := List.filterMap_append
    rw [hk.step hs m, ih, hsnoc, List.filterMap_append, List.head?_append]
    cases hx : sightingFrom m f with
    | none => rw [List.filterMap_cons_none hx]; rfl
    | some x =>
      rw [List.filterMap_cons_some hx]
      cases hc : carried x with
      | none => simp [hc]
      | some v => simp [hc]

end FirstKept

/-- **The hostname after a run** is the first name that the device sent. -/
theorem hostname_run {frames : List Frame} {s : MemoryStore} {outs : List (List DiscoveryEvent)}
    (h : (discovery ouiMap).run .new frames = some (s, outs)) (m : MacAddress) :
    (s.get m).bind Device.hostname = firstName (sightingsFrom m frames) :=
  firstKept_hostname.run h m

/-! ### Which name is the first -/

theorem firstName_eq_some_iff {xs : List Sighting} {n : String} :
    firstName xs = some n ↔
      ∃ pre x post, xs = pre ++ x :: post ∧ x.name = some n ∧ ∀ y ∈ pre, y.name = none := by
  rw [firstName, List.head?_filterMap, List.findSome?_eq_some_iff]

theorem firstName_ne_none {m : MacAddress} {frames : List Frame}
    (h : dhcpHostnames m frames ≠ []) : ∃ n, firstName (sightingsFrom m frames) = some n := by
  obtain ⟨n, hn⟩ := List.exists_mem_of_ne_nil _ h
  obtain ⟨x, hx, hxn⟩ := List.mem_filterMap.mp hn
  have hname : n ∈ (sightingsFrom m frames).filterMap Sighting.name :=
    List.mem_filterMap.mpr ⟨x, hx, by rw [Sighting.name, hxn]; rfl⟩
  rw [firstName]
  exact Option.ne_none_iff_exists'.mp fun hnone => by
    rw [List.head?_eq_none_iff.mp hnone] at hname
    exact List.not_mem_nil hname

/-- The first name is a DHCP one unless an mDNS frame came first with another. -/
theorem firstName_mem_iff {m : MacAddress} {frames : List Frame} {n : String}
    (h : firstName (sightingsFrom m frames) = some n) :
    n ∈ dhcpHostnames m frames ↔ ¬MdnsFirst m frames := by
  constructor
  · rintro hmem ⟨pre, x, post, n', he, hpre, hdhcp, hmdns, hnot⟩
    have hname : x.name = some n' := by rw [Sighting.name, hdhcp, Option.none_or, hmdns]
    rw [firstName_eq_some_iff.mpr ⟨pre, x, post, he, hname, hpre⟩] at h
    cases h
    exact hnot hmem
  · intro hno
    obtain ⟨pre, x, post, he, hname, hpre⟩ := firstName_eq_some_iff.mp h
    cases hdhcp : x.dhcpHostname with
    | some n' =>
      rw [Sighting.name, hdhcp, Option.some_or] at hname
      cases hname
      refine List.mem_filterMap.mpr ⟨x, ?_, hdhcp⟩
      rw [he]
      exact List.mem_append_right _ List.mem_cons_self
    | none =>
      rw [Sighting.name, hdhcp, Option.none_or] at hname
      by_contra hnot
      exact hno ⟨pre, x, post, n, he, hpre, hdhcp, hname, hnot⟩

/-- **When DHCP hostnames are authoritative.**  After a run, every device that sent a DHCP
hostname has one of these exactly when, for no such device, an mDNS frame with another
name came before every frame with a name. -/
theorem dhcpAuthoritative_iff {frames : List Frame} {s : MemoryStore}
    {outs : List (List DiscoveryEvent)} (h : (discovery ouiMap).run .new frames = some (s, outs)) :
    DhcpAuthoritative frames s ↔
      ∀ m, dhcpHostnames m frames ≠ [] → ¬MdnsFirst m frames := by
  refine forall_congr' fun m => imp_congr_right fun hne => ?_
  obtain ⟨n, hn⟩ := firstName_ne_none hne
  have hname := hostname_run h m
  rw [hn] at hname
  obtain ⟨d, hd, hhost⟩ := Option.bind_eq_some_iff.mp hname
  rw [← firstName_mem_iff hn]
  constructor
  · rintro ⟨d', h', hd', hhost', hmem⟩
    rw [hd] at hd'
    cases hd'
    rw [hhost] at hhost'
    cases hhost'
    exact hmem
  · intro hmem
    exact ⟨d, n, hd, hhost, hmem⟩

end Run

/-! ### Both orders -/

/-- A UDP frame from `00:11:22:33:44:55`, with one port on both sides. -/
def udpFrame (port : UInt8 × UInt8) (payload : List UInt8) : Frame where
  buf := ⟨[0x66, 0x77, 0x88, 0x99, 0xaa, 0xbb, 0x00, 0x11, 0x22, 0x33, 0x44, 0x55, 0x08, 0x00,
    0x45, 0, 0, 0, 0, 0, 0, 0, 64, 17, 0, 0, 10, 0, 0, 1, 224, 0, 0, 251,
    port.1, port.2, port.1, port.2, 0, 0, 0, 0] ++ payload, 14⟩
  clock := ⟨⟨0⟩, ⟨0⟩, ⟨0⟩⟩

def dhcpFrame : Frame :=
  udpFrame (0, 68) (List.replicate 240 0 ++ [0x63, 0x82, 0x53, 0x63, 12, 1, 98, 255])

def mdnsFrame : Frame := udpFrame (0x14, 0xe9) compressedSrv.encode

def senderMac : MacAddress := .ofBytes 0x00 0x11 0x22 0x33 0x44 0x55

theorem sightingFrom_dhcpFrame :
    ∃ x, sightingFrom senderMac dhcpFrame = some x ∧ x.dhcpHostname = some "b" ∧
      x.mdnsHostname = none := by
  have hview : (sightingFrom senderMac dhcpFrame).map (fun x => (x.dhcpHostname, x.mdnsHostname)) =
      some (some "b", none) := by decide +kernel
  obtain ⟨x, hx, he⟩ := Option.map_eq_some_iff.mp hview
  exact ⟨x, hx, congrArg Prod.fst he, congrArg Prod.snd he⟩

theorem sightingFrom_mdnsFrame :
    ∃ x, sightingFrom senderMac mdnsFrame = some x ∧ x.dhcpHostname = none ∧
      x.mdnsHostname = some "a.a" := by
  have hresolve : compressedSrv.resolve = some [.srv ["a"] ["a", "a"]] := by decide +kernel
  have hparse : parseMdns compressedSrv.encode = .ok ⟨some "a.a", none, none⟩ :=
    parseMdns_eq_fold hresolve
  have hview : (decodePacket mdnsFrame.buf).map
      (fun p => (classify p, (⟨p.ethernet.source⟩ : MacAddress), p.payload)) =
        .ok (.mdns, senderMac, compressedSrv.encode) := by decide +kernel
  cases hp : decodePacket mdnsFrame.buf with
  | error e =>
    rw [hp] at hview
    cases hview
  | ok p =>
    rw [hp] at hview
    have he := Except.ok.inj hview
    have hclass : classify p = .mdns := congrArg Prod.fst he
    have hmac : (⟨p.ethernet.source⟩ : MacAddress) = senderMac := congrArg (·.2.1) he
    have hpayload : p.payload = compressedSrv.encode := congrArg (·.2.2) he
    have hsight : sight mdnsFrame.buf = .ok (some ⟨p, .mdns, none, none, some "a.a"⟩) := by
      rw [sight, hp]
      simp only [hclass, hpayload, mdnsName, hparse]
      rfl
    refine ⟨⟨p, .mdns, none, none, some "a.a"⟩, ?_, rfl, rfl⟩
    rw [sightingFrom, hsight]
    exact if_pos hmac

theorem step_isSome_of_sighting {ouiMap : Nat → Option String} {m : MacAddress} {f : Frame}
    {x : Sighting} (h : sightingFrom m f = some x) (s : MemoryStore) :
    ∃ s' evs, (discovery ouiMap).step s f = some (s', evs) :=
  ⟨_, _, (discovery_step ouiMap).mpr (.inr ⟨x, (sightingFrom_eq_some.mp h).1, rfl⟩)⟩

theorem run_two_isSome {ouiMap : Nat → Option String} {m : MacAddress} {f g : Frame}
    {x y : Sighting} (hf : sightingFrom m f = some x) (hg : sightingFrom m g = some y) :
    ∃ s outs, (discovery ouiMap).run .new [f, g] = some (s, outs) := by
  obtain ⟨s₁, evs₁, h₁⟩ := step_isSome_of_sighting hf .new
  obtain ⟨s₂, evs₂, h₂⟩ := step_isSome_of_sighting hg s₁
  exact ⟨s₂, [evs₁, evs₂], (discovery ouiMap).run_cons.mpr ⟨s₁, evs₁, _, h₁,
    (discovery ouiMap).run_cons.mpr ⟨s₂, evs₂, [], h₂, rfl, rfl⟩, rfl⟩⟩

theorem dhcpAuthoritative_dhcp_then_mdns :
    ∃ s outs, (discovery fun _ => none).run .new [dhcpFrame, mdnsFrame] = some (s, outs) ∧
      DhcpAuthoritative [dhcpFrame, mdnsFrame] s := by
  obtain ⟨x, hx, hxd, hxm⟩ := sightingFrom_dhcpFrame
  obtain ⟨y, hy, hyd, hym⟩ := sightingFrom_mdnsFrame
  obtain ⟨s, outs, h⟩ := run_two_isSome hx hy
  have hsent : sightingsFrom senderMac [dhcpFrame, mdnsFrame] = [x, y] := by
    rw [sightingsFrom, List.filterMap_cons_some hx, List.filterMap_cons_some hy, List.filterMap_nil]
  refine ⟨s, outs, h, (dhcpAuthoritative_iff h).mpr fun m _ => ?_⟩
  rintro ⟨pre, z, post, n, he, hpre, hdhcp, hmdns, _⟩
  have hz : z ∈ sightingsFrom m [dhcpFrame, mdnsFrame] := by
    rw [he]
    exact List.mem_append_right _ List.mem_cons_self
  obtain ⟨f, hf, hfz⟩ := List.mem_filterMap.mp hz
  obtain ⟨hsight, hmac⟩ := sightingFrom_eq_some.mp hfz
  -- both frames have the same sender
  have hm : m = senderMac := by
    rcases List.mem_cons.mp hf with rfl | hf
    · obtain ⟨hsight', hmac'⟩ := sightingFrom_eq_some.mp hx
      rw [hsight] at hsight'
      cases hsight'
      rw [← hmac, hmac']
    · rw [List.mem_singleton.mp hf] at hsight
      obtain ⟨hsight', hmac'⟩ := sightingFrom_eq_some.mp hy
      rw [hsight] at hsight'
      cases hsight'
      rw [← hmac, hmac']
  rw [hm, hsent] at he
  cases pre with
  | nil =>
    cases he
    rw [hxd] at hdhcp
    cases hdhcp
  | cons w pre =>
    have hw : x = w := (List.cons.inj he).1
    have hnone := hpre x (hw ▸ List.mem_cons_self)
    rw [Sighting.name, hxd] at hnone
    cases hnone

/-- **mDNS before DHCP**: the device keeps the mDNS name, although it sent a DHCP
hostname. -/
theorem dhcpAuthoritative_broken_by_mdns :
    ∃ s outs, (discovery fun _ => none).run .new [mdnsFrame, dhcpFrame] = some (s, outs) ∧
      ¬DhcpAuthoritative [mdnsFrame, dhcpFrame] s := by
  obtain ⟨x, hx, hxd, hxm⟩ := sightingFrom_mdnsFrame
  obtain ⟨y, hy, hyd, hym⟩ := sightingFrom_dhcpFrame
  obtain ⟨s, outs, h⟩ := run_two_isSome hx hy
  have hsent : sightingsFrom senderMac [mdnsFrame, dhcpFrame] = [x, y] := by
    rw [sightingsFrom, List.filterMap_cons_some hx, List.filterMap_cons_some hy, List.filterMap_nil]
  have hdhcp : dhcpHostnames senderMac [mdnsFrame, dhcpFrame] = ["b"] := by
    rw [dhcpHostnames, hsent, List.filterMap_cons_none hxd, List.filterMap_cons_some hyd,
      List.filterMap_nil]
  have hname := hostname_run h senderMac
  have hxn : x.name = some "a.a" := by rw [Sighting.name, hxd, hxm]; rfl
  rw [hsent, firstName, List.filterMap_cons_some hxn, List.head?_cons] at hname
  refine ⟨s, outs, h, fun hauth => ?_⟩
  obtain ⟨d, n, hd, hn, hmem⟩ := hauth senderMac (by rw [hdhcp]; decide)
  rw [hd, Option.bind_some, hn] at hname
  cases hname
  rw [hdhcp] at hmem
  exact absurd hmem (by decide)

end EdgeShield.Discovery
