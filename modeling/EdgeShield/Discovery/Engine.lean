import EdgeShield.Lib.Machine
import EdgeShield.Protocol.Classifier
import EdgeShield.Protocol.Dhcp
import EdgeShield.Protocol.Mdns
import EdgeShield.Storage.Store

/-!
# The discovery engine

`crates/discovery/src/discovery.rs`: each captured frame is decoded, classified and
entered into the device table, once for its source and, unless the frame is
addressed to its own sender, once for its destination.  An endpoint that the table
does not know gets a record and a `deviceDiscovered` event; a known one gets a
`deviceUpdated` event when its protocols, names or addresses changed.

Three clock reads can happen for one frame: one for the packet, and one inside
`Device::new` for each endpoint that is new.  They are inputs (`ClockReads`), and so
is the vendor table, which is generated at build time.

`processPacket` panics where the decoder or a payload parser does.  The machine
`discovery` runs it over frames; a frame whose processing panics is not a step.
`get_updateDevices` and `events_updateDevices` say what a step does to the table and
which events it emits; every result about runs is derived from these two.
-/

namespace EdgeShield.Discovery

open EdgeShield.Lib EdgeShield.Common EdgeShield.Packet EdgeShield.Protocol EdgeShield.Storage
open EdgeShield.Common (Protocol)

inductive DiscoveryEvent where
  | deviceDiscovered (device : Device)
  | deviceUpdated (device : Device)
  | deviceOffline (device : Device)
  deriving DecidableEq

def DiscoveryEvent.device : DiscoveryEvent → Device
  | deviceDiscovered d => d
  | deviceUpdated d => d
  | deviceOffline d => d

/-- The clock reads that one frame can cause, in the order they are made. -/
structure ClockReads where
  packet : Timestamp
  newSource : Timestamp
  newDestination : Timestamp
  deriving DecidableEq, Repr

structure Frame where
  buf : PacketBuf
  clock : ClockReads
  deriving DecidableEq, Repr

/-- What `update_devices` is told about a packet. -/
structure Sighting where
  packet : DecodedPacket
  protocol : Protocol
  dhcpHostname : Option String
  dhcpVendorClass : Option String
  mdnsHostname : Option String
  deriving DecidableEq, Repr

namespace Sighting

def srcMac (x : Sighting) : MacAddress := ⟨x.packet.ethernet.source⟩
def dstMac (x : Sighting) : MacAddress := ⟨x.packet.ethernet.destination⟩
def packetLen (x : Sighting) : Nat := x.packet.raw.raw.length

end Sighting

/-! ### The update of one endpoint -/

section Update

variable (ouiMap : Nat → Option String)

/-- The vendor of a MAC address, by its first three bytes. -/
def lookup (mac : MacAddress) : Option String :=
  ouiMap ((mac.bytes.get 0).toNat * 65536 + (mac.bytes.get 1).toNat * 256 + (mac.bytes.get 2).toNat)

def newDevice (mac : MacAddress) (now : Timestamp) : Device :=
  { Device.new mac now with vendor := lookup ouiMap mac }

def setHostname (hostname : Option String) (d : Device) : Device :=
  match hostname, d.hostname with
  | some h, none => { d with hostname := some h }
  | _, _ => d

def setVendorClass (vendorClass : Option String) (d : Device) : Device :=
  match vendorClass, d.dhcpVendorClass with
  | some vc, none => { d with dhcpVendorClass := some vc }
  | _, _ => d

def sourceRecord (x : Sighting) (now : Timestamp) (d : Device) : Device :=
  let d := d.recordSent x.packetLen x.protocol now
  let d := setHostname x.dhcpHostname d
  let d := setHostname x.mdnsHostname d
  let d := setVendorClass x.dhcpVendorClass d
  match x.packet.ipv4 with
  | some ip => (d.addIp ip.source).addIp ip.destination
  | none => d

def destinationRecord (x : Sighting) (now : Timestamp) (d : Device) : Device :=
  let d := d.recordReceived x.packetLen x.protocol now
  match x.packet.ipv4 with
  | some ip => (d.addIp ip.destination).addIp ip.source
  | none => d

def sourceChanged (prev d : Device) : Bool :=
  d.protocols ≠ prev.protocols || d.hostname ≠ prev.hostname ||
    d.dhcpVendorClass ≠ prev.dhcpVendorClass || d.ips.card ≠ prev.ips.card

def destinationChanged (prev d : Device) : Bool :=
  d.protocols ≠ prev.protocols || d.ips.card ≠ prev.ips.card

def endpointEvents (prev : Option Device) (fresh : Device) (record : Device → Device)
    (changed : Device → Device → Bool) : List DiscoveryEvent :=
  match prev with
  | none => [.deviceDiscovered (record fresh)]
  | some d => if changed d (record d) then [.deviceUpdated (record d)] else []

/-- The block that source and destination share: get the record or start from
`fresh`, change it, put it back, and emit what there is to emit. -/
def updateEndpoint (store : MemoryStore) (mac : MacAddress) (fresh : Device)
    (record : Device → Device) (changed : Device → Device → Bool) :
    MemoryStore × List DiscoveryEvent :=
  (store.upsert (record ((store.get mac).getD fresh)),
    endpointEvents (store.get mac) fresh record changed)

def updateSource (store : MemoryStore) (x : Sighting) (clock : ClockReads) :
    MemoryStore × List DiscoveryEvent :=
  updateEndpoint store x.srcMac (newDevice ouiMap x.srcMac clock.newSource)
    (sourceRecord x clock.packet) sourceChanged

def updateDestination (store : MemoryStore) (x : Sighting) (clock : ClockReads) :
    MemoryStore × List DiscoveryEvent :=
  updateEndpoint store x.dstMac (newDevice ouiMap x.dstMac clock.newDestination)
    (destinationRecord x clock.packet) destinationChanged

/-- The table after the packet, and the events passed to `try_send`, in order. -/
def updateDevices (store : MemoryStore) (x : Sighting) (clock : ClockReads) :
    MemoryStore × List DiscoveryEvent :=
  let (store, sent) := updateSource ouiMap store x clock
  if x.srcMac ≠ x.dstMac then
    let (store, received) := updateDestination ouiMap store x clock
    (store, sent ++ received)
  else (store, sent)

/-! ### The pipeline for one frame -/

def dhcpNames (protocol : Protocol) (payload : List UInt8) :
    Run Empty (Option String × Option String) :=
  if protocol = .dhcp then do
    match ← Run.toOption (parseDhcp payload) with
    | some info => return (info.hostname, info.vendorClass)
    | none => return (none, none)
  else return (none, none)

def mdnsName (protocol : Protocol) (payload : List UInt8) : Run Empty (Option String) :=
  if protocol = .mdns then do
    match ← Run.toOption (parseMdns payload) with
    | some info => return info.hostname
    | none => return none
  else return none

/-- Steps 1 and 2 of `process_packet`: decode, classify and extract names.  A frame
that does not decode is no sighting. -/
def sight (buf : PacketBuf) : Run Empty (Option Sighting) :=
  match decodePacket buf with
  | .error (.err _) => .ok none
  | .error .panic => .panic
  | .ok decoded => do
    let protocol := classify decoded
    let (dhcpHostname, dhcpVendorClass) ← dhcpNames protocol decoded.payload
    let mdnsHostname ← mdnsName protocol decoded.payload
    return some { packet := decoded, protocol, dhcpHostname, dhcpVendorClass, mdnsHostname }

def processPacket (store : MemoryStore) (frame : Frame) :
    Run Empty (MemoryStore × List DiscoveryEvent) := do
  match ← sight frame.buf with
  | none => return (store, [])
  | some x => return updateDevices ouiMap store x frame.clock

/-- The engine as a machine: one frame a step, with the events it emits. -/
def discovery : Machine MemoryStore Frame (List DiscoveryEvent) where
  step store frame :=
    match processPacket ouiMap store frame with
    | .ok r => some r
    | .error _ => none

/-! ### The records, field by field -/

def packetIps (p : DecodedPacket) : Finset IpAddr :=
  match p.ipv4 with
  | some ip => {ip.source, ip.destination}
  | none => ∅

theorem setHostname_eq (h : Option String) (d : Device) :
    setHostname h d = { d with hostname := d.hostname.or h } := by
  obtain ⟨_, _, hostname, _, _, _, _, _, _, _, _, _⟩ := d
  cases h <;> cases hostname <;> rfl

theorem setVendorClass_eq (vc : Option String) (d : Device) :
    setVendorClass vc d = { d with dhcpVendorClass := d.dhcpVendorClass.or vc } := by
  obtain ⟨_, _, _, _, _, _, _, _, _, _, vendorClass, _⟩ := d
  cases vc <;> cases vendorClass <;> rfl

theorem sourceRecord_eq (x : Sighting) (now : Timestamp) (d : Device) :
    sourceRecord x now d =
      { d with
        packetCount := saturatingAdd d.packetCount 1
        bytesSent := saturatingAdd d.bytesSent x.packetLen
        protocols := insert x.protocol d.protocols
        protocolStats := d.protocolStats.bump x.protocol
        lastSeen := now
        hostname := d.hostname.or (x.dhcpHostname.or x.mdnsHostname)
        dhcpVendorClass := d.dhcpVendorClass.or x.dhcpVendorClass
        ips := d.ips ∪ packetIps x.packet } := by
  simp only [sourceRecord, packetIps, setHostname_eq, setVendorClass_eq]
  cases x.packet.ipv4 with
  | none => simp [Device.recordSent, Option.or_assoc]
  | some ip =>
    simp only [Device.recordSent, Device.addIp, Option.or_assoc, Device.mk.injEq, true_and, and_true]
    ext a
    simp only [Finset.mem_insert, Finset.mem_union, Finset.mem_singleton]
    tauto

theorem destinationRecord_eq (x : Sighting) (now : Timestamp) (d : Device) :
    destinationRecord x now d =
      { d with
        packetCount := saturatingAdd d.packetCount 1
        bytesReceived := saturatingAdd d.bytesReceived x.packetLen
        protocols := insert x.protocol d.protocols
        protocolStats := d.protocolStats.bump x.protocol
        lastSeen := now
        ips := d.ips ∪ packetIps x.packet } := by
  simp only [destinationRecord, packetIps]
  cases x.packet.ipv4 with
  | none => simp [Device.recordReceived]
  | some ip =>
    simp only [Device.recordReceived, Device.addIp, Device.mk.injEq, true_and, and_true]
    ext a
    simp only [Finset.mem_insert, Finset.mem_union, Finset.mem_singleton]
    tauto

@[simp] theorem mac_sourceRecord (x : Sighting) (now : Timestamp) (d : Device) :
    (sourceRecord x now d).mac = d.mac := by rw [sourceRecord_eq]

@[simp] theorem mac_destinationRecord (x : Sighting) (now : Timestamp) (d : Device) :
    (destinationRecord x now d).mac = d.mac := by rw [destinationRecord_eq]

@[simp] theorem mac_newDevice (mac : MacAddress) (now : Timestamp) :
    (newDevice ouiMap mac now).mac = mac := rfl

/-! ### What a step does -/

theorem get_updateEndpoint {store : MemoryStore} {mac : MacAddress} {fresh : Device}
    {record : Device → Device} {changed : Device → Device → Bool} (hfresh : fresh.mac = mac)
    (hrecord : ∀ d, (record d).mac = d.mac) (m : MacAddress) :
    (updateEndpoint store mac fresh record changed).1.get m =
      if m = mac then some (record ((store.get mac).getD fresh)) else store.get m := by
  have hmac : (record ((store.get mac).getD fresh)).mac = mac := by
    rw [hrecord]
    cases hg : store.get mac with
    | none => exact hfresh
    | some d => exact MemoryStore.mac_of_get hg
  rw [updateEndpoint, MemoryStore.get_upsert, hmac]

def oldSource (store : MemoryStore) (x : Sighting) (clock : ClockReads) : Device :=
  (store.get x.srcMac).getD (newDevice ouiMap x.srcMac clock.newSource)

def oldDestination (store : MemoryStore) (x : Sighting) (clock : ClockReads) : Device :=
  (store.get x.dstMac).getD (newDevice ouiMap x.dstMac clock.newDestination)

/-- **The table after a packet.**  The source gets its record, the destination its
own unless it is the source, and every other MAC keeps what it had. -/
theorem get_updateDevices (store : MemoryStore) (x : Sighting) (clock : ClockReads)
    (m : MacAddress) :
    (updateDevices ouiMap store x clock).1.get m =
      if m = x.srcMac then some (sourceRecord x clock.packet (oldSource ouiMap store x clock))
      else if m = x.dstMac then
        some (destinationRecord x clock.packet (oldDestination ouiMap store x clock))
      else store.get m := by
  have hsrc : ∀ m, (updateSource ouiMap store x clock).1.get m =
      if m = x.srcMac then some (sourceRecord x clock.packet (oldSource ouiMap store x clock))
      else store.get m :=
    fun m => get_updateEndpoint (mac_newDevice ouiMap _ _) (mac_sourceRecord x _) m
  unfold updateDevices
  by_cases hne : x.srcMac = x.dstMac
  · simp only [ne_eq, hne, not_true_eq_false, if_false]
    rw [hsrc, hne]
    split
    · rfl
    · rfl
  · simp only [ne_eq, hne, not_false_eq_true, if_true]
    have hdst : ∀ s : MemoryStore, (updateDestination ouiMap s x clock).1.get m =
        if m = x.dstMac then
          some (destinationRecord x clock.packet (oldDestination ouiMap s x clock))
        else s.get m :=
      fun s => get_updateEndpoint (mac_newDevice ouiMap _ _) (mac_destinationRecord x _) m
    rw [hdst, oldDestination, hsrc x.dstMac, if_neg (Ne.symm hne), hsrc m]
    by_cases hm : m = x.srcMac
    · rw [if_pos hm, if_pos hm, if_neg (hm ▸ hne)]
    · rw [if_neg hm, if_neg hm]
      rfl

def eventsFor (m : MacAddress) (events : List DiscoveryEvent) : List DiscoveryEvent :=
  events.filter fun e => e.device.mac = m

theorem mac_of_mem_endpointEvents {prev : Option Device} {fresh : Device}
    {record : Device → Device} {changed : Device → Device → Bool} {mac : MacAddress}
    (hfresh : fresh.mac = mac) (hprev : ∀ d, prev = some d → d.mac = mac)
    (hrecord : ∀ d, (record d).mac = d.mac) {e : DiscoveryEvent}
    (he : e ∈ endpointEvents prev fresh record changed) : e.device.mac = mac := by
  unfold endpointEvents at he
  split at he
  · rw [List.mem_singleton.mp he]
    exact (hrecord fresh).trans hfresh
  · next d =>
    split at he
    · rw [List.mem_singleton.mp he]
      exact (hrecord d).trans (hprev d rfl)
    · exact absurd he List.not_mem_nil

def sourceEvents (store : MemoryStore) (x : Sighting) (clock : ClockReads) :
    List DiscoveryEvent :=
  endpointEvents (store.get x.srcMac) (newDevice ouiMap x.srcMac clock.newSource)
    (sourceRecord x clock.packet) sourceChanged

def destinationEvents (store : MemoryStore) (x : Sighting) (clock : ClockReads) :
    List DiscoveryEvent :=
  endpointEvents (store.get x.dstMac) (newDevice ouiMap x.dstMac clock.newDestination)
    (destinationRecord x clock.packet) destinationChanged

/-- **The events of a packet**, those of its source first. -/
theorem events_updateDevices (store : MemoryStore) (x : Sighting) (clock : ClockReads) :
    (updateDevices ouiMap store x clock).2 =
      sourceEvents ouiMap store x clock ++
        if x.srcMac = x.dstMac then [] else destinationEvents ouiMap store x clock := by
  unfold updateDevices
  by_cases hne : x.srcMac = x.dstMac
  · simp only [ne_eq, hne, not_true_eq_false, if_false, if_true, List.append_nil]
    rfl
  · have hget : (updateSource ouiMap store x clock).1.get x.dstMac = store.get x.dstMac := by
      rw [updateSource, get_updateEndpoint (mac_newDevice ouiMap _ _) (mac_sourceRecord x _),
        if_neg (Ne.symm hne)]
    simp only [ne_eq, hne, not_false_eq_true, if_true, if_false, updateDestination, updateEndpoint,
      hget]
    rfl

theorem eventsFor_updateDevices (store : MemoryStore) (x : Sighting) (clock : ClockReads)
    (m : MacAddress) :
    eventsFor m (updateDevices ouiMap store x clock).2 =
      if m = x.srcMac then sourceEvents ouiMap store x clock
      else if m = x.dstMac then destinationEvents ouiMap store x clock
      else [] := by
  have hall : ∀ {mac : MacAddress} {es : List DiscoveryEvent},
      (∀ e ∈ es, e.device.mac = mac) → eventsFor m es = if m = mac then es else [] := by
    intro mac es h
    split
    · next hm => exact List.filter_eq_self.mpr fun e he => by simp [h e he, hm]
    · next hm =>
      refine List.filter_eq_nil_iff.mpr fun e he => ?_
      simp only [h e he, decide_eq_true_eq]
      exact fun hc => hm hc.symm
  have hsrc : eventsFor m (sourceEvents ouiMap store x clock) =
      if m = x.srcMac then sourceEvents ouiMap store x clock else [] :=
    hall fun e he => mac_of_mem_endpointEvents (mac_newDevice ouiMap _ _)
      (fun d hd => MemoryStore.mac_of_get hd) (mac_sourceRecord x _) he
  have hdst : eventsFor m (destinationEvents ouiMap store x clock) =
      if m = x.dstMac then destinationEvents ouiMap store x clock else [] :=
    hall fun e he => mac_of_mem_endpointEvents (mac_newDevice ouiMap _ _)
      (fun d hd => MemoryStore.mac_of_get hd) (mac_destinationRecord x _) he
  rw [events_updateDevices, eventsFor, List.filter_append]
  change eventsFor m _ ++ eventsFor m _ = _
  rw [hsrc]
  by_cases hne : x.srcMac = x.dstMac
  · rw [if_pos hne, hne]
    by_cases hm : m = x.dstMac
    · simp [hm, eventsFor]
    · simp [hm, eventsFor]
  · rw [if_neg hne, hdst]
    by_cases hm : m = x.srcMac
    · rw [if_pos hm, if_pos hm, if_neg (hm ▸ hne), List.append_nil]
    · rw [if_neg hm, if_neg hm, List.nil_append]

/-! ### The machine -/

theorem sight_eq_some {buf : PacketBuf} {x : Sighting} (h : sight buf = .ok (some x)) :
    decodePacket buf = .ok x.packet ∧ x.protocol = classify x.packet := by
  unfold sight at h
  split at h
  · cases h
  · cases h
  · next decoded hd =>
    obtain ⟨names, _, h⟩ := Run.bind_eq_ok.mp h
    obtain ⟨name, _, h⟩ := Run.bind_eq_ok.mp h
    cases h
    exact ⟨hd, rfl⟩

theorem sight_eq_none {buf : PacketBuf} (h : sight buf = .ok none) :
    ∃ e, decodePacket buf = .err e := by
  unfold sight at h
  split at h
  · next e hd => exact ⟨e, hd⟩
  · cases h
  · obtain ⟨names, _, h⟩ := Run.bind_eq_ok.mp h
    obtain ⟨name, _, h⟩ := Run.bind_eq_ok.mp h
    cases h

/-- **The two kinds of step**: a frame that does not decode changes nothing, and any
other is entered into the table. -/
theorem discovery_step {store store' : MemoryStore} {frame : Frame} {evs : List DiscoveryEvent} :
    (discovery ouiMap).step store frame = some (store', evs) ↔
      (sight frame.buf = .ok none ∧ store' = store ∧ evs = []) ∨
      ∃ x, sight frame.buf = .ok (some x) ∧
        updateDevices ouiMap store x frame.clock = (store', evs) := by
  simp only [discovery, processPacket]
  cases hs : sight frame.buf with
  | error e => simp
  | ok r =>
    cases r with
    | none => simp [pure, Except.pure, eq_comm]
    | some x => simp [pure, Except.pure]

/-- What a step does to one MAC: the frame does not concern it, or comes from it, or only
goes to it. -/
inductive MacStep (store store' : MemoryStore) (frame : Frame) (evs : List DiscoveryEvent)
    (m : MacAddress) : Prop where
  | absent (unseen : ∀ x, sight frame.buf = .ok (some x) → m ≠ x.srcMac)
      (record : store'.get m = store.get m) (events : eventsFor m evs = [])
  | source (x : Sighting) (seen : sight frame.buf = .ok (some x)) (mac : m = x.srcMac)
      (record : store'.get m =
        some (sourceRecord x frame.clock.packet (oldSource ouiMap store x frame.clock)))
      (events : eventsFor m evs = sourceEvents ouiMap store x frame.clock)
  | destination (x : Sighting) (seen : sight frame.buf = .ok (some x)) (other : m ≠ x.srcMac)
      (mac : m = x.dstMac)
      (record : store'.get m =
        some (destinationRecord x frame.clock.packet (oldDestination ouiMap store x frame.clock)))
      (events : eventsFor m evs = destinationEvents ouiMap store x frame.clock)

/-- **A step, for one MAC.** -/
theorem macStep_of_step {store store' : MemoryStore} {frame : Frame} {evs : List DiscoveryEvent}
    (h : (discovery ouiMap).step store frame = some (store', evs)) (m : MacAddress) :
    MacStep ouiMap store store' frame evs m := by
  rcases (discovery_step ouiMap).mp h with ⟨hnone, rfl, rfl⟩ | ⟨x, hx, hu⟩
  · refine .absent (fun x hx => ?_) rfl rfl
    rw [hnone] at hx
    cases hx
  · have hget := get_updateDevices ouiMap store x frame.clock m
    have hevs := eventsFor_updateDevices ouiMap store x frame.clock m
    rw [hu] at hget hevs
    by_cases hsrc : m = x.srcMac
    · rw [if_pos hsrc] at hget hevs
      exact .source x hx hsrc hget hevs
    · rw [if_neg hsrc] at hget hevs
      by_cases hdst : m = x.dstMac
      · rw [if_pos hdst] at hget hevs
        exact .destination x hx hsrc hdst hget hevs
      · rw [if_neg hdst] at hget hevs
        refine .absent (fun y hy => ?_) hget hevs
        rw [hx] at hy
        cases hy
        exact hsrc

end Update

end EdgeShield.Discovery
