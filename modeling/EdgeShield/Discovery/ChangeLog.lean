import EdgeShield.Discovery.Engine

/-!
# The event stream is a change log

The events of a run, read for one MAC, follow the record of that MAC: a discovery
first, updates after it, and the last one shows the record as it stands, up to the
counters and the time of the last packet (`reported`).

`ChangeLog` is the invariant and `ChangeLog.endpoint` its step, for either side of a
packet.  The engine compares the sizes of the address sets where it means the sets.
Addresses are only ever added, so both tests come to the same
(`sourceChanged_iff`, `destinationChanged_iff`).
-/

namespace EdgeShield.Discovery

open EdgeShield.Lib EdgeShield.Common EdgeShield.Packet EdgeShield.Protocol EdgeShield.Storage
open EdgeShield.Common (Protocol)

/-- The part of a record that an event keeps current: all but the counters, the
statistics and the time of the last packet. -/
def reported (d : Device) : MacAddress × Finset IpAddr × Finset Protocol × Option String ×
    Option String × Option String × Timestamp :=
  (d.mac, d.ips, d.protocols, d.hostname, d.vendor, d.dhcpVendorClass, d.firstSeen)

/-- What an update is about. -/
def Changed (d d' : Device) : Prop :=
  d'.ips ≠ d.ips ∨ d'.protocols ≠ d.protocols ∨ d'.hostname ≠ d.hostname ∨
    d'.dhcpVendorClass ≠ d.dhcpVendorClass

/-- The events of one MAC against its record. -/
structure ChangeLog (events : List DiscoveryEvent) (record : Option Device) : Prop where
  shape : events = [] ∨ ∃ d later, events = .deviceDiscovered d :: later ∧
    ∀ e ∈ later, ∃ d', e = .deviceUpdated d'
  current : events.getLast?.map (fun e => reported e.device) = record.map reported

/-! ### Change detection -/

theorem card_union_ne_iff {α : Type*} [DecidableEq α] (s t : Finset α) :
    (s ∪ t).card ≠ s.card ↔ s ∪ t ≠ s := by
  refine not_congr ⟨fun h => ?_, fun h => by rw [h]⟩
  exact (Finset.eq_of_subset_of_card_le Finset.subset_union_left h.le).symm

theorem sourceChanged_iff (x : Sighting) (now : Timestamp) (d : Device) :
    sourceChanged d (sourceRecord x now d) = true ↔ Changed d (sourceRecord x now d) := by
  have hips := card_union_ne_iff d.ips (packetIps x.packet)
  rw [sourceRecord_eq]
  simp only [sourceChanged, Changed, Bool.or_eq_true, decide_eq_true_eq]
  rw [hips]
  tauto

theorem destinationChanged_iff (x : Sighting) (now : Timestamp) (d : Device) :
    destinationChanged d (destinationRecord x now d) = true ↔
      Changed d (destinationRecord x now d) := by
  have hips := card_union_ne_iff d.ips (packetIps x.packet)
  rw [destinationRecord_eq]
  simp only [destinationChanged, Changed, Bool.or_eq_true, decide_eq_true_eq]
  rw [hips]
  tauto

theorem reported_of_not_changed {d d' : Device} (hmac : d'.mac = d.mac)
    (hvendor : d'.vendor = d.vendor) (hfirst : d'.firstSeen = d.firstSeen)
    (h : ¬Changed d d') : reported d' = reported d := by
  simp only [Changed, not_or, ne_eq, not_not] at h
  obtain ⟨hips, hprot, hhost, hclass⟩ := h
  simp only [reported, hmac, hips, hprot, hhost, hvendor, hclass, hfirst]

theorem reported_sourceRecord {x : Sighting} {now : Timestamp} {d : Device}
    (h : sourceChanged d (sourceRecord x now d) = false) :
    reported (sourceRecord x now d) = reported d := by
  refine reported_of_not_changed (by rw [sourceRecord_eq]) (by rw [sourceRecord_eq])
    (by rw [sourceRecord_eq]) ?_
  rw [← sourceChanged_iff, h]
  exact Bool.false_ne_true

theorem reported_destinationRecord {x : Sighting} {now : Timestamp} {d : Device}
    (h : destinationChanged d (destinationRecord x now d) = false) :
    reported (destinationRecord x now d) = reported d := by
  refine reported_of_not_changed (by rw [destinationRecord_eq]) (by rw [destinationRecord_eq])
    (by rw [destinationRecord_eq]) ?_
  rw [← destinationChanged_iff, h]
  exact Bool.false_ne_true

/-! ### One step -/

theorem ChangeLog.nil : ChangeLog [] none := ⟨Or.inl rfl, rfl⟩

theorem ChangeLog.ne_nil {events : List DiscoveryEvent} {d : Device}
    (h : ChangeLog events (some d)) : events ≠ [] := by
  rintro rfl
  have := h.current
  simp at this

theorem ChangeLog.eq_nil {events : List DiscoveryEvent} (h : ChangeLog events none) :
    events = [] := by
  have := h.current
  simpa using this

/-- **One endpoint of one packet** keeps the log. -/
theorem ChangeLog.endpoint {events : List DiscoveryEvent} {prev : Option Device} {fresh : Device}
    {record : Device → Device} {changed : Device → Device → Bool} (h : ChangeLog events prev)
    (hkeep : ∀ d, changed d (record d) = false → reported (record d) = reported d) :
    ChangeLog (events ++ endpointEvents prev fresh record changed)
      (some (record (prev.getD fresh))) := by
  cases prev with
  | none =>
    rw [h.eq_nil]
    exact ⟨Or.inr ⟨record fresh, [], rfl, by simp⟩, rfl⟩
  | some d =>
    obtain ⟨d₀, later, rfl, hlater⟩ := h.shape.resolve_left h.ne_nil
    cases hc : changed d (record d) with
    | true =>
      simp only [endpointEvents, hc, if_true, Option.getD_some]
      refine ⟨Or.inr ⟨d₀, later ++ [.deviceUpdated (record d)], rfl, fun e he => ?_⟩, ?_⟩
      · rcases List.mem_append.mp he with he | he
        · exact hlater e he
        · exact ⟨record d, List.mem_singleton.mp he⟩
      · rw [List.getLast?_concat]
        rfl
    | false =>
      simp only [endpointEvents, hc, Bool.false_eq_true, if_false, List.append_nil,
        Option.getD_some]
      exact ⟨h.shape, h.current.trans (by simp [hkeep d hc])⟩

section Run

variable {ouiMap : Nat → Option String}

/-- A frame does nothing to a MAC, or what one of the two blocks does to its endpoint, which
compares the right fields. -/
theorem endpoint_of_step {s s' : MemoryStore} {f : Frame} {evs : List DiscoveryEvent}
    (hs : (discovery ouiMap).step s f = some (s', evs)) (m : MacAddress) :
    (s'.get m = s.get m ∧ eventsFor m evs = []) ∨
    ∃ fresh record changed, s'.get m = some (record ((s.get m).getD fresh)) ∧
      eventsFor m evs = endpointEvents (s.get m) fresh record changed ∧
      (∀ d, changed d (record d) = true ↔ Changed d (record d)) ∧
      ∀ d, changed d (record d) = false → reported (record d) = reported d := by
  cases macStep_of_step ouiMap hs m with
  | absent _ hget hevs => exact .inl ⟨hget, hevs⟩
  | source x _ hm hget hevs =>
    subst hm
    exact .inr ⟨_, _, _, hget, hevs, sourceChanged_iff x _, fun _ => reported_sourceRecord⟩
  | destination x _ _ hm hget hevs =>
    subst hm
    exact .inr ⟨_, _, _, hget, hevs, destinationChanged_iff x _,
      fun _ => reported_destinationRecord⟩

/-- **One frame keeps the log of every MAC.** -/
theorem ChangeLog.step {s s' : MemoryStore} {f : Frame} {evs events : List DiscoveryEvent}
    {m : MacAddress} (h : ChangeLog events (s.get m))
    (hs : (discovery ouiMap).step s f = some (s', evs)) :
    ChangeLog (events ++ eventsFor m evs) (s'.get m) := by
  rcases endpoint_of_step hs m with
    ⟨hget, hevs⟩ | ⟨fresh, record, changed, hget, hevs, -, hkeep⟩
  · rw [hget, hevs, List.append_nil]
    exact h
  · rw [hget, hevs]
    exact h.endpoint hkeep

theorem changeLog_run {frames : List Frame} {s : MemoryStore} {outs : List (List DiscoveryEvent)}
    (h : (discovery ouiMap).run .new frames = some (s, outs)) (m : MacAddress) :
    ChangeLog (eventsFor m outs.flatten) (s.get m) := by
  refine (discovery ouiMap).run_induction
    (P := fun _ outs s => ChangeLog (eventsFor m outs.flatten) (s.get m)) ?_ ?_ h
  · rw [MemoryStore.get_new]
    exact ChangeLog.nil
  · intro _ outs s f s' evs _ hlog hs
    rw [List.flatten_append, eventsFor, List.filter_append]
    simpa [eventsFor] using hlog.step hs

theorem endpointEvents_some_ne_nil {d fresh : Device} {record : Device → Device}
    {changed : Device → Device → Bool} :
    endpointEvents (some d) fresh record changed ≠ [] ↔ changed d (record d) = true := by
  cases h : changed d (record d) with
  | true => simp [endpointEvents, h]
  | false => simp [endpointEvents, h]

/-- **A known MAC is reported exactly when its record changed.** -/
theorem reports_iff_changed {s s' : MemoryStore} {f : Frame} {evs : List DiscoveryEvent}
    (hs : (discovery ouiMap).step s f = some (s', evs)) {m : MacAddress} {d : Device}
    (hd : s.get m = some d) :
    ∃ d', s'.get m = some d' ∧ (eventsFor m evs ≠ [] ↔ Changed d d') := by
  have hsame : ¬Changed d d := by simp [Changed]
  rcases endpoint_of_step hs m with
    ⟨hget, hevs⟩ | ⟨fresh, record, changed, hget, hevs, hdetects, -⟩
  · rw [hget, hevs]
    exact ⟨d, hd, by simp [hsame]⟩
  · rw [hget, hevs, hd]
    refine ⟨record d, rfl, ?_⟩
    rw [endpointEvents_some_ne_nil, hdetects]

/-- **The event stream is a faithful change log.**  After every prefix of a run the
events so far are the log of every record, and each frame reports a known MAC
exactly when it changed its record. -/
theorem events_log_changes {frames : List Frame} {s : MemoryStore}
    {outs : List (List DiscoveryEvent)}
    (h : (discovery ouiMap).run .new frames = some (s, outs)) :
    (∀ pre post, frames = pre ++ post → ∃ s₁ outs₁ outs₂,
      (discovery ouiMap).run .new pre = some (s₁, outs₁) ∧ outs = outs₁ ++ outs₂ ∧
        ∀ m, ChangeLog (eventsFor m outs₁.flatten) (s₁.get m)) ∧
    ∀ pre f post, frames = pre ++ f :: post → ∃ s₁ outs₁ s₂ evs outs₂,
      (discovery ouiMap).run .new pre = some (s₁, outs₁) ∧
        (discovery ouiMap).step s₁ f = some (s₂, evs) ∧ outs = outs₁ ++ evs :: outs₂ ∧
        ∀ m d₁, s₁.get m = some d₁ →
          ∃ d₂, s₂.get m = some d₂ ∧ (eventsFor m evs ≠ [] ↔ Changed d₁ d₂) := by
  constructor
  · rintro pre post rfl
    obtain ⟨s₁, outs₁, outs₂, h₁, _, rfl⟩ := (discovery ouiMap).run_append.mp h
    exact ⟨s₁, outs₁, outs₂, h₁, rfl, changeLog_run h₁⟩
  · rintro pre f post rfl
    obtain ⟨s₁, outs₁, outs₂, h₁, h₂, rfl⟩ := (discovery ouiMap).run_append.mp h
    obtain ⟨s₂, evs, outs₃, hs, _, rfl⟩ := (discovery ouiMap).run_cons.mp h₂
    exact ⟨s₁, outs₁, s₂, evs, outs₃, h₁, hs, rfl, fun m d₁ hd => reports_iff_changed hs hd⟩

end Run

/-- A frame from `00:11:22:33:44:55` to `66:77:88:99:AA:BB`, with the given type. -/
def bareFrame (ethertype : UInt8 × UInt8) : Frame where
  buf := ⟨[0x66, 0x77, 0x88, 0x99, 0xaa, 0xbb, 0x00, 0x11, 0x22, 0x33, 0x44, 0x55,
    ethertype.1, ethertype.2], 14⟩
  clock := ⟨⟨0⟩, ⟨1⟩, ⟨2⟩⟩

theorem events_log_changes_arp_twice :
    ∃ s₁ outs₁ s₂ evs, (discovery fun _ => none).run .new [bareFrame (8, 6)] = some (s₁, outs₁) ∧
      (discovery fun _ => none).step s₁ (bareFrame (8, 6)) = some (s₂, evs) ∧
      (eventsFor (.ofBytes 0x00 0x11 0x22 0x33 0x44 0x55) outs₁.flatten).length = 1 ∧
      ChangeLog (eventsFor (.ofBytes 0x00 0x11 0x22 0x33 0x44 0x55) outs₁.flatten)
        (s₁.get (.ofBytes 0x00 0x11 0x22 0x33 0x44 0x55)) := by
  obtain ⟨⟨s, outs⟩, h⟩ := Option.isSome_iff_exists.mp
    (by decide : ((discovery fun _ => none).run .new
      [bareFrame (8, 6), bareFrame (8, 6)]).isSome = true)
  obtain ⟨hlog, hstep⟩ := events_log_changes h
  obtain ⟨s₁, outs₁, s₂, evs, outs₂, h₁, hs, _, _⟩ := hstep [bareFrame (8, 6)] _ [] rfl
  obtain ⟨s₁', outs₁', _, h₁', _, hl⟩ := hlog [bareFrame (8, 6)] [bareFrame (8, 6)] rfl
  rw [h₁] at h₁'
  cases h₁'
  refine ⟨s₁, outs₁, s₂, evs, h₁, hs, ?_, hl _⟩
  have hlen : (((discovery fun _ => none).run .new [bareFrame (8, 6)]).map fun r =>
      (eventsFor (.ofBytes 0x00 0x11 0x22 0x33 0x44 0x55) r.2.flatten).length) = some 1 := by
    decide +kernel
  rw [h₁] at hlen
  simpa using hlen

end EdgeShield.Discovery
