import EdgeShield.Daemon.Pipeline

/-!
# The event channel between discovery and the rule engine

`process_packet` stores a record first and then offers its event to a bounded channel
with `try_send`; when the channel is full, the event is dropped and nobody notices.
The rule engine takes events from the other end, at any time between these steps.
`eventChannel` is the machine of the single steps, and `run_packetSteps` says that the
steps of one packet without interruption are `updateDevices` and `trySendAll`.

A MAC is new only once: its record is in the table when the next packet comes, whether
or not the discovery went out.  So a dropped discovery is never made up for
(`Missed.step`), and in a quiet moment the rule engine has seen every device of the
table exactly when there was room for each discovery.
-/

namespace EdgeShield.Daemon

open EdgeShield.Lib EdgeShield.Common EdgeShield.Packet EdgeShield.Storage EdgeShield.Discovery

/-- Where `process_packet` is: between two packets, about to send what the source block
emits, about to update the destination, or about to send what that emits. -/
inductive Progress where
  | idle
  | sendSource (x : Sighting) (clock : ClockReads) (events : List DiscoveryEvent)
  | storeDestination (x : Sighting) (clock : ClockReads)
  | sendDestination (events : List DiscoveryEvent)

def Progress.pending : Progress → List DiscoveryEvent
  | idle => []
  | sendSource _ _ events => events
  | storeDestination _ _ => []
  | sendDestination events => events

structure ChannelState where
  table : MemoryStore
  channel : List DiscoveryEvent
  progress : Progress

def ChannelState.start : ChannelState where
  table := .new
  channel := []
  progress := .idle

inductive ChannelAction where
  | packet (frame : Frame)
  | send
  | destination
  | receive
  deriving DecidableEq

section Machine

variable (ouiMap : Nat → Option String) (capacity : Nat)

def channelStep (s : ChannelState) :
    ChannelAction → Option (ChannelState × Option DiscoveryEvent)
  | .packet frame =>
    match s.progress with
    | .idle =>
      match sight frame.buf with
      | .ok none => some (s, none)
      | .ok (some x) =>
        let (table, events) := updateSource ouiMap s.table x frame.clock
        some ({ s with table := table, progress := .sendSource x frame.clock events }, none)
      | .error _ => none
    | _ => none
  | .send =>
    match s.progress with
    | .sendSource x clock events =>
      let channel := trySendAll capacity s.channel events
      if x.srcMac ≠ x.dstMac then
        some ({ s with channel := channel, progress := .storeDestination x clock }, none)
      else some ({ s with channel := channel, progress := .idle }, none)
    | .sendDestination events =>
      some ({ s with
        channel := trySendAll capacity s.channel events
        progress := .idle }, none)
    | _ => none
  | .destination =>
    match s.progress with
    | .storeDestination x clock =>
      let (table, events) := updateDestination ouiMap s.table x clock
      some ({ s with table := table, progress := .sendDestination events }, none)
    | _ => none
  | .receive =>
    match s.channel with
    | [] => none
    | e :: rest => some ({ s with channel := rest }, some e)

/-- `process_packet` and the rule engine at the two ends of the channel; the output is
the event that the rule engine receives. -/
def eventChannel : Machine ChannelState ChannelAction (Option DiscoveryEvent) where
  step := channelStep ouiMap capacity

inductive ChannelStep (s : ChannelState) :
    ChannelAction → ChannelState → Option DiscoveryEvent → Prop where
  | ignore (frame : Frame) : ChannelStep s (.packet frame) s none
  | store (a : ChannelAction) (mac : MacAddress) (fresh : Device) (record : Device → Device)
      (changed : Device → Device → Bool) (progress : Progress) (notSend : a ≠ .send)
      (hfresh : fresh.mac = mac) (hrecord : ∀ d, (record d).mac = d.mac)
      (before : s.progress.pending = [])
      (after : progress.pending = endpointEvents (s.table.get mac) fresh record changed) :
      ChannelStep s a
        { s with
          table := (updateEndpoint s.table mac fresh record changed).1
          progress := progress } none
  | send (progress : Progress) (after : progress.pending = []) :
      ChannelStep s .send
        { s with
          channel := trySendAll capacity s.channel s.progress.pending
          progress := progress } none
  | receive (e : DiscoveryEvent) (rest : List DiscoveryEvent) (channel : s.channel = e :: rest) :
      ChannelStep s .receive { s with channel := rest } (some e)

theorem channelStep_of_step {s s' : ChannelState} {a : ChannelAction} {o : Option DiscoveryEvent}
    (h : (eventChannel ouiMap capacity).step s a = some (s', o)) :
    ChannelStep capacity s a s' o := by
  cases a with
  | packet frame =>
    simp only [eventChannel, channelStep] at h
    split at h
    · next hidle =>
      split at h
      · cases h
        exact .ignore frame
      · next x hx =>
        cases h
        exact .store _ x.srcMac _ (sourceRecord x frame.clock.packet) sourceChanged _
          (by simp) (mac_newDevice ouiMap _ _) (mac_sourceRecord x _) (by rw [hidle]; rfl) rfl
      · cases h
    · cases h
  | send =>
    simp only [eventChannel, channelStep] at h
    split at h
    · next x clock events hp =>
      have hsend : ∀ progress : Progress, progress.pending = [] →
          ChannelStep capacity s .send
            { s with channel := trySendAll capacity s.channel events, progress := progress }
            none := by
        intro progress hafter
        have hstep : ChannelStep capacity s .send _ none := .send progress hafter
        rw [hp] at hstep
        exact hstep
      split at h
      · cases h
        exact hsend _ rfl
      · cases h
        exact hsend _ rfl
    · next events hp =>
      cases h
      have hstep : ChannelStep capacity s .send _ none := .send .idle rfl
      rw [hp] at hstep
      exact hstep
    · cases h
  | destination =>
    simp only [eventChannel, channelStep] at h
    split at h
    · next x clock hp =>
      cases h
      exact .store _ x.dstMac _ (destinationRecord x clock.packet) destinationChanged _
        (by simp) (mac_newDevice ouiMap _ _) (mac_destinationRecord x _) (by rw [hp]; rfl) rfl
    · cases h
  | receive =>
    simp only [eventChannel, channelStep] at h
    split at h
    · cases h
    · next e rest hc =>
      cases h
      exact .receive e rest hc

/-! ### One packet without interruption -/

theorem trySendAll_append {α : Type} (channel items items' : List α) :
    trySendAll capacity channel (items ++ items') =
      trySendAll capacity (trySendAll capacity channel items) items' := List.foldl_append

def packetSteps (frame : Frame) (x : Sighting) : List ChannelAction :=
  if x.srcMac ≠ x.dstMac then [.packet frame, .send, .destination, .send]
  else [.packet frame, .send]

/-- **The steps of a packet without interruption** update the table and offer all its
events to the channel. -/
theorem run_packetSteps {frame : Frame} {x : Sighting} (hx : sight frame.buf = .ok (some x))
    (table : MemoryStore) (channel : List DiscoveryEvent) :
    ∃ outs, (eventChannel ouiMap capacity).run ⟨table, channel, .idle⟩ (packetSteps frame x) =
      some (⟨(updateDevices ouiMap table x frame.clock).1,
        trySendAll capacity channel (updateDevices ouiMap table x frame.clock).2, .idle⟩, outs) := by
  unfold packetSteps updateDevices
  by_cases hne : x.srcMac = x.dstMac
  · refine ⟨[none, none], ?_⟩
    simp only [ne_eq, hne, not_true_eq_false, if_false, Machine.run, eventChannel, channelStep, hx,
      Option.map_some]
  · refine ⟨[none, none, none, none], ?_⟩
    simp only [ne_eq, hne, not_false_eq_true, if_true, Machine.run, eventChannel, channelStep, hx,
      Option.map_some, trySendAll_append]

end Machine

/-! ### Discoveries on their way -/

def Known (table : MemoryStore) (m : MacAddress) : Prop := ∃ d, table.get m = some d

def Announced (m : MacAddress) (events : List DiscoveryEvent) : Prop :=
  ∃ d : Device, d.mac = m ∧ .deviceDiscovered d ∈ events

def received (outs : List (Option DiscoveryEvent)) : List DiscoveryEvent := outs.filterMap id

/-- All events that were not dropped: received, in the channel, or about to be sent. -/
def allEvents (outs : List (Option DiscoveryEvent)) (s : ChannelState) : List DiscoveryEvent :=
  received outs ++ (s.channel ++ s.progress.pending)

/-- In a quiet moment, with no packet in work and nothing in the channel, the rule
engine has received the discovery of every known device. -/
def NothingMissed (s : ChannelState) (outs : List (Option DiscoveryEvent)) : Prop :=
  s.progress = .idle → s.channel = [] → ∀ m, Known s.table m → Announced m (received outs)

/-- A discovery is sent only when the channel has room for it. -/
def RoomForDiscovery (capacity : Nat) (s : ChannelState) (a : ChannelAction) : Prop :=
  a = .send → (∃ d, .deviceDiscovered d ∈ s.progress.pending) → s.channel.length < capacity

theorem announced_append {m : MacAddress} {l l' : List DiscoveryEvent} :
    Announced m (l ++ l') ↔ Announced m l ∨ Announced m l' := by
  unfold Announced
  constructor
  · rintro ⟨d, hd, he⟩
    exact (List.mem_append.mp he).imp (fun he => ⟨d, hd, he⟩) fun he => ⟨d, hd, he⟩
  · rintro (⟨d, hd, he⟩ | ⟨d, hd, he⟩)
    · exact ⟨d, hd, List.mem_append_left _ he⟩
    · exact ⟨d, hd, List.mem_append_right _ he⟩

theorem not_announced_nil (m : MacAddress) : ¬Announced m [] := by
  rintro ⟨d, _, he⟩
  exact List.not_mem_nil he

theorem received_snoc_none (outs : List (Option DiscoveryEvent)) :
    received (outs ++ [none]) = received outs := by
  simp [received]

theorem received_snoc_some (outs : List (Option DiscoveryEvent)) (e : DiscoveryEvent) :
    received (outs ++ [some e]) = received outs ++ [e] := by
  simp [received]

theorem known_updateEndpoint {table : MemoryStore} {mac : MacAddress} {fresh : Device}
    {record : Device → Device} {changed : Device → Device → Bool} (hfresh : fresh.mac = mac)
    (hrecord : ∀ d, (record d).mac = d.mac) (m : MacAddress) :
    Known (updateEndpoint table mac fresh record changed).1 m ↔ Known table m ∨ m = mac := by
  unfold Known
  rw [get_updateEndpoint hfresh hrecord]
  by_cases hm : m = mac
  · simp [hm]
  · simp [hm]

theorem announced_endpointEvents {table : MemoryStore} {mac : MacAddress} {fresh : Device}
    {record : Device → Device} {changed : Device → Device → Bool} (hfresh : fresh.mac = mac)
    (hrecord : ∀ d, (record d).mac = d.mac) (m : MacAddress) :
    Announced m (endpointEvents (table.get mac) fresh record changed) ↔
      m = mac ∧ ¬Known table mac := by
  unfold Announced Known endpointEvents
  cases hg : table.get mac with
  | none =>
    simp only [List.mem_singleton, DiscoveryEvent.deviceDiscovered.injEq]
    constructor
    · rintro ⟨d, hd, rfl⟩
      exact ⟨hd.symm.trans ((hrecord fresh).trans hfresh), by simp⟩
    · rintro ⟨rfl, _⟩
      exact ⟨_, (hrecord fresh).trans hfresh, rfl⟩
  | some d =>
    simp only [not_exists]
    constructor
    · rintro ⟨d', _, he⟩
      split at he
      · simp at he
      · exact absurd he List.not_mem_nil
    · rintro ⟨_, hno⟩
      exact absurd rfl (hno d)

theorem length_endpointEvents (prev : Option Device) (fresh : Device)
    (record : Device → Device) (changed : Device → Device → Bool) :
    (endpointEvents prev fresh record changed).length ≤ 1 := by
  unfold endpointEvents
  split
  · exact le_refl 1
  · split
    · exact le_refl 1
    · exact Nat.zero_le 1

theorem trySendAll_of_length_le_one (capacity : Nat) (channel : List DiscoveryEvent)
    {events : List DiscoveryEvent} (h : events.length ≤ 1) :
    trySendAll capacity channel events = channel ++ events ∨
      (trySendAll capacity channel events = channel ∧ capacity ≤ channel.length) := by
  rcases events with _ | ⟨e, _ | ⟨e', events⟩⟩
  · exact .inl (List.append_nil _).symm
  · simp only [trySendAll, List.foldl_cons, List.foldl_nil, trySend]
    split
    · exact .inl rfl
    · next hfull => exact .inr ⟨rfl, by omega⟩
  · simp at h

/-! ### What every run keeps -/

/-- The announcements so far are of known devices, at most one event is pending, and a
pending discovery is the only one of its MAC. -/
structure Sound (outs : List (Option DiscoveryEvent)) (s : ChannelState) : Prop where
  known : ∀ m, Announced m (allEvents outs s) → Known s.table m
  single : s.progress.pending.length ≤ 1
  unique : ∀ m, Announced m s.progress.pending → ¬Announced m (received outs ++ s.channel)

/-- The MAC is known and its discovery is nowhere any more. -/
def Missed (m : MacAddress) (outs : List (Option DiscoveryEvent)) (s : ChannelState) : Prop :=
  Known s.table m ∧ ¬Announced m (allEvents outs s)

section Runs

variable {ouiMap : Nat → Option String} {capacity : Nat}

theorem announced_allEvents {m : MacAddress} {outs : List (Option DiscoveryEvent)}
    {s : ChannelState} : Announced m (allEvents outs s) ↔
      Announced m (received outs ++ s.channel) ∨ Announced m s.progress.pending := by
  rw [allEvents, ← List.append_assoc, announced_append]

theorem received_channel_eq {s : ChannelState} {e : DiscoveryEvent} {rest : List DiscoveryEvent}
    (outs : List (Option DiscoveryEvent)) (h : s.channel = e :: rest) :
    received (outs ++ [some e]) ++ rest = received outs ++ s.channel := by
  rw [received_snoc_some, h, List.append_assoc, List.singleton_append]

theorem Sound.step {outs : List (Option DiscoveryEvent)} {s s' : ChannelState}
    {a : ChannelAction} {o : Option DiscoveryEvent} (h : Sound outs s)
    (hs : (eventChannel ouiMap capacity).step s a = some (s', o)) : Sound (outs ++ [o]) s' := by
  cases channelStep_of_step ouiMap capacity hs with
  | ignore frame =>
    refine ⟨fun m hm => h.known m ?_, h.single, ?_⟩
    · rw [allEvents, received_snoc_none] at hm
      exact hm
    · rw [received_snoc_none]
      exact h.unique
  | store a mac fresh record changed progress notSend hfresh hrecord before after =>
    have hnew : ∀ m, Announced m (endpointEvents (s.table.get mac) fresh record changed) ↔
        m = mac ∧ ¬Known s.table mac := announced_endpointEvents hfresh hrecord
    have hold : ∀ m, Announced m (received outs ++ s.channel) → Known s.table m :=
      fun m hm => h.known m (announced_allEvents.mpr (.inl hm))
    refine ⟨fun m hm => ?_, ?_, fun m hm => ?_⟩
    · rw [known_updateEndpoint hfresh hrecord]
      rw [announced_allEvents, received_snoc_none, after] at hm
      exact hm.imp (hold m) fun hm => ((hnew m).mp hm).1
    · rw [after]
      exact length_endpointEvents _ _ _ _
    · rw [after] at hm
      obtain ⟨rfl, hunknown⟩ := (hnew m).mp hm
      rw [received_snoc_none]
      exact fun hm => hunknown (hold _ hm)
  | send progress after =>
    refine ⟨fun m hm => ?_, by rw [after]; exact Nat.zero_le 1, fun m hm => ?_⟩
    · rw [announced_allEvents, received_snoc_none, after, announced_append] at hm
      rcases hm with (hm | hm) | hm
      · exact h.known m (announced_allEvents.mpr (.inl (announced_append.mpr (.inl hm))))
      · rcases trySendAll_of_length_le_one capacity s.channel h.single
          with hc | ⟨hc, _⟩
        · refine h.known m ?_
          rw [allEvents, announced_append, ← hc]
          exact .inr hm
        · rw [hc] at hm
          exact h.known m (announced_allEvents.mpr (.inl (announced_append.mpr (.inr hm))))
      · exact absurd hm (not_announced_nil m)
    · rw [after] at hm
      exact absurd hm (not_announced_nil m)
  | receive e rest channel =>
    have heq := received_channel_eq outs channel
    refine ⟨fun m hm => h.known m ?_, h.single, fun m hm => ?_⟩
    · rw [announced_allEvents, heq] at hm
      exact announced_allEvents.mpr hm
    · rw [heq]
      exact h.unique m hm

theorem sound_run {acts : List ChannelAction} {s : ChannelState}
    {outs : List (Option DiscoveryEvent)}
    (h : (eventChannel ouiMap capacity).run .start acts = some (s, outs)) : Sound outs s := by
  refine (eventChannel ouiMap capacity).run_induction (P := fun _ outs s => Sound outs s) ?_ ?_ h
  · refine ⟨fun m hm => absurd hm (not_announced_nil m), Nat.zero_le 1, fun m hm => ?_⟩
    exact absurd hm (not_announced_nil m)
  · intro _ outs s a s' o _ ih hs
    exact ih.step hs

/-- **A missed device stays missed**: its MAC is known, so no later packet discovers
it. -/
theorem Missed.step {m : MacAddress} {outs : List (Option DiscoveryEvent)} {s s' : ChannelState}
    {a : ChannelAction} {o : Option DiscoveryEvent} (h : Missed m outs s) (hsound : Sound outs s)
    (hs : (eventChannel ouiMap capacity).step s a = some (s', o)) : Missed m (outs ++ [o]) s' := by
  obtain ⟨hknown, hno⟩ := h
  rw [announced_allEvents, not_or] at hno
  cases channelStep_of_step ouiMap capacity hs with
  | ignore frame =>
    refine ⟨hknown, ?_⟩
    rw [announced_allEvents, received_snoc_none, not_or]
    exact hno
  | store a mac fresh record changed progress notSend hfresh hrecord before after =>
    refine ⟨by rw [known_updateEndpoint hfresh hrecord]; exact .inl hknown, ?_⟩
    rw [announced_allEvents, received_snoc_none, after, not_or]
    refine ⟨hno.1, fun hm => ?_⟩
    obtain ⟨rfl, hunknown⟩ := (announced_endpointEvents hfresh hrecord m).mp hm
    exact hunknown hknown
  | send progress after =>
    refine ⟨hknown, ?_⟩
    rw [announced_allEvents, received_snoc_none, after, not_or]
    refine ⟨?_, not_announced_nil m⟩
    rw [announced_append, not_or] at hno
    rw [announced_append, not_or]
    refine ⟨hno.1.1, ?_⟩
    rcases trySendAll_of_length_le_one capacity s.channel hsound.single
      with hc | ⟨hc, _⟩
    · rw [hc, announced_append, not_or]
      exact ⟨hno.1.2, hno.2⟩
    · rw [hc]
      exact hno.1.2
  | receive e rest channel =>
    refine ⟨hknown, ?_⟩
    rw [announced_allEvents, received_channel_eq outs channel, not_or]
    exact hno

theorem missed_of_full {outs : List (Option DiscoveryEvent)} {s s' : ChannelState}
    {o : Option DiscoveryEvent} (hsound : Sound outs s)
    (hs : (eventChannel ouiMap capacity).step s .send = some (s', o)) {d : Device}
    (hd : .deviceDiscovered d ∈ s.progress.pending) (hfull : capacity ≤ s.channel.length) :
    Missed d.mac (outs ++ [o]) s' := by
  have hpending : Announced d.mac s.progress.pending := ⟨d, rfl, hd⟩
  have hlast : ∀ events : List DiscoveryEvent, events.length ≤ 1 →
      trySendAll capacity s.channel events = s.channel := by
    intro events hle
    rcases events with _ | ⟨e, _ | ⟨e', events⟩⟩
    · rfl
    · simp only [trySendAll, List.foldl_cons, List.foldl_nil, trySend]
      rw [if_neg (by omega)]
    · simp at hle
  cases channelStep_of_step ouiMap capacity hs with
  | store a mac fresh record changed progress notSend => exact absurd rfl notSend
  | send progress after =>
    refine ⟨hsound.known _ (announced_allEvents.mpr (.inr hpending)), ?_⟩
    rw [announced_allEvents, received_snoc_none, after, not_or, hlast _ hsound.single]
    exact ⟨hsound.unique _ hpending, not_announced_nil _⟩

/-! ### When nothing is missed -/

theorem announced_run {acts : List ChannelAction} {s : ChannelState}
    {outs : List (Option DiscoveryEvent)}
    (h : (eventChannel ouiMap capacity).run .start acts = some (s, outs))
    (hok : (eventChannel ouiMap capacity).Meets (RoomForDiscovery capacity) .start acts) :
    ∀ m, Known s.table m → Announced m (allEvents outs s) := by
  refine (eventChannel ouiMap capacity).run_induction_of_meets
    (P := fun _ outs s => ∀ m, Known s.table m → Announced m (allEvents outs s)) ?_ ?_ h hok
  · rintro m ⟨d, hd⟩
    simp only [ChannelState.start, MemoryStore.get_new] at hd
    cases hd
  · intro acts outs s a s' o hr ih hroom hs m hm
    have hsound := sound_run hr
    cases channelStep_of_step ouiMap capacity hs with
    | ignore frame =>
      rw [announced_allEvents, received_snoc_none]
      exact announced_allEvents.mp (ih m hm)
    | store a mac fresh record changed progress notSend hfresh hrecord before after =>
      rw [announced_allEvents, received_snoc_none, after, announced_endpointEvents hfresh hrecord]
      by_cases hk : Known s.table m
      · refine .inl ((announced_allEvents.mp (ih m hk)).resolve_right fun hp => ?_)
        rw [before] at hp
        exact not_announced_nil m hp
      · rw [known_updateEndpoint hfresh hrecord] at hm
        have hmac := hm.resolve_left hk
        exact .inr ⟨hmac, hmac ▸ hk⟩
    | send progress after =>
      rw [announced_allEvents, received_snoc_none, announced_append]
      left
      rcases trySendAll_of_length_le_one capacity s.channel
        hsound.single with hc | ⟨hc, hfull⟩
      · rw [hc, ← announced_append]
        exact ih m hm
      · rw [hc, ← announced_append]
        refine (announced_allEvents.mp (ih m hm)).resolve_right ?_
        rintro ⟨d, _, hd⟩
        exact absurd (hroom rfl ⟨d, hd⟩) (by omega)
    | receive e rest channel =>
      rw [announced_allEvents, received_channel_eq outs channel]
      exact announced_allEvents.mp (ih m hm)

theorem missed_run {acts : List ChannelAction} {m : MacAddress} :
    ∀ {s s' : ChannelState} {outs outs' : List (Option DiscoveryEvent)}, Sound outs s →
      Missed m outs s → (eventChannel ouiMap capacity).run s acts = some (s', outs') →
      Missed m (outs ++ outs') s' := by
  induction acts with
  | nil =>
    intro s s' outs outs' _ hmissed h
    cases h
    rw [List.append_nil]
    exact hmissed
  | cons a acts ih =>
    intro s s' outs outs' hsound hmissed h
    obtain ⟨s₁, o, outs₁, hs, hr, rfl⟩ := (eventChannel ouiMap capacity).run_cons.mp h
    rw [← List.singleton_append, ← List.append_assoc]
    exact ih (hsound.step hs) (hmissed.step hsound hs) hr

theorem room_of_nothingMissed {acts : List ChannelAction} {s : ChannelState}
    {outs : List (Option DiscoveryEvent)}
    (h : (eventChannel ouiMap capacity).run .start acts = some (s, outs))
    (hidle : s.progress = .idle) (hempty : s.channel = []) (hno : NothingMissed s outs) :
    (eventChannel ouiMap capacity).Meets (RoomForDiscovery capacity) .start acts := by
  refine (eventChannel ouiMap capacity).meets_iff.mpr ?_
  rintro acts₁ a acts₂ s₁ outs₁ rfl h₁ rfl ⟨d, hd⟩
  by_contra hfull
  obtain ⟨s₁', _, outs₂, h₁', h₂, rfl⟩ := (eventChannel ouiMap capacity).run_append.mp h
  rw [h₁] at h₁'
  cases h₁'
  obtain ⟨s₂, o, outs₃, hs, hr, rfl⟩ := (eventChannel ouiMap capacity).run_cons.mp h₂
  have hsound := sound_run h₁
  have hmissed := missed_of_full hsound hs hd (by omega)
  obtain ⟨hknown, hnever⟩ := missed_run (hsound.step hs) hmissed hr
  rw [List.append_assoc, List.singleton_append] at hnever
  refine hnever (announced_allEvents.mpr (.inl (announced_append.mpr (.inl ?_))))
  exact hno hidle hempty _ hknown

/-- **When nothing is missed.**  A run that ends in a quiet moment missed no device
exactly when each discovery found room in the channel. -/
theorem nothingMissed_iff_room {acts : List ChannelAction} {s : ChannelState}
    {outs : List (Option DiscoveryEvent)}
    (h : (eventChannel ouiMap capacity).run .start acts = some (s, outs))
    (hidle : s.progress = .idle) (hempty : s.channel = []) :
    NothingMissed s outs ↔
      (eventChannel ouiMap capacity).Meets (RoomForDiscovery capacity) .start acts := by
  refine ⟨room_of_nothingMissed h hidle hempty, fun hok _ _ m hm => ?_⟩
  have hall := announced_run h hok m hm
  rw [allEvents, hempty, hidle, List.nil_append] at hall
  exact (announced_append.mp hall).resolve_right (not_announced_nil m)

end Runs

/-! ### A flood of new devices -/

/-- The MAC address `00:00:00:00:hi:lo`. -/
def floodMac (n : Nat) : MacAddress :=
  .ofBytes 0 0 0 0 (UInt8.ofNat (n / 256)) (UInt8.ofNat (n % 256))

/-- An ARP frame that `00:00:00:00:hi:lo` sends to itself. -/
def selfFrame (hi lo : UInt8) : PacketBuf :=
  ⟨[0, 0, 0, 0, hi, lo, 0, 0, 0, 0, hi, lo, 8, 6], 14⟩

def floodFrame (n : Nat) : Frame where
  buf := selfFrame (UInt8.ofNat (n / 256)) (UInt8.ofNat (n % 256))
  clock := ⟨⟨0⟩, ⟨0⟩, ⟨0⟩⟩

/-- The frames of `n` new devices, one after the other, with no receive between them. -/
def flood (n : Nat) : List ChannelAction :=
  (List.range n).flatMap fun i => [.packet (floodFrame i), .send]

theorem flood_succ (n : Nat) : flood (n + 1) = flood n ++ [.packet (floodFrame n), .send] := by
  rw [flood, List.range_succ, List.flatMap_append, List.flatMap_singleton]
  rfl

theorem floodMac_injective {i j : Nat} (hi : i < 65536) (hj : j < 65536)
    (h : floodMac i = floodMac j) : i = j := by
  simp only [floodMac, MacAddress.ofBytes, MacAddress.mk.injEq, Vector.mk.injEq,
    Array.mk.injEq, List.cons.injEq, true_and, and_true] at h
  have hhi := congrArg UInt8.toNat h.1
  have hlo := congrArg UInt8.toNat h.2
  simp only [UInt8.toNat_ofNat'] at hhi hlo
  omega

theorem decodeEthernet_selfFrame (hi lo : UInt8) :
    decodeEthernet (selfFrame hi lo) =
      .ok ⟨(MacAddress.ofBytes 0 0 0 0 hi lo).bytes, (MacAddress.ofBytes 0 0 0 0 hi lo).bytes,
        0x0806⟩ := by
  simp [decodeEthernet, selfFrame, View.new, mac6, View.be16, View.byte, MacAddress.ofBytes]

theorem sight_floodFrame (n : Nat) : ∃ x, sight (floodFrame n).buf = .ok (some x) ∧
    x.srcMac = floodMac n ∧ x.dstMac = floodMac n := by
  obtain ⟨p, hp, hsrc, hdst⟩ : ∃ p, decodePacket (floodFrame n).buf = .ok p ∧
      p.ethernet = ⟨(floodMac n).bytes, (floodMac n).bytes, 0x0806⟩ ∧ p.ipv4 = none := by
    rw [decodePacket, floodFrame, decodeEthernet_selfFrame]
    exact ⟨_, rfl, rfl, rfl⟩
  rw [sight, hp]
  have hclass : Protocol.classify p = .arp := by rw [Protocol.classify, hsrc]; rfl
  simp only [hclass]
  refine ⟨_, rfl, ?_, ?_⟩
  · rw [Sighting.srcMac, hsrc]
  · rw [Sighting.dstMac, hsrc]

section Flood

variable (capacity : Nat)

theorem step_floodFrame {n : Nat} {table : MemoryStore} (channel : List DiscoveryEvent)
    (hnew : ¬Known table (floodMac n)) :
    ∃ table' x d, (eventChannel (fun _ => none) capacity).step ⟨table, channel, .idle⟩
        (.packet (floodFrame n)) =
        some (⟨table', channel, .sendSource x (floodFrame n).clock [.deviceDiscovered d]⟩, none) ∧
      x.srcMac = x.dstMac ∧ ∀ m, Known table' m ↔ Known table m ∨ m = floodMac n := by
  obtain ⟨x, hx, hsrc, hdst⟩ := sight_floodFrame n
  have hnone : table.get x.srcMac = none := by
    rw [hsrc]
    exact Option.eq_none_iff_forall_not_mem.mpr fun d hd => hnew ⟨d, hd⟩
  refine ⟨(updateSource (fun _ => none) table x (floodFrame n).clock).1, x,
    sourceRecord x (floodFrame n).clock.packet
      (newDevice (fun _ => none) x.srcMac (floodFrame n).clock.newSource), ?_,
    hsrc.trans hdst.symm, fun m => ?_⟩
  · simp only [eventChannel, channelStep, hx, updateSource, updateEndpoint, hnone, endpointEvents]
  · rw [← hsrc]
    exact known_updateEndpoint (mac_newDevice _ _ _) (mac_sourceRecord x _) m

/-- **The flood**: the channel fills up and the rest is dropped. -/
theorem run_flood : ∀ {k : Nat}, k ≤ 65536 →
    ∃ s outs, (eventChannel (fun _ => none) capacity).run .start (flood k) = some (s, outs) ∧
      s.progress = .idle ∧ s.channel.length = min capacity k ∧
      ∀ m, Known s.table m ↔ ∃ i < k, m = floodMac i := by
  intro k
  induction k with
  | zero =>
    intro _
    refine ⟨.start, [], rfl, rfl, by simp [ChannelState.start], fun m => ?_⟩
    simp [Known, ChannelState.start]
  | succ k ih =>
    intro hk
    obtain ⟨⟨table, channel, progress⟩, outs, hr, hidle, hlen, hknown⟩ := ih (by omega)
    simp only at hidle hlen hknown
    subst hidle
    have hnew : ¬Known table (floodMac k) := by
      rw [hknown]
      rintro ⟨i, hi, h⟩
      exact absurd (floodMac_injective (by omega) (by omega) h) (by omega)
    obtain ⟨table', x, d, hp, hself, hknown'⟩ := step_floodFrame capacity channel hnew
    refine ⟨⟨table', trySend capacity channel (.deviceDiscovered d), .idle⟩,
      outs ++ [none, none], ?_, rfl, ?_, fun m => ?_⟩
    · rw [flood_succ]
      refine (eventChannel _ _).run_append.mpr ⟨_, outs, [none, none], hr, ?_, rfl⟩
      refine (eventChannel _ _).run_cons.mpr ⟨_, none, [none], hp, ?_, rfl⟩
      refine (eventChannel _ _).run_cons.mpr ⟨_, none, [], ?_, rfl, rfl⟩
      simp [eventChannel, channelStep, hself, trySendAll]
    · simp only [trySend]
      split
      · rw [List.length_append, hlen]
        simp only [List.length_singleton]
        omega
      · omega
    · rw [hknown', hknown]
      constructor
      · rintro (⟨i, hi, rfl⟩ | rfl)
        · exact ⟨i, by omega, rfl⟩
        · exact ⟨k, by omega, rfl⟩
      · rintro ⟨i, hi, rfl⟩
        rcases Nat.lt_succ_iff_lt_or_eq.mp hi with hi | rfl
        · exact .inl ⟨i, hi, rfl⟩
        · exact .inr rfl

theorem run_drain (ouiMap : Nat → Option String) (table : MemoryStore) (progress : Progress)
    (channel : List DiscoveryEvent) :
    (eventChannel ouiMap capacity).run ⟨table, channel, progress⟩
        (List.replicate channel.length .receive) =
      some (⟨table, [], progress⟩, channel.map some) := by
  induction channel with
  | nil => rfl
  | cons e rest ih =>
    exact (eventChannel ouiMap capacity).run_cons.mpr ⟨_, some e, rest.map some, rfl, ih, rfl⟩

end Flood

theorem nothingMissed_of_floodFrame :
    ∃ s outs, (eventChannel (fun _ => none) 1).run .start
        [.packet (floodFrame 0), .send, .receive] = some (s, outs) ∧
      s.progress = .idle ∧ s.channel = [] ∧ NothingMissed s outs := by
  have hnew : ¬Known ChannelState.start.table (floodMac 0) := by simp [Known, ChannelState.start]
  obtain ⟨table, x, d, hp, hself, _⟩ := step_floodFrame 1 [] hnew
  have hsend : (eventChannel (fun _ => none) 1).step
      ⟨table, [], .sendSource x (floodFrame 0).clock [.deviceDiscovered d]⟩ .send =
        some (⟨table, [.deviceDiscovered d], .idle⟩, none) := by
    simp [eventChannel, channelStep, hself, trySendAll, trySend]
  have hreceive : (eventChannel (fun _ => none) 1).step ⟨table, [.deviceDiscovered d], .idle⟩
      .receive = some (⟨table, [], .idle⟩, some (.deviceDiscovered d)) := rfl
  have hrun : (eventChannel (fun _ => none) 1).run .start
      [.packet (floodFrame 0), .send, .receive] =
        some (⟨table, [], .idle⟩, [none, none, some (.deviceDiscovered d)]) := by
    refine (eventChannel _ _).run_cons.mpr ⟨_, none, _, hp, ?_, rfl⟩
    refine (eventChannel _ _).run_cons.mpr ⟨_, none, _, hsend, ?_, rfl⟩
    exact (eventChannel _ _).run_cons.mpr ⟨_, _, [], hreceive, rfl, rfl⟩
  refine ⟨_, _, hrun, rfl, rfl, (nothingMissed_iff_room hrun rfl rfl).mpr ?_⟩
  have hroom : (eventChannel (fun _ => none) 1).Meets (RoomForDiscovery 1)
      ⟨table, [], .sendSource x (floodFrame 0).clock [.deviceDiscovered d]⟩ [.send, .receive] :=
    ((eventChannel _ _).meets_cons_of_step hsend).mpr
      ⟨fun _ _ => Nat.one_pos, fun h => (by cases h), fun _ _ _ => trivial⟩
  exact ((eventChannel _ _).meets_cons_of_step hp).mpr ⟨fun h => (by cases h), hroom⟩

/-- **A flood misses a device**: one new device more than the channel takes, before the
first receive. -/
theorem missed_of_flood {capacity : Nat} (hc : capacity < 65536) :
    ∃ s outs, (eventChannel (fun _ => none) capacity).run .start
        (flood (capacity + 1) ++ List.replicate capacity .receive) = some (s, outs) ∧
      s.progress = .idle ∧ s.channel = [] ∧ ¬NothingMissed s outs := by
  obtain ⟨⟨table₁, channel₁, _⟩, outs₁, h₁, rfl, hlen₁, hknown₁⟩ :=
    run_flood capacity (by omega : capacity ≤ 65536)
  obtain ⟨⟨table, channel, _⟩, outs, h, rfl, hlen, _⟩ :=
    run_flood capacity (by omega : capacity + 1 ≤ 65536)
  have hdrain := run_drain capacity (fun _ => none) table .idle channel
  rw [show channel.length = capacity from hlen.trans (by omega)] at hdrain
  have hrun := (eventChannel _ _).run_append.mpr ⟨_, _, _, h, hdrain, rfl⟩
  refine ⟨_, _, hrun, rfl, rfl, fun hno => ?_⟩
  have hmeets := room_of_nothingMissed hrun rfl rfl hno
  rw [Machine.meets_iff] at hmeets
  have hnew : ¬Known table₁ (floodMac capacity) := by
    rw [hknown₁]
    rintro ⟨i, hi, he⟩
    exact absurd (floodMac_injective hc (by omega) he) (by omega)
  obtain ⟨table₂, x, d, hp, _, _⟩ := step_floodFrame capacity channel₁ hnew
  -- the send of the last discovery finds the channel full
  have hfull := (eventChannel _ _).run_snoc.mpr ⟨_, _, _, h₁, hp, rfl⟩
  have hlast := hmeets _ .send (List.replicate capacity .receive) _ _ (by
    rw [flood_succ, List.append_assoc, List.append_assoc]
    rfl) hfull rfl ⟨d, List.mem_singleton_self _⟩
  simp only at hlast hlen₁
  omega

/-- The channel of the daemon holds 1024 events, and 1025 new devices are too many. -/
theorem nothingMissed_broken_by_flood :
    ∃ s outs, (eventChannel (fun _ => none) 1024).run .start
        (flood 1025 ++ List.replicate 1024 .receive) = some (s, outs) ∧
      s.progress = .idle ∧ s.channel = [] ∧ ¬NothingMissed s outs :=
  missed_of_flood (by omega : 1024 < 65536)

end EdgeShield.Daemon
