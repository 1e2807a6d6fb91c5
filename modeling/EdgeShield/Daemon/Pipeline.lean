import EdgeShield.Discovery.ChangeLog
import EdgeShield.Daemon.Scanner

/-!
# From packets to alerts

`crates/daemon/src/daemon.rs`, `run`: the packet pipeline and the offline scanner put
events on a bounded channel, and the rule engine takes them off.  `pipeline` is the
three tasks and the channel as one machine, with the steps of the tasks in any
order.  An event on the channel is labelled with its `Origin`.

`engine_run` takes a run of the pipeline to a run of the engine in it, whose events
were all sent by some step of the pipeline (`SentIn`).  So an alert can be followed
back to the packet that caused it.

A `protocolChange` rule matches every update, and an update is emitted for new
addresses and names too.  In the runs whose packets bring a known device no such
news without a new protocol (`NewsIsProtocol`), an alert of such a rule comes from a
packet that showed a new protocol (`alerts_on_new_protocol`).
-/

namespace EdgeShield.Daemon

open EdgeShield.Lib EdgeShield.Common EdgeShield.Packet EdgeShield.Storage EdgeShield.Discovery
  EdgeShield.Rules
open EdgeShield.Common (Protocol)

/-- Where an event comes from: a packet, with the device table before and after it,
or a tick of the scanner. -/
inductive Origin where
  | packet (before after : MemoryStore)
  | tick (now : Timestamp)

structure PipelineState (σ : Type) where
  table : MemoryStore
  channel : List (DiscoveryEvent × Origin)
  engine : EngineState σ Origin

inductive PipelineAction where
  | packet (frame : Frame)
  | tick (now : Timestamp)
  | receive
  | engine (a : Action Origin)

/-- `try_send` on a channel of this capacity: a full channel drops the event. -/
def trySend {α : Type} (capacity : Nat) (channel : List α) (item : α) : List α :=
  if channel.length < capacity then channel ++ [item] else channel

def trySendAll {α : Type} (capacity : Nat) (channel items : List α) : List α :=
  items.foldl (trySend capacity) channel

theorem mem_trySendAll {α : Type} {capacity : Nat} {items : List α} {x : α} :
    ∀ {channel : List α}, x ∈ trySendAll capacity channel items → x ∈ channel ∨ x ∈ items := by
  induction items with
  | nil => intro channel h; exact .inl h
  | cons item items ih =>
    intro channel h
    rcases ih h with h | h
    · rw [trySend] at h
      split at h
      · rcases List.mem_append.mp h with h | h
        · exact .inl h
        · exact .inr (List.mem_singleton.mp h ▸ List.mem_cons_self)
      · exact .inl h
    · exact .inr (List.mem_cons_of_mem _ h)

section Machine

variable {σ : Type} (S : AlertStore σ) (ouiMap : Nat → Option String) (capacity : Nat)

def sent (s : PipelineState σ) : PipelineAction → List (DiscoveryEvent × Origin)
  | .packet frame =>
    match (discovery ouiMap).step s.table frame with
    | some (table, events) => events.map (·, .packet s.table table)
    | none => []
  | .tick now => (offlineEvents s.table now).map (·, .tick now)
  | .receive => []
  | .engine _ => []

def pipelineStep (s : PipelineState σ) :
    PipelineAction → Option (PipelineState σ × Option (Emission Origin))
  | .packet frame =>
    match (discovery ouiMap).step s.table frame with
    | some (table, _) =>
      some ({ s with
        table := table
        channel := trySendAll capacity s.channel (sent ouiMap s (.packet frame)) }, none)
    | none => none
  | .tick now =>
    some ({ s with channel := trySendAll capacity s.channel (sent ouiMap s (.tick now)) }, none)
  | .receive =>
    match s.channel with
    | [] => none
    | (event, origin) :: rest =>
      match (engine S).step s.engine (.receive event origin) with
      | some (e, o) => some ({ s with channel := rest, engine := e }, o)
      | none => none
  -- the engine takes its events from the channel only
  | .engine (.receive _ _) => none
  | .engine a =>
    match (engine S).step s.engine a with
    | some (e, o) => some ({ s with engine := e }, o)
    | none => none

def pipeline : Machine (PipelineState σ) PipelineAction (Option (Emission Origin)) where
  step := pipelineStep S ouiMap capacity

def PipelineState.start (rules : List Rule) (store : σ) (clock : Nat) : PipelineState σ where
  table := .new
  channel := []
  engine := .start rules store clock

/-- **The steps of the pipeline.**  A sending task leaves the engine alone; the other
steps are steps of the engine, with events from the channel. -/
theorem pipeline_step_cases {s s' : PipelineState σ} {a : PipelineAction}
    {o : Option (Emission Origin)} (h : (pipeline S ouiMap capacity).step s a = some (s', o)) :
    (s'.engine = s.engine ∧ o = none ∧
      s'.channel = trySendAll capacity s.channel (sent ouiMap s a)) ∨
    ∃ b, (engine S).step s.engine b = some (s'.engine, o) ∧
      (∀ x ∈ s'.channel, x ∈ s.channel) ∧
      ∀ event origin, b = .receive event origin → (event, origin) ∈ s.channel := by
  cases a with
  | packet frame =>
    simp only [pipeline, pipelineStep] at h
    split at h
    · cases h
      exact .inl ⟨rfl, rfl, rfl⟩
    · cases h
  | tick now =>
    cases h
    exact .inl ⟨rfl, rfl, rfl⟩
  | receive =>
    simp only [pipeline, pipelineStep] at h
    split at h
    · cases h
    next event origin rest hc =>
    split at h
    · next e o' hs =>
      cases h
      refine .inr ⟨_, hs, fun x hx => hc ▸ List.mem_cons_of_mem _ hx, ?_⟩
      rintro event' origin' ⟨⟩
      exact hc ▸ List.mem_cons_self
    · cases h
  | engine a =>
    cases a with
    | receive event origin => cases h
    | _ =>
      simp only [pipeline, pipelineStep] at h
      split at h
      · next e o' hs =>
        cases h
        exact .inr ⟨_, hs, fun x hx => hx, by rintro event origin ⟨⟩⟩
      · cases h

end Machine

/-! ### The engine in the pipeline -/

section Runs

variable {σ : Type} {S : AlertStore σ} {ouiMap : Nat → Option String} {capacity : Nat}

def SentIn (S : AlertStore σ) (ouiMap : Nat → Option String) (capacity : Nat)
    (s₀ : PipelineState σ) (acts : List PipelineAction) (item : DiscoveryEvent × Origin) : Prop :=
  ∃ acts₁ a acts₂ s₁ outs₁, acts = acts₁ ++ a :: acts₂ ∧
    (pipeline S ouiMap capacity).run s₀ acts₁ = some (s₁, outs₁) ∧ item ∈ sent ouiMap s₁ a

theorem SentIn.snoc {s₀ : PipelineState σ} {acts : List PipelineAction}
    {item : DiscoveryEvent × Origin} (h : SentIn S ouiMap capacity s₀ acts item)
    (a : PipelineAction) : SentIn S ouiMap capacity s₀ (acts ++ [a]) item := by
  obtain ⟨acts₁, b, acts₂, s₁, outs₁, rfl, hr, hi⟩ := h
  exact ⟨acts₁, b, acts₂ ++ [a], s₁, outs₁, by simp, hr, hi⟩

/-- **A run of the pipeline contains a run of its engine**, with the same alerts and
with events that were sent. -/
theorem engine_run {s₀ s : PipelineState σ} {acts : List PipelineAction}
    {outs : List (Option (Emission Origin))} (hempty : s₀.channel = [])
    (h : (pipeline S ouiMap capacity).run s₀ acts = some (s, outs)) :
    (∃ bs outs', (engine S).run s₀.engine bs = some (s.engine, outs') ∧
      emissions outs' = emissions outs ∧
      ∀ event origin, .receive event origin ∈ bs →
        SentIn S ouiMap capacity s₀ acts (event, origin)) ∧
    ∀ item ∈ s.channel, SentIn S ouiMap capacity s₀ acts item := by
  refine (pipeline S ouiMap capacity).run_induction
    (P := fun acts outs s => (∃ bs outs', (engine S).run s₀.engine bs = some (s.engine, outs') ∧
      emissions outs' = emissions outs ∧ ∀ event origin, .receive event origin ∈ bs →
        SentIn S ouiMap capacity s₀ acts (event, origin)) ∧
      ∀ item ∈ s.channel, SentIn S ouiMap capacity s₀ acts item) ?_ ?_ h
  · exact ⟨⟨[], [], rfl, rfl, by simp⟩, by simp [hempty]⟩
  · rintro acts outs s a s' o hrun ⟨⟨bs, outs', hbs, hem, hrecv⟩, hchan⟩ hs
    rcases pipeline_step_cases S ouiMap capacity hs with ⟨he, rfl, hc⟩ | ⟨b, hb, hsub, hb'⟩
    · refine ⟨⟨bs, outs', he ▸ hbs, ?_, fun event origin hm => (hrecv event origin hm).snoc a⟩, ?_⟩
      · rw [hem, emissions_append, emissions_singleton, Option.toList_none, List.append_nil]
      · intro item hi
        rcases mem_trySendAll (hc ▸ hi) with hi | hi
        · exact (hchan item hi).snoc a
        · exact ⟨acts, a, [], s, outs, rfl, hrun, hi⟩
    · refine ⟨⟨bs ++ [b], outs' ++ [o], (engine S).run_snoc.mpr ⟨_, _, _, hbs, hb, rfl⟩, ?_, ?_⟩,
        fun item hi => (hchan item (hsub item hi)).snoc a⟩
      · rw [emissions_append, emissions_append, hem]
      · intro event origin hm
        rcases List.mem_append.mp hm with hm | hm
        · exact (hrecv event origin hm).snoc a
        · exact (hchan _ (hb' event origin (List.mem_singleton.mp hm).symm)).snoc a

/-- **An alert comes from an event that a step of the pipeline sent.** -/
theorem alert_of_sent {rules : List Rule} {store : σ} {clock : Nat} {s : PipelineState σ}
    {acts : List PipelineAction} {outs : List (Option (Emission Origin))}
    (h : (pipeline S ouiMap capacity).run (.start rules store clock) acts = some (s, outs))
    {e : Emission Origin} (he : e ∈ emissions outs) {r : Rule} (hr : rules[e.rule]? = some r) :
    ∃ event, r.condition.matches event = true ∧ event.device.mac = e.alert.mac ∧
      SentIn S ouiMap capacity (.start rules store clock) acts (event, e.label) := by
  obtain ⟨⟨bs, outs', hbs, hem, hrecv⟩, _⟩ := engine_run rfl h
  obtain ⟨bs₁, inputs, bs₂, s₁, outs₁, w, rule, rfl, h₁, hb⟩ :=
    raisedIn_of_mem rfl hbs e (List.mem_append_left _ (hem ▸ he))
  obtain ⟨r', hr', hset⟩ := settings_getElem? (settings_run h₁) hb.due.next
  rw [← hb.position] at hr'
  cases hr.symm.trans hr'
  refine ⟨w.event, ?_, hb.mac.symm, ?_⟩
  · rw [(Rule.of_settings_eq hset).2.2.1]
    exact hb.due.matched
  · rw [hb.label]
    exact hrecv _ _ (List.mem_append_left _ (received_run rfl h₁ w hb.due.working))

/-! ### Protocol changes -/

def AddsProtocol (before after : MemoryStore) (m : MacAddress) : Prop :=
  ∃ d d', before.get m = some d ∧ after.get m = some d' ∧ ∃ p ∈ d'.protocols, p ∉ d.protocols

/-- Every alert of a `protocolChange` rule comes from a packet of the run that added a
protocol to the record of its device. -/
def AlertsOnNewProtocol (S : AlertStore σ) (ouiMap : Nat → Option String) (capacity : Nat)
    (rules : List Rule) (store : σ) (clock : Nat) (acts : List PipelineAction)
    (outs : List (Option (Emission Origin))) : Prop :=
  ∀ e ∈ emissions outs, ∀ r, rules[e.rule]? = some r → r.condition = .protocolChange →
    ∃ acts₁ frame acts₂ s₁ outs₁ s₂ o, acts = acts₁ ++ .packet frame :: acts₂ ∧
      (pipeline S ouiMap capacity).run (.start rules store clock) acts₁ = some (s₁, outs₁) ∧
      (pipeline S ouiMap capacity).step s₁ (.packet frame) = some (s₂, o) ∧
      e.label = .packet s₁.table s₂.table ∧ AddsProtocol s₁.table s₂.table e.alert.mac

/-- A packet with a protocol that the source has shown before brings no new address
and no first name for it. -/
def NoOtherSourceNews (x : Sighting) (d : Device) : Prop :=
  x.protocol ∈ d.protocols → packetIps x.packet ⊆ d.ips ∧
    (d.hostname = none → x.dhcpHostname = none ∧ x.mdnsHostname = none) ∧
    (d.dhcpVendorClass = none → x.dhcpVendorClass = none)

/-- A packet with a protocol that the destination has shown before brings no new
address for it. -/
def NoOtherDestinationNews (x : Sighting) (d : Device) : Prop :=
  x.protocol ∈ d.protocols → packetIps x.packet ⊆ d.ips

/-- A packet tells nothing new about a known device except together with a new
protocol. -/
def NewsIsProtocol (s : PipelineState σ) (a : PipelineAction) : Prop :=
  ∀ frame x, a = .packet frame → sight frame.buf = .ok (some x) →
    (∀ d, s.table.get x.srcMac = some d → NoOtherSourceNews x d) ∧
    ∀ d, s.table.get x.dstMac = some d → x.srcMac ≠ x.dstMac → NoOtherDestinationNews x d

theorem NoOtherSourceNews.new_protocol {x : Sighting} {d : Device} (h : NoOtherSourceNews x d)
    {now : Timestamp} (hc : sourceChanged d (sourceRecord x now d) = true) :
    x.protocol ∉ d.protocols := by
  intro hp
  obtain ⟨hips, hhost, hclass⟩ := h hp
  rw [sourceChanged_iff, sourceRecord_eq, Changed] at hc
  simp only [Finset.union_eq_left.mpr hips, Finset.insert_eq_of_mem hp, ne_eq, not_true_eq_false,
    false_or] at hc
  rcases hc with hc | hc
  · cases hd : d.hostname with
    | none => simp [hd, hhost hd] at hc
    | some name => simp [hd] at hc
  · cases hd : d.dhcpVendorClass with
    | none => simp [hd, hclass hd] at hc
    | some name => simp [hd] at hc

theorem NoOtherDestinationNews.new_protocol {x : Sighting} {d : Device}
    (h : NoOtherDestinationNews x d) {now : Timestamp}
    (hc : destinationChanged d (destinationRecord x now d) = true) : x.protocol ∉ d.protocols := by
  intro hp
  rw [destinationChanged_iff, destinationRecord_eq, Changed] at hc
  simp [Finset.union_eq_left.mpr (h hp), Finset.insert_eq_of_mem hp] at hc

theorem endpointEvents_of_updated {prev : Option Device} {fresh d : Device}
    {record : Device → Device} {changed : Device → Device → Bool}
    (h : .deviceUpdated d ∈ endpointEvents prev fresh record changed) :
    ∃ d₀, prev = some d₀ ∧ changed d₀ (record d₀) = true := by
  unfold endpointEvents at h
  split at h
  · simp at h
  · next d₀ =>
    split at h
    · next hc => exact ⟨d₀, rfl, hc⟩
    · simp at h

/-- **An update of a packet without other news adds a protocol.** -/
theorem addsProtocol_of_updated {s : PipelineState σ} {frame : Frame} {table : MemoryStore}
    {events : List DiscoveryEvent} {d : Device} (hnews : NewsIsProtocol s (.packet frame))
    (hs : (discovery ouiMap).step s.table frame = some (table, events))
    (hd : .deviceUpdated d ∈ events) : AddsProtocol s.table table d.mac := by
  have hmem : .deviceUpdated d ∈ eventsFor d.mac events :=
    List.mem_filter.mpr ⟨hd, by simp [DiscoveryEvent.device]⟩
  cases macStep_of_step ouiMap hs d.mac with
  | absent _ _ hevs =>
    rw [hevs] at hmem
    exact absurd hmem List.not_mem_nil
  | source x hx hsrc hget hevs =>
    rw [hevs] at hmem
    obtain ⟨d₀, hd₀, hc⟩ := endpointEvents_of_updated hmem
    rw [oldSource, hd₀, Option.getD_some] at hget
    have hnew := ((hnews frame x rfl hx).1 d₀ hd₀).new_protocol hc
    refine ⟨d₀, _, hsrc ▸ hd₀, hget, x.protocol, ?_, hnew⟩
    rw [sourceRecord_eq]
    exact Finset.mem_insert_self _ _
  | destination x hx hsrc hdst hget hevs =>
    rw [hevs] at hmem
    obtain ⟨d₀, hd₀, hc⟩ := endpointEvents_of_updated hmem
    rw [oldDestination, hd₀, Option.getD_some] at hget
    have hnew := ((hnews frame x rfl hx).2 d₀ hd₀ fun he =>
      hsrc (hdst.trans he.symm)).new_protocol hc
    refine ⟨d₀, _, hdst ▸ hd₀, hget, x.protocol, ?_, hnew⟩
    rw [destinationRecord_eq]
    exact Finset.mem_insert_self _ _

/-- **Where packets bring no other news, protocol alerts are about new protocols.** -/
theorem alerts_on_new_protocol {rules : List Rule} {store : σ} {clock : Nat}
    {s : PipelineState σ} {acts : List PipelineAction} {outs : List (Option (Emission Origin))}
    (h : (pipeline S ouiMap capacity).run (.start rules store clock) acts = some (s, outs))
    (hok : (pipeline S ouiMap capacity).Meets NewsIsProtocol (.start rules store clock) acts) :
    AlertsOnNewProtocol S ouiMap capacity rules store clock acts outs := by
  intro e he r hr hcond
  obtain ⟨event, hmatch, hmac, acts₁, a, acts₂, s₁, outs₁, rfl, h₁, hsent⟩ := alert_of_sent h he hr
  have hnews := (pipeline S ouiMap capacity).meets_iff.mp hok acts₁ a acts₂ s₁ outs₁ rfl h₁
  rw [hcond] at hmatch
  cases a with
  | packet frame =>
    simp only [sent] at hsent
    split at hsent
    · next table events hs =>
      obtain ⟨event', hmem, heq⟩ := List.mem_map.mp hsent
      obtain ⟨rfl, hlabel⟩ := Prod.mk.inj heq
      cases event' with
      | deviceUpdated d =>
        refine ⟨acts₁, frame, acts₂, s₁, outs₁, { s₁ with
            table := table
            channel := trySendAll capacity s₁.channel (sent ouiMap s₁ (.packet frame)) }, none,
          rfl, h₁, ?_, hlabel.symm, hmac ▸ addsProtocol_of_updated hnews hs hmem⟩
        simp only [pipeline, pipelineStep, hs]
      | deviceDiscovered d => cases hmatch
      | deviceOffline d => cases hmatch
    · exact absurd hsent List.not_mem_nil
  | tick now =>
    obtain ⟨event', hmem, heq⟩ := List.mem_map.mp hsent
    obtain ⟨rfl, _⟩ := Prod.mk.inj heq
    obtain ⟨d, _, rfl⟩ := List.mem_map.mp hmem
    cases hmatch
  | receive => exact absurd hsent List.not_mem_nil
  | engine b => exact absurd hsent List.not_mem_nil

end Runs

/-! ### A device that gets a new address -/

/-- An IPv4 packet of protocol 253 from `00:11:22:33:44:55` to `66:77:88:99:AA:BB`, sent
from the address `10.0.0.n`. -/
def addressFrame (n : UInt8) : Frame where
  buf := ⟨[0x66, 0x77, 0x88, 0x99, 0xaa, 0xbb, 0x00, 0x11, 0x22, 0x33, 0x44, 0x55, 8, 0,
    0x45, 0, 0, 20, 0, 0, 0, 0, 64, 253, 0, 0, 10, 0, 0, n, 10, 0, 0, 1], 14⟩
  clock := ⟨⟨0⟩, ⟨0⟩, ⟨0⟩⟩

def protocolRule : Rule := .new "protocol-change" true .protocolChange .info 0

def passEvent : List PipelineAction :=
  [.receive, .engine (.evaluate quietInputs), .engine .finish]

def protocolsAround (e : Emission Origin) : Option (Finset Protocol) × Option (Finset Protocol) :=
  match e.label with
  | .packet before after =>
    ((before.get e.alert.mac).map Device.protocols, (after.get e.alert.mac).map Device.protocols)
  | .tick _ => (none, none)

def handleUpdate : List PipelineAction :=
  passEvent ++ passEvent ++
    [.receive, .engine (.evaluate quietInputs), .engine .fire, .engine .finish]

def addressChange : List PipelineAction :=
  .packet (addressFrame 2) :: .packet (addressFrame 3) :: handleUpdate

def otherNews (x : Sighting) : Finset IpAddr × Option String × Option String × Option String :=
  (packetIps x.packet, x.dhcpHostname, x.mdnsHostname, x.dhcpVendorClass)

/-- An ARP frame and a frame of another type: the alert is about the second protocol. -/
theorem alerts_on_new_protocol_bare : ∃ s outs,
    (pipeline InMemoryAlertStore.alertStore (fun _ => none) 1024).run (.start [protocolRule] .new 0)
      (.packet (bareFrame (8, 6)) :: .packet (bareFrame (0x86, 0xdd)) :: handleUpdate) =
        some (s, outs) ∧ (emissions outs).length = 1 ∧
    AlertsOnNewProtocol InMemoryAlertStore.alertStore (fun _ => none) 1024 [protocolRule] .new 0
      (.packet (bareFrame (8, 6)) :: .packet (bareFrame (0x86, 0xdd)) :: handleUpdate) outs := by
  have hview : ((pipeline InMemoryAlertStore.alertStore (fun _ => none) 1024).run
      (.start [protocolRule] .new 0)
      (.packet (bareFrame (8, 6)) :: .packet (bareFrame (0x86, 0xdd)) :: handleUpdate)).map
        (fun r => (emissions r.2).length) = some 1 := by decide +kernel
  obtain ⟨⟨s, outs⟩, h, hlen⟩ := Option.map_eq_some_iff.mp hview
  refine ⟨s, outs, h, hlen, alerts_on_new_protocol h ?_⟩
  refine (pipeline InMemoryAlertStore.alertStore (fun _ => none) 1024).meets_iff.mpr ?_
  rintro acts₁ a acts₂ s₁ outs₁ he _ frame x rfl hx
  have hmem : (.packet frame : PipelineAction) ∈
      .packet (bareFrame (8, 6)) :: .packet (bareFrame (0x86, 0xdd)) :: handleUpdate := by
    rw [he]
    simp
  have hnone : otherNews x = (∅, none, none, none) := by
    simp only [handleUpdate, passEvent, List.mem_cons, PipelineAction.packet.injEq, List.mem_append,
      reduceCtorEq, List.not_mem_nil, or_false] at hmem
    rcases hmem with rfl | rfl
    · have hs : (Except.toOption (sight (bareFrame (8, 6)).buf)).join.map otherNews =
          some (∅, none, none, none) := by decide +kernel
      rw [hx] at hs
      simpa [Except.toOption] using hs
    · have hs : (Except.toOption (sight (bareFrame (0x86, 0xdd)).buf)).join.map otherNews =
          some (∅, none, none, none) := by decide +kernel
      rw [hx] at hs
      simpa [Except.toOption] using hs
  simp only [otherNews, Prod.mk.injEq] at hnone
  obtain ⟨hips, hdhcp, hmdns, hclass⟩ := hnone
  constructor
  · intro d _ _
    exact ⟨hips ▸ Finset.empty_subset _, fun _ => ⟨hdhcp, hmdns⟩, fun _ => hclass⟩
  · intro d _ _ _
    exact hips ▸ Finset.empty_subset _

/-- **A new address sets off a protocol alert.** -/
theorem protocol_alert_on_new_address : ∃ s outs,
    (pipeline InMemoryAlertStore.alertStore (fun _ => none) 1024).run
      (.start [protocolRule] .new 0) addressChange = some (s, outs) ∧
    ¬AlertsOnNewProtocol InMemoryAlertStore.alertStore (fun _ => none) 1024 [protocolRule] .new 0
      addressChange outs := by
  obtain ⟨⟨s, outs⟩, h⟩ := Option.isSome_iff_exists.mp
    (by decide +kernel : ((pipeline InMemoryAlertStore.alertStore (fun _ => none) 1024).run
      (.start [protocolRule] .new 0) addressChange).isSome = true)
  refine ⟨s, outs, h, fun hall => ?_⟩
  have hview : ((pipeline InMemoryAlertStore.alertStore (fun _ => none) 1024).run
      (.start [protocolRule] .new 0) addressChange).map
        (fun r => (emissions r.2).map fun e => (e.rule, protocolsAround e)) =
      some [(0, some {.ipv4}, some {.ipv4})] := by decide +kernel
  rw [h, Option.map_some, Option.some.injEq] at hview
  obtain ⟨e, l, he, hev, _⟩ := List.map_eq_cons_iff.mp hview
  obtain ⟨hrule, hprot⟩ := Prod.mk.inj hev
  obtain ⟨_, _, _, s₁, _, s₂, _, _, _, _, hlabel, d, d', hd, hd', p, hp, hnew⟩ :=
    hall e (he ▸ List.mem_cons_self) protocolRule (by rw [hrule]; rfl) rfl
  rw [protocolsAround, hlabel] at hprot
  simp only [hd, hd', Option.map_some, Prod.mk.injEq, Option.some.injEq] at hprot
  rw [hprot.2] at hp
  rw [hprot.1] at hnew
  exact hnew hp

end EdgeShield.Daemon
