import EdgeShield.Config.Config
import EdgeShield.Rules.Engine

/-!
# What the notifiers send

`crates/notify/src/mqtt.rs`, `ntfy.rs` and `fanout.rs`: the fan-out hands every alert of the
rule engine to every notifier, of whatever kind, and the MQTT and ntfy notifiers send the same
JSON body, a `NewDevicePayload` of the device in the alert.  The clients are outside: what they
answer is an input.  A body is the object that its text denotes, fields in order.

The payload was written for new devices and says so in every body.  `named_iff` tells in
which runs of the engine that is true of all alerts: those that send alerts for a discovered
device only.
-/

namespace EdgeShield.Notify

open EdgeShield.Lib EdgeShield.Common EdgeShield.Discovery EdgeShield.Rules

/-! ### The payload -/

/-- A JSON value, as far as the payload has them. -/
inductive JsonValue where
  | null
  | string (s : String)
  deriving DecidableEq, Repr

abbrev JsonObject := List (String × JsonValue)

/-- The text forms of addresses and times, which the standard library and `chrono` give. -/
structure Displays where
  ip : IpAddr → String
  time : Timestamp → String

/-- The element that an iteration over an ordered set meets first. -/
def firstOf {α : Type} [LinearOrder α] (s : Finset α) : Option α := s.sort.head?

structure NewDevicePayload where
  event : String
  mac : String
  ip : Option String
  hostname : Option String
  vendor : Option String
  protocol : String
  firstSeen : String

namespace NewDevicePayload

def fromDevice (text : Displays) (device : Device) (protocol : String) : NewDevicePayload where
  event := "new_device"
  mac := device.mac.toString
  ip := (firstOf device.ips).map text.ip
  hostname := device.hostname
  vendor := device.vendor
  protocol := protocol
  firstSeen := text.time device.firstSeen

def optional : Option String → JsonValue
  | some s => .string s
  | none => .null

/-- `serde_json::to_string`, which does not fail on this type. -/
def toJson (p : NewDevicePayload) : JsonObject :=
  [("event", .string p.event), ("mac", .string p.mac), ("ip", optional p.ip),
    ("hostname", optional p.hostname), ("vendor", optional p.vendor),
    ("protocol", .string p.protocol), ("first_seen", .string p.firstSeen)]

def ofAlert (text : Displays) (alert : Alert) : NewDevicePayload :=
  let device := alert.deviceSnapshot
  let protocol := ((firstOf device.protocols).map Protocol.toString).getD "Unknown"
  fromDevice text device protocol

end NewDevicePayload

/-! ### The notifiers -/

inductive NotifierError where
  | delivery (what : String)
  | config (what : String)
  deriving DecidableEq, Repr

inductive QoS where
  | atMostOnce
  | atLeastOnce
  | exactlyOnce
  deriving DecidableEq, Repr

structure MqttNotifier where
  config : MqttConfig

structure MqttPublish where
  topic : String
  qos : QoS
  retain : Bool
  payload : JsonObject

/-- The publication of an alert, and the result that the client's answer leads to. -/
def MqttNotifier.deliver (text : Displays) (n : MqttNotifier) (answer : Except String Unit)
    (alert : Alert) : MqttPublish × Except NotifierError Unit :=
  let json := (NewDevicePayload.ofAlert text alert).toJson
  let qos : QoS :=
    if n.config.qos = 0 then .atMostOnce
    else if n.config.qos = 1 then .atLeastOnce
    else .exactlyOnce
  (⟨n.config.topic, qos, false, json⟩,
    answer.mapError fun e => .delivery ("MQTT publish failed: " ++ e))

abbrev HeaderMap := AList fun _ : String => String

structure NtfyNotifier where
  url : String
  baseHeaders : HeaderMap

def insertValid (validHeader : String → Bool) (headers : HeaderMap) (name value : String) :
    HeaderMap :=
  if validHeader value then headers.insert name value else headers

def NtfyNotifier.buildHeadersStatic (validHeader : String → Bool) (config : NtfyConfig) :
    HeaderMap :=
  let headers : HeaderMap := ∅
  let headers :=
    match config.token with
    | some token => insertValid validHeader headers "Authorization" ("Bearer " ++ token)
    | none => headers
  let headers :=
    match config.priority with
    | some priority => insertValid validHeader headers "Priority" (Nat.repr priority.toNat)
    | none => headers
  match config.tags with
  | some tags => insertValid validHeader headers "Tags" tags
  | none => headers

/-- `NtfyNotifier::new`; `client` is what building the HTTP client comes to. -/
def NtfyNotifier.new (validHeader : String → Bool) (client : Except String Unit)
    (config : NtfyConfig) : Except NotifierError NtfyNotifier :=
  match client with
  | .error e => .error (.config ("failed to build HTTP client: " ++ e))
  | .ok () =>
    .ok ⟨config.baseUrl ++ "/" ++ config.topic,
      NtfyNotifier.buildHeadersStatic validHeader config⟩

structure NtfyRequest where
  url : String
  headers : HeaderMap
  body : JsonObject

structure HttpStatus where
  code : Nat
  text : String

def HttpStatus.isSuccess (s : HttpStatus) : Bool := 200 ≤ s.code && s.code < 300

def NtfyNotifier.deliver (text : Displays) (validHeader : String → Bool) (n : NtfyNotifier)
    (answer : Except String HttpStatus) (alert : Alert) :
    NtfyRequest × Except NotifierError Unit :=
  let device := alert.deviceSnapshot
  let json := (NewDevicePayload.ofAlert text alert).toJson
  let name := (device.hostname.or device.vendor).getD device.mac.toString
  let title := "[" ++ alert.severity.toString ++ "] " ++ alert.message ++ ": " ++ name ++ " (" ++
    device.mac.toString ++ ")"
  let headers := insertValid validHeader n.baseHeaders "Title" title
  (⟨n.url, headers, json⟩,
    match answer with
    | .ok status =>
      if status.isSuccess then .ok ()
      else .error (.delivery ("ntfy returned status " ++ status.text))
    | .error e => .error (.delivery ("ntfy POST failed: " ++ e)))

/-! ### The fan-out -/

structure Answers where
  mqtt : Except String Unit
  ntfy : Except String HttpStatus

/-- A notifier whose body is a `NewDevicePayload`. -/
inductive PayloadNotifier where
  | mqtt (n : MqttNotifier)
  | ntfy (n : NtfyNotifier)

/-- A delivery: the alert, the body that was sent for it, and the result, which is logged. -/
structure Delivery where
  alert : Alert
  body : JsonObject
  result : Except NotifierError Unit

section Fanout

/-- `NotifierFanout::run`: an error stops neither the notifiers behind it nor the loop.  The
notifiers are of any kind, with what `deliver` makes of the client's answer and of the alert; the
answers are by the positions of the alert and of the notifier. -/
def fanout {ν α δ : Type} (deliver : α → Alert → ν → δ) (notifiers : List ν)
    (answers : Nat → Nat → α) (alerts : List Alert) : List δ :=
  alerts.zipIdx.flatMap fun x => notifiers.zipIdx.map fun n => deliver (answers x.2 n.2) x.1 n.1

variable (text : Displays) (validHeader : String → Bool)

def PayloadNotifier.deliver (answers : Answers) (alert : Alert) :
    PayloadNotifier → Delivery
  | .mqtt n =>
    let (publish, result) := n.deliver text answers.mqtt alert
    ⟨alert, publish.payload, result⟩
  | .ntfy n =>
    let (request, result) := n.deliver text validHeader answers.ntfy alert
    ⟨alert, request.body, result⟩

variable {text validHeader}

theorem alert_deliver (answers : Answers) (alert : Alert) (n : PayloadNotifier) :
    (n.deliver text validHeader answers alert).alert = alert := by
  cases n with
  | mqtt n => rfl
  | ntfy n => rfl

/-- **Every body says `new_device`.** -/
theorem event_deliver (answers : Answers) (alert : Alert) (n : PayloadNotifier) :
    (n.deliver text validHeader answers alert).body.lookup "event" =
      some (.string "new_device") := by
  cases n with
  | mqtt n => rfl
  | ntfy n => rfl

theorem mem_fanout {notifiers : List PayloadNotifier} {answers : Nat → Nat → Answers}
    {alerts : List Alert} {d : Delivery}
    (h : d ∈ fanout (PayloadNotifier.deliver text validHeader) notifiers answers alerts) :
    d.alert ∈ alerts ∧ ∃ n ∈ notifiers, ∃ a, d = n.deliver text validHeader a d.alert := by
  obtain ⟨x, hx, hd⟩ := List.mem_flatMap.mp h
  obtain ⟨n, hn, rfl⟩ := List.mem_map.mp hd
  rw [alert_deliver]
  exact ⟨List.mem_of_getElem? (List.mem_zipIdx_iff_getElem?.mp hx), n.1,
    List.mem_of_getElem? (List.mem_zipIdx_iff_getElem?.mp hn), _, rfl⟩

theorem exists_mem_fanout {notifiers : List PayloadNotifier} (hne : notifiers ≠ [])
    (answers : Nat → Nat → Answers) {alerts : List Alert} {alert : Alert} (h : alert ∈ alerts) :
    ∃ d ∈ fanout (PayloadNotifier.deliver text validHeader) notifiers answers alerts,
      d.alert = alert := by
  obtain ⟨n, hn⟩ := List.exists_mem_of_ne_nil notifiers hne
  obtain ⟨j, hj⟩ := List.mem_iff_getElem?.mp hn
  obtain ⟨i, hi⟩ := List.mem_iff_getElem?.mp h
  refine ⟨n.deliver text validHeader (answers i j) alert, ?_, alert_deliver _ _ _⟩
  exact List.mem_flatMap.mpr ⟨(alert, i), List.mk_mem_zipIdx_iff_getElem?.mpr hi,
    List.mem_map.mpr ⟨(n, j), List.mk_mem_zipIdx_iff_getElem?.mpr hj, rfl⟩⟩

end Fanout

/-! ### The event behind an alert -/

theorem eventType_eq_newDevice {event : DiscoveryEvent} :
    eventType event = .newDevice ↔ isDiscovered event = true := by
  cases event with
  | deviceDiscovered d => exact ⟨fun _ => rfl, fun _ => rfl⟩
  | deviceUpdated d => exact ⟨fun h => (by cases h), fun h => (by cases h)⟩
  | deviceOffline d => exact ⟨fun h => (by cases h), fun h => (by cases h)⟩

section Engine

variable {σ τ : Type} {S : AlertStore σ}

theorem eventType_of_evaluateRule {rule rule' : Rule} {event : DiscoveryEvent} {store store' : σ}
    {now : Nat} {inputs : Inputs} {alert : Alert}
    (h : evaluateRule S rule event store now inputs = (.ok (some alert), rule', store')) :
    alert.eventType = eventType event := by
  by_cases hdue : rule.condition.matches event = true ∧
      rule.cooling event.device.mac now = false
  · cases hack : inputs.ackFails with
    | some e =>
      rw [evaluateRule_of_ackFails hdue.1 hdue.2 hack] at h
      cases h
    | none =>
      obtain ⟨hacked, hunstored, hstored⟩ :=
        @evaluateRule_of_answer _ S rule event store now inputs hdue.1 hdue.2 hack
      cases hanswer : S.isAcknowledged store rule.name event.device.mac with
      | true =>
        rw [hacked hanswer] at h
        cases h
      | false =>
        by_cases hinsert : inputs.insertFails = none
        · rw [hstored hanswer hinsert] at h
          cases h
          rfl
        · rw [hunstored hanswer hinsert] at h
          cases h
          rfl
  · rw [evaluateRule_of_not_due S hdue] at h
    cases h

def InWork (s : EngineState σ τ) : Prop :=
  ∀ w, s.work = some w → ∀ e ∈ w.alerts, e.alert.eventType = eventType w.event

/-- The next alert is sent for a discovered device. -/
def SendsDiscovered (s : EngineState σ τ) : Action τ → Prop
  | .fire => ∀ w ∈ s.work, isDiscovered w.event = true
  | _ => True

instance (s : EngineState σ τ) : ∀ a : Action τ, Decidable (SendsDiscovered s a)
  | .fire => inferInstanceAs (Decidable (∀ w ∈ s.work, isDiscovered w.event = true))
  | .advance _ => .isTrue trivial
  | .call _ => .isTrue trivial
  | .receive _ _ => .isTrue trivial
  | .evaluate _ => .isTrue trivial
  | .finish => .isTrue trivial

theorem inWork_step {s s' : EngineState σ τ} {a : Action τ} {o : Option (Emission τ)}
    (hs : InWork s) (h : (engine S).step s a = some (s', o)) :
    InWork s' ∧ ((o = none ∧ SendsDiscovered s a) ∨
      ∃ w e, a = .fire ∧ o = some e ∧ s.work = some w ∧
        e.alert.eventType = eventType w.event) := by
  cases engineStep_of_step S h with
  | advance elapsed => exact ⟨hs, .inl ⟨rfl, trivial⟩⟩
  | call c => exact ⟨hs, .inl ⟨rfl, trivial⟩⟩
  | receive event label waiting =>
    refine ⟨fun w hw e he => ?_, .inl ⟨rfl, trivial⟩⟩
    cases Option.some.inj hw
    exact absurd he List.not_mem_nil
  | evaluate inputs w rule working next enabled =>
    refine ⟨fun w' hw' e he => ?_, .inl ⟨rfl, trivial⟩⟩
    have halert := fun alert rule' store' =>
      @eventType_of_evaluateRule _ S rule rule' w.event s.store store' s.clock inputs alert
    generalize evaluateRule S rule w.event s.store s.clock inputs = result at hw' halert
    obtain ⟨r, rule', store'⟩ := result
    cases r with
    | error e => cases hw'
    | ok r =>
      cases r with
      | none =>
        cases Option.some.inj hw'
        exact hs w working e he
      | some alert =>
        cases Option.some.inj hw'
        rcases List.mem_append.mp he with he | he
        · exact hs w working e he
        · rw [List.mem_singleton.mp he]
          exact halert alert rule' store' rfl
  | skip inputs w rule working next disabled =>
    refine ⟨fun w' hw' e he => ?_, .inl ⟨rfl, trivial⟩⟩
    cases Option.some.inj hw'
    exact hs w working e he
  | fire w e rest working alerts done =>
    have hmem : e ∈ w.alerts := by
      rw [alerts]
      exact List.mem_cons_self
    refine ⟨fun w' hw' e he => ?_, .inr ⟨w, e, rfl, rfl, working, hs w working e hmem⟩⟩
    cases Option.some.inj hw'
    exact hs w working e (List.mem_of_mem_tail he)
  | finish w working alerts done => exact ⟨fun w' hw' => (by cases hw'), .inl ⟨rfl, trivial⟩⟩

/-- **The alerts of a run** are all for new devices exactly when each is sent while the event
in work is one of a discovered device. -/
theorem emissions_newDevice_iff (acts : List (Action τ)) :
    ∀ {s s' : EngineState σ τ} {outs : List (Option (Emission τ))}, InWork s →
      (engine S).run s acts = some (s', outs) →
      ((∀ e ∈ emissions outs, e.alert.eventType = .newDevice) ↔
        (engine S).Meets SendsDiscovered s acts) := by
  induction acts with
  | nil =>
    intro s s' outs _ hrun
    cases hrun
    exact ⟨fun _ => trivial, fun _ e he => absurd he List.not_mem_nil⟩
  | cons a acts ih =>
    intro s s' outs hs hrun
    obtain ⟨s₁, o, outs', hstep, hrest, rfl⟩ := (engine S).run_cons.mp hrun
    obtain ⟨hs₁, ⟨rfl, hsends⟩ | ⟨w, e, rfl, rfl, hw, htype⟩⟩ := inWork_step hs hstep
    · rw [(engine S).meets_cons_of_step hstep, ← ih hs₁ hrest, and_iff_right hsends]
      rfl
    · rw [(engine S).meets_cons_of_step hstep, ← ih hs₁ hrest]
      show (∀ e' ∈ e :: emissions outs', _) ↔ _
      rw [List.forall_mem_cons, htype, eventType_eq_newDevice]
      refine and_congr_left fun _ => ⟨fun h w' hw' => ?_, fun h => h w hw⟩
      cases Option.some.inj (hw.symm.trans hw')
      exact h

end Engine

/-! ### Rules that are about new devices -/

section Rules

variable {σ τ : Type}

/-- One of the three conditions on discovered devices. -/
def IsNewDevice : RuleCondition → Prop
  | .newDevice => True
  | .newDeviceByVendor _ => True
  | .newDeviceByMacPrefix _ => True
  | .deviceOffline _ => False
  | .protocolChange => False

theorem isDiscovered_of_matches {condition : RuleCondition} {event : DiscoveryEvent}
    (h : IsNewDevice condition) (hmatch : condition.matches event = true) :
    isDiscovered event = true := by
  cases condition with
  | newDevice => exact hmatch
  | newDeviceByVendor vendorFilter => exact (Bool.and_eq_true_iff.mp hmatch).1
  | newDeviceByMacPrefix macPrefix => exact (Bool.and_eq_true_iff.mp hmatch).1
  | deviceOffline afterSeconds => exact absurd h id
  | protocolChange => exact absurd h id

structure OnlyNewDevices (s : EngineState σ τ) : Prop where
  rules : ∀ rule ∈ s.rules, rule.enabled = true → IsNewDevice rule.condition
  work : ∀ w, s.work = some w → s.inFlight ≠ [] → isDiscovered w.event = true

theorem onlyNewDevices_step {S : AlertStore σ} {s s' : EngineState σ τ} {a : Action τ}
    {o : Option (Emission τ)} (hs : OnlyNewDevices s) (h : (engine S).step s a = some (s', o)) :
    OnlyNewDevices s' := by
  refine ⟨fun rule hrule henabled => ?_, fun w' hw' hflight => ?_⟩
  · have hmem : rule.settings ∈ s.rules.map Rule.settings := by
      rw [← settings_step S h]
      exact List.mem_map_of_mem hrule
    obtain ⟨r, hr, hset⟩ := List.mem_map.mp hmem
    obtain ⟨-, hen, hcond, -⟩ := Rule.of_settings_eq hset
    rw [← hcond]
    exact hs.rules r hr (hen.trans henabled)
  · rcases work_step S h with hnone | ⟨event, label, -, hstart⟩ | ⟨w, w₁, hw, hw₁, hevent, -⟩
    · exact absurd (hnone.symm.trans hw') (by simp)
    · exact absurd (by rw [EngineState.inFlight, hstart]; rfl) hflight
    · cases Option.some.inj (hw₁.symm.trans hw')
      rw [hevent]
      rcases step_cases S h with ⟨-, hkept⟩ | ⟨_, w₂, rule, -, hdue, -, -, -⟩
      · refine hs.work w hw fun hnil => hflight ?_
        exact (List.append_eq_nil_iff.mp (hkept.symm.trans hnil)).2
      · cases Option.some.inj (hw.symm.trans hdue.working)
        exact isDiscovered_of_matches
          (hs.rules rule (List.mem_of_getElem? hdue.next) hdue.enabled) hdue.matched

/-- **Rules about new devices only** send alerts for discovered devices only. -/
theorem meets_of_rules {S : AlertStore σ} (acts : List (Action τ)) :
    ∀ {s s' : EngineState σ τ} {outs : List (Option (Emission τ))}, OnlyNewDevices s →
      (engine S).run s acts = some (s', outs) → (engine S).Meets SendsDiscovered s acts := by
  induction acts with
  | nil =>
    intro s s' outs _ _
    exact trivial
  | cons a acts ih =>
    intro s s' outs hs hrun
    obtain ⟨s₁, o, outs', hstep, hrest, rfl⟩ := (engine S).run_cons.mp hrun
    refine ((engine S).meets_cons_of_step hstep).mpr
      ⟨?_, ih (onlyNewDevices_step hs hstep) hrest⟩
    cases engineStep_of_step S hstep with
    | fire w e rest working alerts done =>
      intro w' hw'
      refine hs.work w' hw' ?_
      rw [EngineState.inFlight, working]
      show w.alerts ≠ []
      rw [alerts]
      exact List.cons_ne_nil e rest
    | advance elapsed => exact trivial
    | call c => exact trivial
    | receive event label waiting => exact trivial
    | evaluate inputs w rule working next enabled => exact trivial
    | skip inputs w rule working next disabled => exact trivial
    | finish w working alerts done => exact trivial

end Rules

/-! ### The bodies of a run -/

section Bodies

variable {σ τ : Type}

/-- A body says `new_device` for an alert about a new device only. -/
def Delivery.Named (d : Delivery) : Prop :=
  d.body.lookup "event" = some (.string "new_device") → d.alert.eventType = .newDevice

/-- **The bodies name the event of their alert** in a run exactly when no alert is sent while
the event in work is an update or a device going offline. -/
theorem named_iff (text : Displays) (validHeader : String → Bool) {notifiers : List PayloadNotifier}
    (hne : notifiers ≠ []) (answers : Nat → Nat → Answers) (S : AlertStore σ) (rules : List Rule)
    (store : σ) (clock : Nat) {acts : List (Action τ)} {s : EngineState σ τ}
    {outs : List (Option (Emission τ))}
    (hrun : (engine S).run (.start rules store clock) acts = some (s, outs)) :
    (∀ d ∈ fanout (PayloadNotifier.deliver text validHeader) notifiers answers
        ((emissions outs).map Emission.alert), d.Named) ↔
      (engine S).Meets SendsDiscovered (.start rules store clock) acts := by
  have hstart : InWork (EngineState.start rules store clock : EngineState σ τ) :=
    fun w hw => by cases hw
  rw [← emissions_newDevice_iff acts hstart hrun]
  refine ⟨fun h e he => ?_, fun h d hd hbody => ?_⟩
  · have hmem : e.alert ∈ (emissions outs).map Emission.alert := List.mem_map_of_mem he
    obtain ⟨d, hd, hde⟩ := @exists_mem_fanout text validHeader notifiers hne answers _ _ hmem
    obtain ⟨-, n, -, a, hbody⟩ := mem_fanout hd
    rw [← hde]
    refine h d hd ?_
    rw [hbody]
    exact event_deliver _ _ _
  · obtain ⟨hmem, -⟩ := mem_fanout hd
    obtain ⟨e, he, hde⟩ : ∃ e ∈ emissions outs, e.alert = d.alert := List.mem_map.mp hmem
    rw [← hde]
    exact h e he

end Bodies

/-! ### A camera that goes offline -/

def displays : Displays where
  ip _ := "192.168.1.20"
  time _ := "1970-01-01T00:00:00.000Z"

/-- `HeaderValue::from_str` on ASCII text. -/
def visible (value : String) : Bool := value.toList.all fun c => 32 ≤ c.toNat && c.toNat < 127

def clientsAnswer : Nat → Nat → Answers := fun _ _ => ⟨.ok (), .ok ⟨200, "200 OK"⟩⟩

def bothNotifiers : List PayloadNotifier :=
  [.mqtt ⟨⟨"localhost", 1883, "edgeshield/events/new_device", "edgeshield", none, none, 1⟩⟩,
    .ntfy ⟨"https://ntfy.sh/edgeshield", ∅⟩]

def camera : Device := .new (.ofBytes 0x00 0x11 0x22 0x33 0x44 0x77) ⟨0⟩

def cameraRules : List Rule :=
  [.new "new" true .newDevice .info 0, .new "gone" true (.deviceOffline 300) .warning 0]

def answered : Inputs := ⟨⟨0⟩, [], none, none⟩

def handle (event : DiscoveryEvent) : List (Action Unit) :=
  [.receive event (), .evaluate answered, .evaluate answered, .fire, .finish]

abbrev cameraEngine : Machine (EngineState InMemoryAlertStore Unit) (Action Unit)
    (Option (Emission Unit)) := engine InMemoryAlertStore.alertStore

def cameraStart : EngineState InMemoryAlertStore Unit := .start cameraRules .new 0

def delivered (outs : List (Option (Emission Unit))) : List Delivery :=
  fanout (PayloadNotifier.deliver displays visible) bothNotifiers clientsAnswer
    ((emissions outs).map Emission.alert)

theorem named_iff_discovered :
    ∃ s outs, cameraEngine.run cameraStart (handle (.deviceDiscovered camera)) = some (s, outs) ∧
      (delivered outs).length = 2 ∧ ∀ d ∈ delivered outs, d.Named := by
  have hview : (cameraEngine.run cameraStart (handle (.deviceDiscovered camera))).map
      (fun r => (delivered r.2).length) = some 2 := by decide +kernel
  obtain ⟨⟨s, outs⟩, hrun, hlen⟩ := Option.map_eq_some_iff.mp hview
  have hmeets : cameraEngine.Meets SendsDiscovered cameraStart
      (handle (.deviceDiscovered camera)) := by decide +kernel
  exact ⟨s, outs, hrun, hlen, (named_iff displays visible (List.cons_ne_nil _ _) clientsAnswer
    InMemoryAlertStore.alertStore cameraRules .new 0 hrun).mpr hmeets⟩

/-- **A camera goes offline, and both bodies say `new_device`.** -/
theorem offline_says_new_device :
    (cameraEngine.run cameraStart (handle (.deviceOffline camera))).map (fun r =>
        (delivered r.2).map fun d => (d.alert.eventType, d.body.lookup "event")) =
      some [(.deviceOffline, some (.string "new_device")),
        (.deviceOffline, some (.string "new_device"))] ∧
    ¬∀ acts s outs, cameraEngine.run cameraStart acts = some (s, outs) →
      ∀ d ∈ delivered outs, d.Named := by
  have hview : (cameraEngine.run cameraStart (handle (.deviceOffline camera))).map (fun r =>
        (delivered r.2).map fun d => (d.alert.eventType, d.body.lookup "event")) =
      some [(.deviceOffline, some (.string "new_device")),
        (.deviceOffline, some (.string "new_device"))] := by decide +kernel
  refine ⟨hview, fun hall => ?_⟩
  obtain ⟨⟨s, outs⟩, hrun, hbodies⟩ := Option.map_eq_some_iff.mp hview
  have hmem : (AlertEventType.deviceOffline, some (JsonValue.string "new_device")) ∈
      (delivered outs).map fun d => (d.alert.eventType, d.body.lookup "event") := by
    rw [hbodies]
    exact List.mem_cons_self
  obtain ⟨d, hd, hpair⟩ := List.mem_map.mp hmem
  obtain ⟨htype, hevent⟩ := Prod.mk.inj hpair
  exact absurd (htype.symm.trans (hall _ s outs hrun d hd hevent)) (by decide)

end EdgeShield.Notify
