import EdgeShield.Api.Integrity
import EdgeShield.Tui.App

/-!
# The client of the dashboard

`crates/tui/src/client.rs`: one function for each route that the dashboard uses.  A function
formats a URL, sends a request with the key in its header, and reads the body of the response.

On the way the request passes `reqwest`, axum's router, the handler and `serde_json`.
`remote_eq_direct` says that nothing is lost there: what a function returns is what the call on
the stores returns at the moment at which the request is served (`Call.direct`), with the times
in milliseconds, and the stores are changed as by that call.  The exception is a history with a
counter of a protocol that is known by its number only, which `serde_json` does not write
(`Call.arrives`).  The base URL has to be one for which `reqwest` asks for the path that follows it
(`IsOrigin`).
-/

namespace EdgeShield.Tui

open EdgeShield.Lib EdgeShield.Common EdgeShield.Storage
open EdgeShield.Api (Axum Backend Build Endpoint HandlerError HealthResponse Incoming IsSegment
  MetricsResponse Reply ServerAction ServerEvent ServerState server)

/-! ### The library calls -/

structure HttpResponse where
  status : Nat
  text : Except String String

abbrev Http := String → String → Except String HttpResponse

/-- `serde_json`, for the bodies of the API. -/
structure BodyFormat where
  write : Api.Body → String
  readHealth : String → Except String HealthResponse
  readDevices : String → Except String (List Device)
  readAlerts : String → Except String (List Alert)
  readMetrics : String → Except String MetricsResponse
  readHistory : String → Except String (List DeviceHistorySnapshot)

def SnapshotFitsU64 (s : DeviceHistorySnapshot) : Prop :=
  s.packetCount ≤ u64Max ∧ s.bytesSent ≤ u64Max ∧ s.bytesReceived ≤ u64Max ∧
    ∀ p n, s.protocolStats.lookup p = some n → n ≤ u64Max

/-- What is written is read back, and a text is sent as it is. -/
structure BodyFormat.Lawful (J : BodyFormat) : Prop where
  text : ∀ s, J.write (.text s) = s
  health : ∀ h, J.readHealth (J.write (.health h)) = .ok h
  devices : ∀ l, (∀ d ∈ l, FitsU64 d) → J.readDevices (J.write (.devices l)) = .ok (l.map persisted)
  alerts : ∀ l, (∀ a ∈ l, FitsU64 a.deviceSnapshot) →
    J.readAlerts (J.write (.alerts l)) = .ok (l.map persistedAlert)
  metrics : ∀ m, J.readMetrics (J.write (.metrics m)) = .ok m
  history : ∀ l, (∀ s ∈ l, SnapshotFitsU64 s) → Api.HasMapKeys l →
    J.readHistory (J.write (.history l)) = .ok (l.map persistedSnapshot)

/-! ### The client -/

inductive ClientError where
  | network (e : String)
  | build (e : String)
  | status (url : String) (status : Nat) (body : String)
  | decode (url source : String)
  deriving DecidableEq, Repr

/-- `Display`; `statusText` is that of a status code. -/
def ClientError.toString (statusText : Nat → String) : ClientError → String
  | network e => "network error: " ++ e
  | build e => "client build error: " ++ e
  | status url code body =>
    "unexpected status " ++ statusText code ++ " from " ++ url ++ ": " ++ body
  | decode url source => "invalid response body from " ++ url ++ ": " ++ source

structure HealthSnapshot where
  status : String
  version : String
  deriving DecidableEq, Repr

structure FetchedSnapshot extends Snapshot where
  fetchedAt : Option Nat
  health : Option HealthSnapshot
  metrics : Option MetricsResponse
  lastError : Option String

def trimEndMatches (c : Char) (s : String) : String := String.ofList (s.toList.rdropWhile (· = c))

def isSuccess (status : Nat) : Bool := 200 ≤ status && status < 300

structure Client where
  base : String
  /-- The default header. -/
  authorization : Option String

/-- The value of a response; every function but `acknowledge_alert` ends so. -/
def receive {α : Type} (url : String) (decode : String → Except String α) (resp : HttpResponse) :
    Except ClientError α :=
  if ¬isSuccess resp.status then .error (.status url resp.status (resp.text.toOption.getD ""))
  else
    match resp.text with
    | .error e => .error (.network e)
    | .ok body =>
      match decode body with
      | .error e => .error (.decode url e)
      | .ok parsed => .ok parsed

namespace Client

/-- `Client::new`; `fromStr` is `HeaderValue::from_str`. -/
def new (fromStr : String → Except String String) (base : String) (key : Option String) :
    Except ClientError Client :=
  let base := trimEndMatches '/' base
  match key with
  | none => .ok ⟨base, none⟩
  | some k =>
    match fromStr ("Bearer " ++ k) with
    | .error e => .error (.build e)
    | .ok value => .ok ⟨base, some value⟩

section Calls

variable (c : Client) (J : BodyFormat) (http : Http)

def send {α : Type} (method path : String)
    (receive : String → HttpResponse → Except ClientError α) : Except ClientError α :=
  let url := c.base ++ path
  match http method url with
  | .error e => .error (.network e)
  | .ok resp => receive url resp

def receiveHealth (url : String) (resp : HttpResponse) : Except ClientError HealthSnapshot :=
  (receive url J.readHealth resp).map fun parsed => ⟨parsed.status, parsed.version⟩

def health : Except ClientError HealthSnapshot := c.send http "GET" "/health" (receiveHealth J)

def devices : Except ClientError (List Device) :=
  c.send http "GET" "/devices" fun url => receive url J.readDevices

def alerts : Except ClientError (List Alert) :=
  c.send http "GET" "/alerts" fun url => receive url J.readAlerts

def metrics : Except ClientError MetricsResponse :=
  c.send http "GET" "/metrics" fun url => receive url J.readMetrics

/-- 501: the history is not enabled. -/
def receiveHistory (url : String) (resp : HttpResponse) :
    Except ClientError (List DeviceHistorySnapshot) :=
  if resp.status = 501 then .ok [] else receive url J.readHistory resp

def deviceHistory (mac : String) : Except ClientError (List DeviceHistorySnapshot) :=
  c.send http "GET" ("/devices/" ++ mac ++ "/history") (receiveHistory J)

def receiveAcknowledged (url : String) (resp : HttpResponse) : Except ClientError Unit :=
  if ¬isSuccess resp.status then .error (.status url resp.status (resp.text.toOption.getD ""))
  else .ok ()

def acknowledgeAlert (id : AlertId) : Except ClientError Unit :=
  c.send http "POST" ("/alerts/" ++ Nat.repr id.toNat ++ "/acknowledge") receiveAcknowledged

/-- `Client::snapshot`; `http` has what comes of the four requests, and `now` is the clock read. -/
def snapshot (statusText : Nat → String) (now : Nat) : FetchedSnapshot :=
  let error {α : Type} (result : Except ClientError α) : Option String :=
    match result with
    | .ok _ => none
    | .error e => some (e.toString statusText)
  let health := c.health J http
  let devices := c.devices J http
  let alerts := c.alerts J http
  let metrics := c.metrics J http
  { fetchedAt := some now
    health := health.toOption
    devices := devices.toOption
    alerts := alerts.toOption
    metrics := metrics.toOption
    lastError := (error health).or ((error devices).or ((error alerts).or (error metrics))) }

end Calls

end Client

/-! ### Calls and what they mean -/

inductive Call where
  | health
  | devices
  | alerts
  | metrics
  | deviceHistory (mac : MacAddress)
  | acknowledgeAlert (id : AlertId)

namespace Call

abbrev Value : Call → Type
  | health => HealthSnapshot
  | devices => List Device
  | alerts => List Alert
  | metrics => MetricsResponse
  | deviceHistory _ => List DeviceHistorySnapshot
  | acknowledgeAlert _ => Unit

def run (c : Client) (J : BodyFormat) (http : Http) : (call : Call) → Except ClientError call.Value
  | health => c.health J http
  | devices => c.devices J http
  | alerts => c.alerts J http
  | metrics => c.metrics J http
  | deviceHistory mac => c.deviceHistory J http mac.toString
  | acknowledgeAlert id => c.acknowledgeAlert http id

def method : Call → String
  | acknowledgeAlert _ => "POST"
  | _ => "GET"

def endpoint : Call → Endpoint
  | health => .health
  | devices => .devices
  | alerts => .alerts
  | metrics => .metrics
  | deviceHistory mac => .deviceHistory mac.toString
  | acknowledgeAlert id => .acknowledge (Nat.repr id.toNat)

/-- **The call on the stores**, and the stores after it; an error has a status. -/
def direct {σ ε : Type} (build : Build) (B : Backend σ ε) (env : ε) (uptime : Nat) (s : σ) :
    (call : Call) → Run Empty (Except HandlerError call.Value) × σ
  | health => (.ok (.ok ⟨"ok", build.version⟩), s)
  | devices => (.ok ((B.list s).mapError fun _ => (500, "failed to list devices")), s)
  | alerts => (.ok ((B.listAlerts env s ⟨none, none, none, none⟩).mapError fun _ =>
      (500, "failed to list alerts")), s)
  | metrics => (Api.metrics build.overflowChecks (B.list s) uptime, s)
  | deviceHistory mac =>
    match B.listHistory with
    | none => (.ok (.ok []), s)
    | some listHistory => (.ok ((listHistory env s mac none none (some 90)).mapError fun _ =>
        (500, "failed to list device history")), s)
  | acknowledgeAlert id =>
    let (result, s) := B.acknowledgeAlert s id
    (.ok (result.mapError fun _ => (500, "failed to acknowledge alert")), s)

/-- The value as it comes through: the times in milliseconds. -/
def shown : (call : Call) → call.Value → call.Value
  | health, h => h
  | devices, l => l.map persisted
  | alerts, l => l.map persistedAlert
  | metrics, m => m
  | deviceHistory _, l => l.map persistedSnapshot
  | acknowledgeAlert _, u => u

def Fits : (call : Call) → call.Value → Prop
  | devices, l => ∀ d ∈ l, FitsU64 d
  | alerts, l => ∀ a ∈ l, FitsU64 a.deviceSnapshot
  | deviceHistory _, l => ∀ s ∈ l, SnapshotFitsU64 s
  | _, _ => True

end Call

/-! ### The way of a call -/

def IsPlain (s : String) : Prop := s ≠ "" ∧ ∀ c ∈ s.toList, c.isAlphanum = true ∨ c = ':'

theorem IsPlain.isSegment {s : String} (h : IsPlain s) : IsSegment s := by
  refine ⟨h.1, fun c hc => ?_⟩
  rcases h.2 c hc with halnum | rfl
  · refine ⟨?_, ?_⟩ <;>
    · rintro rfl
      exact absurd halnum (by decide)
  · exact ⟨by decide, by decide⟩

/-- The base is one for which `reqwest` asks for the path that follows it; `target` is the path
and the query of a URL. -/
def IsOrigin (target : String → String × Option String) (base : String) : Prop :=
  ∀ e : Endpoint, (∀ s, e.captured = some s → IsPlain s) → target (base ++ e.path) = (e.path, none)

/-- What `hex::decode` gives for digits in upper case. -/
def HexReads (hexDecode : String → Option (List UInt8)) : Prop :=
  ∀ bytes, hexDecode (String.ofList (bytes.flatMap hexByte)) = some bytes

def Client.request (target : String → String × Option String) (c : Client) (call : Call) :
    Incoming where
  method := ⟨call.method⟩
  path := (target (c.base ++ call.endpoint.path)).1
  query := (target (c.base ++ call.endpoint.path)).2
  authorization := c.authorization
  forwardedFor := none
  connectInfo := none

def BodyFormat.response (J : BodyFormat) (reply : Reply) : HttpResponse :=
  ⟨reply.status, .ok (J.write reply.body)⟩

variable {latest : Nat} {sha256 : List UInt8 → Vector UInt8 32}
  {parseIp : String → Option IpAddr}
  {hexDecode : String → Option (List UInt8)} {build : Build} {axum : Axum}
variable {σ ε ω : Type} {B : Backend σ ε} {change : ω → σ → σ} {logging : Bool}
variable {target : String → String × Option String} {J : BodyFormat} {c : Client}

theorem isAlphanum_hexDigit : ∀ n : Fin 16, (hexDigit n).isAlphanum = true := by decide

theorem isAlphanum_hexByte {b : UInt8} {c : Char} (h : c ∈ hexByte b) : c.isAlphanum = true := by
  have hb := b.toNat_lt
  simp only [hexByte, List.mem_cons, List.not_mem_nil, or_false] at h
  rcases h with rfl | rfl
  · exact isAlphanum_hexDigit ⟨b.toNat / 16, by omega⟩
  · exact isAlphanum_hexDigit ⟨b.toNat % 16, by omega⟩

theorem mem_hexText : ∀ {l : List UInt8} {c : Char},
    c ∈ ((l.map hexByte).intersperse [':']).flatten → c.isAlphanum = true ∨ c = ':' := by
  intro l
  induction l with
  | nil => intro c hc; cases hc
  | cons a l ih =>
    intro c hc
    cases l with
    | nil => exact .inl (isAlphanum_hexByte (by simpa using hc))
    | cons b l =>
      simp only [List.map_cons, List.intersperse_cons_cons, List.flatten_cons, List.mem_append,
        List.mem_singleton] at hc
      rcases hc with ha | rfl | hl
      · exact .inl (isAlphanum_hexByte ha)
      · exact .inr rfl
      · exact ih hl

theorem isPlain_mac (mac : MacAddress) : IsPlain mac.toString := by
  refine ⟨fun h => ?_, fun c hc => ?_⟩
  · have hchars := congrArg String.toList h
    rw [MacAddress.toString, String.toList_ofList] at hchars
    have hlength := mac.bytes.length_toList
    cases hbytes : mac.bytes.toList with
    | nil =>
      rw [hbytes] at hlength
      cases hlength
    | cons a l =>
      rw [hbytes] at hchars
      cases l <;> cases hchars
  · rw [MacAddress.toString, String.toList_ofList] at hc
    exact mem_hexText hc

theorem isPlain_repr (n : Nat) : IsPlain (Nat.repr n) := by
  refine ⟨fun h => ?_, fun c hc => ?_⟩
  · have hchars := congrArg String.toList h
    rw [Nat.toList_repr] at hchars
    exact Nat.toDigits_ne_nil hchars
  · rw [Nat.toList_repr] at hc
    refine .inl ?_
    rw [Char.isAlphanum, Nat.isDigit_of_mem_toDigits (by omega) (by omega) hc, Bool.or_true]

theorem isPlain_captured (call : Call) {s : String} (h : call.endpoint.captured = some s) :
    IsPlain s := by
  cases call with
  | deviceHistory mac =>
    cases h
    exact isPlain_mac mac
  | acknowledgeAlert id =>
    cases h
    exact isPlain_repr _
  | _ => cases h

def Call.handler : Call → Api.Handler
  | health => .health
  | devices => .listDevices
  | alerts => .listAlerts fun _ => none
  | metrics => .metrics
  | deviceHistory mac => .getDeviceHistory mac.toString fun _ => none
  | acknowledgeAlert id => .acknowledgeAlert (Nat.repr id.toNat)

/-- **A request comes to the handler that it is for.** -/
theorem route_request (haxum : axum.Documented) (hbase : IsOrigin target c.base) (call : Call) :
    Api.route axum (c.request target call) = .ok call.handler := by
  have htarget := hbase call.endpoint fun s => isPlain_captured call
  have hmatch := haxum.routes call.endpoint fun s hs => (isPlain_captured call hs).isSegment
  have hparam : ∀ key s, call.endpoint.captured = some s → axum.pathParam key s = .ok s :=
    fun key s hs => haxum.plain key s (isPlain_captured call hs).isSegment
  simp only [Api.route, Client.request, htarget, hmatch]
  cases call with
  | deviceHistory mac =>
    simp only [Call.endpoint, Call.method, Call.handler, Api.onGet, hparam _ _ rfl, haxum.noQuery]
    rfl
  | acknowledgeAlert id =>
    simp only [Call.endpoint, Call.method, Call.handler, hparam _ _ rfl]
    rfl
  | alerts =>
    simp only [Call.endpoint, Call.method, Call.handler, Api.onGet, haxum.noQuery]
    rfl
  | _ => rfl

theorem flatMap_hexByte (a : UInt8) :
    ((hexByte a).flatMap fun d => if d = ':' then [] else [d]) = hexByte a := by
  have hne : ∀ d ∈ hexByte a, (if d = ':' then [] else [d]) = [d] := by
    intro d hd
    rw [if_neg]
    rintro rfl
    exact absurd (isAlphanum_hexByte hd) (by decide)
  rw [List.flatMap_congr hne, List.flatMap_singleton']

theorem replaceChar_hexText (l : List UInt8) : replaceChar ':' ""
    (String.ofList ((l.map hexByte).intersperse [':']).flatten) = String.ofList (l.flatMap hexByte) := by
  have hcut : ∀ s, replaceChar ':' "" s =
      String.ofList (s.toList.flatMap fun d => if d = ':' then [] else [d]) := fun _ => rfl
  rw [hcut, String.toList_ofList]
  congr 1
  induction l with
  | nil => rfl
  | cons a l ih =>
    cases l with
    | nil => simpa using flatMap_hexByte a
    | cons b l =>
      rw [List.map_cons, List.map_cons, List.intersperse_cons_cons, List.flatten_cons,
        List.flatten_cons, List.flatMap_append, List.flatMap_append, flatMap_hexByte, ← List.map_cons,
        ih]
      rfl

/-- **An address is read from its text.** -/
theorem parseMac_toString (hreads : HexReads hexDecode) (mac : MacAddress) :
    Api.parseMac hexDecode mac.toString = .ok mac := by
  have hlength : mac.bytes.toList.length = 6 := mac.bytes.length_toList
  rw [Api.parseMac, MacAddress.toString, replaceChar_hexText, hreads]
  simp only [hlength, dite_true]
  rfl

theorem parseId_repr (id : AlertId) : Api.parseId (Nat.repr id.toNat) = .ok id := by
  have hle : id.toNat ≤ u64Max := by
    have hlt := id.toNat_lt
    have hmax : u64Max = 2 ^ 64 - 1 := rfl
    omega
  simp only [Api.parseId, parseUnsigned_repr hle, UInt64.ofNat_toNat]

def Call.receive (J : BodyFormat) (url : String) (resp : HttpResponse) :
    (call : Call) → Except ClientError call.Value
  | health => Client.receiveHealth J url resp
  | devices => Tui.receive url J.readDevices resp
  | alerts => Tui.receive url J.readAlerts resp
  | metrics => Tui.receive url J.readMetrics resp
  | deviceHistory _ => Client.receiveHistory J url resp
  | acknowledgeAlert _ => Client.receiveAcknowledged url resp

theorem send_of_ok {α : Type} {http : Http} {method path : String} {resp : HttpResponse}
    (receive : String → HttpResponse → Except ClientError α)
    (h : http method (c.base ++ path) = .ok resp) :
    c.send http method path receive = receive (c.base ++ path) resp := by
  simp only [Client.send, h]

theorem run_of_ok {http : Http} {call : Call} {resp : HttpResponse}
    (h : http call.method (c.base ++ call.endpoint.path) = .ok resp) :
    call.run c J http = call.receive J (c.base ++ call.endpoint.path) resp := by
  cases call with
  | health => exact send_of_ok (Client.receiveHealth J) h
  | devices => exact send_of_ok (fun url => receive url J.readDevices) h
  | alerts => exact send_of_ok (fun url => receive url J.readAlerts) h
  | metrics => exact send_of_ok (fun url => receive url J.readMetrics) h
  | deviceHistory mac => exact send_of_ok (Client.receiveHistory J) h
  | acknowledgeAlert id => exact send_of_ok Client.receiveAcknowledged h

/-- What comes of a value on its way; a history may have a counter that JSON has no key for. -/
def Call.arrives (url : String) : (call : Call) → call.Value → Except ClientError call.Value
  | health, h => .ok (health.shown h)
  | devices, l => .ok (devices.shown l)
  | alerts, l => .ok (alerts.shown l)
  | metrics, m => .ok (metrics.shown m)
  | deviceHistory mac, l =>
    if Api.HasMapKeys l then .ok ((deviceHistory mac).shown l)
    else .error (.status url 500 "key must be a string")
  | acknowledgeAlert id, u => .ok ((acknowledgeAlert id).shown u)

def Call.outcome (url : String) (call : Call) :
    Except HandlerError call.Value → Except ClientError call.Value
  | .ok v => call.arrives url v
  | .error (status, message) => .error (.status url status message)

theorem receive_intoReply (hJ : J.Lawful) (call : Call) {ok : call.Value → Reply} {url : String}
    {value : Except HandlerError call.Value} (hstatus : ∀ e, value = .error e → e.1 = 500)
    (hok : ∀ v, value = .ok v → call.receive J url (J.response (ok v)) = call.arrives url v) :
    call.receive J url (J.response (Api.intoReply ok value)) = call.outcome url value := by
  cases hvalue : value with
  | ok v => exact hok v hvalue
  | error e =>
    obtain ⟨status, message⟩ := e
    have h500 : status = 500 := hstatus _ hvalue
    subst h500
    cases call with
    | _ =>
      show Except.error (ClientError.status url 500 (J.write (.text message))) = _
      rw [hJ.text]
      rfl

theorem status_of_mapError {α : Type} {result : Except StorageError α} {message : String} :
    ∀ e, result.mapError (fun _ => (500, message)) = .error e → e.1 = 500 := by
  intro e he
  cases result with
  | ok a => cases he
  | error _ =>
    cases he
    rfl

theorem listDevices_eq (s : σ) :
    Api.listDevices B s = (B.list s).mapError fun _ => (500, "failed to list devices") := by
  rw [Api.listDevices]
  cases B.list s with
  | ok l => rfl
  | error e => rfl

theorem listAlerts_eq (env : ε) (s : σ) : Api.listAlerts build B env s (fun _ => none) =
    (B.listAlerts env s ⟨none, none, none, none⟩).mapError fun _ => (500, "failed to list alerts") := by
  have hfilter : Api.alertFilter build (fun _ => none) = ⟨none, none, none, none⟩ := rfl
  rw [Api.listAlerts, hfilter]
  cases B.listAlerts env s ⟨none, none, none, none⟩ with
  | ok l => rfl
  | error e => rfl

theorem getDeviceHistory_none (hB : B.listHistory = none) (env : ε) (s : σ) (mac : String) :
    Api.getDeviceHistory build hexDecode B env s mac (fun _ => none) = .error (501,
      "device history is not enabled (set database_path and history_snapshot_hours > 0)") := by
  rw [Api.getDeviceHistory, hB]

theorem getDeviceHistory_some (hreads : HexReads hexDecode)
    {listHistory : ε → σ → MacAddress → Option String → Option String → Option Nat →
      Except StorageError (List DeviceHistorySnapshot)} (hB : B.listHistory = some listHistory)
    (env : ε) (s : σ) (mac : MacAddress) :
    Api.getDeviceHistory build hexDecode B env s mac.toString (fun _ => none) =
      (listHistory env s mac none none (some 90)).mapError fun _ =>
        (500, "failed to list device history") := by
  simp only [Api.getDeviceHistory, hB, parseMac_toString hreads, bind, Except.bind, Option.bind,
    Option.none_or]
  cases listHistory env s mac none none (some 90) with
  | ok l => rfl
  | error e => rfl

theorem acknowledgeAlert_eq (s : σ) (id : AlertId) : Api.acknowledgeAlert B s (Nat.repr id.toNat) =
    ((B.acknowledgeAlert s id).1.mapError fun _ => (500, "failed to acknowledge alert"),
      (B.acknowledgeAlert s id).2) := by
  rw [Api.acknowledgeAlert, parseId_repr]
  cases hcall : B.acknowledgeAlert s id with
  | mk result s' =>
    simp only [hcall]
    cases result with
    | ok _ => rfl
    | error e => rfl

theorem status_of_metrics {overflowChecks : Bool} {listed : Except StorageError (List Device)}
    {uptime : Nat} {e : HandlerError}
    (h : Api.metrics overflowChecks listed uptime = .ok (.error e)) : e.1 = 500 := by
  cases listed with
  | error _ =>
    cases h
    rfl
  | ok devices =>
    obtain ⟨_, _, h⟩ := Run.bind_eq_ok.mp h
    obtain ⟨_, _, h⟩ := Run.bind_eq_ok.mp h
    cases h

/-- **A call and its handler.**  The reply of the handler, received, is the call on the stores. -/
theorem receive_run (hJ : J.Lawful) (hreads : HexReads hexDecode) {call : Call} {env : ε}
    {uptime : Nat} {s s' : σ} {result : Run Empty Reply}
    (hfits : ∀ v, (call.direct build B env uptime s).1 = .ok (.ok v) → call.Fits v)
    (h : call.handler.run build hexDecode B env uptime s = (result, s')) :
    ∃ value, call.direct build B env uptime s = (value, s') ∧
      (result = .panic → value = .panic) ∧
      ∀ reply, result = .ok reply → ∃ v, value = .ok v ∧
        ∀ url, call.receive J url (J.response reply) = call.outcome url v := by
  cases call with
  | health =>
    cases h
    refine ⟨_, rfl, fun hpanic => (by cases hpanic), fun reply hreply => ⟨_, rfl, fun url => ?_⟩⟩
    cases hreply
    simp only [Call.receive, Client.receiveHealth, receive, BodyFormat.response, hJ.health]
    rfl
  | devices =>
    cases h
    refine ⟨_, rfl, fun hpanic => (by cases hpanic), fun reply hreply => ⟨_, rfl, fun url => ?_⟩⟩
    cases hreply
    rw [listDevices_eq]
    refine receive_intoReply hJ .devices status_of_mapError fun l hl => ?_
    simp only [Call.receive, receive, BodyFormat.response, hJ.devices l (hfits l (by rw [← hl]; rfl))]
    rfl
  | alerts =>
    cases h
    refine ⟨_, rfl, fun hpanic => (by cases hpanic), fun reply hreply => ⟨_, rfl, fun url => ?_⟩⟩
    cases hreply
    rw [listAlerts_eq]
    refine receive_intoReply hJ .alerts status_of_mapError fun l hl => ?_
    simp only [Call.receive, receive, BodyFormat.response, hJ.alerts l (hfits l (by rw [← hl]; rfl))]
    rfl
  | metrics =>
    cases h
    refine ⟨_, rfl, fun hpanic => ?_, fun reply hreply => ?_⟩
    · cases hvalue : Api.metrics build.overflowChecks (B.list s) uptime with
      | ok value =>
        rw [hvalue] at hpanic
        cases hpanic
      | error fault =>
        cases fault with
        | panic => rfl
        | err e => cases e
    · cases hvalue : Api.metrics build.overflowChecks (B.list s) uptime with
      | error fault =>
        rw [hvalue] at hreply
        cases hreply
      | ok value =>
        rw [hvalue] at hreply
        cases hreply
        refine ⟨value, rfl, fun url => ?_⟩
        refine receive_intoReply hJ .metrics (fun e he => ?_) fun m _ => ?_
        · rw [he] at hvalue
          exact status_of_metrics hvalue
        · simp only [Call.receive, receive, BodyFormat.response, hJ.metrics]
          rfl
  | deviceHistory mac =>
    cases h
    cases hB : B.listHistory with
    | none =>
      simp only [getDeviceHistory_none hB, Call.direct, hB]
      refine ⟨_, rfl, fun hpanic => (by cases hpanic), fun reply hreply => ⟨_, rfl, fun url => ?_⟩⟩
      cases hreply
      rfl
    | some listHistory =>
      simp only [Call.direct, hB] at hfits ⊢
      refine ⟨_, rfl, fun hpanic => (by cases hpanic), fun reply hreply => ⟨_, rfl, fun url => ?_⟩⟩
      cases hreply
      rw [getDeviceHistory_some hreads hB]
      refine receive_intoReply hJ (.deviceHistory mac) status_of_mapError fun l hl => ?_
      rw [Api.historyReply]
      by_cases hkeys : Api.HasMapKeys l
      · rw [if_pos hkeys]
        simp only [Call.receive, Client.receiveHistory, receive, BodyFormat.response,
          hJ.history l (hfits l (by rw [← hl])) hkeys, Call.arrives, if_pos hkeys]
        rfl
      · rw [if_neg hkeys]
        simp only [Call.receive, Client.receiveHistory, receive, BodyFormat.response, hJ.text,
          Call.arrives, if_neg hkeys]
        rfl
  | acknowledgeAlert id =>
    simp only [Call.handler, Api.Handler.run, acknowledgeAlert_eq] at h
    cases h
    refine ⟨_, rfl, fun hpanic => (by cases hpanic), fun reply hreply => ⟨_, rfl, fun url => ?_⟩⟩
    cases hreply
    exact receive_intoReply hJ (.acknowledgeAlert id) status_of_mapError fun _ _ => rfl

theorem served_cases {s s' : ServerState σ} {n : Nat} {env : ε} {uptime durationMs : Nat}
    {r : Incoming} {reply : Option Reply}
    (h : (server latest sha256 parseIp hexDecode build axum B change logging).step s
      (.serve n env uptime durationMs) = some (s', .served r reply durationMs)) :
    ∃ result stores, Api.handle hexDecode build axum B r env uptime s.stores = (result, stores) ∧
      s'.stores = stores ∧
      (result = .panic ∧ reply = none ∨
        ∃ rep, result = .ok rep ∧ reply = some (rep.forMethod r.method)) := by
  generalize hevent : ServerEvent.served r reply durationMs = o at h
  cases Api.serverStep_cases h with
  | panicked inFlight panic =>
    cases hevent
    exact ⟨_, _, panic, rfl, .inl ⟨rfl, rfl⟩⟩
  | served inFlight answer =>
    cases hevent
    exact ⟨_, _, answer, rfl, .inr ⟨_, rfl, rfl⟩⟩

/-- **A call is remote, and nothing else.**  Whenever the request of a call is served, in any state
of the server, the stores are changed as by the call on the stores, and with the response the
function of the client returns what that call returns, with its times in milliseconds, its errors
with their status, and an error for a history that has no JSON; a call that panics has no
response. -/
theorem remote_eq_direct (hJ : J.Lawful) (hreads : HexReads hexDecode) (haxum : axum.Documented)
    (hbase : IsOrigin target c.base) {call : Call} {s s' : ServerState σ} {n : Nat} {env : ε}
    {uptime durationMs : Nat} {reply : Option Reply}
    (hstep : (server latest sha256 parseIp hexDecode build axum B change logging).step s
      (.serve n env uptime durationMs) = some (s', .served (c.request target call) reply durationMs))
    (hfits : ∀ v, (call.direct build B env uptime s.stores).1 = .ok (.ok v) → call.Fits v) :
    ∃ value, call.direct build B env uptime s.stores = (value, s'.stores) ∧
      (reply = none → value = .panic) ∧
      ∀ r, reply = some r → ∃ v, value = .ok v ∧
        ∀ http : Http, http call.method (c.base ++ call.endpoint.path) = .ok (J.response r) →
          call.run c J http = call.outcome (c.base ++ call.endpoint.path) v := by
  have hroute := route_request haxum hbase call
  have hmethod : ∀ r : Reply, r.forMethod (c.request target call).method = r := by
    intro r
    cases call with
    | _ => rfl
  obtain ⟨result, stores, hhandle, hstores, hreply⟩ := served_cases hstep
  rw [Api.handle, hroute] at hhandle
  obtain ⟨value, hdirect, hpanic, hok⟩ := receive_run hJ hreads hfits hhandle
  subst hstores
  refine ⟨value, hdirect, fun hnone => ?_, fun r hr => ?_⟩
  · rcases hreply with ⟨hresult, _⟩ | ⟨_, _, hsome⟩
    · exact hpanic hresult
    · rw [hnone] at hsome
      cases hsome
  · rcases hreply with ⟨_, hnone⟩ | ⟨rep, hresult, hsome⟩
    · rw [hr] at hnone
      cases hnone
    · rw [hr, hmethod rep] at hsome
      cases hsome
      obtain ⟨v, hv, hreceive⟩ := hok r hresult
      refine ⟨v, hv, fun http hhttp => ?_⟩
      rw [run_of_ok hhttp, hreceive]

/-! ### An acknowledgment -/

theorem hexDigits_hexDigit : Api.HexDigits hexDigit := by
  refine ⟨?_, ?_, ?_⟩
  · decide +kernel
  · decide
  · decide

theorem hexReads_decodeHex : HexReads Api.decodeHex := Api.decodeHex_digits hexDigits_hexDigit

theorem countable_timestamp : Countable Timestamp :=
  Function.Injective.countable (f := Timestamp.nanos) fun a b h => by cases a; cases b; cases h; rfl

theorem statsList_injective : Function.Injective statsList := by
  intro stats stats' h
  refine Finmap.ext_lookup fun p => Option.ext fun n => ?_
  rw [← Option.mem_def, ← Option.mem_def, Option.mem_def, Option.mem_def, ← mem_statsList,
    ← mem_statsList, h]

theorem countable_device : Countable Device := by
  have hstring := countable_string
  have htime := countable_timestamp
  have hip : Countable IpAddr := IpAddr.key_injective.countable
  have hprotocol : Countable Protocol := Protocol.rank_injective.countable
  have hmac : Countable MacAddress := MacAddress.toString_injective.countable
  refine Function.Injective.countable (f := fun d : Device =>
    ((d.mac, d.ips, d.hostname, d.firstSeen, d.lastSeen, d.packetCount),
      (d.bytesSent, d.bytesReceived, d.protocols, d.vendor, d.dhcpVendorClass,
        statsList d.protocolStats))) ?_
  intro d d' h
  simp only [Prod.mk.injEq, statsList_injective.eq_iff] at h
  cases d
  cases d'
  simp_all

theorem countable_snapshot : Countable DeviceHistorySnapshot := by
  have hstring := countable_string
  have htime := countable_timestamp
  have hdevice := countable_device
  -- a snapshot has the fields of a device, its date and its own time
  refine Function.Injective.countable (f := fun s : DeviceHistorySnapshot =>
    (s.snapshotDate, s.snapshotTimestamp, (⟨s.mac, s.ips, s.hostname, s.firstSeen, s.lastSeen,
      s.packetCount, s.bytesSent, s.bytesReceived, s.protocols, s.vendor, s.dhcpVendorClass,
      s.protocolStats⟩ : Device))) ?_
  intro s s' h
  cases s
  cases s'
  cases h
  rfl

/-- A type of event as a number and a text. -/
def eventKey : AlertEventType → Nat × String
  | .newDevice => (0, "")
  | .deviceOffline => (1, "")
  | .protocolChange => (2, "")
  | .custom s => (3, s)

theorem countable_alert : Countable Alert := by
  have hstring := countable_string
  have htime := countable_timestamp
  have hdevice := countable_device
  have hmac : Countable MacAddress := MacAddress.toString_injective.countable
  have hid : Countable AlertId := Function.Injective.countable fun _ _ => UInt64.toNat_inj.mp
  have hseverity : Countable Severity := by
    refine Function.Injective.countable (f := Severity.toString) ?_
    intro a b h
    cases a <;> cases b <;> simp_all [Severity.toString]
  have hevent : Countable AlertEventType := by
    refine Function.Injective.countable (f := eventKey) ?_
    intro e e' h
    cases e <;> cases e' <;> simp_all [eventKey]
  refine Function.Injective.countable (f := fun a : Alert => ((a.id, a.ruleName, a.severity,
    a.eventType, a.mac), (a.message, a.deviceSnapshot, a.timestamp, a.acknowledged))) ?_
  intro a a' h
  cases a
  cases a'
  cases h
  rfl

noncomputable def readBack {α : Type} (text : α → String) (f : α → α) (s : String) :
    Except String α :=
  match Function.partialInv text s with
  | some a => .ok (f a)
  | none => .error "expected value at line 1 column 1"

theorem readBack_text {α : Type} {text : α → String} (h : Function.Injective text) (f : α → α)
    (a : α) : readBack text f (text a) = .ok (f a) := by
  simp only [readBack, Function.partialInv_left h]

theorem exists_lawful_body : ∃ J : BodyFormat, J.Lawful := by
  have hstring := countable_string
  have hdevice := countable_device
  have halert := countable_alert
  have hsnapshot := countable_snapshot
  have hhealth : Countable HealthResponse := by
    refine Function.Injective.countable (f := fun h : HealthResponse => (h.status, h.version)) ?_
    intro h h' heq
    cases h
    cases h'
    cases heq
    rfl
  have hmetrics : Countable MetricsResponse := by
    refine Function.Injective.countable (f := fun m : MetricsResponse =>
      (m.totalDevices, m.totalPackets, m.totalBytes, m.uptimeSeconds)) ?_
    intro m m' heq
    cases m
    cases m'
    cases heq
    rfl
  have hnone : ∀ {α : Type} {P : α × String → Prop}, ∀ x ∈ ([] : List (α × String)), P x :=
    fun x hx => absurd hx List.not_mem_nil
  obtain ⟨healthText, hh, -⟩ := exists_text HealthResponse [] hnone hnone
  obtain ⟨devicesText, hd, -⟩ := exists_text (List Device) [] hnone hnone
  obtain ⟨alertsText, ha, -⟩ := exists_text (List Alert) [] hnone hnone
  obtain ⟨metricsText, hm, -⟩ := exists_text MetricsResponse [] hnone hnone
  obtain ⟨historyText, hs, -⟩ := exists_text (List DeviceHistorySnapshot) [] hnone hnone
  let write : Api.Body → String
    | .empty => ""
    | .text s => s
    | .health h => healthText h
    | .devices l => devicesText l
    | .device d => devicesText [d]
    | .history l => historyText l
    | .metrics m => metricsText m
    | .alerts l => alertsText l
    | .alert a => alertsText [a]
  exact ⟨⟨write, readBack healthText id, readBack devicesText (List.map persisted),
    readBack alertsText (List.map persistedAlert), readBack metricsText id,
    readBack historyText (List.map persistedSnapshot)⟩,
    { text := fun _ => rfl
      health := readBack_text hh id
      devices := fun l _ => readBack_text hd _ l
      alerts := fun l _ => readBack_text ha _ l
      metrics := readBack_text hm id
      history := fun l _ _ => readBack_text hs _ l }⟩

/-- The dashboard of `--key a`, at the default URL with a slash. -/
def dashboard : Client := ⟨"http://localhost:8080", some "Bearer a"⟩

example : Client.new .ok "http://localhost:8080/" (some "a") = .ok dashboard := by rfl

def localTarget (url : String) : String × Option String :=
  ((stripPrefix "http://localhost:8080" url).getD "", none)

theorem isOrigin_dashboard : IsOrigin localTarget dashboard.base := by
  intro e _
  have hstrip : stripPrefix "http://localhost:8080" (dashboard.base ++ e.path) = some e.path :=
    stripPrefix_eq_some.mpr rfl
  rw [localTarget, hstrip]
  rfl

instance decidableEqIncoming : DecidableEq Incoming := fun r r' =>
  decidable_of_iff ((r.method = r'.method ∧ r.path = r'.path ∧ r.authorization = r'.authorization) ∧
      r.forwardedFor = r'.forwardedFor ∧ r.connectInfo = r'.connectInfo ∧ r.query = r'.query) <| by
    obtain ⟨⟨_, _, _, _, _⟩, _⟩ := r
    obtain ⟨⟨_, _, _, _, _⟩, _⟩ := r'
    simp [and_assoc]

def served? : ServerEvent ω → Option (Incoming × Option Reply × Nat)
  | .served r reply durationMs => some (r, reply, durationMs)
  | _ => none

theorem eq_of_served? {o : ServerEvent ω} {r : Incoming} {reply : Option Reply} {durationMs : Nat}
    (h : served? o = some (r, reply, durationMs)) : o = .served r reply durationMs := by
  cases o with
  | served r' reply' durationMs' =>
    cases h
    rfl
  | _ => cases h

/-- An alert is raised, and the dashboard asks for its acknowledgment. -/
def acknowledgment : List (ServerAction Rules.InMemoryAlertStore.Scan Alert) :=
  [.outside laptopAlert, .arrive (dashboard.request localTarget (.acknowledgeAlert 1)) 0 0]

theorem remote_eq_direct_acknowledgment : ∃ J : BodyFormat, J.Lawful ∧ ∃ s outs s' reply,
    Api.singleKeyServer.run Api.singleKeyStart acknowledgment = some (s, outs) ∧
      Api.singleKeyServer.step s (.serve 0 Api.inOrder 0 0) = some (s',
        .served (dashboard.request localTarget (.acknowledgeAlert 1)) (some reply) 0) ∧
      (s'.stores.alerts.listAlerts Api.inOrder ⟨none, none, none, none⟩).map
        (fun a => (a.id, a.acknowledged)) = [(1, true)] ∧
      ∀ http : Http, http "POST" "http://localhost:8080/alerts/1/acknowledge" = .ok (J.response reply) →
        dashboard.acknowledgeAlert http 1 = .ok () := by
  obtain ⟨J, hJ⟩ := exists_lawful_body
  have hview : (Api.singleKeyServer.run Api.singleKeyStart acknowledgment).bind (fun r =>
      (Api.singleKeyServer.step r.1 (.serve 0 Api.inOrder 0 0)).map fun t => served? t.2) =
      some (some (dashboard.request localTarget (.acknowledgeAlert 1), some ⟨204, .empty⟩, 0)) := by
    decide +kernel
  have hstores : (Api.singleKeyServer.run Api.singleKeyStart acknowledgment).bind (fun r =>
      (Api.singleKeyServer.step r.1 (.serve 0 Api.inOrder 0 0)).map fun t =>
        ((t.1.stores.alerts.listAlerts Api.inOrder ⟨none, none, none, none⟩).map
          (fun a => (a.id, a.acknowledged)),
        (Except.toOption ((Call.acknowledgeAlert 1).direct ⟨true, u64Max, "0.1.0"⟩ Backend.inMemory
          Api.inOrder 0 r.1.stores).1).map Except.isOk)) = some ([(1, true)], some true) := by
    decide +kernel
  obtain ⟨⟨s, outs⟩, hrun, hrest⟩ := Option.bind_eq_some_iff.mp hview
  obtain ⟨⟨s', o⟩, hstep, hserved⟩ := Option.map_eq_some_iff.mp hrest
  rw [hrun, Option.bind_some, hstep, Option.map_some, Option.some.injEq, Prod.mk.injEq] at hstores
  have hevent : o = .served _ _ _ := eq_of_served? hserved
  subst hevent
  obtain ⟨value, hdirect, -, hcall⟩ := remote_eq_direct hJ hexReads_decodeHex
    Api.documented_segmentRouter isOrigin_dashboard hstep (fun _ _ => trivial)
  obtain ⟨v, rfl, hout⟩ := hcall _ rfl
  refine ⟨J, hJ, s, outs, s', _, hrun, hstep, hstores.1, fun http hhttp => ?_⟩
  have hresult : dashboard.acknowledgeAlert http 1 = _ := hout http hhttp
  have hok : v = .ok () := by
    have hisOk := hstores.2
    rw [hdirect] at hisOk
    cases v with
    | ok u => rfl
    | error e => cases hisOk
  rw [hresult, hok]
  rfl

end EdgeShield.Tui
