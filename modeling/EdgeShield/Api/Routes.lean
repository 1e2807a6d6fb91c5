import EdgeShield.Api.Auth
import EdgeShield.Api.Metrics
import EdgeShield.Storage.AlertSqlite
import EdgeShield.Storage.HistorySqlite

/-!
# Route handlers

`crates/api/src/routes.rs`.  A handler gets texts out of the path and the query, makes at most
one call on each store, and turns the result into a status and a body.

`Backend` is what the handlers see of the three stores: the trait objects of `AppState`, over
one state.  A method of a store that only reads gives a result for each state, and may depend on
something from outside, in `ε`: the order in which a hash map is read, or the clock.
`Backend.inMemory` and `Backend.sqlite` are those of the daemon without a database and with one.

What depends on the build is in `Build`: the overflow checks, the size of a `usize`, and the
version of the package.
-/

namespace EdgeShield.Api

open EdgeShield.Lib EdgeShield.Common EdgeShield.Storage EdgeShield.Rules

/-! ### Requests and replies -/

structure Build where
  overflowChecks : Bool
  usizeMax : Nat
  version : String

/-- The parameters of a query, a `HashMap<String, String>`. -/
abbrev Params := String → Option String

structure HealthResponse where
  status : String
  version : String
  deriving DecidableEq, Repr

/-- The body of a reply: a text, or what is written as JSON. -/
inductive Body where
  | empty
  | text (s : String)
  | health (h : HealthResponse)
  | devices (devices : List Device)
  | device (d : Device)
  | history (snapshots : List DeviceHistorySnapshot)
  | metrics (m : MetricsResponse)
  | alerts (alerts : List Alert)
  | alert (a : Alert)
  deriving DecidableEq

structure Reply where
  status : Nat
  body : Body
  deriving DecidableEq

def intoReply {α : Type} (ok : α → Reply) : Except HandlerError α → Reply
  | .ok a => ok a
  | .error (status, message) => ⟨status, .text message⟩

def noContent (_ : Unit) : Reply := ⟨204, .empty⟩

/-- A variant without a field: `serde_json` writes its name where a map has it for a key, and
refuses the others. -/
def isMapKey : Protocol → Bool
  | .other _ => false
  | _ => true

def HasMapKeys (snapshots : List DeviceHistorySnapshot) : Prop :=
  ∀ s ∈ snapshots, ∀ p ∈ s.protocolStats.keys, isMapKey p = true

instance (snapshots : List DeviceHistorySnapshot) : Decidable (HasMapKeys snapshots) :=
  inferInstanceAs (Decidable (∀ s ∈ snapshots, ∀ p ∈ s.protocolStats.keys, isMapKey p = true))

/-- `Json` of a history: where `serde_json` fails, its error. -/
def historyReply (snapshots : List DeviceHistorySnapshot) : Reply :=
  if HasMapKeys snapshots then ⟨200, .history snapshots⟩ else ⟨500, .text "key must be a string"⟩

def AuthError.statusCode : AuthError → Nat
  | missingHeader | malformedHeader | invalidKey => 401
  | insufficientPermission => 403
  | rateLimited => 429
  | noKeyConfigured => 500

def AuthError.intoReply (e : AuthError) : Reply :=
  let body := match e with
    | rateLimited => "rate limit exceeded — too many failed attempts"
    | insufficientPermission => "insufficient permission — admin key required"
    | _ => "unauthorized"
  ⟨e.statusCode, .text body⟩

/-! ### The stores -/

/-- The stores behind `AppState`, over one state; there may be no history store. -/
structure Backend (σ ε : Type) where
  list : σ → Except StorageError (List Device)
  get : σ → MacAddress → Except StorageError (Option Device)
  listHistory : Option (ε → σ → MacAddress → Option String → Option String → Option Nat →
    Except StorageError (List DeviceHistorySnapshot))
  listAlerts : ε → σ → AlertFilter → Except StorageError (List Alert)
  getAlert : ε → σ → AlertId → Except StorageError (Option Alert)
  acknowledgeAlert : σ → AlertId → Except StorageError Unit × σ
  deleteAlert : σ → AlertId → Except StorageError Unit × σ
  countAlerts : σ → Except StorageError Nat

structure MemoryStores where
  devices : MemoryStore
  alerts : InMemoryAlertStore

def Backend.inMemory : Backend MemoryStores InMemoryAlertStore.Scan where
  list s := .ok s.devices.list
  get s mac := .ok (s.devices.get mac)
  listHistory := none
  listAlerts scan s filter := .ok (s.alerts.listAlerts scan filter)
  getAlert _ s id := .ok (s.alerts.getAlert id)
  acknowledgeAlert s id :=
    match s.alerts.acknowledgeAlert id with
    | .ok alerts => (.ok (), { s with alerts := alerts })
    | .error e => (.error e, s)
  deleteAlert s id := (.ok (), { s with alerts := s.alerts.deleteAlert id })
  countAlerts s := .ok s.alerts.countAlerts

structure SqliteStores where
  devices : SqliteStore
  alerts : SqliteAlertStore
  history : SqliteHistoryStore

/-- The clock reads for rows whose times do not parse. -/
structure RowReads where
  alert : Int64 → Timestamp
  history : HistoryRow → RowClock

/-- `historyEnabled` is `history_snapshot_hours > 0`. -/
def Backend.sqlite (F : TextFormats) (J : SnapshotFormat) (historyEnabled : Bool) :
    Backend SqliteStores RowReads where
  list s := .ok s.devices.cache.list
  get s mac := .ok (s.devices.cache.get mac)
  listHistory :=
    if historyEnabled then some fun reads s => s.history.listHistory F reads.history else none
  listAlerts reads s := s.alerts.listAlerts F J reads.alert
  getAlert reads s := s.alerts.getAlert F J reads.alert
  acknowledgeAlert s id :=
    match s.alerts.acknowledgeAlert id with
    | .ok alerts => (.ok (), { s with alerts := alerts })
    | .error e => (.error e, s)
  deleteAlert s id := (.ok (), { s with alerts := s.alerts.deleteAlert id })
  countAlerts s := .ok s.alerts.countAlerts

/-! ### The handlers -/

section Handlers

variable (build : Build) (hexDecode : String → Option (List UInt8))
variable {σ ε : Type} (B : Backend σ ε)

def health : HealthResponse := ⟨"ok", build.version⟩

def listDevices (s : σ) : Except HandlerError (List Device) :=
  match B.list s with
  | .ok devices => .ok devices
  | .error _ => .error (500, "failed to list devices")

/-- A MAC address out of a path; it stands in the source twice. -/
def parseMac (mac : String) : Except HandlerError MacAddress :=
  match hexDecode (replaceChar ':' "" mac) with
  | none => .error (400, "invalid MAC address: " ++ mac)
  | some bytes =>
    if h : bytes.length = 6 then .ok ⟨⟨bytes.toArray, h⟩⟩
    else .error (400, "invalid MAC address length: " ++ mac)

def getDevice (s : σ) (mac : String) : Except HandlerError Device := do
  let mac ← parseMac hexDecode mac
  match B.get s mac with
  | .ok (some device) => .ok device
  | .ok none => .error (404, "device not found: " ++ mac.toString)
  | .error _ => .error (500, "failed to get device")

def getDeviceHistory (env : ε) (s : σ) (mac : String) (params : Params) :
    Except HandlerError (List DeviceHistorySnapshot) :=
  match B.listHistory with
  | none => .error (501,
      "device history is not enabled (set database_path and history_snapshot_hours > 0)")
  | some listHistory => do
    let mac ← parseMac hexDecode mac
    let limit := ((params "limit").bind (parseUnsigned build.usizeMax)).or (some 90)
    match listHistory env s mac (params "from") (params "to") limit with
    | .ok snapshots => .ok snapshots
    | .error _ => .error (500, "failed to list device history")

/-- The filter of a query; what does not parse is no condition. -/
def alertFilter (params : Params) : AlertFilter where
  severity := (params "severity").bind fun sev => (Severity.fromStr sev).toOption
  acknowledged := (params "acknowledged").bind fun ack =>
    if ack = "true" then some true else if ack = "false" then some false else none
  ruleName := params "rule"
  limit := (params "limit").bind (parseUnsigned build.usizeMax)

def listAlerts (env : ε) (s : σ) (params : Params) : Except HandlerError (List Alert) :=
  match B.listAlerts env s (alertFilter build params) with
  | .ok alerts => .ok alerts
  | .error _ => .error (500, "failed to list alerts")

/-- An alert id out of a path; it stands in the source three times. -/
def parseId (id : String) : Except HandlerError AlertId :=
  match parseUnsigned u64Max id with
  | some n => .ok (UInt64.ofNat n)
  | none => .error (400, "invalid alert id: " ++ id)

def getAlert (env : ε) (s : σ) (id : String) : Except HandlerError Alert := do
  let id ← parseId id
  match B.getAlert env s id with
  | .ok (some alert) => .ok alert
  | .ok none => .error (404, "alert not found: " ++ Nat.repr id.toNat)
  | .error _ => .error (500, "failed to get alert")

def acknowledgeAlert (s : σ) (id : String) : Except HandlerError Unit × σ :=
  match parseId id with
  | .error e => (.error e, s)
  | .ok id =>
    match B.acknowledgeAlert s id with
    | (.ok (), s) => (.ok (), s)
    | (.error _, s) => (.error (500, "failed to acknowledge alert"), s)

def deleteAlert (s : σ) (id : String) : Except HandlerError Unit × σ :=
  match parseId id with
  | .error e => (.error e, s)
  | .ok id =>
    match B.deleteAlert s id with
    | (.ok (), s) => (.ok (), s)
    | (.error _, s) => (.error (500, "failed to delete alert"), s)

inductive Handler where
  | health
  | listDevices
  | getDevice (mac : String)
  | getDeviceHistory (mac : String) (params : Params)
  | metrics
  | metricsPrometheus
  | listAlerts (params : Params)
  | getAlert (id : String)
  | acknowledgeAlert (id : String)
  | deleteAlert (id : String)

/-- The reply of a handler, and the stores after it; a handler that panics does not reply.
`uptime` is the clock read of the two that report it. -/
def Handler.run (env : ε) (uptime : Nat) (s : σ) : Handler → Run Empty Reply × σ
  | health => (.ok ⟨200, .health (Api.health build)⟩, s)
  | listDevices => (.ok (intoReply (fun l => ⟨200, .devices l⟩) (Api.listDevices B s)), s)
  | getDevice mac => (.ok (intoReply (fun d => ⟨200, .device d⟩) (Api.getDevice hexDecode B s mac)), s)
  | getDeviceHistory mac params => (.ok (intoReply historyReply
      (Api.getDeviceHistory build hexDecode B env s mac params)), s)
  | metrics => ((Api.metrics build.overflowChecks (B.list s) uptime).map
      (intoReply fun m => ⟨200, .metrics m⟩), s)
  | metricsPrometheus => ((Api.metricsPrometheus build.overflowChecks (B.list s) uptime
      (B.countAlerts s)).map (intoReply fun body => ⟨200, .text body⟩), s)
  | listAlerts params => (.ok (intoReply (fun l => ⟨200, .alerts l⟩)
      (Api.listAlerts build B env s params)), s)
  | getAlert id => (.ok (intoReply (fun a => ⟨200, .alert a⟩) (Api.getAlert B env s id)), s)
  | acknowledgeAlert id =>
    let (result, s) := Api.acknowledgeAlert B s id
    (.ok (intoReply noContent result), s)
  | deleteAlert id =>
    let (result, s) := Api.deleteAlert B s id
    (.ok (intoReply noContent result), s)

end Handlers

end EdgeShield.Api
