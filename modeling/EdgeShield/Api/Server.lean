import EdgeShield.Api.Audit

/-!
# The API server

`serve` in `crates/api/src/api.rs`: the router, with the authentication around it and the audit
around both.  The server works on many requests at once.  A request goes through the
authentication when it arrives, and is then in flight until its handler has run; in between,
other requests arrive and are served, and other parts of the daemon change the stores.  A request
is lost where the authentication or the handler panics.

The router and the extractors are those of axum and are a parameter (`Axum`).  `Documented` is
what is used of them: a path that matches is that of the pattern with what was captured, a
capture without an escape is taken as it is, and a plain capture matches.
-/

namespace EdgeShield.Api

open EdgeShield.Lib EdgeShield.Common

/-! ### Routing -/

/-- A path of the router, with the captured text as it stands in the URL. -/
inductive Endpoint where
  | health
  | devices
  | device (mac : String)
  | deviceHistory (mac : String)
  | metrics
  | metricsPrometheus
  | alerts
  | alert (id : String)
  | acknowledge (id : String)
  deriving DecidableEq, Repr

namespace Endpoint

def path : Endpoint → String
  | health => "/health"
  | devices => "/devices"
  | device mac => "/devices/" ++ mac
  | deviceHistory mac => "/devices/" ++ mac ++ "/history"
  | metrics => "/metrics"
  | metricsPrometheus => "/metrics/prometheus"
  | alerts => "/alerts"
  | alert id => "/alerts/" ++ id
  | acknowledge id => "/alerts/" ++ id ++ "/acknowledge"

def captured : Endpoint → Option String
  | device mac | deviceHistory mac => some mac
  | alert id | acknowledge id => some id
  | _ => none

end Endpoint

/-- The router and the extractors; a rejection is a reply. -/
structure Axum where
  matchPath : String → Option Endpoint
  /-- `Path<String>`: the name of the parameter, and what was captured. -/
  pathParam : String → String → Except Reply String
  /-- `Query<HashMap<String, String>>`. -/
  queryParams : Option String → Except Reply Params

/-- A segment of a path that stands for itself. -/
def IsSegment (s : String) : Prop := s ≠ "" ∧ ∀ c ∈ s.toList, c ≠ '/' ∧ c ≠ '%'

structure Axum.Documented (axum : Axum) : Prop where
  matched : ∀ path e, axum.matchPath path = some e → path = e.path
  routes : ∀ e : Endpoint, (∀ s, e.captured = some s → IsSegment s) →
    axum.matchPath e.path = some e
  plain : ∀ key s, IsSegment s → axum.pathParam key s = .ok s
  noQuery : axum.queryParams none = .ok fun _ => none

structure Incoming extends Request where
  query : Option String

section Router

variable (axum : Axum)

/-- `axum::routing::get`, which takes `HEAD` as well. -/
def onGet (method : Method) (handler : Except Reply Handler) : Except Reply Handler :=
  if method.asStr = "GET" ∨ method.asStr = "HEAD" then handler else .error ⟨405, .empty⟩

/-- The handler of a request, with its arguments, or the reply where there is none. -/
def route (r : Incoming) : Except Reply Handler :=
  match axum.matchPath r.path with
  | none => .error ⟨404, .empty⟩
  | some .health => onGet r.method (.ok .health)
  | some .devices => onGet r.method (.ok .listDevices)
  | some (.device mac) => onGet r.method ((axum.pathParam "mac" mac).map .getDevice)
  | some (.deviceHistory mac) => onGet r.method do
    let mac ← axum.pathParam "mac" mac
    let params ← axum.queryParams r.query
    return .getDeviceHistory mac params
  | some .metrics => onGet r.method (.ok .metrics)
  | some .metricsPrometheus => onGet r.method (.ok .metricsPrometheus)
  | some .alerts => onGet r.method ((axum.queryParams r.query).map .listAlerts)
  | some (.alert id) =>
    if r.method.asStr = "DELETE" then (axum.pathParam "id" id).map .deleteAlert
    else onGet r.method ((axum.pathParam "id" id).map .getAlert)
  | some (.acknowledge id) =>
    if r.method.asStr = "POST" then (axum.pathParam "id" id).map .acknowledgeAlert
    else .error ⟨405, .empty⟩

def Reply.forMethod (method : Method) (reply : Reply) : Reply :=
  if method.asStr = "HEAD" then { reply with body := .empty } else reply

end Router

/-! ### The server -/

structure ServerState (σ : Type) where
  auth : AuthState
  stores : σ
  /-- The requests that have passed the authentication. -/
  inFlight : List Incoming
  /-- The writes to the audit log that are not done. -/
  unwritten : List AuditWrite
  auditLog : List AuditEntry

def ServerState.start {σ : Type} (auth : AuthState) (stores : σ) : ServerState σ :=
  ⟨auth, stores, [], [], []⟩

/-- What happens next; `ω` are the steps of the rest of the daemon. -/
inductive ServerAction (ε ω : Type) where
  /-- A request arrives; `durationMs` is for its audit entry where it is refused. -/
  | arrive (r : Incoming) (now durationMs : Nat)
  /-- The handler of a request in flight runs. -/
  | serve (n : Nat) (env : ε) (uptime durationMs : Nat)
  | outside (w : ω)
  /-- A write to the audit log is done, or fails. -/
  | writeAudit (n : Nat) (timestamp : String) (success : Bool)

inductive ServerEvent (ω : Type) where
  | admitted (r : Incoming)
  /-- The authentication panics: there is no reply, and no audit entry. -/
  | lost (r : Incoming)
  | refused (r : Incoming) (e : AuthError) (reply : Reply) (durationMs : Nat)
  /-- There is no reply where the handler panics. -/
  | served (r : Incoming) (reply : Option Reply) (durationMs : Nat)
  | changed (w : ω)
  | wrote (w : AuditWrite) (success : Bool)

section Server

variable (latest : Nat) (sha256 : List UInt8 → Vector UInt8 32)
  (parseIp : String → Option IpAddr) (hexDecode : String → Option (List UInt8)) (build : Build)
  (axum : Axum)
variable {σ ε ω : Type} (B : Backend σ ε) (change : ω → σ → σ) (logging : Bool)

/-- What a request is answered by its handler, and the stores after it. -/
def handle (r : Incoming) (env : ε) (uptime : Nat) (s : σ) : Run Empty Reply × σ :=
  match route axum r with
  | .error reply => (.ok reply, s)
  | .ok handler => handler.run build hexDecode B env uptime s

/-- The writes for a reply; `logging` is whether there is an audit log and it could be opened. -/
def auditWrites (r : Incoming) (status durationMs : Nat) : List AuditWrite :=
  if logging then (auditMiddleware sha256 r.toRequest status durationMs).toList else []

def serverStep (s : ServerState σ) : ServerAction ε ω → Option (ServerState σ × ServerEvent ω)
  | .arrive r now durationMs =>
    match authMiddleware latest sha256 parseIp s.auth r.toRequest now with
    | (.ok .next, auth) =>
      some ({ s with auth := auth, inFlight := s.inFlight ++ [r] }, .admitted r)
    | (.error _, auth) => some ({ s with auth := auth }, .lost r)
    | (.ok (.refused e), auth) =>
      let reply := e.intoReply
      some ({ s with
        auth := auth
        unwritten := s.unwritten ++ auditWrites sha256 logging r reply.status durationMs },
        .refused r e (reply.forMethod r.method) durationMs)
  | .serve n env uptime durationMs =>
    match s.inFlight[n]? with
    | none => none
    | some r =>
      let (result, stores) := handle hexDecode build axum B r env uptime s.stores
      let s := { s with stores := stores, inFlight := s.inFlight.eraseIdx n }
      match result with
      | .error _ => some (s, .served r none durationMs)
      | .ok reply =>
        some ({ s with
          unwritten := s.unwritten ++ auditWrites sha256 logging r reply.status durationMs },
          .served r (some (reply.forMethod r.method)) durationMs)
  | .outside w => some ({ s with stores := change w s.stores }, .changed w)
  | .writeAudit n timestamp success =>
    match s.unwritten[n]? with
    | none => none
    | some w =>
      some ({ s with
        unwritten := s.unwritten.eraseIdx n
        auditLog := if success then s.auditLog ++ [w.entry timestamp] else s.auditLog },
        .wrote w success)

/-- The served API, with all that happens beside it. -/
def server : Machine (ServerState σ) (ServerAction ε ω) (ServerEvent ω) where
  step := serverStep latest sha256 parseIp hexDecode build axum B change logging

end Server

variable {latest : Nat} {sha256 : List UInt8 → Vector UInt8 32}
  {parseIp : String → Option IpAddr} {hexDecode : String → Option (List UInt8)} {build : Build}
  {axum : Axum}
variable {σ ε ω : Type} {B : Backend σ ε} {change : ω → σ → σ} {logging : Bool}

inductive ServerStep (latest : Nat) (sha256 : List UInt8 → Vector UInt8 32)
    (parseIp : String → Option IpAddr) (hexDecode : String → Option (List UInt8)) (build : Build)
    (axum : Axum) (B : Backend σ ε) (change : ω → σ → σ) (logging : Bool) (s : ServerState σ) :
    ServerAction ε ω → ServerState σ → ServerEvent ω → Prop where
  | admitted {r now durationMs auth}
      (next : authMiddleware latest sha256 parseIp s.auth r.toRequest now = (.ok .next, auth)) :
      ServerStep latest sha256 parseIp hexDecode build axum B change logging s
        (.arrive r now durationMs)
        { s with auth := auth, inFlight := s.inFlight ++ [r] } (.admitted r)
  | lost {r now durationMs auth}
      (panic : authMiddleware latest sha256 parseIp s.auth r.toRequest now = (.panic, auth)) :
      ServerStep latest sha256 parseIp hexDecode build axum B change logging s
        (.arrive r now durationMs) { s with auth := auth } (.lost r)
  | refused {r now durationMs auth e}
      (refusal : authMiddleware latest sha256 parseIp s.auth r.toRequest now =
        (.ok (.refused e), auth)) :
      ServerStep latest sha256 parseIp hexDecode build axum B change logging s
        (.arrive r now durationMs)
        { s with
          auth := auth
          unwritten := s.unwritten ++ auditWrites sha256 logging r e.statusCode durationMs }
        (.refused r e (e.intoReply.forMethod r.method) durationMs)
  | panicked {n r env uptime durationMs stores} (inFlight : s.inFlight[n]? = some r)
      (panic : handle hexDecode build axum B r env uptime s.stores = (.panic, stores)) :
      ServerStep latest sha256 parseIp hexDecode build axum B change logging s
        (.serve n env uptime durationMs)
        { s with stores := stores, inFlight := s.inFlight.eraseIdx n } (.served r none durationMs)
  | served {n r env uptime durationMs stores reply} (inFlight : s.inFlight[n]? = some r)
      (answer : handle hexDecode build axum B r env uptime s.stores = (.ok reply, stores)) :
      ServerStep latest sha256 parseIp hexDecode build axum B change logging s
        (.serve n env uptime durationMs)
        { s with
          stores := stores
          inFlight := s.inFlight.eraseIdx n
          unwritten := s.unwritten ++ auditWrites sha256 logging r reply.status durationMs }
        (.served r (some (reply.forMethod r.method)) durationMs)
  | changed {w} :
      ServerStep latest sha256 parseIp hexDecode build axum B change logging s (.outside w)
        { s with stores := change w s.stores } (.changed w)
  | wrote {n timestamp success w} (unwritten : s.unwritten[n]? = some w) :
      ServerStep latest sha256 parseIp hexDecode build axum B change logging s
        (.writeAudit n timestamp success)
        { s with
          unwritten := s.unwritten.eraseIdx n
          auditLog := if success then s.auditLog ++ [w.entry timestamp] else s.auditLog }
        (.wrote w success)

theorem serverStep_cases {s s' : ServerState σ} {a : ServerAction ε ω} {o : ServerEvent ω}
    (h : (server latest sha256 parseIp hexDecode build axum B change logging).step s a =
      some (s', o)) :
    ServerStep latest sha256 parseIp hexDecode build axum B change logging s a s' o := by
  cases a with
  | arrive r now durationMs =>
    simp only [server, serverStep] at h
    cases hauth : authMiddleware latest sha256 parseIp s.auth r.toRequest now with
    | mk result auth =>
      rw [hauth] at h
      cases result with
      | ok response =>
        cases response with
        | next => cases h; exact .admitted hauth
        | refused e => cases h; exact .refused hauth
      | error fault =>
        cases h
        cases fault with
        | panic => exact .lost hauth
        | err e => cases e
  | serve n env uptime durationMs =>
    simp only [server, serverStep] at h
    cases hr : s.inFlight[n]? with
    | none => rw [hr] at h; cases h
    | some r =>
      rw [hr] at h
      cases hhandle : handle hexDecode build axum B r env uptime s.stores with
      | mk result stores =>
        simp only [hhandle] at h
        cases result with
        | ok reply => cases h; exact .served hr hhandle
        | error fault =>
          cases h
          cases fault with
          | panic => exact .panicked hr hhandle
          | err e => cases e
  | outside w => cases h; exact .changed
  | writeAudit n timestamp success =>
    simp only [server, serverStep] at h
    cases hw : s.unwritten[n]? with
    | none => rw [hw] at h; cases h
    | some w => rw [hw] at h; cases h; exact .wrote hw

/-! ### A router for plain requests -/

namespace Endpoint

/-- What stands between the slashes. -/
def segments : Endpoint → List String
  | health => ["health"]
  | devices => ["devices"]
  | device mac => ["devices", mac]
  | deviceHistory mac => ["devices", mac, "history"]
  | metrics => ["metrics"]
  | metricsPrometheus => ["metrics", "prometheus"]
  | alerts => ["alerts"]
  | alert id => ["alerts", id]
  | acknowledge id => ["alerts", id, "acknowledge"]

def ofSegments : List String → Option Endpoint
  | ["health"] => some health
  | ["devices"] => some devices
  | ["devices", mac] => some (device mac)
  | ["devices", mac, "history"] => some (deviceHistory mac)
  | ["metrics"] => some metrics
  | ["metrics", "prometheus"] => some metricsPrometheus
  | ["alerts"] => some alerts
  | ["alerts", id] => some (alert id)
  | ["alerts", id, "acknowledge"] => some (acknowledge id)
  | _ => none

theorem ofSegments_segments (e : Endpoint) : ofSegments e.segments = some e := by
  cases e <;> rfl

theorem segments_of_ofSegments {l : List String} {e : Endpoint} (h : ofSegments l = some e) :
    l = e.segments := by
  unfold ofSegments at h
  split at h <;> cases h <;> rfl

theorem toList_path (e : Endpoint) :
    e.path.toList = ['/'].intercalate ([] :: e.segments.map String.toList) := by
  cases e <;> simp [path, segments, String.toList_append]

end Endpoint

/-- The router, for captures without an escape and requests without a query. -/
def segmentRouter : Axum where
  matchPath path :=
    match (path.toList.splitOn '/').map String.ofList with
    | "" :: segments => (Endpoint.ofSegments segments).filter fun e => e.captured ≠ some ""
    | _ => none
  pathParam _ s := if '%' ∈ s.toList then .error ⟨400, .empty⟩ else .ok s
  queryParams query :=
    match query with
    | none => .ok fun _ => none
    | some _ => .error ⟨400, .empty⟩

theorem documented_segmentRouter : segmentRouter.Documented := by
  refine ⟨fun path e h => ?_, fun e h => ?_, fun key s h => ?_, rfl⟩
  · simp only [segmentRouter] at h
    split at h
    · next segments hsplit =>
      have he := Endpoint.segments_of_ofSegments (Option.filter_eq_some_iff.mp h).1
      apply String.toList_injective
      have hlists := congrArg (List.map String.toList) hsplit
      rw [List.map_map] at hlists
      have hid : (String.toList ∘ String.ofList) = id := funext fun l => String.toList_ofList
      rw [hid, List.map_id, List.map_cons, he] at hlists
      have hjoin : ['/'].intercalate (path.toList.splitOn '/') = path.toList :=
        List.intercalate_splitOn '/'
      rw [Endpoint.toList_path, ← hjoin, hlists]
      rfl
    · cases h
  · have hslash : ∀ l ∈ [] :: e.segments.map String.toList, '/' ∉ l := by
      intro l hl
      rcases List.mem_cons.mp hl with rfl | hl
      · exact List.not_mem_nil
      obtain ⟨s, hs, rfl⟩ := List.mem_map.mp hl
      by_cases hcap : e.captured = some s
      · exact fun hc => ((h s hcap).2 '/' hc).1 rfl
      · -- the other segments are fixed
        have hfixed : s ∈ ["health", "devices", "history", "metrics", "prometheus", "alerts",
            "acknowledge"] := by
          cases e <;> simp_all [Endpoint.segments, Endpoint.captured] <;> tauto
        simp only [List.mem_cons, List.not_mem_nil, or_false] at hfixed
        rcases hfixed with rfl | rfl | rfl | rfl | rfl | rfl | rfl <;> decide
    simp only [segmentRouter]
    rw [Endpoint.toList_path, List.splitOn_intercalate '/' hslash (List.cons_ne_nil _ _)]
    have hid : (String.ofList ∘ String.toList) = id := funext fun s => String.ofList_toList
    rw [List.map_cons, List.map_map, hid, List.map_id]
    show (Endpoint.ofSegments e.segments).filter _ = some e
    rw [Endpoint.ofSegments_segments, Option.filter_some, if_pos]
    refine decide_eq_true fun hempty => (h "" hempty).1 rfl
  · simp only [segmentRouter]
    rw [if_neg fun hc => (h.2 '%' hc).2 rfl]

end EdgeShield.Api
