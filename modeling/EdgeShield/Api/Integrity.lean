import EdgeShield.Api.Server
import EdgeShield.Api.RateLimit

/-!
# Who changes the stores, and who reads them

Runs of the API server, with any backend and in any order of the steps.

`stores_run` says what the stores are after a run: the steps of the rest of the daemon and the
calls that requests stand for (`mutation`), in the order in which they were made.  `Cleared` is
what the authentication leaves behind on a request in flight.  From the two follows
`stores_of_adminKey`: with an accepted configuration, each of these calls was that of a request
that showed the admin key.

`refusals_eq` is the other direction.  What a client without a key is told is a function of the
requests that have arrived: it is the same in two servers with different stores.

`accounted_run` counts the requests: each is refused, served or lost to a panic once, or still in
flight, and each that is answered is written to the audit log once, or is still to be written.
-/

namespace EdgeShield.Api

open EdgeShield.Lib EdgeShield.Common EdgeShield.Storage EdgeShield.Rules

variable {latest : Nat} {sha256 : List UInt8 → Vector UInt8 32}
  {parseIp : String → Option IpAddr} {hexDecode : String → Option (List UInt8)} {build : Build}
  {axum : Axum}
variable {σ ε ω : Type} {B : Backend σ ε} {change : ω → σ → σ} {logging : Bool}

/-! ### What the authentication lets pass -/

theorem authorized_of_check {auth : AuthState} {readHash : Vector UInt8 32}
    (hread : auth.readKeyHash = some readHash) {method : Method} {path : String}
    {authHeader : Option String} {clientIp : Option IpAddr} {now failedAt : Nat}
    {granted : Permission}
    (h : (auth.check sha256 method path authHeader clientIp now failedAt).1 = .ok granted) :
    Authorized sha256 readHash auth.adminKeyHash method authHeader := by
  have henabled := AuthState.isEnabled_of_read hread
  simp only [AuthState.check, henabled, not_true_eq_false, if_false] at h
  split at h
  · cases h
  cases htoken : extractBearerToken authHeader with
  | error e => rw [htoken] at h; cases h
  | ok token =>
    obtain ⟨hne, hheader⟩ := extractBearerToken_eq_ok.mp htoken
    refine ⟨token, hne, hheader, ?_⟩
    rw [htoken] at h
    simp only [AuthState.verifyToken, hread, requiredPermission_eq_admin] at h
    by_cases hr : sha256 (utf8Bytes token) = readHash
    · rw [if_pos hr] at h
      cases hadmin : auth.adminKeyHash with
      | none =>
        rw [Option.getD_none, hr]
        exact ite_prop_iff_and.mpr ⟨fun _ => rfl, fun _ => .inl rfl⟩
      | some adminHash =>
        -- the read key does not write when there is an admin key
        rw [hadmin] at h
        simp only [Option.isNone_some, Bool.false_eq_true, if_false, and_true] at h
        split at h
        · cases h
        · next hmethod =>
          rw [if_neg hmethod]
          exact .inl hr
    · rw [if_neg hr] at h
      by_cases ha : auth.adminKeyHash = some (sha256 (utf8Bytes token))
      · rw [ha, Option.getD_some]
        exact ite_prop_iff_and.mpr ⟨fun _ => rfl, fun _ => .inr rfl⟩
      · rw [if_neg ha] at h
        cases h

theorem authMiddleware_next {auth auth' : AuthState} {request : Request} {now : Nat}
    (h : authMiddleware latest sha256 parseIp auth request now = (.ok .next, auth'))
    {readHash : Vector UInt8 32} (hread : auth.readKeyHash = some readHash)
    (hpath : request.path ≠ "/health") :
    Authorized sha256 readHash auth.adminKeyHash request.method request.authorization := by
  rcases authMiddleware_cases latest sha256 parseIp auth hpath now with
    ⟨auth'', result, -, hcheck, -, hanswer⟩ | ⟨ip, -, -, -, -, hanswer⟩
  · have hnext := congrArg Prod.fst (hanswer.symm.trans h)
    cases result with
    | error e => cases hnext
    | ok granted => exact authorized_of_check hread hcheck
  · cases congrArg Prod.fst (hanswer.symm.trans h)

/-! ### The stores after a run -/

def mutation (axum : Axum) (r : Incoming) : Option AlertStore.Call :=
  match route axum r with
  | .ok (.acknowledgeAlert id) => (parseId id).toOption.map .acknowledge
  | .ok (.deleteAlert id) => (parseId id).toOption.map .delete
  | _ => none

def Backend.call (B : Backend σ ε) (s : σ) : AlertStore.Call → σ
  | .acknowledge id => (B.acknowledgeAlert s id).2
  | .delete id => (B.deleteAlert s id).2

theorem stores_acknowledgeAlert (s : σ) (id : String) : (acknowledgeAlert B s id).2 =
    ((parseId id).toOption.map fun id => (B.acknowledgeAlert s id).2).getD s := by
  rw [acknowledgeAlert]
  cases parseId id with
  | error e => rfl
  | ok id =>
    simp only [Except.toOption, Option.map_some, Option.getD_some]
    cases B.acknowledgeAlert s id with
    | mk result s' => cases result <;> rfl

theorem stores_deleteAlert (s : σ) (id : String) : (deleteAlert B s id).2 =
    ((parseId id).toOption.map fun id => (B.deleteAlert s id).2).getD s := by
  rw [deleteAlert]
  cases parseId id with
  | error e => rfl
  | ok id =>
    simp only [Except.toOption, Option.map_some, Option.getD_some]
    cases B.deleteAlert s id with
    | mk result s' => cases result <;> rfl

theorem stores_handle (r : Incoming) (env : ε) (uptime : Nat) (s : σ) :
    (handle hexDecode build axum B r env uptime s).2 = ((mutation axum r).map (B.call s)).getD s := by
  rw [handle, mutation]
  cases route axum r with
  | error reply => rfl
  | ok handler =>
    cases handler with
    | acknowledgeAlert id =>
      show (acknowledgeAlert B s id).2 = _
      rw [stores_acknowledgeAlert, Option.map_map]
      rfl
    | deleteAlert id =>
      show (deleteAlert B s id).2 = _
      rw [stores_deleteAlert, Option.map_map]
      rfl
    | _ => rfl

inductive Effect (ω : Type) where
  | outside (w : ω)
  | request (r : Incoming) (call : AlertStore.Call)

def Effect.apply (B : Backend σ ε) (change : ω → σ → σ) (s : σ) : Effect ω → σ
  | outside w => change w s
  | request _ call => B.call s call

def ServerEvent.effect? (axum : Axum) : ServerEvent ω → Option (Effect ω)
  | changed w => some (.outside w)
  | served r _ _ => (mutation axum r).map (.request r)
  | _ => none

/-- The changes of the stores in a run, in order. -/
def effects (axum : Axum) (outs : List (ServerEvent ω)) : List (Effect ω) :=
  outs.filterMap (ServerEvent.effect? axum)

theorem stores_step {s s' : ServerState σ} {a : ServerAction ε ω} {o : ServerEvent ω}
    (h : ServerStep latest sha256 parseIp hexDecode build axum B change logging s a s' o) :
    s'.stores = ((o.effect? axum).map (Effect.apply B change s.stores)).getD s.stores := by
  have hserved : ∀ r, (((mutation axum r).map (Effect.request r)).map
      (Effect.apply B change s.stores)).getD s.stores =
        ((mutation axum r).map (B.call s.stores)).getD s.stores := by
    intro r
    cases mutation axum r <;> rfl
  cases h with
  | @panicked n r env uptime durationMs stores _ hpanic =>
    show stores = _
    rw [ServerEvent.effect?, hserved, ← @stores_handle hexDecode build axum σ ε B r env uptime,
      hpanic]
  | @served n r env uptime durationMs stores reply _ hanswer =>
    show stores = _
    rw [ServerEvent.effect?, hserved, ← @stores_handle hexDecode build axum σ ε B r env uptime,
      hanswer]
  | _ => rfl

/-- **The stores after a run**: the changes from outside and the calls of the requests. -/
theorem stores_run {s₀ s : ServerState σ} {acts : List (ServerAction ε ω)}
    {outs : List (ServerEvent ω)}
    (h : (server latest sha256 parseIp hexDecode build axum B change logging).run s₀ acts =
      some (s, outs)) :
    s.stores = (effects axum outs).foldl (Effect.apply B change) s₀.stores := by
  refine (server latest sha256 parseIp hexDecode build axum B change logging).run_induction
    (P := fun _ outs s => s.stores = (effects axum outs).foldl (Effect.apply B change) s₀.stores)
    rfl ?_ h
  intro acts outs s a s' o _ ih hs
  have hsnoc : effects axum (outs ++ [o]) = effects axum outs ++ (o.effect? axum).toList := by
    rw [effects, List.filterMap_append, effects]
    cases ho : o.effect? axum with
    | none => rw [List.filterMap_cons_none ho, List.filterMap_nil, Option.toList_none]
    | some e => rw [List.filterMap_cons_some ho, List.filterMap_nil, Option.toList_some]
  rw [stores_step (serverStep_cases hs), hsnoc, List.foldl_append, ← ih]
  cases o.effect? axum <;> rfl

/-- What a request that stands for a call looks like. -/
inductive Asks (axum : Axum) (r : Incoming) : AlertStore.Call → Prop where
  | acknowledge {captured text id} (method : r.method.asStr = "POST")
      (path : r.path = "/alerts/" ++ captured ++ "/acknowledge")
      (param : axum.pathParam "id" captured = .ok text) (parsed : parseId text = .ok id) :
      Asks axum r (.acknowledge id)
  | delete {captured text id} (method : r.method.asStr = "DELETE")
      (path : r.path = "/alerts/" ++ captured)
      (param : axum.pathParam "id" captured = .ok text) (parsed : parseId text = .ok id) :
      Asks axum r (.delete id)

theorem onGet_eq_ok {method : Method} {handler : Except Reply Handler} {x : Handler}
    (h : onGet method handler = .ok x) : handler = .ok x := by
  rw [onGet] at h
  split at h
  · exact h
  · cases h

theorem map_eq_ok {α β ε : Type} {f : α → β} {x : Except ε α} {b : β} (h : x.map f = .ok b) :
    ∃ a, x = .ok a ∧ f a = b := by
  cases x with
  | error e => cases h
  | ok a => exact ⟨a, rfl, Except.ok.inj h⟩

/-- **The writing handlers** are reached by their method and their path only. -/
theorem asks_of_mutation (haxum : axum.Documented) {r : Incoming} {call : AlertStore.Call}
    (h : mutation axum r = some call) : Asks axum r call := by
  rw [mutation] at h
  cases hroute : route axum r with
  | error reply => rw [hroute] at h; cases h
  | ok handler =>
    rw [hroute] at h
    rw [route] at hroute
    cases hmatch : axum.matchPath r.path with
    | none => rw [hmatch] at hroute; cases hroute
    | some e =>
      have hpath := haxum.matched _ e hmatch
      rw [hmatch] at hroute
      cases e with
      | alert captured =>
        simp only at hroute
        split at hroute
        · next hmethod =>
          obtain ⟨text, htext, rfl⟩ := map_eq_ok hroute
          cases hid : parseId text with
          | error e => simp only [hid] at h; cases h
          | ok id =>
            simp only [hid] at h
            cases h
            exact .delete hmethod hpath htext hid
        · obtain ⟨text, -, rfl⟩ := map_eq_ok (onGet_eq_ok hroute)
          cases h
      | acknowledge captured =>
        simp only at hroute
        split at hroute
        · next hmethod =>
          obtain ⟨text, htext, rfl⟩ := map_eq_ok hroute
          cases hid : parseId text with
          | error e => simp only [hid] at h; cases h
          | ok id =>
            simp only [hid] at h
            cases h
            exact .acknowledge hmethod hpath htext hid
        · cases hroute
      | health => cases onGet_eq_ok hroute; cases h
      | devices => cases onGet_eq_ok hroute; cases h
      | metrics => cases onGet_eq_ok hroute; cases h
      | metricsPrometheus => cases onGet_eq_ok hroute; cases h
      | device captured =>
        obtain ⟨mac, -, rfl⟩ := map_eq_ok (onGet_eq_ok hroute)
        cases h
      | alerts =>
        obtain ⟨params, -, rfl⟩ := map_eq_ok (onGet_eq_ok hroute)
        cases h
      | deviceHistory captured =>
        have hhandler := onGet_eq_ok hroute
        cases hmac : axum.pathParam "mac" captured with
        | error e => rw [hmac] at hhandler; cases hhandler
        | ok mac =>
          cases hquery : axum.queryParams r.query with
          | error e => rw [hmac, hquery] at hhandler; cases hhandler
          | ok params => rw [hmac, hquery] at hhandler; cases hhandler; cases h

/-! ### The requests that are served -/

/-- The request has arrived and, unless it is for `/health`, has shown a key for its method. -/
structure Cleared (sha256 : List UInt8 → Vector UInt8 32) (readHash : Vector UInt8 32)
    (adminHash : Option (Vector UInt8 32)) (acts : List (ServerAction ε ω)) (r : Incoming) :
    Prop where
  arrived : ∃ now durationMs, .arrive r now durationMs ∈ acts
  authorized : r.path ≠ "/health" → Authorized sha256 readHash adminHash r.method r.authorization

theorem Cleared.snoc {readHash : Vector UInt8 32} {adminHash : Option (Vector UInt8 32)}
    {acts : List (ServerAction ε ω)} {r : Incoming} (h : Cleared sha256 readHash adminHash acts r)
    (a : ServerAction ε ω) : Cleared sha256 readHash adminHash (acts ++ [a]) r where
  arrived := by
    obtain ⟨now, durationMs, hmem⟩ := h.arrived
    exact ⟨now, durationMs, List.mem_append_left _ hmem⟩
  authorized := h.authorized

/-- What holds of the requests in flight and of those that have been served. -/
structure AllCleared (sha256 : List UInt8 → Vector UInt8 32) (readHash : Vector UInt8 32)
    (start : AuthState) (acts : List (ServerAction ε ω)) (outs : List (ServerEvent ω))
    (s : ServerState σ) : Prop where
  setup : SameSetup start s.auth
  inFlight : ∀ r ∈ s.inFlight, Cleared sha256 readHash start.adminKeyHash acts r
  served : ∀ r reply durationMs, .served r reply durationMs ∈ outs →
    Cleared sha256 readHash start.adminKeyHash acts r

theorem AllCleared.step {readHash : Vector UInt8 32} {start : AuthState}
    (hread : start.readKeyHash = some readHash) {acts : List (ServerAction ε ω)}
    {outs : List (ServerEvent ω)} {s s' : ServerState σ} {a : ServerAction ε ω} {o : ServerEvent ω}
    (h : AllCleared sha256 readHash start acts outs s)
    (hs : ServerStep latest sha256 parseIp hexDecode build axum B change logging s a s' o) :
    AllCleared sha256 readHash start (acts ++ [a]) (outs ++ [o]) s' := by
  have hflight : ∀ r ∈ s.inFlight, Cleared sha256 readHash start.adminKeyHash (acts ++ [a]) r :=
    fun r hr => (h.inFlight r hr).snoc a
  have hserved : (∀ r reply durationMs, o = .served r reply durationMs → r ∈ s.inFlight) →
      ∀ r reply durationMs, .served r reply durationMs ∈ outs ++ [o] →
        Cleared sha256 readHash start.adminKeyHash (acts ++ [a]) r := by
    intro ho r reply durationMs hmem
    rcases List.mem_append.mp hmem with hmem | hmem
    · exact (h.served r reply durationMs hmem).snoc a
    · exact hflight r (ho r reply durationMs (List.mem_singleton.mp hmem).symm)
  cases hs with
  | @admitted r now durationMs auth hnext =>
    have hsame := sameSetup_of_authMiddleware hnext
    refine ⟨h.setup.trans hsame, fun r' hr' => ?_, hserved fun _ _ _ ho => by cases ho⟩
    rcases List.mem_append.mp hr' with hr' | hr'
    · exact hflight r' hr'
    · rw [List.mem_singleton.mp hr']
      refine ⟨⟨now, durationMs, List.mem_append_right _ (List.mem_singleton_self _)⟩, fun hpath => ?_⟩
      rw [← h.setup.admin]
      exact authMiddleware_next hnext (h.setup.read.trans hread) hpath
  | @lost r now durationMs auth hpanic =>
    exact ⟨h.setup.trans (sameSetup_of_authMiddleware hpanic), hflight,
      hserved fun _ _ _ ho => by cases ho⟩
  | @refused r now durationMs auth e hrefusal =>
    exact ⟨h.setup.trans (sameSetup_of_authMiddleware hrefusal), hflight,
      hserved fun _ _ _ ho => by cases ho⟩
  | @panicked n r env uptime durationMs stores hr _ =>
    exact ⟨h.setup, fun r' hr' => hflight r' (List.mem_of_mem_eraseIdx hr'),
      hserved fun _ _ _ ho => by cases ho; exact List.mem_of_getElem? hr⟩
  | @served n r env uptime durationMs stores reply hr _ =>
    exact ⟨h.setup, fun r' hr' => hflight r' (List.mem_of_mem_eraseIdx hr'),
      hserved fun _ _ _ ho => by cases ho; exact List.mem_of_getElem? hr⟩
  | changed => exact ⟨h.setup, hflight, hserved fun _ _ _ ho => by cases ho⟩
  | wrote => exact ⟨h.setup, hflight, hserved fun _ _ _ ho => by cases ho⟩

theorem allCleared_run {readHash : Vector UInt8 32} {start : AuthState}
    (hread : start.readKeyHash = some readHash) {stores : σ} {s : ServerState σ}
    {acts : List (ServerAction ε ω)} {outs : List (ServerEvent ω)}
    (h : (server latest sha256 parseIp hexDecode build axum B change logging).run
      (.start start stores) acts =
      some (s, outs)) : AllCleared sha256 readHash start acts outs s := by
  refine (server latest sha256 parseIp hexDecode build axum B change logging).run_induction
    (P := fun acts outs s => AllCleared sha256 readHash start acts outs s) ?_ ?_ h
  · exact ⟨.refl start, fun r hr => absurd hr List.not_mem_nil,
      fun r _ _ hr => absurd hr List.not_mem_nil⟩
  · intro acts outs s a s' o _ ih hs
    exact ih.step hread (serverStep_cases hs)

structure ConfiguredKeys (hexDecode : String → Option (List UInt8)) (cfg : ApiAuthConfig)
    (readHash : Vector UInt8 32) (adminHash : Option (Vector UInt8 32)) : Prop where
  read : hexDecode cfg.readKeyHash = some readHash.toList
  admin : cfg.adminKeyHash.bind hexDecode = adminHash.map Vector.toList

/-- The request shows the admin key, or the only key where there is one. -/
def ShowsAdminKey (sha256 : List UInt8 → Vector UInt8 32) (readHash : Vector UInt8 32)
    (adminHash : Option (Vector UInt8 32)) (r : Incoming) : Prop :=
  ∃ token, (r.authorization = some ("Bearer " ++ token) ∨
    r.authorization = some ("bearer " ++ token)) ∧
    sha256 (utf8Bytes token) = adminHash.getD readHash

theorem Asks.writes {r : Incoming} {call : AlertStore.Call} (h : Asks axum r call) :
    r.method.asStr ∈ ["POST", "PUT", "PATCH", "DELETE"] ∧ r.path ≠ "/health" := by
  have hne : ∀ text : String, "/alerts/" ++ text ≠ "/health" := by
    intro text htext
    have hchars := congrArg String.toList htext
    rw [String.toList_append] at hchars
    exact absurd (List.cons.inj (List.cons.inj hchars).2).1 (by decide)
  cases h with
  | acknowledge method path =>
    rw [path, String.append_assoc]
    exact ⟨by rw [method]; decide, hne _⟩
  | delete method path =>
    rw [path]
    exact ⟨by rw [method]; decide, hne _⟩

/-- **Only the admin key changes the alerts.**  With an accepted configuration, in every run and
with every backend: the stores are what the rest of the daemon and the calls of some requests
have made of them, each of these requests has arrived and shown the admin key, and its method
and its path are those of the call. -/
theorem stores_of_adminKey (hex : HexDecode hexDecode) (haxum : axum.Documented)
    {tomlFromStr : String → Except String Config} {content : String} {config : Config}
    (hconfig : Config.fromStr tomlFromStr content = .ok config) {cfg : ApiAuthConfig}
    (hcfg : config.api.auth = some cfg) {stores : σ} {s : ServerState σ}
    {acts : List (ServerAction ε ω)} {outs : List (ServerEvent ω)}
    (h : (server latest sha256 parseIp hexDecode build axum B change logging).run
      (.start (AuthState.new hexDecode config.api.auth) stores) acts = some (s, outs)) :
    ∃ readHash adminHash, ConfiguredKeys hexDecode cfg readHash adminHash ∧
      s.stores = (effects axum outs).foldl (Effect.apply B change) stores ∧
      ∀ r call, .request r call ∈ effects axum outs →
        (∃ now durationMs, .arrive r now durationMs ∈ acts) ∧ Asks axum r call ∧
          ShowsAdminKey sha256 readHash adminHash r := by
  rw [hcfg] at h
  obtain ⟨readHash, adminHash, hread, hadmin, hreadText, hadminText, -⟩ :=
    new_of_acceptedAuth hex (acceptedAuth_of_fromStr hconfig hcfg)
  refine ⟨readHash, adminHash, ⟨hreadText, hadminText⟩, stores_run h, fun r call hmem => ?_⟩
  obtain ⟨o, ho, he⟩ := List.mem_filterMap.mp hmem
  cases o with
  | served r' reply durationMs =>
    obtain ⟨call', hcall, heq⟩ := Option.map_eq_some_iff.mp he
    cases heq
    have hcleared := (allCleared_run hread h).served r reply durationMs ho
    have hasks := asks_of_mutation haxum hcall
    obtain ⟨token, -, hheader, hkey⟩ := hcleared.authorized hasks.writes.2
    rw [if_pos hasks.writes.1, hadmin] at hkey
    exact ⟨hcleared.arrived, hasks, token, hheader, hkey⟩
  | changed w => cases he
  | admitted r' => cases he
  | lost r' => cases he
  | refused r' e reply durationMs => cases he
  | wrote w success => cases he

/-! ### What a client without a key is told -/

def arrivals (acts : List (ServerAction ε ω)) : List (Incoming × Nat) :=
  acts.filterMap fun
    | .arrive r now _ => some (r, now)
    | _ => none

def refusals (outs : List (ServerEvent ω)) : List (Incoming × Reply) :=
  outs.filterMap fun
    | .refused r _ reply _ => some (r, reply)
    | _ => none

/-- The authentication alone: a request is let through, refused or lost. -/
def gate (latest : Nat) (sha256 : List UInt8 → Vector UInt8 32)
    (parseIp : String → Option IpAddr) :
    Machine AuthState (Incoming × Nat) (Option (Incoming × Reply)) where
  step auth x :=
    match authMiddleware latest sha256 parseIp auth x.1.toRequest x.2 with
    | (.ok (.refused e), auth) => some (auth, some (x.1, e.intoReply.forMethod x.1.method))
    | (_, auth) => some (auth, none)

/-- **The refusals are those of the authentication alone**, on the requests that arrive. -/
theorem gate_run {s₀ s : ServerState σ} {acts : List (ServerAction ε ω)}
    {outs : List (ServerEvent ω)}
    (h : (server latest sha256 parseIp hexDecode build axum B change logging).run s₀ acts =
      some (s, outs)) :
    ∃ answers, (gate latest sha256 parseIp).run s₀.auth (arrivals acts) = some (s.auth, answers) ∧
      refusals outs = answers.filterMap id := by
  induction acts generalizing s₀ outs with
  | nil =>
    cases h
    exact ⟨[], rfl, rfl⟩
  | cons a acts ih =>
    obtain ⟨u, o, outs, hs, hr, rfl⟩ :=
      (server latest sha256 parseIp hexDecode build axum B change logging).run_cons.mp h
    obtain ⟨answers, hgate, hanswers⟩ := ih hr
    cases serverStep_cases hs with
    | @admitted r now durationMs auth hnext =>
      refine ⟨none :: answers, (gate latest sha256 parseIp).run_cons.mpr
        ⟨auth, none, answers, ?_, hgate, rfl⟩, hanswers⟩
      simp only [gate, hnext]
    | @lost r now durationMs auth hpanic =>
      refine ⟨none :: answers, (gate latest sha256 parseIp).run_cons.mpr
        ⟨auth, none, answers, ?_, hgate, rfl⟩, hanswers⟩
      simp only [gate, hpanic]
      rfl
    | @refused r now durationMs auth e hrefusal =>
      refine ⟨some (r, e.intoReply.forMethod r.method) :: answers,
        (gate latest sha256 parseIp).run_cons.mpr ⟨auth, _, answers, ?_, hgate, rfl⟩, ?_⟩
      · simp only [gate, hrefusal]
      · exact congrArg ((r, e.intoReply.forMethod r.method) :: ·) hanswers
    | panicked => exact ⟨answers, hgate, hanswers⟩
    | served => exact ⟨answers, hgate, hanswers⟩
    | changed => exact ⟨answers, hgate, hanswers⟩
    | wrote => exact ⟨answers, hgate, hanswers⟩

def healthReply (build : Build) (method : Method) : Reply :=
  (if method.asStr = "GET" ∨ method.asStr = "HEAD" then ⟨200, .health (health build)⟩
    else ⟨405, .empty⟩ : Reply).forMethod method

theorem handle_health (haxum : axum.Documented) {r : Incoming} (hpath : r.path = "/health")
    (env : ε) (uptime : Nat) (s : σ) : (handle hexDecode build axum B r env uptime s).1 =
      .ok (if r.method.asStr = "GET" ∨ r.method.asStr = "HEAD" then ⟨200, .health (health build)⟩
        else ⟨405, .empty⟩) := by
  have hmatch : axum.matchPath r.path = some .health :=
    hpath ▸ haxum.routes .health fun s hs => by cases hs
  rw [handle, route, hmatch]
  simp only [onGet]
  by_cases hmethod : r.method.asStr = "GET" ∨ r.method.asStr = "HEAD"
  · simp only [if_pos hmethod]
    rfl
  · simp only [if_neg hmethod]

theorem health_of_served (haxum : axum.Documented) {s₀ s : ServerState σ}
    {acts : List (ServerAction ε ω)} {outs : List (ServerEvent ω)}
    (h : (server latest sha256 parseIp hexDecode build axum B change logging).run s₀ acts =
      some (s, outs))
    {r : Incoming} {reply : Option Reply} {durationMs : Nat}
    (hmem : .served r reply durationMs ∈ outs) (hpath : r.path = "/health") :
    reply = some (healthReply build r.method) := by
  refine (server latest sha256 parseIp hexDecode build axum B change logging).run_induction
    (P := fun _ outs _ => ∀ reply durationMs, .served r reply durationMs ∈ outs →
      reply = some (healthReply build r.method)) (fun _ _ hmem => absurd hmem List.not_mem_nil)
    ?_ h reply durationMs hmem
  intro acts outs s a s' o _ ih hs reply durationMs hmem
  rcases List.mem_append.mp hmem with hmem | hmem
  · exact ih reply durationMs hmem
  have ho := List.mem_singleton.mp hmem
  cases serverStep_cases hs with
  | @panicked n r' env uptime durationMs' stores _ hpanic =>
    cases ho
    have hhealth := @handle_health hexDecode build axum σ ε B haxum r hpath env uptime s.stores
    rw [hpanic] at hhealth
    cases hhealth
  | @served n r' env uptime durationMs' stores reply' _ hanswer =>
    cases ho
    have hhealth := @handle_health hexDecode build axum σ ε B haxum r hpath env uptime s.stores
    rw [hanswer] at hhealth
    rw [Except.ok.inj hhealth, healthReply]
  | admitted => cases ho
  | lost => cases ho
  | refused => cases ho
  | changed => cases ho
  | wrote => cases ho

/-- **A client without a key learns nothing of the stores.**  Two servers with the same accepted
configuration, with any stores, and all that happens beside the requests different: when the same
requests arrive at the same times, the same are refused, with the same replies; and what is served
is either of a request with a key that allows it, or a fixed reply. -/
theorem answers_without_key {σ₁ σ₂ ε₁ ε₂ ω₁ ω₂ : Type} {B₁ : Backend σ₁ ε₁} {B₂ : Backend σ₂ ε₂}
    {change₁ : ω₁ → σ₁ → σ₁} {change₂ : ω₂ → σ₂ → σ₂} (hex : HexDecode hexDecode)
    (haxum : axum.Documented) {tomlFromStr : String → Except String Config} {content : String}
    {config : Config} (hconfig : Config.fromStr tomlFromStr content = .ok config)
    {cfg : ApiAuthConfig} (hcfg : config.api.auth = some cfg) {stores₁ : σ₁} {stores₂ : σ₂}
    {s₁ : ServerState σ₁} {s₂ : ServerState σ₂} {acts₁ : List (ServerAction ε₁ ω₁)}
    {acts₂ : List (ServerAction ε₂ ω₂)} {outs₁ : List (ServerEvent ω₁)}
    {outs₂ : List (ServerEvent ω₂)}
    (h₁ : (server latest sha256 parseIp hexDecode build axum B₁ change₁ logging).run
      (.start (AuthState.new hexDecode config.api.auth) stores₁) acts₁ = some (s₁, outs₁))
    (h₂ : (server latest sha256 parseIp hexDecode build axum B₂ change₂ logging).run
      (.start (AuthState.new hexDecode config.api.auth) stores₂) acts₂ = some (s₂, outs₂))
    (harrivals : arrivals acts₁ = arrivals acts₂) :
    refusals outs₁ = refusals outs₂ ∧
      ∃ readHash adminHash, ConfiguredKeys hexDecode cfg readHash adminHash ∧
        ∀ r reply durationMs, .served r reply durationMs ∈ outs₁ →
          Authorized sha256 readHash adminHash r.method r.authorization ∨
            reply = some (healthReply build r.method) := by
  constructor
  · obtain ⟨answers₁, hgate₁, hanswers₁⟩ := gate_run h₁
    obtain ⟨answers₂, hgate₂, hanswers₂⟩ := gate_run h₂
    have hgate := hgate₁
    rw [harrivals] at hgate
    have hsame := Option.some.inj (hgate.symm.trans hgate₂)
    rw [hanswers₁, hanswers₂]
    exact congrArg (fun r => r.2.filterMap id) hsame
  · rw [hcfg] at h₁
    obtain ⟨readHash, adminHash, hread, hadmin, hreadText, hadminText, -⟩ :=
      new_of_acceptedAuth hex (acceptedAuth_of_fromStr hconfig hcfg)
    refine ⟨readHash, adminHash, ⟨hreadText, hadminText⟩, fun r reply durationMs hmem => ?_⟩
    by_cases hpath : r.path = "/health"
    · exact .inr (health_of_served haxum h₁ hmem hpath)
    · have hcleared := (allCleared_run hread h₁).served r reply durationMs hmem
      rw [hadmin] at hcleared
      exact .inl (hcleared.authorized hpath)

/-! ### Every request is answered once -/

/-- The request that an event is the answer to, or the loss of. -/
def ServerEvent.answered? : ServerEvent ω → Option Incoming
  | lost r => some r
  | refused r _ _ _ => some r
  | served r _ _ => some r
  | _ => none

/-- What the event leaves to be written to the audit log. -/
def ServerEvent.owed (sha256 : List UInt8 → Vector UInt8 32) (logging : Bool) :
    ServerEvent ω → List AuditWrite
  | refused r _ reply durationMs => auditWrites sha256 logging r reply.status durationMs
  | served r (some reply) durationMs => auditWrites sha256 logging r reply.status durationMs
  | _ => []

def ServerEvent.wrote? : ServerEvent ω → Option AuditWrite
  | wrote w _ => some w
  | _ => none

def ServerEvent.logged? : ServerEvent ω → Option AuditWrite
  | wrote w true => some w
  | _ => none

def AuditEntry.write (e : AuditEntry) : AuditWrite :=
  ⟨e.method, e.path, e.status, e.keyPrefix, e.durationMs⟩

@[simp] theorem status_forMethod (method : Method) (reply : Reply) :
    (reply.forMethod method).status = reply.status := by
  rw [Reply.forMethod]
  split <;> rfl

/-- **The books of the server**: the requests and the writes that are owed. -/
structure Accounted (sha256 : List UInt8 → Vector UInt8 32) (logging : Bool)
    (acts : List (ServerAction ε ω)) (outs : List (ServerEvent ω)) (s : ServerState σ) : Prop where
  requests : ((arrivals acts).map Prod.fst).Perm
    (outs.filterMap ServerEvent.answered? ++ s.inFlight)
  writes : (outs.flatMap (ServerEvent.owed sha256 logging)).Perm
    (outs.filterMap ServerEvent.wrote? ++ s.unwritten)
  log : s.auditLog.map AuditEntry.write = outs.filterMap ServerEvent.logged?

theorem perm_of_eraseIdx {α : Type} {all done rest : List α} {n : Nat} {x : α}
    (h : all.Perm (done ++ rest)) (hx : rest[n]? = some x) :
    all.Perm (done ++ [x] ++ rest.eraseIdx n) := by
  obtain ⟨hn, rfl⟩ := List.getElem?_eq_some_iff.mp hx
  rw [List.append_assoc, List.singleton_append]
  exact h.trans ((List.getElem_cons_eraseIdx_perm hn).symm.append_left done)

theorem perm_append_rest {α : Type} {all done rest : List α} (h : all.Perm (done ++ rest))
    (xs : List α) : (all ++ xs).Perm (done ++ (rest ++ xs)) := by
  rw [← List.append_assoc]
  exact h.append_right xs

theorem perm_append_done {α : Type} {all done rest : List α} (h : all.Perm (done ++ rest)) (x : α) :
    (all ++ [x]).Perm (done ++ [x] ++ rest) := by
  rw [List.append_assoc]
  exact (h.append_right [x]).trans
    ((List.append_assoc _ _ _).symm ▸ List.perm_append_comm.append_left _)

theorem Accounted.step {acts : List (ServerAction ε ω)} {outs : List (ServerEvent ω)}
    {s s' : ServerState σ} {a : ServerAction ε ω} {o : ServerEvent ω}
    (h : Accounted sha256 logging acts outs s)
    (hs : ServerStep latest sha256 parseIp hexDecode build axum B change logging s a s' o) :
    Accounted sha256 logging (acts ++ [a]) (outs ++ [o]) s' := by
  have harrivals : (arrivals (acts ++ [a])).map Prod.fst =
      (arrivals acts).map Prod.fst ++ (arrivals [a]).map Prod.fst := by
    rw [arrivals, List.filterMap_append, List.map_append]
    rfl
  have hlog : ∀ w : AuditWrite, ∀ timestamp, (w.entry timestamp).write = w := fun _ _ => rfl
  constructor
  · rw [harrivals, List.filterMap_append]
    cases hs with
    | admitted =>
      show List.Perm (_ ++ [_]) (_ ++ [] ++ _)
      rw [List.append_nil]
      exact perm_append_rest h.requests _
    | @lost r now durationMs auth _ =>
      show List.Perm (_ ++ [r]) (_ ++ [r] ++ s.inFlight)
      exact perm_append_done h.requests r
    | @refused r now durationMs auth e _ =>
      show List.Perm (_ ++ [r]) (_ ++ [r] ++ s.inFlight)
      exact perm_append_done h.requests r
    | @panicked n r env uptime durationMs stores hr _ =>
      show List.Perm (_ ++ []) (_ ++ [r] ++ _)
      rw [List.append_nil]
      exact perm_of_eraseIdx h.requests hr
    | @served n r env uptime durationMs stores reply hr _ =>
      show List.Perm (_ ++ []) (_ ++ [r] ++ _)
      rw [List.append_nil]
      exact perm_of_eraseIdx h.requests hr
    | changed =>
      show List.Perm (_ ++ []) (_ ++ [] ++ _)
      rw [List.append_nil, List.append_nil]
      exact h.requests
    | wrote =>
      show List.Perm (_ ++ []) (_ ++ [] ++ _)
      rw [List.append_nil, List.append_nil]
      exact h.requests
  · rw [List.flatMap_append, List.filterMap_append, List.flatMap_singleton]
    cases hs with
    | refused =>
      show List.Perm _ (_ ++ [] ++ _)
      rw [List.append_nil, ServerEvent.owed, status_forMethod]
      exact perm_append_rest h.writes _
    | served =>
      show List.Perm _ (_ ++ [] ++ _)
      rw [List.append_nil, ServerEvent.owed, status_forMethod]
      exact perm_append_rest h.writes _
    | @wrote n timestamp success w hw =>
      show List.Perm (_ ++ []) (_ ++ [w] ++ _)
      rw [List.append_nil]
      exact perm_of_eraseIdx h.writes hw
    | admitted =>
      show List.Perm (_ ++ []) (_ ++ [] ++ _)
      rw [List.append_nil, List.append_nil]
      exact h.writes
    | lost =>
      show List.Perm (_ ++ []) (_ ++ [] ++ _)
      rw [List.append_nil, List.append_nil]
      exact h.writes
    | panicked =>
      show List.Perm (_ ++ []) (_ ++ [] ++ _)
      rw [List.append_nil, List.append_nil]
      exact h.writes
    | changed =>
      show List.Perm (_ ++ []) (_ ++ [] ++ _)
      rw [List.append_nil, List.append_nil]
      exact h.writes
  · rw [List.filterMap_append]
    cases hs with
    | @wrote n timestamp success w hw =>
      cases success with
      | true =>
        show (s.auditLog ++ [w.entry timestamp]).map AuditEntry.write = _ ++ [w]
        rw [List.map_append, h.log]
        rfl
      | false =>
        show s.auditLog.map AuditEntry.write = _ ++ []
        rw [List.append_nil, h.log]
    | _ =>
      show s.auditLog.map AuditEntry.write = _ ++ []
      rw [List.append_nil, h.log]

/-- **Every request is answered once, and logged once.**  In every run, a request that has
arrived was refused, was served, was lost to a panic, or is in flight; and what was answered, but
for `/health`, has
been written to the audit log, was lost by a failing write, or is still to be written. -/
theorem accounted_run {start : AuthState} {stores : σ} {s : ServerState σ}
    {acts : List (ServerAction ε ω)} {outs : List (ServerEvent ω)}
    (h : (server latest sha256 parseIp hexDecode build axum B change logging).run
      (.start start stores) acts =
      some (s, outs)) : Accounted sha256 logging acts outs s := by
  refine (server latest sha256 parseIp hexDecode build axum B change logging).run_induction
    (P := fun acts outs s => Accounted sha256 logging acts outs s) ⟨.refl _, .refl _, rfl⟩ ?_ h
  intro acts outs s a s' o _ ih hs
  exact ih.step (serverStep_cases hs)

/-! ### A deletion -/

def raise (alert : Alert) (s : MemoryStores) : MemoryStores :=
  { s with alerts := (s.alerts.insertAlert alert).2 }

def noStores : MemoryStores := ⟨.new, .new⟩

/-- A daemon without a database, with the key `a`. -/
abbrev singleKeyServer : Machine (ServerState MemoryStores)
    (ServerAction InMemoryAlertStore.Scan Alert) (ServerEvent Alert) :=
  server linuxLatest sha256OfA (fun _ => none) decodeHex ⟨true, u64Max, "0.1.0"⟩ segmentRouter
    Backend.inMemory raise true

def singleKeyStart : ServerState MemoryStores :=
  .start (AuthState.new decodeHex singleKeyConfig.api.auth) noStores

def deleteFirst (authorization : Option String) : Incoming where
  method := ⟨"DELETE"⟩
  path := "/alerts/1"
  authorization := authorization
  forwardedFor := none
  connectInfo := none
  query := none

def inOrder : InMemoryAlertStore.Scan := ⟨id, fun _ => .refl _⟩

/-- An alert is raised.  One client asks for its deletion without the key, and one with it. -/
def deletion : List (ServerAction InMemoryAlertStore.Scan Alert) :=
  [.outside laptopAlert,
    .arrive (deleteFirst (some "Bearer b")) 0 0, .arrive (deleteFirst (some "Bearer a")) 0 0,
    .serve 0 inOrder 0 0, .writeAudit 1 "" true]

theorem stores_of_adminKey_deletion : ∃ s outs readHash adminHash,
    singleKeyServer.run singleKeyStart deletion = some (s, outs) ∧
      (effects segmentRouter outs).length = 2 ∧ s.stores.alerts.countAlerts = 0 ∧
      s.stores = (effects segmentRouter outs).foldl (Effect.apply Backend.inMemory raise) noStores ∧
      ∀ r call, .request r call ∈ effects segmentRouter outs →
        ShowsAdminKey sha256OfA readHash adminHash r := by
  have hview : (singleKeyServer.run singleKeyStart deletion).map (fun r =>
      ((effects segmentRouter r.2).length, r.1.stores.alerts.countAlerts)) = some (2, 0) := by
    decide +kernel
  obtain ⟨⟨s, outs⟩, h, hcounts⟩ := Option.map_eq_some_iff.mp hview
  obtain ⟨readHash, adminHash, -, hstores, hkey⟩ := stores_of_adminKey hexDecode_decodeHex
    documented_segmentRouter singleKeyConfig_accepted rfl h
  exact ⟨s, outs, readHash, adminHash, h, congrArg Prod.fst hcounts, congrArg Prod.snd hcounts,
    hstores, fun r call hmem => (hkey r call hmem).2.2⟩

theorem answers_without_key_deletion : ∃ s₁ outs₁ s₂ outs₂,
    singleKeyServer.run singleKeyStart deletion = some (s₁, outs₁) ∧
      singleKeyServer.run singleKeyStart (deletion.drop 1) = some (s₂, outs₂) ∧
      (refusals outs₁).length = 1 ∧ refusals outs₁ = refusals outs₂ := by
  have hview₁ : (singleKeyServer.run singleKeyStart deletion).map
      (fun r => (refusals r.2).length) = some 1 := by decide +kernel
  have hview₂ : (singleKeyServer.run singleKeyStart (deletion.drop 1)).map
      (fun r => (refusals r.2).length) = some 1 := by decide +kernel
  obtain ⟨⟨s₁, outs₁⟩, h₁, hlen⟩ := Option.map_eq_some_iff.mp hview₁
  obtain ⟨⟨s₂, outs₂⟩, h₂, -⟩ := Option.map_eq_some_iff.mp hview₂
  exact ⟨s₁, outs₁, s₂, outs₂, h₁, h₂, hlen, (answers_without_key hexDecode_decodeHex
    documented_segmentRouter singleKeyConfig_accepted rfl h₁ h₂ rfl).1⟩

theorem accounted_run_deletion : ∃ s outs,
    singleKeyServer.run singleKeyStart deletion = some (s, outs) ∧
      s.auditLog.map AuditEntry.status = [204] ∧
      Accounted sha256OfA true deletion outs s := by
  have hview : (singleKeyServer.run singleKeyStart deletion).map
      (fun r => r.1.auditLog.map AuditEntry.status) = some [204] := by decide +kernel
  obtain ⟨⟨s, outs⟩, h, hstatus⟩ := Option.map_eq_some_iff.mp hview
  exact ⟨s, outs, h, hstatus, accounted_run h⟩

end EdgeShield.Api
