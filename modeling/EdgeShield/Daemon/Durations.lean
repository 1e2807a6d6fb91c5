import EdgeShield.Api.BlockTime
import EdgeShield.Config.Toml
import EdgeShield.Daemon.HistoryTask
import EdgeShield.Lib.TomlText

/-!
# The durations of a configuration

Three numbers of the configuration become durations at run time: the hours between snapshots,
the days that snapshots are kept, and the seconds of a block.  `Config::from_str` looks at none
of them (`fromStr_withDurations`), so `durationsText` is accepted with any numbers.

`noOverflow_iff` says when no computation with them leaves its range, in the history task over
any passes and in the rate limiter over any failures.  With numbers that are too large the task
dies, or works with a period that is wrong, and the limiter panics instead of blocking
(`Platform.never_blocked`).
-/

namespace EdgeShield.Daemon

open EdgeShield.Lib EdgeShield.Common EdgeShield.Storage EdgeShield.Api
open EdgeShield.Lib.Toml (Item Block Spells)

/-! ### What the validator looks at -/

structure AcceptedConfig (tomlFromStr : String → Except String Config) where
  content : String
  config : Config
  accepted : Config.fromStr tomlFromStr content = .ok config

def withDurations (config : Config) (snapshotHours retentionDays blockSeconds : UInt64) : Config :=
  { config with
    storage := ⟨snapshotHours, retentionDays⟩
    api := { config.api with
      auth := config.api.auth.map fun auth => { auth with blockSeconds := blockSeconds } } }

/-- **The validator looks at none of the numbers**: with any others it accepts, or rejects, as
before. -/
theorem fromStr_withDurations {tomlFromStr tomlFromStr' : String → Except String Config}
    {content content' : String} {read : Config} (snapshotHours retentionDays blockSeconds : UInt64)
    (hread : tomlFromStr content = .ok read)
    (hread' : tomlFromStr' content' =
      .ok (withDurations read snapshotHours retentionDays blockSeconds)) :
    Config.fromStr tomlFromStr' content' =
      (Config.fromStr tomlFromStr content).map fun config =>
        withDurations config snapshotHours retentionDays blockSeconds := by
  have hauth : ifPresent checkAuth
      (read.api.auth.map fun auth => { auth with blockSeconds := blockSeconds }) =
        ifPresent checkAuth read.api.auth := by
    cases read.api.auth with
    | none => rfl
    | some auth => rfl
  simp only [Config.fromStr, hread, hread', Except.mapError, bind, Except.bind, withDurations, hauth]
  split
  · rfl
  -- the checks one after the other, the same on both sides
  cases ifPresent checkMqtt read.mqtt with
  | error e => rfl
  | ok _ =>
    cases read.ntfy.mapM checkNtfy with
    | error e => rfl
    | ok ntfy =>
      cases read.rules.forM checkRule with
      | error e => rfl
      | ok _ =>
        cases ifPresent checkAuth read.api.auth with
        | error e => rfl
        | ok _ =>
          cases ifPresent checkTls read.api.tls with
          | error e => rfl
          | ok _ => rfl

/-! ### A text with any numbers -/

section Text

def keyHash : String := "ca978112ca1bbdcafac231b39a23dc4da786eff8147c4e72b9807785afee48bb"

def topItems : List Item := [.string "interface" "eth0", .string "database_path" "edgeshield.db"]

variable (snapshotHours retentionDays blockSeconds : UInt64)

def sectionItems : List Item :=
  [.header .table ["storage"], .nat "history_snapshot_hours" snapshotHours.toNat,
    .nat "history_retention_days" retentionDays.toNat, .header .table ["api", "auth"],
    .string "read_key_hash" keyHash, .nat "max_failures" 1,
    .nat "block_seconds" blockSeconds.toNat]

/-- A configuration file with these numbers, and one failure allowed. -/
def durationsText : String :=
  String.ofList
    ((topItems ++ sectionItems snapshotHours retentionDays blockSeconds).flatMap Item.text)

def durationsConfig : Config where
  interface := "eth0"
  apiPort := 8080
  apiBindAddress := "0.0.0.0"
  api := ⟨some ⟨keyHash, none, 1, 60, blockSeconds⟩, none, none⟩
  logLevel := "info"
  captureBuffer := 4096
  databasePath := "edgeshield.db"
  mqtt := none
  ntfy := none
  webhook := none
  email := none
  rules := []
  scanner := .default
  storage := ⟨snapshotHours, retentionDays⟩

def storageEntries : Toml.Table :=
  [("history_snapshot_hours", .integer snapshotHours.toNat),
    ("history_retention_days", .integer retentionDays.toNat)]

def authEntries : Toml.Table :=
  [("read_key_hash", .string keyHash), ("max_failures", .integer 1),
    ("block_seconds", .integer blockSeconds.toNat)]

def topEntries : Toml.Table :=
  [("interface", .string "eth0"), ("database_path", .string "edgeshield.db")]

def durationBlocks : List Block :=
  [⟨.table, "storage", [], storageEntries snapshotHours retentionDays⟩,
    ⟨.table, "api", ["auth"], authEntries blockSeconds⟩]

theorem spells_durations :
    Spells (sectionItems snapshotHours retentionDays blockSeconds)
      (durationBlocks snapshotHours retentionDays blockSeconds) := by
  refine ⟨rfl, rfl, ?_⟩
  intro b hb
  simp only [durationBlocks, List.mem_cons, List.not_mem_nil, or_false] at hb
  rcases hb with rfl | rfl
  · simp [storageEntries]
  · simp [authEntries]

theorem parse_durationsText :
    Toml.parse (fun _ => none) (durationsText snapshotHours retentionDays blockSeconds) =
      some (topEntries ++ (durationBlocks snapshotHours retentionDays blockSeconds).map
        fun b => (b.name, b.value)) := by
  have htext : (durationsText snapshotHours retentionDays blockSeconds).toList =
      (topItems ++ sectionItems snapshotHours retentionDays blockSeconds).flatMap Item.text :=
    String.toList_ofList
  have htop : topItems.flatMap Item.expressions = topEntries.map Toml.pairOf := rfl
  have hspells := spells_durations snapshotHours retentionDays blockSeconds
  refine (Toml.parse_eq_some_iff htext rfl htop hspells ?_).mpr ⟨?_, rfl⟩
  · simp [topEntries, durationBlocks]
  · intro i hi
    simp only [topItems, sectionItems, List.cons_append, List.nil_append, List.mem_cons,
      List.not_mem_nil, or_false] at hi
    rcases hi with rfl | rfl | rfl | rfl | rfl | rfl | rfl | rfl | rfl
    all_goals trivial

theorem ofToml_storageEntries :
    StorageConfig.ofToml (.table (storageEntries snapshotHours retentionDays)) =
      some ⟨snapshotHours, retentionDays⟩ := by
  have hhours : withDefault (storageEntries snapshotHours retentionDays) "history_snapshot_hours"
      asU64 24 = some snapshotHours := withDefault_of_lookup rfl (asU64_toNat snapshotHours)
  have hdays : withDefault (storageEntries snapshotHours retentionDays) "history_retention_days"
      asU64 90 = some retentionDays := withDefault_of_lookup rfl (asU64_toNat retentionDays)
  simp only [StorageConfig.ofToml, asTable, Option.bind_eq_bind, Option.bind_some, hhours, hdays]
  rfl

theorem ofToml_authEntries :
    ApiAuthConfig.ofToml (.table (authEntries blockSeconds)) =
      some ⟨keyHash, none, 1, 60, blockSeconds⟩ := by
  have hread : required (authEntries blockSeconds) "read_key_hash" asString = some keyHash :=
    required_of_lookup rfl rfl
  have hadmin : optional (authEntries blockSeconds) "admin_key_hash" asString = some none :=
    withDefault_of_none rfl
  have hfailures : withDefault (authEntries blockSeconds) "max_failures" asU32 10 = some 1 :=
    withDefault_of_lookup rfl rfl
  have hwindow : withDefault (authEntries blockSeconds) "window_seconds" asU64 60 = some 60 :=
    withDefault_of_none rfl
  have hblock : withDefault (authEntries blockSeconds) "block_seconds" asU64 300 =
      some blockSeconds := withDefault_of_lookup rfl (asU64_toNat blockSeconds)
  simp only [ApiAuthConfig.ofToml, asTable, Option.bind_eq_bind, Option.bind_some, hread, hadmin,
    hfailures, hwindow, hblock]
  rfl

theorem ofToml_apiBlock :
    ApiConfig.ofToml (.table [("auth", .table (authEntries blockSeconds))]) =
      some ⟨some ⟨keyHash, none, 1, 60, blockSeconds⟩, none, none⟩ := by
  have hauth : optional [("auth", .table (authEntries blockSeconds))] "auth" ApiAuthConfig.ofToml =
      some (some ⟨keyHash, none, 1, 60, blockSeconds⟩) := by
    refine withDefault_of_lookup rfl ?_
    rw [ofToml_authEntries]
    rfl
  have htls : optional [("auth", .table (authEntries blockSeconds))] "tls" ApiTlsConfig.ofToml =
      some none := withDefault_of_none rfl
  have haudit : optional [("auth", .table (authEntries blockSeconds))] "audit"
      ApiAuditConfig.ofToml = some none := withDefault_of_none rfl
  simp only [ApiConfig.ofToml, asTable, Option.bind_eq_bind, Option.bind_some, hauth, htls, haudit]
  rfl

theorem ofToml_durationBlocks :
    Config.ofToml (topEntries ++ (durationBlocks snapshotHours retentionDays blockSeconds).map
        fun b => (b.name, b.value)) =
      some (durationsConfig snapshotHours retentionDays blockSeconds) := by
  generalize ht : topEntries ++ (durationBlocks snapshotHours retentionDays blockSeconds).map
    (fun b => (b.name, b.value)) = t
  -- the four fields that the text has
  have hinterface : required t "interface" asString = some "eth0" := by
    rw [← ht]
    exact required_of_lookup rfl rfl
  have hpath : withDefault t "database_path" asString "" = some "edgeshield.db" := by
    rw [← ht]
    exact withDefault_of_lookup rfl rfl
  have hstorage : withDefault t "storage" StorageConfig.ofToml .default =
      some ⟨snapshotHours, retentionDays⟩ := by
    rw [← ht]
    exact withDefault_of_lookup rfl (ofToml_storageEntries snapshotHours retentionDays)
  have hapi : withDefault t "api" ApiConfig.ofToml .default =
      some ⟨some ⟨keyHash, none, 1, 60, blockSeconds⟩, none, none⟩ := by
    rw [← ht]
    exact withDefault_of_lookup rfl (ofToml_apiBlock blockSeconds)
  -- and none of the others
  have habsent : ∀ name ∈ ["api_port", "api_bind_address", "log_level", "capture_buffer", "mqtt",
      "ntfy", "webhook", "email", "rules", "scanner"], t.lookup name = none := by
    intro name hname
    rw [← ht]
    simp only [List.mem_cons, List.not_mem_nil, or_false] at hname
    rcases hname with rfl | rfl | rfl | rfl | rfl | rfl | rfl | rfl | rfl | rfl
    all_goals rfl
  simp only [Config.ofToml, optional, Option.bind_eq_bind, Option.bind_some, hinterface, hpath,
    hstorage, hapi, withDefault_of_none, habsent, List.mem_cons, true_or, or_true]
  rfl

/-- **Any numbers are accepted.** -/
theorem fromStr_durationsText :
    Config.fromStr plainToml (durationsText snapshotHours retentionDays blockSeconds) =
      .ok (durationsConfig snapshotHours retentionDays blockSeconds) := by
  have hread : plainToml (durationsText snapshotHours retentionDays blockSeconds) =
      .ok (durationsConfig snapshotHours retentionDays blockSeconds) := by
    rw [plainToml, parse_durationsText, Option.bind_some, ofToml_durationBlocks]
  have hkey : isKeyHash keyHash = true := by decide +kernel
  have hblank : isBlank keyHash = false := by decide +kernel
  have hinterface : isBlank "eth0" = false := by decide +kernel
  have hauth : ifPresent checkAuth
      (durationsConfig snapshotHours retentionDays blockSeconds).api.auth = .ok () := by
    simp [durationsConfig, ifPresent_some, checkAuth, hkey, hblank]
  exact fromStr_of_checks hread hinterface rfl rfl rfl hauth rfl

def durationsAccepted : AcceptedConfig plainToml where
  content := durationsText snapshotHours retentionDays blockSeconds
  config := durationsConfig snapshotHours retentionDays blockSeconds
  accepted := fromStr_durationsText snapshotHours retentionDays blockSeconds

end Text

/-! ### The computations of the daemon -/

/-- What the daemon is built and runs on. -/
structure Platform where
  overflowChecks : Bool
  /-- the last `Instant` -/
  latest : Nat
  times : TimeLibrary
  texts : TextFormats
  hexDecode : String → Option (List UInt8)

/-- When `run` starts the history task. -/
def takesSnapshots (config : Config) : Prop :=
  config.databasePath ≠ "" ∧ 0 < config.storage.historySnapshotHours

def Platform.limiter (env : Platform) (config : Config) : RateLimiter :=
  (AuthState.new env.hexDecode config.api.auth).rateLimiter

section Platform

variable (env : Platform) (config : Config) (history : SqliteHistoryStore)
  (wakes : List (Wake env.times.range)) (failures : List Failure)

/-- Each computation gives the exact result: none panics, and none wraps. -/
structure NoOverflow : Prop where
  period : takesSnapshots config →
    startTask env.times env.overflowChecks config.storage.historySnapshotHours =
      .ok (config.storage.historySnapshotHours.toNat * 3600 * 1000000000)
  passes : takesSnapshots config →
    ∃ s passes, (historyTask env.times env.texts config.storage.historyRetentionDays).run
        ⟨history, true⟩ wakes = some (s, passes) ∧
      ∀ p ∈ passes, p.Exact config.storage.historyRetentionDays
  blocks : ∃ limiter results,
    (failureCalls env.latest).run (env.limiter config) failures = some (limiter, results) ∧
      ∀ r ∈ results, r = .ok ()

/-- The numbers of the configuration fit: the hours, the days on the clock reads of the passes,
and the seconds on the instants of the failures that begin a block. -/
structure DurationsFit : Prop where
  hours : takesSnapshots config →
    config.storage.historySnapshotHours.toNat ≤ 5124095576030431
  days : takesSnapshots config → ∀ w ∈ wakes, w.Fits config.storage.historyRetentionDays
  blockSeconds : AllHaveRoom env.latest (env.limiter config) failures

end Platform

theorem exists_run_failureCalls (latest : Nat) (limiter : RateLimiter) (failures : List Failure) :
    ∃ limiter' results, (failureCalls latest).run limiter failures = some (limiter', results) := by
  induction failures generalizing limiter with
  | nil => exact ⟨limiter, [], rfl⟩
  | cons f failures ih =>
    obtain ⟨limiter', results, hrest⟩ := ih (limiter.recordFailureOn latest f.ip f.now).2
    exact ⟨limiter', _, (failureCalls latest).run_cons.mpr ⟨_, _, results, rfl, hrest, rfl⟩⟩

/-- **No address is ever blocked** in a run whose instants have no room for a block. -/
theorem Platform.never_blocked {env : Platform} {config : Config} {failures : List Failure}
    {limiter : RateLimiter} {results : List (Run Empty Unit)}
    (hlate : ∀ f ∈ failures, env.latest < f.now + (env.limiter config).block)
    (h : (failureCalls env.latest).run (env.limiter config) failures = some (limiter, results))
    (ip : IpAddr) (now : Nat) : limiter.isBlocked ip now = false := by
  refine Api.never_blocked hlate (fun ip' => ?_) h ip now
  have hnew : (env.limiter config).failures = ∅ := by
    rw [Platform.limiter]
    cases config.api.auth with
    | none => rfl
    | some auth => rfl
  rw [RateLimiter.entry, hnew]
  rfl

/-! ### `chrono` and Linux -/

def chronoRange : UtcRange where
  min := -8334601228800000000000
  max := 8210266876799999999999

/-- Midnight of the first of January 2026. -/
def newYear : UtcTime chronoRange := ⟨1767225600000000000, by decide, by decide⟩

/-- Of the dates, those of `newYear` and of the day 90 days before have a text. -/
def chronoTimes : TimeLibrary where
  range := chronoRange
  days n :=
    if h : -maxDelta ≤ n.toInt * dayNanos ∧ n.toInt * dayNanos ≤ maxDelta then
      .ok ⟨n.toInt * dayNanos, h.1, h.2⟩
    else .panic
  sub t delta :=
    if h : chronoRange.min ≤ t.nanos - delta.nanos ∧ t.nanos - delta.nanos ≤ chronoRange.max then
      .ok ⟨t.nanos - delta.nanos, h.1, h.2⟩
    else .panic
  formatDate t := if t.nanos = newYear.nanos then "2026-01-01" else "2025-10-03"
  interval period := if period = 0 then .panic else .ok ()

theorem checked_eq_ok {α : Type} {check is : Prop} [Decidable check] {mk : check → α} {a : α}
    (hcheck : is → check) (hmk : ∀ h, mk h = a ↔ is) :
    (if h : check then .ok (mk h) else .panic : Run Empty α) = .ok a ↔ is := by
  by_cases h : check
  · rw [dif_pos h, Except.ok.injEq]
    exact hmk h
  · rw [dif_neg h]
    constructor
    · intro hpanic
      cases hpanic
    · intro his
      exact absurd (hcheck his) h

theorem chronoTimes_documented : chronoTimes.Documented where
  days n delta := by
    refine checked_eq_ok (fun h => ?_) fun _ => ?_
    · rw [← h]
      exact ⟨delta.neg_max_le, delta.le_max⟩
    · exact TimeDelta.ext_iff.trans eq_comm
  sub t delta t' := by
    refine checked_eq_ok (fun h => ?_) fun _ => ?_
    · rw [← h]
      exact ⟨t'.min_le, t'.le_max⟩
    · exact UtcTime.ext_iff.trans eq_comm
  interval period := by
    simp only [chronoTimes]
    split
    · next hzero => exact ⟨fun h => (by cases h), fun h => absurd hzero h⟩
    · next hne => exact ⟨fun _ => hne, fun _ => rfl⟩

def linux (overflowChecks : Bool) (F : TextFormats) : Platform where
  overflowChecks := overflowChecks
  latest := linuxLatest
  times := chronoTimes
  texts := F
  hexDecode := decodeHex

/-! ### No overflow -/

/-- **No computation overflows** on an accepted configuration, over any passes of the task and
any failures, when the numbers fit, and only then. -/
theorem noOverflow_iff {tomlFromStr : String → Except String Config}
    (c : AcceptedConfig tomlFromStr) (env : Platform) (hlib : env.times.Documented)
    (history : SqliteHistoryStore) (wakes : List (Wake env.times.range))
    (failures : List Failure) :
    NoOverflow env c.config history wakes failures ↔ DurationsFit env c.config wakes failures := by
  constructor
  · intro h
    refine ⟨fun hon => ?_, fun hon => ?_, ?_⟩
    · exact (startTask_eq_iff hlib hon.2).mp (h.period hon)
    · exact (survives_iff hlib).mp (h.passes hon)
    · obtain ⟨limiter, results, hrun, hfine⟩ := h.blocks
      exact (fine_iff_room hrun).mp hfine
  · intro h
    refine ⟨fun hon => ?_, fun hon => ?_, ?_⟩
    · exact (startTask_eq_iff hlib hon.2).mpr (h.hours hon)
    · exact (survives_iff hlib).mpr (h.days hon)
    · obtain ⟨limiter, results, hrun⟩ :=
        exists_run_failureCalls env.latest (env.limiter c.config) failures
      exact ⟨limiter, results, hrun, (fine_iff_room hrun).mpr h.blockSeconds⟩

theorem noOverflow_daily : ∃ F : TextFormats, F.Lawful ∧
    NoOverflow (linux true F) (durationsAccepted 24 90 300).config .empty
      [⟨.ok [], newYear, fun _ => ⟨newYear.nanos⟩, newYear⟩] [⟨.ofOctets 10 0 0 1, 5000000000⟩] := by
  obtain ⟨F, hF, _⟩ := exists_lawful
  have hback : ReachesBack 90 newYear := ⟨by decide, by decide⟩
  have hroom : 5000000000 +
      (AuthState.new decodeHex (durationsConfig 24 90 300).api.auth).rateLimiter.block ≤
        linuxLatest := by decide
  refine ⟨F, hF, (noOverflow_iff (durationsAccepted 24 90 300) (linux true F)
    chronoTimes_documented .empty _ _).mpr ⟨fun _ => by decide, fun _ w hw => ?_, ?_⟩⟩
  · rw [List.mem_singleton.mp hw]
    exact fun _ _ _ => hback
  · refine allHaveRoom_of_le fun f hf => ?_
    rw [List.mem_singleton.mp hf]
    exact hroom

def largest : AcceptedConfig plainToml :=
  durationsAccepted 9223372036854775807 9223372036854775807 9223372036854775807

/-- **With the largest numbers each computation fails**: the period panics, or is another one,
there is no time so long back, and the first failure panics. -/
theorem overflow_largest :
    startTask chronoTimes true largest.config.storage.historySnapshotHours = .panic ∧
    startTask chronoTimes false largest.config.storage.historySnapshotHours =
      .ok (18446744073709548016 * 1000000000) ∧
    (cutoff chronoTimes largest.config.storage.historyRetentionDays newYear).isOk = false ∧
    ((AuthState.new decodeHex largest.config.api.auth).rateLimiter.recordFailureOn linuxLatest
      (.ofOctets 10 0 0 1) 1000000000).1 = .panic ∧
    ¬∀ (tomlFromStr : String → Except String Config) (c : AcceptedConfig tomlFromStr)
      (env : Platform), env.times.Documented → ∀ (history : SqliteHistoryStore)
      (wakes : List (Wake env.times.range)) (failures : List Failure),
      NoOverflow env c.config history wakes failures := by
  have hpanic : startTask chronoTimes true largest.config.storage.historySnapshotHours = .panic := by
    decide +kernel
  refine ⟨hpanic, by decide +kernel, by decide +kernel, by decide +kernel, fun h => ?_⟩
  obtain ⟨F, _⟩ := exists_lawful
  have hno := h plainToml largest (linux true F) chronoTimes_documented .empty [] []
  have hperiod : startTask chronoTimes true largest.config.storage.historySnapshotHours =
      .ok (largest.config.storage.historySnapshotHours.toNat * 3600 * 1000000000) :=
    hno.period ⟨by decide, by decide⟩
  rw [hpanic] at hperiod
  cases hperiod

end EdgeShield.Daemon
