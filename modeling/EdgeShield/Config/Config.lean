import Mathlib.Data.List.AList
import EdgeShield.Lib.Bytes
import EdgeShield.Lib.Text
import EdgeShield.Common.Alert

/-!
# The configuration

`crates/config/src/config.rs`: the TOML file as a record, and `Config::from_str`, which
reads it and then checks it section by section.  The TOML reader is a parameter: it
gives the record that the text describes, defaults filled in, or the text of its error.
The checks come in the order of the source, and the first that fails is the error.

`AcceptedAuth` is what the checks leave of an `[api.auth]` section.
-/

namespace EdgeShield

open Lib Common

structure MqttConfig where
  host : String
  port : UInt16
  topic : String
  clientId : String
  username : Option String
  password : Option String
  qos : UInt8
  deriving DecidableEq

structure NtfyConfig where
  baseUrl : String
  topic : String
  token : Option String
  priority : Option UInt8
  tags : Option String
  deriving DecidableEq

structure WebhookConfig where
  url : String
  token : Option String
  headers : AList fun _ : String => String
  timeoutSeconds : UInt64
  deriving DecidableEq

structure EmailConfig where
  host : String
  port : UInt16
  username : String
  password : String
  fromAddress : String
  toAddress : String
  starttls : Bool
  subjectPrefix : String
  deriving DecidableEq

inductive RuleConditionConfig where
  | simple (condition : String)
  | newDeviceByVendor (newDeviceByVendor : String)
  | newDeviceByMacPrefix (newDeviceByMacPrefix : String)
  | deviceOffline (afterSeconds : UInt64)
  deriving DecidableEq

structure RuleConfig where
  name : String
  enabled : Bool
  condition : RuleConditionConfig
  severity : String
  cooldownSeconds : UInt64
  deriving DecidableEq

structure ScannerConfig where
  intervalSeconds : UInt64
  deriving DecidableEq

structure StorageConfig where
  historySnapshotHours : UInt64
  historyRetentionDays : UInt64
  deriving DecidableEq

/-- The `[api.auth]` section: the keys as hashes in hexadecimal, and the rate limit. -/
structure ApiAuthConfig where
  readKeyHash : String
  adminKeyHash : Option String
  maxFailures : UInt32
  windowSeconds : UInt64
  blockSeconds : UInt64
  deriving DecidableEq

structure ApiTlsConfig where
  certPath : String
  keyPath : String
  deriving DecidableEq

structure ApiAuditConfig where
  logPath : String
  deriving DecidableEq

structure ApiConfig where
  auth : Option ApiAuthConfig
  tls : Option ApiTlsConfig
  audit : Option ApiAuditConfig
  deriving DecidableEq

structure Config where
  interface : String
  apiPort : UInt16
  apiBindAddress : String
  api : ApiConfig
  logLevel : String
  captureBuffer : UInt64
  databasePath : String
  mqtt : Option MqttConfig
  ntfy : Option NtfyConfig
  webhook : Option WebhookConfig
  email : Option EmailConfig
  rules : List RuleConfig
  scanner : ScannerConfig
  storage : StorageConfig
  deriving DecidableEq

inductive ConfigError where
  | parse (message : String)
  | emptyInterface (interface : String)
  | emptyMqttHost
  | invalidMqttQos (qos : UInt8)
  | emptyNtfyBaseUrl
  | emptyNtfyTopic
  | emptyRuleName
  | invalidSeverity (message : String)
  | emptyAuthKeyHash
  | invalidKeyHashFormat
  | emptyTlsCertPath
  | emptyTlsKeyPath
  deriving DecidableEq, Repr

/-! ### The checks -/

def checkMqtt (mqtt : MqttConfig) : Except ConfigError Unit :=
  if isBlank mqtt.host then .error .emptyMqttHost
  else if 2 < mqtt.qos then .error (.invalidMqttQos mqtt.qos)
  else .ok ()

def checkNtfy (ntfy : NtfyConfig) : Except ConfigError NtfyConfig :=
  if isBlank ntfy.baseUrl then .error .emptyNtfyBaseUrl
  else if isBlank ntfy.topic then .error .emptyNtfyTopic
  else
    match stripSuffix "/" ntfy.baseUrl with
    | some stripped => .ok { ntfy with baseUrl := stripped }
    | none => .ok ntfy

def checkRule (rule : RuleConfig) : Except ConfigError Unit :=
  if isBlank rule.name then .error .emptyRuleName
  else
    match Severity.fromStr rule.severity with
    | .ok _ => .ok ()
    | .error message => .error (.invalidSeverity message)

def isAsciiHexdigit (c : Char) : Bool :=
  ('0' ≤ c && c ≤ '9') || ('a' ≤ c && c ≤ 'f') || ('A' ≤ c && c ≤ 'F')

/-- 64 hexadecimal digits. -/
def isKeyHash (hash : String) : Bool :=
  hash.toList.all isAsciiHexdigit && hash.utf8ByteSize == 64

def checkAuth (auth : ApiAuthConfig) : Except ConfigError Unit :=
  if isBlank auth.readKeyHash then .error .emptyAuthKeyHash
  else if ¬isKeyHash auth.readKeyHash then .error .invalidKeyHashFormat
  else
    match auth.adminKeyHash with
    | some adminHash => if isKeyHash adminHash then .ok () else .error .invalidKeyHashFormat
    | none => .ok ()

def checkTls (tls : ApiTlsConfig) : Except ConfigError Unit :=
  if isBlank tls.certPath then .error .emptyTlsCertPath
  else if isBlank tls.keyPath then .error .emptyTlsKeyPath
  else .ok ()

def ifPresent {α : Type} (check : α → Except ConfigError Unit) :
    Option α → Except ConfigError Unit
  | some a => check a
  | none => .ok ()

theorem ifPresent_some {α : Type} (check : α → Except ConfigError Unit) (a : α) :
    ifPresent check (some a) = check a := rfl

def Config.fromStr (tomlFromStr : String → Except String Config) (content : String) :
    Except ConfigError Config := do
  let config ← (tomlFromStr content).mapError .parse
  if isBlank config.interface then throw (.emptyInterface config.interface)
  ifPresent checkMqtt config.mqtt
  let ntfy ← config.ntfy.mapM checkNtfy
  config.rules.forM checkRule
  ifPresent checkAuth config.api.auth
  ifPresent checkTls config.api.tls
  return { config with ntfy := ntfy }

/-- What the disk says of a path: the content, or why it cannot be read. -/
abbrev Files := String → Except String String

/-- The errors of `Config::from_file`: those of `ConfigError`, with its variant `Read`. -/
inductive FileError where
  | read (path source : String)
  | invalid (cause : ConfigError)
  deriving DecidableEq, Repr

def Config.fromFile (tomlFromStr : String → Except String Config) (files : Files)
    (path : String) : Except FileError Config := do
  let content ← (files path).mapError (.read path)
  (Config.fromStr tomlFromStr content).mapError .invalid

/-! ### What an accepted configuration is -/

structure AcceptedAuth (auth : ApiAuthConfig) : Prop where
  read : isKeyHash auth.readKeyHash = true
  admin : ∀ adminHash, auth.adminKeyHash = some adminHash → isKeyHash adminHash = true

theorem acceptedAuth_of_checkAuth {auth : ApiAuthConfig} (h : checkAuth auth = .ok ()) :
    AcceptedAuth auth := by
  unfold checkAuth at h
  split at h
  · cases h
  · split at h
    · cases h
    · next hread =>
      refine ⟨by simpa using hread, fun adminHash hadmin => ?_⟩
      rw [hadmin] at h
      simp only at h
      split at h
      · next hkey => exact hkey
      · cases h

def NtfyConfig.stripped (ntfy : NtfyConfig) : NtfyConfig :=
  { ntfy with baseUrl := (stripSuffix "/" ntfy.baseUrl).getD ntfy.baseUrl }

theorem checkNtfy_eq_ok {ntfy ntfy' : NtfyConfig} (h : checkNtfy ntfy = .ok ntfy') :
    ntfy' = ntfy.stripped := by
  unfold checkNtfy at h
  split at h
  · cases h
  · split at h
    · cases h
    · split at h
      · next stripped hslash =>
        cases h
        rw [NtfyConfig.stripped, hslash, Option.getD_some]
      · next hslash =>
        cases h
        rw [NtfyConfig.stripped, hslash, Option.getD_none]

theorem mapM_checkNtfy_eq_ok {ntfy ntfy' : Option NtfyConfig}
    (h : ntfy.mapM checkNtfy = .ok ntfy') : ntfy' = ntfy.map NtfyConfig.stripped := by
  cases ntfy with
  | none =>
    cases h
    rfl
  | some n =>
    rw [Option.mapM_some] at h
    cases hn : checkNtfy n with
    | error e =>
      rw [hn] at h
      cases h
    | ok n' =>
      rw [hn] at h
      cases h
      rw [checkNtfy_eq_ok hn, Option.map_some]

def Config.stripped (config : Config) : Config :=
  { config with ntfy := config.ntfy.map NtfyConfig.stripped }

theorem ok_of_mapError {ε ε' α : Type} {f : ε → ε'} {e : Except ε α} {a : α}
    (h : e.mapError f = .ok a) : e = .ok a := by
  cases e with
  | error _ => cases h
  | ok _ =>
    cases h
    rfl

theorem read_of_fromStr {tomlFromStr : String → Except String Config} {content : String}
    {config : Config} (h : Config.fromStr tomlFromStr content = .ok config) :
    ∃ read, tomlFromStr content = .ok read ∧ config = read.stripped ∧
      ifPresent checkAuth read.api.auth = .ok () := by
  unfold Config.fromStr at h
  obtain ⟨read, hread, h⟩ := Run.bind_eq_ok.mp h
  split at h
  · cases h
  obtain ⟨_, _, h⟩ := Run.bind_eq_ok.mp h
  obtain ⟨ntfy, hntfy, h⟩ := Run.bind_eq_ok.mp h
  obtain ⟨_, _, h⟩ := Run.bind_eq_ok.mp h
  obtain ⟨_, hauth, h⟩ := Run.bind_eq_ok.mp h
  obtain ⟨_, _, h⟩ := Run.bind_eq_ok.mp h
  cases h
  exact ⟨read, ok_of_mapError hread, by rw [mapM_checkNtfy_eq_ok hntfy, Config.stripped], hauth⟩

theorem mapM_checkNtfy_of_not_isBlank {ntfy : Option NtfyConfig}
    (h : ntfy.all (fun n => !isBlank n.baseUrl && !isBlank n.topic) = true) :
    ntfy.mapM checkNtfy = .ok (ntfy.map NtfyConfig.stripped) := by
  cases ntfy with
  | none => rfl
  | some n =>
    rw [Option.all_some, Bool.and_eq_true, Bool.not_eq_true', Bool.not_eq_true'] at h
    have hcheck : checkNtfy n = .ok n.stripped := by
      unfold checkNtfy
      rw [if_neg (by rw [h.1]; decide), if_neg (by rw [h.2]; decide)]
      cases hslash : stripSuffix "/" n.baseUrl with
      | none => rw [NtfyConfig.stripped, hslash, Option.getD_none]
      | some _ => rw [NtfyConfig.stripped, hslash, Option.getD_some]
    rw [Option.mapM_some, hcheck]
    rfl

theorem fromStr_of_checks {tomlFromStr : String → Except String Config} {content : String}
    {read : Config} (hread : tomlFromStr content = .ok read)
    (hinterface : isBlank read.interface = false) (hmqtt : ifPresent checkMqtt read.mqtt = .ok ())
    (hntfy : read.ntfy.all (fun n => !isBlank n.baseUrl && !isBlank n.topic) = true)
    (hrules : read.rules.forM checkRule = .ok ())
    (hauth : ifPresent checkAuth read.api.auth = .ok ())
    (htls : ifPresent checkTls read.api.tls = .ok ()) :
    Config.fromStr tomlFromStr content = .ok read.stripped := by
  simp only [Config.fromStr, hread, Except.mapError, bind, Except.bind, hinterface,
    Bool.false_eq_true, if_false, hmqtt, mapM_checkNtfy_of_not_isBlank hntfy, hrules, hauth, htls]
  rfl

/-- **An accepted configuration** has key hashes of the right form. -/
theorem acceptedAuth_of_fromStr {tomlFromStr : String → Except String Config} {content : String}
    {config : Config} (h : Config.fromStr tomlFromStr content = .ok config)
    {auth : ApiAuthConfig} (hauth : config.api.auth = some auth) : AcceptedAuth auth := by
  obtain ⟨read, _, rfl, hcheck⟩ := read_of_fromStr h
  rw [show read.api.auth = some auth from hauth, ifPresent_some] at hcheck
  exact acceptedAuth_of_checkAuth hcheck

end EdgeShield
