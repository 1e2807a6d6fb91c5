import EdgeShield.Lib.Toml
import EdgeShield.Config.Config

/-!
# The configuration in TOML

The records of `crates/config/src/config.rs` derive `Deserialize`: a field is looked up under
its name, has a default or need not be there where the attributes say so, and a value of
another type or out of range is an error.  Fields that no record has are passed over.

`ReadsToml` is what the TOML reader of `Config.fromStr` is taken to do with a text: if it accepts
it, the text is TOML, read into the record.  Records are read from tables only.  `serde` reads
them from arrays too, and so this is not assumed of texts in which an array stands for a record.
-/

namespace EdgeShield

open Lib Lib.Toml

/-! ### Fields -/

section Fields

variable {α : Type}

def required (t : Table) (name : String) (read : Value → Option α) : Option α :=
  (t.lookup name).bind read

/-- `#[serde(default = ..)]` -/
def withDefault (t : Table) (name : String) (read : Value → Option α) (default : α) : Option α :=
  match t.lookup name with
  | none => some default
  | some v => read v

def optional (t : Table) (name : String) (read : Value → Option α) : Option (Option α) :=
  withDefault t name (fun v => (read v).map some) none

theorem required_of_lookup {t : Table} {name : String} {read : Value → Option α} {v : Value} {a : α}
    (hv : t.lookup name = some v) (hread : read v = some a) : required t name read = some a := by
  rw [required, hv]
  exact hread

theorem withDefault_of_lookup {t : Table} {name : String} {read : Value → Option α} {v : Value}
    {a default : α} (hv : t.lookup name = some v) (hread : read v = some a) :
    withDefault t name read default = some a := by
  rw [withDefault, hv]
  exact hread

theorem withDefault_of_none {t : Table} {name : String} {read : Value → Option α} {default : α}
    (hv : t.lookup name = none) : withDefault t name read default = some default := by
  rw [withDefault, hv]

/-! #### Fields of a table that is known -/

variable {entries : List (String × Option Value)} {name : String} {read : Value → Option α}

theorem required_present (hnames : (entries.map Prod.fst).Nodup) {v : Value} {a : α}
    (hv : entries.lookup name = some (some v)) (hread : read v = some a) :
    required (present entries) name read = some a := by
  refine required_of_lookup ?_ hread
  rw [lookup_present hnames, hv]
  rfl

theorem withDefault_present (hnames : (entries.map Prod.fst).Nodup) {v : Value} {a default : α}
    (hv : entries.lookup name = some (some v)) (hread : read v = some a) :
    withDefault (present entries) name read default = some a := by
  refine withDefault_of_lookup ?_ hread
  rw [lookup_present hnames, hv]
  rfl

theorem withDefault_missing (hnames : (entries.map Prod.fst).Nodup) {default : α}
    (hv : entries.lookup name = none) :
    withDefault (present entries) name read default = some default := by
  refine withDefault_of_none ?_
  rw [lookup_present hnames, hv]
  rfl

theorem withDefault_elim (hnames : (entries.map Prod.fst).Nodup) {β : Type} {o : Option β}
    {f : β → Value} {g : β → α} {default : α} (hv : entries.lookup name = some (o.map f))
    (hread : ∀ b, read (f b) = some (g b)) :
    withDefault (present entries) name read default = some (o.elim default g) := by
  rw [withDefault, lookup_present hnames, hv]
  cases o with
  | none => rfl
  | some b => exact hread b

theorem optional_present (hnames : (entries.map Prod.fst).Nodup) {β : Type} {o : Option β}
    {f : β → Value} {g : β → α} (hv : entries.lookup name = some (o.map f))
    (hread : ∀ b, read (f b) = some (g b)) :
    optional (present entries) name read = some (o.map g) := by
  have hopt : ∀ b, (read (f b)).map some = some (some (g b)) := by
    intro b
    rw [hread b]
    rfl
  rw [optional, withDefault_elim hnames hv hopt]
  cases o with
  | none => rfl
  | some b => rfl

end Fields

def asString : Value → Option String
  | .string s => some s
  | _ => none

def asBool : Value → Option Bool
  | .boolean b => some b
  | _ => none

def asNat (max : Nat) : Value → Option Nat
  | .integer n => if 0 ≤ n ∧ n ≤ max then some n.toNat else none
  | _ => none

def asU8 (v : Value) : Option UInt8 := (asNat (2 ^ 8 - 1) v).map UInt8.ofNat
def asU16 (v : Value) : Option UInt16 := (asNat (2 ^ 16 - 1) v).map UInt16.ofNat
def asU32 (v : Value) : Option UInt32 := (asNat (2 ^ 32 - 1) v).map UInt32.ofNat
def asU64 (v : Value) : Option UInt64 := (asNat (2 ^ 64 - 1) v).map UInt64.ofNat

theorem asU16_toNat (n : UInt16) : asU16 (.integer n.toNat) = some n := by
  have hn := n.toNat_lt
  have hrange : (0 : Int) ≤ (n.toNat : Int) ∧ (n.toNat : Int) ≤ ((2 ^ 16 - 1 : Nat) : Int) := by
    omega
  rw [asU16, asNat, if_pos hrange, Int.toNat_natCast, Option.map_some, UInt16.ofNat_toNat]

theorem asU64_toNat (n : UInt64) : asU64 (.integer n.toNat) = some n := by
  have hn := n.toNat_lt
  have hrange : (0 : Int) ≤ (n.toNat : Int) ∧ (n.toNat : Int) ≤ ((2 ^ 64 - 1 : Nat) : Int) := by
    omega
  rw [asU64, asNat, if_pos hrange, Int.toNat_natCast, Option.map_some, UInt64.ofNat_toNat]

def asTable : Value → Option Table
  | .table t => some t
  | _ => none

def asArray : Value → Option (List Value)
  | .array items => some items
  | _ => none

def asStringMap (v : Value) : Option (AList fun _ : String => String) := do
  let t ← asTable v
  t.foldlM (fun map e => (asString e.2).map fun s => map.insert e.1 s) ∅

/-! ### Records -/

def MqttConfig.ofToml (v : Value) : Option MqttConfig := do
  let t ← asTable v
  let host ← required t "host" asString
  let port ← withDefault t "port" asU16 1883
  let topic ← withDefault t "topic" asString "edgeshield/devices/new"
  let clientId ← withDefault t "client_id" asString "edgeshield"
  let username ← optional t "username" asString
  let password ← optional t "password" asString
  let qos ← withDefault t "qos" asU8 1
  return ⟨host, port, topic, clientId, username, password, qos⟩

def NtfyConfig.ofToml (v : Value) : Option NtfyConfig := do
  let t ← asTable v
  let baseUrl ← required t "base_url" asString
  let topic ← required t "topic" asString
  let token ← optional t "token" asString
  let priority ← optional t "priority" asU8
  let tags ← optional t "tags" asString
  return ⟨baseUrl, topic, token, priority, tags⟩

def WebhookConfig.ofToml (v : Value) : Option WebhookConfig := do
  let t ← asTable v
  let url ← required t "url" asString
  let token ← optional t "token" asString
  let headers ← withDefault t "headers" asStringMap ∅
  let timeoutSeconds ← withDefault t "timeout_seconds" asU64 10
  return ⟨url, token, headers, timeoutSeconds⟩

def EmailConfig.ofToml (v : Value) : Option EmailConfig := do
  let t ← asTable v
  let host ← required t "host" asString
  let port ← withDefault t "port" asU16 587
  let username ← required t "username" asString
  let password ← required t "password" asString
  let fromAddress ← required t "from" asString
  let toAddress ← required t "to" asString
  let starttls ← withDefault t "starttls" asBool true
  let subjectPrefix ← withDefault t "subject_prefix" asString "[EdgeShield]"
  return ⟨host, port, username, password, fromAddress, toAddress, starttls, subjectPrefix⟩

/-- The first variant that fits, since the enumeration is untagged. -/
def RuleConditionConfig.ofToml (v : Value) : Option RuleConditionConfig :=
  let simple := (asString v).map RuleConditionConfig.simple
  let byVendor := do
    let t ← asTable v
    return RuleConditionConfig.newDeviceByVendor (← required t "new_device_by_vendor" asString)
  let byMacPrefix := do
    let t ← asTable v
    return RuleConditionConfig.newDeviceByMacPrefix
      (← required t "new_device_by_mac_prefix" asString)
  let offline := do
    let t ← asTable v
    let condition ← required t "device_offline" asTable
    return RuleConditionConfig.deviceOffline (← required condition "after_seconds" asU64)
  simple.or (byVendor.or (byMacPrefix.or offline))

def RuleConfig.ofToml (v : Value) : Option RuleConfig := do
  let t ← asTable v
  let name ← required t "name" asString
  let enabled ← withDefault t "enabled" asBool true
  let condition ← required t "condition" RuleConditionConfig.ofToml
  let severity ← withDefault t "severity" asString "info"
  let cooldownSeconds ← withDefault t "cooldown_seconds" asU64 0
  return ⟨name, enabled, condition, severity, cooldownSeconds⟩

def rulesOfToml (v : Value) : Option (List RuleConfig) := do
  let items ← asArray v
  items.mapM RuleConfig.ofToml

def ScannerConfig.default : ScannerConfig := ⟨60⟩

def ScannerConfig.ofToml (v : Value) : Option ScannerConfig := do
  let t ← asTable v
  return ⟨← withDefault t "interval_seconds" asU64 60⟩

def StorageConfig.default : StorageConfig := ⟨24, 90⟩

def StorageConfig.ofToml (v : Value) : Option StorageConfig := do
  let t ← asTable v
  let historySnapshotHours ← withDefault t "history_snapshot_hours" asU64 24
  let historyRetentionDays ← withDefault t "history_retention_days" asU64 90
  return ⟨historySnapshotHours, historyRetentionDays⟩

def ApiAuthConfig.ofToml (v : Value) : Option ApiAuthConfig := do
  let t ← asTable v
  let readKeyHash ← required t "read_key_hash" asString
  let adminKeyHash ← optional t "admin_key_hash" asString
  let maxFailures ← withDefault t "max_failures" asU32 10
  let windowSeconds ← withDefault t "window_seconds" asU64 60
  let blockSeconds ← withDefault t "block_seconds" asU64 300
  return ⟨readKeyHash, adminKeyHash, maxFailures, windowSeconds, blockSeconds⟩

def ApiTlsConfig.ofToml (v : Value) : Option ApiTlsConfig := do
  let t ← asTable v
  let certPath ← required t "cert_path" asString
  let keyPath ← required t "key_path" asString
  return ⟨certPath, keyPath⟩

def ApiAuditConfig.ofToml (v : Value) : Option ApiAuditConfig := do
  let t ← asTable v
  return ⟨← required t "log_path" asString⟩

def ApiConfig.default : ApiConfig := ⟨none, none, none⟩

def ApiConfig.ofToml (v : Value) : Option ApiConfig := do
  let t ← asTable v
  let auth ← optional t "auth" ApiAuthConfig.ofToml
  let tls ← optional t "tls" ApiTlsConfig.ofToml
  let audit ← optional t "audit" ApiAuditConfig.ofToml
  return ⟨auth, tls, audit⟩

def Config.ofToml (t : Table) : Option Config := do
  let interface ← required t "interface" asString
  let apiPort ← withDefault t "api_port" asU16 8080
  let apiBindAddress ← withDefault t "api_bind_address" asString "0.0.0.0"
  let api ← withDefault t "api" ApiConfig.ofToml .default
  let logLevel ← withDefault t "log_level" asString "info"
  let captureBuffer ← withDefault t "capture_buffer" asU64 4096
  let databasePath ← withDefault t "database_path" asString ""
  let mqtt ← optional t "mqtt" MqttConfig.ofToml
  let ntfy ← optional t "ntfy" NtfyConfig.ofToml
  let webhook ← optional t "webhook" WebhookConfig.ofToml
  let email ← optional t "email" EmailConfig.ofToml
  let rules ← withDefault t "rules" rulesOfToml []
  let scanner ← withDefault t "scanner" ScannerConfig.ofToml .default
  let storage ← withDefault t "storage" StorageConfig.ofToml .default
  return ⟨interface, apiPort, apiBindAddress, api, logLevel, captureBuffer, databasePath, mqtt,
    ntfy, webhook, email, rules, scanner, storage⟩

/-! ### The reader -/

/-- If the TOML reader accepts the text, it is a TOML document, and the record is read from its
table. -/
def ReadsToml (other : Reader) (tomlFromStr : String → Except String Config) (content : String) :
    Prop :=
  ∀ config, tomlFromStr content = .ok config →
    ∃ t, Toml.parse other content = some t ∧ Config.ofToml t = some config

def plainToml (content : String) : Except String Config :=
  match (Toml.parse (fun _ => none) content).bind Config.ofToml with
  | some config => .ok config
  | none => .error "TOML parse error"

theorem readsToml_plainToml (content : String) : ReadsToml (fun _ => none) plainToml content := by
  intro config h
  unfold plainToml at h
  split at h
  · next c hc =>
    cases h
    exact Option.bind_eq_some_iff.mp hc
  · cases h

end EdgeShield
