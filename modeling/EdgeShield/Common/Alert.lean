import EdgeShield.Common.Types

/-!
# Alerts and the store contract

`crates/common/src/alert.rs` and `alert_store.rs`: an alert is raised by a rule for
one device and carries a snapshot of that device.  `AlertStore` is the trait behind
which alerts are kept, with the four operations that the rule engine and the API
use on a run of the engine.  A store also says which alerts it holds; the one law
of the contract is that `isAcknowledged` answers about these.

A store call that fails is not part of the contract: failures come from outside (a
disk, a lock), and the engine takes them as inputs.

`AlertCall` and `AlertAnswer` are the whole trait, with the calls that only look.
-/

namespace EdgeShield.Common

inductive Severity where
  | info
  | warning
  | critical
  deriving DecidableEq, Repr

namespace Severity

def toString : Severity → String
  | info => "info"
  | warning => "warning"
  | critical => "critical"

def fromStr (s : String) : Except String Severity :=
  if s.toLower = "info" then .ok .info
  else if s.toLower = "warning" ∨ s.toLower = "warn" then .ok .warning
  else if s.toLower = "critical" then .ok .critical
  else .error ("invalid severity '" ++ s ++ "': expected info, warning, or critical")

theorem fromStr_toString (s : Severity) : fromStr s.toString = .ok s := by
  cases s <;> decide +kernel

end Severity

inductive AlertEventType where
  | newDevice
  | deviceOffline
  | protocolChange
  | custom (s : String)
  deriving DecidableEq, Repr

def AlertEventType.toString : AlertEventType → String
  | newDevice => "new_device"
  | deviceOffline => "device_offline"
  | protocolChange => "protocol_change"
  | custom s => s

/-- A `u64`; `0` is an alert that is not persisted yet. -/
abbrev AlertId := UInt64

inductive StorageError where
  | deviceNotFound (what : String)
  | internal (what : String)
  deriving DecidableEq, Repr

structure Alert where
  id : AlertId
  ruleName : String
  severity : Severity
  eventType : AlertEventType
  mac : MacAddress
  message : String
  deviceSnapshot : Device
  timestamp : Timestamp
  acknowledged : Bool
  deriving DecidableEq

/-- `Alert::new`; `now` is the clock read that it makes. -/
def Alert.new (ruleName : String) (severity : Severity) (eventType : AlertEventType)
    (device : Device) (message : String) (now : Timestamp) : Alert where
  id := 0
  ruleName := ruleName
  severity := severity
  eventType := eventType
  mac := device.mac
  message := message
  deviceSnapshot := device
  timestamp := now
  acknowledged := false

/-- A backend for alert records, with states in `σ`. -/
structure AlertStore (σ : Type) where
  insertAlert : σ → Alert → AlertId × σ
  acknowledgeAlert : σ → AlertId → Except StorageError σ
  deleteAlert : σ → AlertId → σ
  isAcknowledged : σ → String → MacAddress → Bool
  /-- The alerts that are in the store. -/
  Holds : σ → Alert → Prop
  isAcknowledged_iff : ∀ s ruleName mac, isAcknowledged s ruleName mac = true ↔
    ∃ a, Holds s a ∧ a.ruleName = ruleName ∧ a.mac = mac ∧ a.acknowledged = true

namespace AlertStore

variable {σ : Type} (S : AlertStore σ)

/-- A call that the API makes on the shared store. -/
inductive Call where
  | acknowledge (id : AlertId)
  | delete (id : AlertId)
  deriving DecidableEq, Repr

/-- The store after a call; acknowledging an alert that is not there is an error and
changes nothing. -/
def call (s : σ) : Call → σ
  | .acknowledge id =>
    match S.acknowledgeAlert s id with
    | .ok s' => s'
    | .error _ => s
  | .delete id => S.deleteAlert s id

/-- The store holds an acknowledged alert of this rule for this device. -/
def Acknowledged (s : σ) (ruleName : String) (mac : MacAddress) : Prop :=
  ∃ a, S.Holds s a ∧ a.ruleName = ruleName ∧ a.mac = mac ∧ a.acknowledged = true

end AlertStore

/-! ### The whole trait -/

/-- What to list; `none` is no condition. -/
structure AlertFilter where
  severity : Option Severity
  acknowledged : Option Bool
  ruleName : Option String
  limit : Option Nat
  deriving DecidableEq, Repr

/-- The closure of `list_alerts`, without the limit. -/
def AlertFilter.keeps (filter : AlertFilter) (a : Alert) : Bool :=
  if filter.severity.any fun sev => a.severity ≠ sev then false
  else if filter.acknowledged.any fun ack => a.acknowledged ≠ ack then false
  else if filter.ruleName.any fun name => a.ruleName ≠ name then false
  else true

inductive AlertCall where
  | insertAlert (alert : Alert)
  | listAlerts (filter : AlertFilter)
  | getAlert (id : AlertId)
  | acknowledgeAlert (id : AlertId)
  | deleteAlert (id : AlertId)
  | isAcknowledged (ruleName : String) (mac : MacAddress)
  | countAlerts

/-- The answer to a call; `L` is what a list of alerts is looked at as. -/
inductive AlertAnswer (L : Type) where
  | inserted (id : Except StorageError AlertId)
  | listed (alerts : Except StorageError L)
  | got (alert : Except StorageError (Option Alert))
  | done (result : Except StorageError Unit)
  | acknowledged (answer : Except StorageError Bool)
  | counted (count : Except StorageError Nat)

end EdgeShield.Common
