import Mathlib.Data.List.AList
import EdgeShield.Common.Alert

/-!
# The in-memory alert store

`crates/rules/src/store.rs`: `InMemoryAlertStore` is a map from ids to alerts and a
counter for the next id, a `u64` that wraps.  `alertStore` is its implementation of
the trait as the rule engine uses it, and `call` that of the whole trait.

The map is a hash map in shards, and the order in which it is read is not specified: a
listing takes it as an input (`Scan`).
-/

namespace EdgeShield.Rules

open EdgeShield.Common

structure InMemoryAlertStore where
  alerts : AList fun _ : AlertId => Alert
  nextId : AlertId

namespace InMemoryAlertStore

def new : InMemoryAlertStore where
  alerts := ∅
  nextId := 1

def insertAlert (s : InMemoryAlertStore) (alert : Alert) : AlertId × InMemoryAlertStore :=
  let id := s.nextId
  (id, { alerts := s.alerts.insert id { alert with id := id }, nextId := s.nextId + 1 })

def getAlert (s : InMemoryAlertStore) (id : AlertId) : Option Alert := s.alerts.lookup id

def acknowledgeAlert (s : InMemoryAlertStore) (id : AlertId) :
    Except StorageError InMemoryAlertStore :=
  match s.getAlert id with
  | some alert => .ok { s with alerts := s.alerts.insert id { alert with acknowledged := true } }
  | none => .error (.internal ("alert " ++ Nat.repr id.toNat ++ " not found"))

def deleteAlert (s : InMemoryAlertStore) (id : AlertId) : InMemoryAlertStore :=
  { s with alerts := s.alerts.erase id }

def isAcknowledged (s : InMemoryAlertStore) (ruleName : String) (mac : MacAddress) : Bool :=
  s.alerts.entries.any fun e => e.2.ruleName = ruleName && e.2.mac = mac && e.2.acknowledged

/-- An order in which the values of a map are read. -/
structure Scan where
  read : List Alert → List Alert
  perm : ∀ alerts, (read alerts).Perm alerts

/-- `list_alerts`: most recent first, by a stable sort. -/
def listAlerts (s : InMemoryAlertStore) (scan : Scan) (filter : AlertFilter) : List Alert :=
  let alerts := ((scan.read (s.alerts.entries.map Sigma.snd)).filter filter.keeps).mergeSort
    fun a b => b.timestamp.nanos ≤ a.timestamp.nanos
  match filter.limit with
  | some limit => alerts.take limit
  | none => alerts

def countAlerts (s : InMemoryAlertStore) : Nat := s.alerts.entries.length

def call (s : InMemoryAlertStore) (scan : Scan) :
    AlertCall → AlertAnswer (List Alert) × InMemoryAlertStore
  | .insertAlert alert =>
    let (id, s) := s.insertAlert alert
    (.inserted (.ok id), s)
  | .listAlerts filter => (.listed (.ok (s.listAlerts scan filter)), s)
  | .getAlert id => (.got (.ok (s.getAlert id)), s)
  | .acknowledgeAlert id =>
    match s.acknowledgeAlert id with
    | .ok s => (.done (.ok ()), s)
    | .error e => (.done (.error e), s)
  | .deleteAlert id => (.done (.ok ()), s.deleteAlert id)
  | .isAcknowledged ruleName mac => (.acknowledged (.ok (s.isAcknowledged ruleName mac)), s)
  | .countAlerts => (.counted (.ok s.countAlerts), s)

theorem isAcknowledged_iff (s : InMemoryAlertStore) (ruleName : String) (mac : MacAddress) :
    s.isAcknowledged ruleName mac = true ↔ ∃ a, (∃ id, s.getAlert id = some a) ∧
      a.ruleName = ruleName ∧ a.mac = mac ∧ a.acknowledged = true := by
  simp only [isAcknowledged, List.any_eq_true, Bool.and_eq_true, decide_eq_true_eq, and_assoc]
  constructor
  · rintro ⟨⟨id, a⟩, he, hn, hm, ha⟩
    exact ⟨a, ⟨id, AList.mem_lookup_iff.mpr he⟩, hn, hm, ha⟩
  · rintro ⟨a, ⟨id, hid⟩, hn, hm, ha⟩
    exact ⟨⟨id, a⟩, AList.mem_lookup_iff.mp hid, hn, hm, ha⟩

def alertStore : AlertStore InMemoryAlertStore where
  insertAlert := insertAlert
  acknowledgeAlert := acknowledgeAlert
  deleteAlert := deleteAlert
  isAcknowledged := isAcknowledged
  Holds s a := ∃ id, s.getAlert id = some a
  isAcknowledged_iff := isAcknowledged_iff

end InMemoryAlertStore

end EdgeShield.Rules
