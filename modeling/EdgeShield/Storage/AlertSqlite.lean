import EdgeShield.Lib.Machine
import EdgeShield.Lib.Sql
import EdgeShield.Rules.Store
import EdgeShield.Storage.Restart

/-!
# The SQLite alert store

`crates/storage/src/alert_sqlite.rs`: the table `alerts`, keyed by a number that SQLite
counts up, with texts in its columns and the device snapshot as a JSON object.

The JSON of a device is written by the derived serializer.  `DeviceJson` is what that hands
to `serde_json`: the two fields with a serializer of their own, the times and the
statistics, are already texts there.  How such a value is written is a parameter
(`SnapshotFormat`), and `Lawful` says that it is read back; the entries of the statistics
come back in the order of the hash map that they are read into.

`alertStores_interchangeable` is the comparison with the in-memory store: on the same
calls, the two give the same answers.  `Agree` relates their states, one row for one alert.
-/

namespace EdgeShield.Storage

open EdgeShield.Lib EdgeShield.Common EdgeShield.Rules
open EdgeShield.Common (Protocol)

/-! ### The snapshot of a device -/

structure DeviceJson where
  mac : MacAddress
  ips : List IpAddr
  hostname : Option String
  firstSeen : String
  lastSeen : String
  packetCount : Nat
  bytesSent : Nat
  bytesReceived : Nat
  protocols : List Protocol
  vendor : Option String
  dhcpVendorClass : Option String
  protocolStats : List (String × Nat)
  deriving DecidableEq

structure SnapshotFormat where
  write : DeviceJson → String
  read : String → Except String DeviceJson
  /-- The message for a time that does not parse. -/
  timeError : String → String

/-- The counters are `u64` values. -/
def DeviceJson.Fits (j : DeviceJson) : Prop :=
  j.packetCount ≤ u64Max ∧ j.bytesSent ≤ u64Max ∧ j.bytesReceived ≤ u64Max ∧
    ∀ x ∈ j.protocolStats, x.2 ≤ u64Max

/-- Reading undoes writing, up to the order of the statistics. -/
structure SnapshotFormat.Lawful (J : SnapshotFormat) : Prop where
  read_write : ∀ j : DeviceJson, j.Fits → (j.protocolStats.map Prod.fst).Nodup →
    ∃ stats, stats.Perm j.protocolStats ∧ J.read (J.write j) = .ok { j with protocolStats := stats }

def serializeProtocolStats (stats : ProtocolStats) : List (String × Nat) :=
  (statsList stats).map fun x => (x.1.toString, x.2)

/-- `Protocol::from_str`, with the same table of names as the columns of `devices`. -/
def protocolFromStr (s : String) : Except String Protocol :=
  match parseProtocol s with
  | some p => .ok p
  | none => .error ("unknown protocol: " ++ s)

/-- One pass of the loop of `deserialize_protocol_stats`. -/
def deserializeEntry (map : ProtocolStats) (x : String × Nat) : ProtocolStats :=
  match protocolFromStr x.1 with
  | .ok proto => map.insert proto x.2
  | .error _ => map

def deserializeProtocolStats (raw : List (String × Nat)) : ProtocolStats :=
  raw.foldl deserializeEntry ∅

section Codecs

variable (F : TextFormats) (J : SnapshotFormat)

def deviceToJson (d : Device) : DeviceJson where
  mac := d.mac
  ips := ipList d.ips
  hostname := d.hostname
  firstSeen := F.timeText d.firstSeen
  lastSeen := F.timeText d.lastSeen
  packetCount := d.packetCount
  bytesSent := d.bytesSent
  bytesReceived := d.bytesReceived
  protocols := protocolList d.protocols
  vendor := d.vendor
  dhcpVendorClass := d.dhcpVendorClass
  protocolStats := serializeProtocolStats d.protocolStats

def deserializeIso8601 (s : String) : Except String Timestamp :=
  match F.parseTime s with
  | some t => .ok t.truncMillis
  | none => .error (J.timeError s)

def deviceFromJson (j : DeviceJson) : Except String Device := do
  let firstSeen ← deserializeIso8601 F J j.firstSeen
  let lastSeen ← deserializeIso8601 F J j.lastSeen
  return {
    mac := j.mac
    ips := j.ips.toFinset
    hostname := j.hostname
    firstSeen := firstSeen
    lastSeen := lastSeen
    packetCount := j.packetCount
    bytesSent := j.bytesSent
    bytesReceived := j.bytesReceived
    protocols := j.protocols.toFinset
    vendor := j.vendor
    dhcpVendorClass := j.dhcpVendorClass
    protocolStats := deserializeProtocolStats j.protocolStats }

/-! ### Rows -/

structure AlertRow where
  ruleName : String
  severity : String
  eventType : String
  mac : String
  message : String
  deviceSnapshot : String
  timestamp : String
  acknowledged : Int
  deriving DecidableEq, Repr

def alertRowOf (a : Alert) : AlertRow where
  ruleName := a.ruleName
  severity := a.severity.toString
  eventType := a.eventType.toString
  mac := a.mac.toString
  message := a.message
  deviceSnapshot := J.write (deviceToJson F a.deviceSnapshot)
  timestamp := F.timeText a.timestamp
  acknowledged := if a.acknowledged then 1 else 0

def parseEventType (s : String) : AlertEventType :=
  if s = "new_device" then .newDevice
  else if s = "device_offline" then .deviceOffline
  else if s = "protocol_change" then .protocolChange
  else .custom s

/-- `row_to_alert`; `now` is what the clock gives where the time does not parse. -/
def rowToAlert (now : Timestamp) (id : Int64) (row : AlertRow) : Except String Alert := do
  let mac ← F.parseMac row.mac
  let severity ← Severity.fromStr row.severity
  let json ← J.read row.deviceSnapshot
  let device ← deviceFromJson F J json
  return {
    id := id.toUInt64
    ruleName := row.ruleName
    severity := severity
    eventType := parseEventType row.eventType
    mac := mac
    message := row.message
    deviceSnapshot := device
    timestamp := (F.parseTime row.timestamp).getD now
    acknowledged := row.acknowledged ≠ 0 }

inductive AlertColumn where
  | severity | acknowledged | ruleName

def AlertRow.value (row : AlertRow) : AlertColumn → SqlValue
  | .severity => .text row.severity
  | .acknowledged => .integer row.acknowledged
  | .ruleName => .text row.ruleName

def buildFilter (filter : AlertFilter) : Where AlertColumn :=
  let q := Where.all
  let q := q.bindSome .severity .eq (filter.severity.map fun sev => .text sev.toString)
  let q := q.bindSome .acknowledged .eq
    (filter.acknowledged.map fun ack => .integer (if ack then 1 else 0))
  q.bindSome .ruleName .eq (filter.ruleName.map fun name => .text name)

/-! ### The store -/

/-- The table, and the largest id that it ever had. -/
structure SqliteAlertStore where
  rows : AList fun _ : Int64 => AlertRow
  seq : Nat

namespace SqliteAlertStore

def empty : SqliteAlertStore where
  rows := ∅
  seq := 0

/-- `INSERT` with `AUTOINCREMENT`: an id that was given once is not given again. -/
def insertAlert (s : SqliteAlertStore) (alert : Alert) :
    Except StorageError AlertId × SqliteAlertStore :=
  if s.seq < maxInteger then
    let id := Int64.ofNat (s.seq + 1)
    (.ok id.toUInt64,
      { rows := s.rows.insert id (alertRowOf F J alert), seq := s.seq + 1 })
  else (.error (.internal "alert insert failed: database or disk is full"), s)

def listAlerts (s : SqliteAlertStore) (clock : Int64 → Timestamp) (filter : AlertFilter) :
    Except StorageError (List Alert) :=
  let rows := (s.rows.entries.filter fun e => (buildFilter filter).selects AlertRow.value e.2).mergeSort
    fun a b => b.1 ≤ a.1
  match fetchRows filter.limit (fun e => rowToAlert F J (clock e.1) e.1 e.2) rows with
  | .error e => .error (.internal ("row parse failed: " ++ e))
  | .ok alerts => .ok alerts

def getAlert (s : SqliteAlertStore) (clock : Int64 → Timestamp) (id : AlertId) :
    Except StorageError (Option Alert) :=
  match s.rows.lookup id.toInt64 with
  | none => .ok none
  | some row =>
    match rowToAlert F J (clock id.toInt64) id.toInt64 row with
    | .error e => .error (.internal ("row parse failed: " ++ e))
    | .ok alert => .ok (some alert)

/-- `UPDATE … WHERE id = ?1`, which affects one row or none. -/
def acknowledgeAlert (s : SqliteAlertStore) (id : AlertId) :
    Except StorageError SqliteAlertStore :=
  match s.rows.lookup id.toInt64 with
  | some row => .ok { s with rows := s.rows.insert id.toInt64 { row with acknowledged := 1 } }
  | none => .error (.internal ("alert " ++ Nat.repr id.toNat ++ " not found"))

def deleteAlert (s : SqliteAlertStore) (id : AlertId) : SqliteAlertStore :=
  { s with rows := s.rows.erase id.toInt64 }

def isAcknowledged (s : SqliteAlertStore) (ruleName : String) (mac : MacAddress) : Bool :=
  let count := s.rows.entries.countP fun e =>
    e.2.ruleName = ruleName && e.2.mac = mac.toString && e.2.acknowledged = 1
  0 < count

def countAlerts (s : SqliteAlertStore) : Nat := s.rows.entries.length

def call (s : SqliteAlertStore) (clock : Int64 → Timestamp) :
    AlertCall → AlertAnswer (List Alert) × SqliteAlertStore
  | .insertAlert alert =>
    let (id, s) := s.insertAlert F J alert
    (.inserted id, s)
  | .listAlerts filter => (.listed (s.listAlerts F J clock filter), s)
  | .getAlert id => (.got (s.getAlert F J clock id), s)
  | .acknowledgeAlert id =>
    match s.acknowledgeAlert id with
    | .ok s => (.done (.ok ()), s)
    | .error e => (.done (.error e), s)
  | .deleteAlert id => (.done (.ok ()), s.deleteAlert id)
  | .isAcknowledged ruleName mac => (.acknowledged (.ok (s.isAcknowledged ruleName mac)), s)
  | .countAlerts => (.counted (.ok s.countAlerts), s)

end SqliteAlertStore

end Codecs

/-! ### Round trips -/

def FitsU64 (d : Device) : Prop :=
  d.packetCount ≤ u64Max ∧ d.bytesSent ≤ u64Max ∧ d.bytesReceived ≤ u64Max ∧
    ∀ p n, d.protocolStats.lookup p = some n → n ≤ u64Max

theorem truncMillis_truncMillis (t : Timestamp) : t.truncMillis.truncMillis = t.truncMillis := by
  simp only [Timestamp.truncMillis]
  rw [Int.mul_ediv_cancel _ (by decide)]

theorem deserializeProtocolStats_of_perm {stats : ProtocolStats} {raw : List (String × Nat)}
    (h : raw.Perm (serializeProtocolStats stats)) : deserializeProtocolStats raw = stats := by
  have hfold : ∀ (raw : List (String × Nat)) (map : ProtocolStats),
      raw.foldl deserializeEntry map = (raw.filterMap fun x => (parseProtocol x.1).map (·, x.2)).foldl
        (fun map x => map.insert x.1 x.2) map := by
    intro raw
    induction raw with
    | nil => intro map; rfl
    | cons x raw ih =>
      intro map
      rw [List.foldl_cons, ih]
      cases hx : parseProtocol x.1 with
      | none => simp [deserializeEntry, protocolFromStr, hx]
      | some p => simp [deserializeEntry, protocolFromStr, hx]
  rw [deserializeProtocolStats, hfold]
  refine foldl_insert_of_perm ((h.filterMap _).trans (.of_eq ?_))
  rw [serializeProtocolStats, List.filterMap_map]
  refine (List.filterMap_congr fun x _ => ?_).trans (List.filterMap_some)
  simp only [Function.comp, parseProtocol_toString, Option.map_some]

section RoundTrip

variable {F : TextFormats} {J : SnapshotFormat}

/-- **A snapshot comes back from its JSON.** -/
theorem deviceFromJson_read (hF : F.Lawful) (hJ : J.Lawful) {d : Device} (h : FitsU64 d) :
    ∃ json, J.read (J.write (deviceToJson F d)) = .ok json ∧
      deviceFromJson F J json = .ok (persisted d) := by
  have hfits : (deviceToJson F d).Fits := by
    refine ⟨h.1, h.2.1, h.2.2.1, fun x hx => ?_⟩
    obtain ⟨⟨p, n⟩, hp, rfl⟩ := List.mem_map.mp hx
    exact h.2.2.2 p n (mem_statsList.mp hp)
  have hnd : ((deviceToJson F d).protocolStats.map Prod.fst).Nodup := by
    have htext : Function.Injective Protocol.toString := fun p q hpq => by
      have hsome := congrArg parseProtocol hpq
      rw [parseProtocol_toString, parseProtocol_toString] at hsome
      exact Option.some.inj hsome
    have hkeys := (nodup_statsList d.protocolStats).map htext
    rw [List.map_map] at hkeys
    rw [deviceToJson, serializeProtocolStats, List.map_map]
    exact hkeys
  obtain ⟨stats, hperm, hread⟩ := hJ.read_write _ hfits hnd
  refine ⟨_, hread, ?_⟩
  simp only [deviceFromJson, deserializeIso8601, deviceToJson, hF.time, truncMillis_truncMillis,
    deserializeProtocolStats_of_perm hperm, ipList, protocolList, Finset.sort_toFinset]
  rfl

/-- What a store can keep of an alert: no custom event, and counters that are `u64`. -/
structure Storable (a : Alert) : Prop where
  event : ∀ s, a.eventType ≠ .custom s
  device : FitsU64 a.deviceSnapshot

/-- An alert with all its times in milliseconds. -/
def persistedAlert (a : Alert) : Alert :=
  { a with
    deviceSnapshot := persisted a.deviceSnapshot
    timestamp := a.timestamp.truncMillis }

theorem persistedAlert_persistedAlert (a : Alert) :
    persistedAlert (persistedAlert a) = persistedAlert a := by
  simp only [persistedAlert, persisted, truncMillis_truncMillis]

theorem parseEventType_toString {e : AlertEventType} (h : ∀ s, e ≠ .custom s) :
    parseEventType e.toString = e := by
  cases e with
  | custom s => exact absurd rfl (h s)
  | _ => rfl

/-- **A row is read**, with its id; a custom event may come back as one of the others. -/
theorem rowToAlert_of_fitsU64 (hF : F.Lawful) (hJ : J.Lawful) {a : Alert}
    (h : FitsU64 a.deviceSnapshot) (now : Timestamp) (id : Int64) :
    rowToAlert F J now id (alertRowOf F J a) =
      .ok { persistedAlert { a with id := id.toUInt64 } with
        eventType := parseEventType a.eventType.toString } := by
  obtain ⟨json, hread, hdevice⟩ := deviceFromJson_read hF hJ h
  have hack : decide ((alertRowOf F J a).acknowledged ≠ 0) = a.acknowledged := by
    rw [alertRowOf]
    cases a.acknowledged <;> rfl
  have hmac : F.parseMac (alertRowOf F J a).mac = .ok a.mac := hF.mac a.mac
  have hseverity : Severity.fromStr (alertRowOf F J a).severity = .ok a.severity :=
    Severity.fromStr_toString a.severity
  have hsnapshot : J.read (alertRowOf F J a).deviceSnapshot = .ok json := hread
  have htime : F.parseTime (alertRowOf F J a).timestamp = some a.timestamp.truncMillis :=
    hF.time a.timestamp
  rw [rowToAlert, hmac, hseverity, hsnapshot, hack, htime]
  show (deviceFromJson F J json).bind _ = _
  rw [hdevice]
  rfl

/-- **An alert comes back from its row**, with the id of the row. -/
theorem rowToAlert_rowOf (hF : F.Lawful) (hJ : J.Lawful) {a : Alert} (h : Storable a)
    (now : Timestamp) (id : Int64) :
    rowToAlert F J now id (alertRowOf F J a) = .ok (persistedAlert { a with id := id.toUInt64 }) := by
  rw [rowToAlert_of_fitsU64 hF hJ h.device, parseEventType_toString h.event]
  rfl

/-- **The `WHERE` clause means the filter.** -/
theorem selects_buildFilter (filter : AlertFilter) (a : Alert) :
    (buildFilter filter).selects AlertRow.value (alertRowOf F J a) = filter.keeps a := by
  have hseverity : ∀ s t : Severity, s.toString = t.toString ↔ s = t := by
    intro s t
    refine ⟨fun h => ?_, fun h => by rw [h]⟩
    have hok := congrArg Severity.fromStr h
    rw [Severity.fromStr_toString, Severity.fromStr_toString] at hok
    exact Except.ok.inj hok
  have hack : ∀ b c : Bool, ((if b then (1 : Int) else 0) = if c then 1 else 0) ↔ b = c := by
    decide
  have h₁ := Where.numbered_all.bindSome AlertColumn.severity .eq
    (filter.severity.map fun sev => .text sev.toString)
  have h₂ := h₁.bindSome .acknowledged .eq
    (filter.acknowledged.map fun ack => .integer (if ack then 1 else 0))
  rw [buildFilter, Where.selects_bindSome h₂, Where.selects_bindSome h₁,
    Where.selects_bindSome Where.numbered_all, Where.selects_all, Bool.true_and, AlertFilter.keeps]
  cases filter.severity <;> cases filter.acknowledged <;> cases filter.ruleName <;>
    simp [Comparison.holds, AlertRow.value, alertRowOf, hseverity, hack, Bool.and_assoc]

end RoundTrip

/-! ### The two stores on the same calls -/

/-- A call, with what comes from outside: the order in which the map is read, and the
clock reads for rows. -/
structure StoreCall where
  call : AlertCall
  scan : InMemoryAlertStore.Scan
  clock : Int64 → Timestamp

def StoreCall.isInsert (c : StoreCall) : Bool :=
  match c.call with
  | .insertAlert _ => true
  | _ => false

def insertCount (calls : List StoreCall) : Nat := calls.countP StoreCall.isInsert

def inMemoryCalls : Machine InMemoryAlertStore StoreCall (AlertAnswer (List Alert)) where
  step s c :=
    let (answer, s) := s.call c.scan c.call
    some (s, answer)

def sqliteCalls (F : TextFormats) (J : SnapshotFormat) :
    Machine SqliteAlertStore StoreCall (AlertAnswer (List Alert)) where
  step s c :=
    let (answer, s) := s.call F J c.clock c.call
    some (s, answer)

/-- An answer up to the order of lists, with times in milliseconds. -/
def answerView : AlertAnswer (List Alert) → AlertAnswer (Multiset Alert)
  | .inserted id => .inserted id
  | .listed alerts => .listed (alerts.map fun l => (l.map persistedAlert : Multiset Alert))
  | .got alert => .got (alert.map fun a => a.map persistedAlert)
  | .done result => .done result
  | .acknowledged answer => .acknowledged answer
  | .counted count => .counted count

def givenIds (answers : List (AlertAnswer (List Alert))) : List (Except StorageError AlertId) :=
  answers.filterMap fun
    | .inserted id => some id
    | _ => none

/-- A call of the comparison: an alert that can be stored, or a listing without limit. -/
def Comparable (c : StoreCall) : Prop :=
  (∀ a, c.call = .insertAlert a → Storable a) ∧
    ∀ filter, c.call = .listAlerts filter → filter.limit = none

section Simulation

variable {F : TextFormats} {J : SnapshotFormat}

/-- **The states of the two stores agree**: the row of an id is that of the alert with this
id, and both have counted the insertions. -/
structure Agree (F : TextFormats) (J : SnapshotFormat) (inserts : Nat) (m : InMemoryAlertStore)
    (q : SqliteAlertStore) : Prop where
  rows : ∀ id : AlertId, q.rows.lookup id.toInt64 = (m.alerts.lookup id).map (alertRowOf F J)
  alerts : ∀ id a, m.alerts.lookup id = some a → a.id = id ∧ Storable a
  nextId : m.nextId = UInt64.ofNat (inserts + 1)
  seq : q.seq = inserts

def entryOf (F : TextFormats) (J : SnapshotFormat) (e : Σ _ : AlertId, Alert) :
    Σ _ : Int64, AlertRow := ⟨e.1.toInt64, alertRowOf F J e.2⟩

theorem Agree.perm {n : Nat} {m : InMemoryAlertStore} {q : SqliteAlertStore} (h : Agree F J n m q) :
    q.rows.entries.Perm (m.alerts.entries.map (entryOf F J)) := by
  have hkeys : (m.alerts.entries.map (entryOf F J)).NodupKeys := by
    have hcast : Function.Injective UInt64.toInt64 := fun a b hab => congrArg Int64.toUInt64 hab
    have hnd := m.alerts.nodupKeys.map hcast
    rw [List.keys, List.map_map] at hnd
    rw [List.NodupKeys, List.keys, List.map_map]
    exact hnd
  refine List.lookup_ext q.rows.nodupKeys hkeys fun id row => ?_
  rw [List.mem_dlookup_iff hkeys]
  have hrow := h.rows id.toUInt64
  constructor
  · intro hq
    have hlookup : q.rows.lookup id.toUInt64.toInt64 = some row := hq
    rw [hrow] at hlookup
    obtain ⟨a, ha, rfl⟩ := Option.map_eq_some_iff.mp hlookup
    exact List.mem_map.mpr ⟨⟨id.toUInt64, a⟩, AList.mem_lookup_iff.mp ha, rfl⟩
  · intro hmem
    obtain ⟨⟨id', a⟩, he, hentry⟩ := List.mem_map.mp hmem
    cases hentry
    have ha : m.alerts.lookup id' = some a := AList.mem_lookup_iff.mpr he
    have hlookup := h.rows id'
    rw [ha] at hlookup
    exact hlookup

variable {n : Nat} {m : InMemoryAlertStore} {q : SqliteAlertStore}

theorem Agree.set (h : Agree F J n m q) {id : AlertId} {a : Alert} (hid : a.id = id)
    (ha : Storable a) :
    (∀ id' : AlertId, (q.rows.insert id.toInt64 (alertRowOf F J a)).lookup id'.toInt64 =
        ((m.alerts.insert id a).lookup id').map (alertRowOf F J)) ∧
      ∀ id' a', (m.alerts.insert id a).lookup id' = some a' → a'.id = id' ∧ Storable a' := by
  refine ⟨fun id' => ?_, fun id' a' ha' => ?_⟩
  · by_cases hsame : id' = id
    · subst hsame
      rw [AList.lookup_insert, AList.lookup_insert]
      rfl
    · have hne : id'.toInt64 ≠ id.toInt64 := fun he => hsame (congrArg Int64.toUInt64 he)
      rw [AList.lookup_insert_ne hne, AList.lookup_insert_ne hsame, h.rows id']
  · by_cases hsame : id' = id
    · subst hsame
      rw [AList.lookup_insert] at ha'
      cases ha'
      exact ⟨hid, ha⟩
    · rw [AList.lookup_insert_ne hsame] at ha'
      exact h.alerts id' a' ha'

theorem Agree.insertAlert (h : Agree F J n m q) {a : Alert} (ha : Storable a) (hroom : n < maxInteger) :
    (m.insertAlert a).1 = UInt64.ofNat (n + 1) ∧
      (q.insertAlert F J a).1 = .ok (UInt64.ofNat (n + 1)) ∧
      Agree F J (n + 1) (m.insertAlert a).2 (q.insertAlert F J a).2 := by
  have hq : q.insertAlert F J a = (.ok (UInt64.ofNat (n + 1)),
      ⟨q.rows.insert (Int64.ofNat (n + 1)) (alertRowOf F J a), n + 1⟩) := by
    rw [SqliteAlertStore.insertAlert, h.seq, if_pos hroom]
    rfl
  have hm : m.insertAlert a = (UInt64.ofNat (n + 1),
      ⟨m.alerts.insert (UInt64.ofNat (n + 1)) { a with id := UInt64.ofNat (n + 1) },
        UInt64.ofNat (n + 1) + 1⟩) := by
    rw [InMemoryAlertStore.insertAlert, h.nextId]
  rw [hq, hm]
  have hnew : Storable { a with id := UInt64.ofNat (n + 1) } := ⟨ha.event, ha.device⟩
  obtain ⟨hrows, halerts⟩ := h.set rfl hnew
  exact ⟨rfl, rfl, hrows, halerts, (UInt64.ofNat_add (n + 1) 1).symm, rfl⟩

theorem Agree.deleteAlert (h : Agree F J n m q) (id : AlertId) :
    Agree F J n (m.deleteAlert id) (q.deleteAlert id) := by
  refine ⟨fun id' => ?_, fun id' a ha => ?_, h.nextId, h.seq⟩
  · by_cases hid : id' = id
    · subst hid
      rw [InMemoryAlertStore.deleteAlert, SqliteAlertStore.deleteAlert, AList.lookup_erase,
        AList.lookup_erase]
      rfl
    · have hne : id'.toInt64 ≠ id.toInt64 := fun he => hid (congrArg Int64.toUInt64 he)
      rw [InMemoryAlertStore.deleteAlert, SqliteAlertStore.deleteAlert, AList.lookup_erase_ne hne,
        AList.lookup_erase_ne hid, h.rows id']
  · by_cases hid : id' = id
    · subst hid
      rw [InMemoryAlertStore.deleteAlert, AList.lookup_erase] at ha
      cases ha
    · rw [InMemoryAlertStore.deleteAlert, AList.lookup_erase_ne hid] at ha
      exact h.alerts id' a ha

theorem Agree.acknowledge (h : Agree F J n m q) {id : AlertId} {a : Alert}
    (ha : m.alerts.lookup id = some a) :
    Agree F J n { m with alerts := m.alerts.insert id { a with acknowledged := true } }
      { q with rows := q.rows.insert id.toInt64 { alertRowOf F J a with acknowledged := 1 } } := by
  obtain ⟨hid, hstorable⟩ := h.alerts id a ha
  have hsame : ({ a with acknowledged := true } : Alert).id = id := hid
  obtain ⟨hrows, halerts⟩ := h.set hsame ⟨hstorable.event, hstorable.device⟩
  exact ⟨hrows, halerts, h.nextId, h.seq⟩

theorem Agree.countAlerts (h : Agree F J n m q) : q.countAlerts = m.countAlerts := by
  rw [SqliteAlertStore.countAlerts, h.perm.length_eq, List.length_map]
  rfl

theorem Agree.isAcknowledged (h : Agree F J n m q) (ruleName : String) (mac : MacAddress) :
    q.isAcknowledged ruleName mac = m.isAcknowledged ruleName mac := by
  have hrow : ∀ a : Alert, ((alertRowOf F J a).ruleName = ruleName &&
      (alertRowOf F J a).mac = mac.toString && (alertRowOf F J a).acknowledged = 1) =
        (a.ruleName = ruleName && a.mac = mac && a.acknowledged) := by
    intro a
    have hmac : decide ((alertRowOf F J a).mac = mac.toString) = decide (a.mac = mac) :=
      decide_eq_decide.mpr MacAddress.toString_injective.eq_iff
    have hack : decide ((alertRowOf F J a).acknowledged = 1) = a.acknowledged := by
      rw [alertRowOf]
      cases a.acknowledged <;> rfl
    rw [hmac, hack]
    rfl
  rw [SqliteAlertStore.isAcknowledged, h.perm.countP_eq, List.countP_map, Bool.eq_iff_iff,
    decide_eq_true_eq, List.countP_pos_iff, InMemoryAlertStore.isAcknowledged, List.any_eq_true]
  refine exists_congr fun e => and_congr_right fun _ => ?_
  rw [← hrow e.2]
  rfl

theorem Agree.rowToAlert (h : Agree F J n m q) (hF : F.Lawful) (hJ : J.Lawful) {id : AlertId}
    {a : Alert} (ha : m.alerts.lookup id = some a) (now : Timestamp) :
    Storage.rowToAlert F J now id.toInt64 (alertRowOf F J a) = .ok (persistedAlert a) := by
  obtain ⟨hid, hstorable⟩ := h.alerts id a ha
  rw [rowToAlert_rowOf hF hJ hstorable]
  show Except.ok (persistedAlert { a with id := id }) = _
  rw [← hid]

theorem Agree.getAlert (h : Agree F J n m q) (hF : F.Lawful) (hJ : J.Lawful)
    (clock : Int64 → Timestamp) (id : AlertId) :
    q.getAlert F J clock id = .ok ((m.getAlert id).map persistedAlert) := by
  rw [SqliteAlertStore.getAlert, h.rows id, InMemoryAlertStore.getAlert]
  cases ha : m.alerts.lookup id with
  | none => rfl
  | some a => simp only [Option.map_some, h.rowToAlert hF hJ ha]

/-- **The same alerts are listed**, up to order, for every filter without limit. -/
theorem Agree.listAlerts (h : Agree F J n m q) (hF : F.Lawful) (hJ : J.Lawful)
    (clock : Int64 → Timestamp) (scan : InMemoryAlertStore.Scan) {filter : AlertFilter}
    (hlimit : filter.limit = none) :
    ∃ alerts, q.listAlerts F J clock filter = .ok alerts ∧
      alerts.Perm ((m.listAlerts scan filter).map persistedAlert) := by
  have hread : ∀ e ∈ m.alerts.entries, ∀ now,
      Storage.rowToAlert F J now (entryOf F J e).1 (entryOf F J e).2 = .ok (persistedAlert e.2) :=
    fun e he now => h.rowToAlert hF hJ (AList.mem_lookup_iff.mpr he) now
  have hrows : ((q.rows.entries.filter fun e =>
      (buildFilter filter).selects AlertRow.value e.2).mergeSort fun a b => b.1 ≤ a.1).Perm
        ((m.alerts.entries.filter fun e => filter.keeps e.2).map (entryOf F J)) := by
    refine (List.mergeSort_perm _ _).trans ((h.perm.filter _).trans (.of_eq ?_))
    rw [List.filter_map]
    refine congrArg _ (List.filter_congr fun e _ => ?_)
    exact selects_buildFilter filter e.2
  have hmemory : (m.listAlerts scan filter).Perm
      ((m.alerts.entries.filter fun e => filter.keeps e.2).map Sigma.snd) := by
    simp only [InMemoryAlertStore.listAlerts, hlimit]
    refine (List.mergeSort_perm _ _).trans (((scan.perm _).filter _).trans (.of_eq ?_))
    rw [List.filter_map]
    rfl
  refine ⟨?alerts, ?listed, ?perm⟩
  case listed =>
    have hnone : ∀ k ∈ filter.limit, k ≤ maxInteger := by rw [hlimit]; exact fun k hk => (by cases hk)
    rw [SqliteAlertStore.listAlerts, fetchRows_eq_ok hnone, hlimit]
    intro e he
    obtain ⟨e', he', rfl⟩ := List.mem_map.mp (hrows.mem_iff.mp he)
    exact ⟨_, hread e' (List.mem_filter.mp he').1 _⟩
  case perm =>
    refine (hrows.filterMap _).trans ?_
    refine List.Perm.trans (.of_eq ?_) (hmemory.map persistedAlert).symm
    rw [List.filterMap_map, List.map_map]
    refine (List.filterMap_congr fun e he => ?_).trans
      (congrFun List.filterMap_eq_map' _)
    simp only [Function.comp, hread e (List.mem_filter.mp he).1]
    rfl

/-- **One call on both stores.**  The answers look the same, an insertion is given the next
number, and the states agree afterwards. -/
theorem Agree.call (h : Agree F J n m q) (hF : F.Lawful) (hJ : J.Lawful) {c : StoreCall}
    (hc : Comparable c) (hroom : insertCount [c] + n ≤ maxInteger) :
    answerView (q.call F J c.clock c.call).1 = answerView (m.call c.scan c.call).1 ∧
      givenIds [(m.call c.scan c.call).1] =
        (List.range' (n + 1) (insertCount [c])).map (fun k => .ok (UInt64.ofNat k)) ∧
      Agree F J (n + insertCount [c]) (m.call c.scan c.call).2 (q.call F J c.clock c.call).2 := by
  obtain ⟨call, scan, clock⟩ := c
  cases call with
  | insertAlert a =>
    obtain ⟨hm, hq, hagree⟩ := h.insertAlert (hc.1 a rfl) (by rw [Nat.add_comm] at hroom; exact hroom)
    refine ⟨?_, ?_, hagree⟩
    · show AlertAnswer.inserted (q.insertAlert F J a).1 = .inserted (.ok (m.insertAlert a).1)
      rw [hm, hq]
    · show [Except.ok (m.insertAlert a).1] = [Except.ok (UInt64.ofNat (n + 1))]
      rw [hm]
  | listAlerts filter =>
    obtain ⟨alerts, hq, hperm⟩ := h.listAlerts hF hJ clock scan (hc.2 filter rfl)
    refine ⟨?_, rfl, h⟩
    show AlertAnswer.listed ((q.listAlerts F J clock filter).map _) = .listed (.ok _)
    rw [hq]
    refine congrArg (fun l => AlertAnswer.listed (.ok l)) ?_
    refine (Multiset.coe_eq_coe.mpr (hperm.map persistedAlert)).trans ?_
    rw [List.map_map]
    exact congrArg _ (List.map_congr_left fun a _ => persistedAlert_persistedAlert a)
  | getAlert id =>
    refine ⟨?_, rfl, h⟩
    show AlertAnswer.got ((q.getAlert F J clock id).map _) = .got (.ok _)
    rw [h.getAlert hF hJ clock id]
    refine congrArg (fun a => AlertAnswer.got (.ok a)) ?_
    show ((m.getAlert id).map persistedAlert).map persistedAlert = _
    rw [Option.map_map]
    exact congrFun (congrArg _ (funext persistedAlert_persistedAlert)) _
  | acknowledgeAlert id =>
    have hrow := h.rows id
    simp only [InMemoryAlertStore.call, SqliteAlertStore.call, InMemoryAlertStore.acknowledgeAlert,
      SqliteAlertStore.acknowledgeAlert, InMemoryAlertStore.getAlert]
    cases ha : m.alerts.lookup id with
    | none =>
      rw [ha] at hrow
      simp only [hrow, Option.map_none]
      exact ⟨trivial, rfl, h⟩
    | some a =>
      rw [ha] at hrow
      simp only [hrow, Option.map_some]
      exact ⟨trivial, rfl, h.acknowledge ha⟩
  | deleteAlert id => exact ⟨rfl, rfl, h.deleteAlert id⟩
  | isAcknowledged ruleName mac =>
    refine ⟨?_, rfl, h⟩
    exact congrArg (fun b => AlertAnswer.acknowledged (.ok b)) (h.isAcknowledged ruleName mac)
  | countAlerts =>
    refine ⟨?_, rfl, h⟩
    exact congrArg (fun k => AlertAnswer.counted (.ok k)) h.countAlerts

theorem insertCount_snoc (calls : List StoreCall) (c : StoreCall) :
    insertCount (calls ++ [c]) = insertCount calls + insertCount [c] := List.countP_append

def ComparableCalls (calls : List StoreCall) : Prop :=
  (∀ c ∈ calls, Comparable c) ∧ insertCount calls ≤ maxInteger

/-- Both stores after the same calls: they agree, and so do their answers so far. -/
structure InStep (F : TextFormats) (J : SnapshotFormat) (calls : List StoreCall)
    (answers answers' : List (AlertAnswer (List Alert))) (m : InMemoryAlertStore)
    (q : SqliteAlertStore) : Prop where
  agree : Agree F J (insertCount calls) m q
  views : answers'.map answerView = answers.map answerView
  ids : givenIds answers =
    (List.range' 1 (insertCount calls)).map (fun k => .ok (UInt64.ofNat k))

theorem ComparableCalls.of_snoc (calls : List StoreCall) (c : StoreCall)
    (h : ComparableCalls (calls ++ [c])) : ComparableCalls calls := by
  refine ⟨fun c' hc' => h.1 c' (List.mem_append_left _ hc'), ?_⟩
  have hle := h.2
  rw [insertCount_snoc] at hle
  omega

theorem inStep_new : InStep F J [] [] [] .new .empty :=
  ⟨⟨fun _ => rfl, fun _ _ ha => (by cases ha), rfl, rfl⟩, rfl, rfl⟩

theorem InStep.step (hF : F.Lawful) (hJ : J.Lawful) {calls : List StoreCall}
    {answers answers' : List (AlertAnswer (List Alert))} {c : StoreCall}
    (hok : ComparableCalls (calls ++ [c])) (h : InStep F J calls answers answers' m q) :
    InStep F J (calls ++ [c]) (answers ++ [(m.call c.scan c.call).1])
      (answers' ++ [(q.call F J c.clock c.call).1]) (m.call c.scan c.call).2
      (q.call F J c.clock c.call).2 := by
  have hroom := hok.2
  rw [insertCount_snoc, Nat.add_comm] at hroom
  obtain ⟨hview, hid, hagree⟩ := h.agree.call hF hJ
    (hok.1 c List.mem_concat_self) hroom
  refine ⟨?_, ?_, ?_⟩
  · rw [insertCount_snoc]
    exact hagree
  · rw [List.map_append, List.map_append, h.views]
    exact congrArg (fun v => List.map answerView answers ++ [v]) hview
  · rw [insertCount_snoc, givenIds, List.filterMap_append, ← List.range'_append_1,
      List.map_append, Nat.add_comm 1]
    exact congrArg₂ (· ++ ·) h.ids hid

/-- **The two alert stores are interchangeable.**  On every sequence of calls with fewer
than `2 ^ 63` insertions, of alerts without custom events, and with listings that have no
limit, both stores answer each call alike, and the insertions are numbered from one. -/
theorem alertStores_interchangeable (hF : F.Lawful) (hJ : J.Lawful) {calls : List StoreCall}
    (hcalls : ∀ c ∈ calls, Comparable c) (hinserts : insertCount calls < 2 ^ 63) :
    ∃ m answers q answers', inMemoryCalls.run .new calls = some (m, answers) ∧
      (sqliteCalls F J).run .empty calls = some (q, answers') ∧
      answers'.map answerView = answers.map answerView ∧
      givenIds answers =
        (List.range' 1 (insertCount calls)).map (fun k => .ok (UInt64.ofNat k)) := by
  obtain ⟨m, answers, q, answers', hm, hq, hstep⟩ :=
    inMemoryCalls.lockstep (N := sqliteCalls F J) (R := InStep F J) ComparableCalls.of_snoc
      inStep_new
      (fun _ _ _ _ _ _ hok h => ⟨_, _, _, _, rfl, rfl, h.step hF hJ hok⟩)
      calls ⟨hcalls, Nat.le_sub_one_of_lt hinserts⟩
  exact ⟨m, answers, q, answers', hm, hq, hstep.views, hstep.ids⟩

end Simulation

def laptopJson : DeviceJson where
  mac := laptop.mac
  ips := [.ofOctets 10 0 0 2]
  hostname := some "laptop"
  firstSeen := "1970-01-01T00:00:00.000Z"
  lastSeen := "1970-01-01T00:01:00.000Z"
  packetCount := 3
  bytesSent := 180
  bytesReceived := 0
  protocols := [.tcp]
  vendor := none
  dhcpVendorClass := none
  protocolStats := [("TCP", 3)]

def laptopFields : String :=
  "\"mac\":\"00:11:22:33:44:55\",\"ips\":[\"10.0.0.2\"],\"hostname\":\"laptop\"," ++
  "\"first_seen\":\"1970-01-01T00:00:00.000Z\",\"last_seen\":\"1970-01-01T00:01:00.000Z\"," ++
  "\"packet_count\":3,\"bytes_sent\":180,\"bytes_received\":0,\"protocols\":[\"Tcp\"]," ++
  "\"vendor\":null,\"dhcp_vendor_class\":null,\"protocol_stats\":\x7b\"TCP\":3\x7d\x7d"

def laptopText : String := "\x7b" ++ laptopFields

theorem statsList_laptop : statsList laptop.protocolStats = [(.tcp, 3)] := by
  have hkeys : laptop.protocolStats.keys = {.tcp} := by
    ext p
    rw [Finmap.mem_keys, laptop, Finmap.mem_insert, Finset.mem_singleton]
    simp [Finmap.notMem_empty]
  rw [statsList, hkeys, Finset.sort_singleton, laptop]
  simp [Finmap.lookup_insert]

theorem deviceToJson_laptop {F : TextFormats} (h : LaptopTexts F) :
    deviceToJson F laptop = laptopJson := by
  have hstats : serializeProtocolStats laptop.protocolStats = [("TCP", 3)] := by
    rw [serializeProtocolStats, statsList_laptop]
    rfl
  have hfirst : F.timeText laptop.firstSeen = laptopJson.firstSeen := h.first
  have hlast : F.timeText laptop.lastSeen = laptopJson.lastSeen := h.last
  have hips : ipList laptop.ips = laptopJson.ips := Finset.sort_singleton _ _
  have hprotocols : protocolList laptop.protocols = laptopJson.protocols := Finset.sort_singleton _ _
  rw [deviceToJson, hstats, hfirst, hlast, hips, hprotocols]
  rfl

theorem countable_deviceJson : Countable DeviceJson := by
  have hstring := countable_string
  have hip : Countable IpAddr := IpAddr.key_injective.countable
  have hprotocol : Countable Protocol := Protocol.rank_injective.countable
  have hmac : Countable MacAddress := MacAddress.toString_injective.countable
  refine Function.Injective.countable (f := fun j : DeviceJson =>
    ((j.mac, j.ips, j.hostname, j.firstSeen, j.lastSeen, j.packetCount),
      (j.bytesSent, j.bytesReceived, j.protocols, j.vendor, j.dhcpVendorClass, j.protocolStats))) ?_
  intro j j' h
  cases j
  cases j'
  cases h
  rfl

noncomputable def snapshotFormatOf (text : DeviceJson → String) : SnapshotFormat where
  write := text
  read s :=
    match Function.partialInv text s with
    | some j => .ok j
    | none => .error "expected value at line 1 column 1"
  timeError _ := "premature end of input"

theorem exists_lawful_snapshot : ∃ J : SnapshotFormat, J.Lawful ∧ J.write laptopJson = laptopText := by
  have hcountable := countable_deviceJson
  obtain ⟨text, hinj, hknown⟩ := exists_text DeviceJson [(laptopJson, laptopText)]
    (by
      intro x hx y hy
      rw [List.mem_singleton.mp hx, List.mem_singleton.mp hy]
      exact iff_of_true rfl rfl)
    (by
      intro x hx
      rw [List.mem_singleton.mp hx]
      show laptopText.toList.head? ≠ some 'x'
      rw [laptopText, String.toList_append]
      decide)
  refine ⟨snapshotFormatOf text, ⟨fun j _ _ => ⟨j.protocolStats, .refl _, ?_⟩⟩,
    hknown (laptopJson, laptopText) List.mem_cons_self⟩
  simp only [snapshotFormatOf, Function.partialInv_left hinj]

def laptopAlert : Alert :=
  Alert.new "new-device" .warning .newDevice laptop "laptop joined" ⟨60000000007⟩

def plainCall (call : AlertCall) : StoreCall :=
  ⟨call, ⟨fun alerts => alerts, fun _ => .refl _⟩, fun _ => ⟨0⟩⟩

/-- An alert is raised, acknowledged, listed and deleted, and another one is raised. -/
def laptopCalls : List StoreCall :=
  [plainCall (.insertAlert laptopAlert), plainCall (.acknowledgeAlert 1), plainCall (.getAlert 1),
    plainCall (.listAlerts ⟨some .warning, some true, none, none⟩),
    plainCall (.isAcknowledged "new-device" laptop.mac), plainCall (.deleteAlert 1),
    plainCall (.acknowledgeAlert 1), plainCall (.insertAlert laptopAlert), plainCall .countAlerts]

theorem fitsU64_laptop : FitsU64 laptop := by
  refine ⟨by decide, by decide, by decide, fun p n hp => ?_⟩
  have hlist : (p, n) ∈ statsList laptop.protocolStats := mem_statsList.mpr hp
  rw [statsList_laptop] at hlist
  cases List.mem_singleton.mp hlist
  decide

/-- The second alert about the laptop has the number two in both stores. -/
theorem alertStores_interchangeable_laptop : ∃ F J, F.Lawful ∧ J.Lawful ∧ LaptopTexts F ∧
    J.write (deviceToJson F laptop) = laptopText ∧
    ∃ m answers q answers', inMemoryCalls.run .new laptopCalls = some (m, answers) ∧
      (sqliteCalls F J).run .empty laptopCalls = some (q, answers') ∧
      answers'.map answerView = answers.map answerView ∧ givenIds answers = [.ok 1, .ok 2] := by
  obtain ⟨F, hF, htexts⟩ := exists_lawful
  obtain ⟨J, hJ, htext⟩ := exists_lawful_snapshot
  have hstorable : Storable laptopAlert := ⟨fun s hs => (by cases hs), fitsU64_laptop⟩
  have hcalls : ∀ c ∈ laptopCalls, Comparable c := by
    intro c hc
    simp only [laptopCalls, List.mem_cons, List.not_mem_nil, or_false] at hc
    refine ⟨fun a ha => ?_, fun filter hfilter => ?_⟩
    · rcases hc with rfl | rfl | rfl | rfl | rfl | rfl | rfl | rfl | rfl <;> cases ha <;>
        exact hstorable
    · rcases hc with rfl | rfl | rfl | rfl | rfl | rfl | rfl | rfl | rfl <;> cases hfilter
      rfl
  obtain ⟨m, answers, q, answers', hm, hq, hviews, hids⟩ :=
    alertStores_interchangeable hF hJ hcalls (by decide)
  refine ⟨F, J, hF, hJ, htexts, ?_, m, answers, q, answers', hm, hq, hviews, hids⟩
  rw [deviceToJson_laptop htexts, htext]

end EdgeShield.Storage
