import Mathlib.Data.Set.Card
import EdgeShield.Lib.Machine
import EdgeShield.Lib.Date
import EdgeShield.Storage.Restart

/-!
# The SQLite history store

`crates/storage/src/history_sqlite.rs`: the table `device_history` has one row for each
device and day.  A snapshot of a day that is already there overwrites the row, all but its
`first_seen`; a listing filters by dates, and the retention deletes by them, and in both the
dates are compared as texts.  The columns are encoded as those of `devices`.  The number
that SQLite gives each row is never read, and is left out.

`perDayMap` is what the store is for: a map from devices and calendar dates to snapshots.
`history_refines_perDayMap` says that the table is such a map after every sequence of calls,
and `Refines` relates the two.
-/

namespace EdgeShield.Storage

open EdgeShield.Lib EdgeShield.Common
open EdgeShield.Common (Protocol)

/-- The state of a device on a day, from `common/src/history_store.rs`. -/
structure DeviceHistorySnapshot where
  mac : MacAddress
  snapshotDate : String
  snapshotTimestamp : Timestamp
  ips : Finset IpAddr
  hostname : Option String
  vendor : Option String
  dhcpVendorClass : Option String
  packetCount : Nat
  bytesSent : Nat
  bytesReceived : Nat
  protocols : Finset Protocol
  protocolStats : ProtocolStats
  firstSeen : Timestamp
  lastSeen : Timestamp
  deriving DecidableEq

/-- `DeviceHistorySnapshot::from_device`; `now` is the clock read that it makes. -/
def DeviceHistorySnapshot.fromDevice (device : Device) (snapshotDate : String) (now : Timestamp) :
    DeviceHistorySnapshot where
  mac := device.mac
  snapshotDate := snapshotDate
  snapshotTimestamp := now
  ips := device.ips
  hostname := device.hostname
  vendor := device.vendor
  dhcpVendorClass := device.dhcpVendorClass
  packetCount := device.packetCount
  bytesSent := device.bytesSent
  bytesReceived := device.bytesReceived
  protocols := device.protocols
  protocolStats := device.protocolStats
  firstSeen := device.firstSeen
  lastSeen := device.lastSeen

structure HistoryRow where
  mac : String
  snapshotDate : String
  snapshotTimestamp : String
  ips : String
  hostname : Option String
  vendor : Option String
  dhcpVendorClass : Option String
  packetCount : Nat
  bytesSent : Nat
  bytesReceived : Nat
  protocols : String
  protocolStats : String
  firstSeen : String
  lastSeen : String
  deriving DecidableEq, Repr

structure RowClock where
  snapshotTimestamp : Timestamp
  firstSeen : Timestamp
  lastSeen : Timestamp

section Codecs

variable (F : TextFormats)

def historyRowOf (s : DeviceHistorySnapshot) : HistoryRow where
  mac := s.mac.toString
  snapshotDate := s.snapshotDate
  snapshotTimestamp := F.timeText s.snapshotTimestamp
  ips := ipsToJson F s.ips
  hostname := s.hostname
  vendor := s.vendor
  dhcpVendorClass := s.dhcpVendorClass
  packetCount := s.packetCount
  bytesSent := s.bytesSent
  bytesReceived := s.bytesReceived
  protocols := protocolsToJson F s.protocols
  protocolStats := protocolStatsToJson F s.protocolStats
  firstSeen := F.timeText s.firstSeen
  lastSeen := F.timeText s.lastSeen

def rowToSnapshot (now : RowClock) (row : HistoryRow) : Except String DeviceHistorySnapshot :=
  match F.parseMac row.mac with
  | .error e => .error e
  | .ok mac => .ok
    { mac := mac
      snapshotDate := row.snapshotDate
      snapshotTimestamp := (F.parseTime row.snapshotTimestamp).getD now.snapshotTimestamp
      ips := ipsFromJson F row.ips
      hostname := row.hostname
      vendor := row.vendor
      dhcpVendorClass := row.dhcpVendorClass
      packetCount := row.packetCount
      bytesSent := row.bytesSent
      bytesReceived := row.bytesReceived
      protocols := protocolsFromJson F row.protocols
      protocolStats := protocolStatsFromJson F row.protocolStats
      firstSeen := (F.parseTime row.firstSeen).getD now.firstSeen
      lastSeen := (F.parseTime row.lastSeen).getD now.lastSeen }

abbrev HistoryTable := AList fun _ : String × String => HistoryRow

/-- `INSERT … ON CONFLICT(mac, snapshot_date) DO UPDATE`: every column but the key and
`first_seen` is overwritten. -/
def upsertRow (table : HistoryTable) (row : HistoryRow) : HistoryTable :=
  match table.lookup (row.mac, row.snapshotDate) with
  | some old => table.insert (row.mac, row.snapshotDate) { row with firstSeen := old.firstSeen }
  | none => table.insert (row.mac, row.snapshotDate) row

inductive HistoryColumn where
  | mac | snapshotDate

def HistoryRow.value (row : HistoryRow) : HistoryColumn → SqlValue
  | .mac => .text row.mac
  | .snapshotDate => .text row.snapshotDate

def historyWhere (mac : MacAddress) (start stop : Option String) : Where HistoryColumn :=
  let q : Where HistoryColumn := (Where.all.compare .mac .eq 1).bind (.text mac.toString)
  let paramIdx := 2
  let (q, paramIdx) : Where HistoryColumn × Nat :=
    match start with
    | some date => ((q.compare .snapshotDate .ge paramIdx).bind (.text date), paramIdx + 1)
    | none => (q, paramIdx)
  match stop with
  | some date => (q.compare .snapshotDate .le paramIdx).bind (.text date)
  | none => q

/-! ### The store -/

structure SqliteHistoryStore where
  table : HistoryTable

namespace SqliteHistoryStore

def empty : SqliteHistoryStore where
  table := ∅

def insertSnapshot (s : SqliteHistoryStore) (snapshot : DeviceHistorySnapshot) :
    Except StorageError Unit × SqliteHistoryStore :=
  if snapshot.packetCount ≤ i64Max ∧ snapshot.bytesSent ≤ i64Max ∧
      snapshot.bytesReceived ≤ i64Max then
    (.ok (), ⟨upsertRow s.table (historyRowOf F snapshot)⟩)
  else
    (.error (.internal
      ("snapshot upsert failed: " ++ "out of range integral type conversion attempted")), s)

/-- `SELECT … ORDER BY snapshot_date ASC`. -/
def selectRows (s : SqliteHistoryStore) (mac : MacAddress) (start stop : Option String) :
    List HistoryRow :=
  ((s.table.entries.map Sigma.snd).filter fun row =>
    (historyWhere mac start stop).selects HistoryRow.value row).mergeSort
      fun a b => (SqlValue.text a.snapshotDate).le (.text b.snapshotDate)

/-- `list_history`; `clock` has the clock reads for a row. -/
def listHistory (s : SqliteHistoryStore) (clock : HistoryRow → RowClock) (mac : MacAddress)
    (start stop : Option String) (limit : Option Nat) :
    Except StorageError (List DeviceHistorySnapshot) :=
  match fetchRows limit (fun row => rowToSnapshot F (clock row) row) (s.selectRows mac start stop) with
  | .error e => .error (.internal ("row parse failed: " ++ e))
  | .ok snapshots => .ok snapshots

/-- `DELETE … WHERE snapshot_date < ?1`, and the number of rows deleted. -/
def deleteBefore (s : SqliteHistoryStore) (beforeDate : String) :
    Except StorageError Nat × SqliteHistoryStore :=
  let before (e : Σ _ : String × String, HistoryRow) : Bool :=
    Comparison.lt.holds (e.2.value .snapshotDate) (.text beforeDate)
  (.ok (s.table.entries.countP before),
    ⟨{ entries := s.table.entries.filter fun e => !before e
       nodupKeys := s.table.nodupKeys.sublist List.filter_sublist }⟩)

end SqliteHistoryStore

inductive HistoryCall where
  | insertSnapshot (snapshot : DeviceHistorySnapshot)
  | deleteBefore (beforeDate : String)

inductive HistoryAnswer where
  | inserted (result : Except StorageError Unit)
  | deleted (count : Except StorageError Nat)

def SqliteHistoryStore.call (s : SqliteHistoryStore) : HistoryCall → HistoryAnswer × SqliteHistoryStore
  | .insertSnapshot snapshot =>
    let (result, s) := s.insertSnapshot F snapshot
    (.inserted result, s)
  | .deleteBefore beforeDate =>
    let (count, s) := s.deleteBefore beforeDate
    (.deleted count, s)

end Codecs

/-! ### A map of snapshots by device and day -/

/-- The same calls, with dates of the calendar. -/
inductive HistoryOp where
  | insert (date : Date) (snapshot : DeviceHistorySnapshot)
  | deleteBefore (cutoff : Date)

def DeviceHistorySnapshot.on (s : DeviceHistorySnapshot) (date : Date) : DeviceHistorySnapshot :=
  { s with snapshotDate := date.text }

def HistoryOp.call : HistoryOp → HistoryCall
  | insert date snapshot => .insertSnapshot (snapshot.on date)
  | deleteBefore cutoff => .deleteBefore cutoff.text

def sqliteHistory (F : TextFormats) : Machine SqliteHistoryStore HistoryOp HistoryAnswer where
  step s op :=
    let (answer, s) := s.call F op.call
    some (s, answer)

/-- What is recorded of a device for a day. -/
abbrev HistoryMap := MacAddress → Date → Option DeviceHistorySnapshot

def HistoryMap.before (map : HistoryMap) (cutoff : Date) : Set (MacAddress × Date) :=
  {x | x.2 < cutoff ∧ (map x.1 x.2).isSome}

/-- **The per-day map**: an insertion sets one entry, and a deletion removes the entries
before a date and tells how many there were. -/
noncomputable def perDayMap : Machine HistoryMap HistoryOp HistoryAnswer where
  step map op :=
    match op with
    | .insert date snapshot => some
        (fun m d => if m = snapshot.mac ∧ d = date then some (snapshot.on date) else map m d,
          .inserted (.ok ()))
    | .deleteBefore cutoff => some
        (fun m d => if d < cutoff then none else map m d,
          .deleted (.ok (map.before cutoff).ncard))

def SnapshotFits (s : DeviceHistorySnapshot) : Prop :=
  s.packetCount ≤ i64Max ∧ s.bytesSent ≤ i64Max ∧ s.bytesReceived ≤ i64Max ∧
    ∀ p n, s.protocolStats.lookup p = some n → n ≤ u64Max

/-- The snapshots of a device agree on when it was first seen. -/
def FirstSeenKept (ops : List HistoryOp) : Prop :=
  ∀ date s date' s', .insert date s ∈ ops → .insert date' s' ∈ ops → s.mac = s'.mac →
    s.firstSeen = s'.firstSeen

def GoodHistory (ops : List HistoryOp) : Prop :=
  (∀ date s, .insert date s ∈ ops → SnapshotFits s) ∧ FirstSeenKept ops

theorem GoodHistory.of_snoc (ops : List HistoryOp) (op : HistoryOp) (h : GoodHistory (ops ++ [op])) :
    GoodHistory ops := by
  refine ⟨fun date s hs => h.1 date s (List.mem_append_left _ hs), ?_⟩
  intro date s date' s' hs hs'
  exact h.2 date s date' s' (List.mem_append_left _ hs) (List.mem_append_left _ hs')

def persistedSnapshot (s : DeviceHistorySnapshot) : DeviceHistorySnapshot :=
  { s with
    snapshotTimestamp := s.snapshotTimestamp.truncMillis
    firstSeen := s.firstSeen.truncMillis
    lastSeen := s.lastSeen.truncMillis }

section Refinement

variable {F : TextFormats}

/-- **A snapshot comes back from its row.** -/
theorem rowToSnapshot_rowOf (hF : F.Lawful) {s : DeviceHistorySnapshot} (h : SnapshotFits s)
    (now : RowClock) : rowToSnapshot F now (historyRowOf F s) = .ok (persistedSnapshot s) := by
  simp only [rowToSnapshot, historyRowOf, hF.mac, hF.time, Option.getD_some, ipsFromJson_toJson hF,
    protocolsFromJson_toJson hF, protocolStatsFromJson_toJson hF h.2.2.2]
  rfl

theorem lookup_upsertRow (table : HistoryTable) (row : HistoryRow) (k : String × String) :
    (upsertRow table row).lookup k =
      if k = (row.mac, row.snapshotDate) then
        some { row with
          firstSeen := ((table.lookup (row.mac, row.snapshotDate)).map HistoryRow.firstSeen).getD
            row.firstSeen }
      else table.lookup k := by
  unfold upsertRow
  by_cases hk : k = (row.mac, row.snapshotDate)
  · subst hk
    cases table.lookup (row.mac, row.snapshotDate) with
    | none => simp
    | some old => simp
  · cases table.lookup (row.mac, row.snapshotDate) with
    | none => simp [hk, AList.lookup_insert_ne hk]
    | some old => simp [hk, AList.lookup_insert_ne hk]

/-- **The table is the map**: a row for each entry, under the texts of its device and its
date, and nothing else.  The entries come from insertions. -/
structure Refines (F : TextFormats) (ops : List HistoryOp) (map : HistoryMap)
    (store : SqliteHistoryStore) : Prop where
  rows : ∀ m d, store.table.lookup (m.toString, d.text) = (map m d).map (historyRowOf F)
  keys : ∀ k row, store.table.lookup k = some row → ∃ m d, k = (MacAddress.toString m, Date.text d)
  entries : ∀ m d s, map m d = some s → ∃ s', .insert d s' ∈ ops ∧ s'.mac = m ∧ s = s'.on d

theorem refines_empty : Refines F [] (fun _ _ => none) .empty where
  rows _ _ := rfl
  keys _ _ h := by cases h
  entries _ _ _ h := by cases h

theorem key_injective {m m' : MacAddress} {d d' : Date}
    (h : (m.toString, d.text) = (m'.toString, d'.text)) : m = m' ∧ d = d' :=
  ⟨MacAddress.toString_injective (Prod.mk.inj h).1, Date.text_injective (Prod.mk.inj h).2⟩

variable {ops : List HistoryOp} {map : HistoryMap} {store : SqliteHistoryStore}

theorem Refines.entry (h : Refines F ops map store) {e : Σ _ : String × String, HistoryRow}
    (he : e ∈ store.table.entries) :
    ∃ m d s, e = ⟨(m.toString, d.text), historyRowOf F s⟩ ∧ map m d = some s ∧ s.mac = m ∧
      s.snapshotDate = d.text := by
  obtain ⟨k, row⟩ := e
  have hlookup : store.table.lookup k = some row := AList.mem_lookup_iff.mpr he
  obtain ⟨m, d, rfl⟩ := h.keys k row hlookup
  rw [h.rows m d] at hlookup
  obtain ⟨s, hs, rfl⟩ := Option.map_eq_some_iff.mp hlookup
  obtain ⟨s', _, hmac, rfl⟩ := h.entries m d s hs
  exact ⟨m, d, s'.on d, rfl, hs, hmac, rfl⟩

theorem Refines.mem_entries (h : Refines F ops map store) {m : MacAddress} {d : Date}
    {s : DeviceHistorySnapshot} (hs : map m d = some s) :
    ⟨(m.toString, d.text), historyRowOf F s⟩ ∈ store.table.entries := by
  refine AList.mem_lookup_iff.mp ?_
  rw [h.rows m d, hs]
  rfl

/-- **An insertion sets one entry.**  The `first_seen` that the row keeps is that of the new
snapshot. -/
theorem Refines.insert (h : Refines F ops map store) {date : Date} {s : DeviceHistorySnapshot}
    (hfirst : FirstSeenKept (ops ++ [.insert date s])) :
    Refines F (ops ++ [.insert date s])
      (fun m d => if m = s.mac ∧ d = date then some (s.on date) else map m d)
      ⟨upsertRow store.table (historyRowOf F (s.on date))⟩ := by
  have hkey : ∀ m d, (MacAddress.toString m, Date.text d) =
      ((historyRowOf F (s.on date)).mac, (historyRowOf F (s.on date)).snapshotDate) ↔
        m = s.mac ∧ d = date := by
    intro m d
    refine ⟨fun hk => key_injective hk, ?_⟩
    intro hk
    rw [hk.1, hk.2]
    rfl
  refine ⟨fun m d => ?_, fun k row hrow => ?_, fun m d s' hs' => ?_⟩
  · rw [lookup_upsertRow]
    by_cases hmd : m = s.mac ∧ d = date
    · have hkept : ((store.table.lookup ((historyRowOf F (s.on date)).mac,
          (historyRowOf F (s.on date)).snapshotDate)).map HistoryRow.firstSeen).getD
            (historyRowOf F (s.on date)).firstSeen = (historyRowOf F (s.on date)).firstSeen := by
        rw [← (hkey m d).mpr hmd, h.rows m d]
        cases hold : map m d with
        | none => rfl
        | some s₀ =>
          obtain ⟨s', hs', hmac, rfl⟩ := h.entries m d s₀ hold
          have hsame : s'.firstSeen = s.firstSeen :=
            hfirst d s' date s (List.mem_append_left _ hs')
              List.mem_concat_self (hmac.trans hmd.1)
          show F.timeText s'.firstSeen = F.timeText s.firstSeen
          rw [hsame]
      rw [if_pos ((hkey m d).mpr hmd), if_pos hmd, hkept]
      rfl
    · rw [if_neg fun hk => hmd ((hkey m d).mp hk), if_neg hmd, h.rows m d]
  · rw [lookup_upsertRow] at hrow
    split at hrow
    · next hk => exact ⟨s.mac, date, hk⟩
    · exact h.keys k row hrow
  · split at hs'
    · next hmd =>
      cases hs'
      obtain ⟨rfl, rfl⟩ := hmd
      exact ⟨s, List.mem_concat_self, rfl, rfl⟩
    · obtain ⟨s'', hmem, hrest⟩ := h.entries m d s' hs'
      exact ⟨s'', List.mem_append_left _ hmem, hrest⟩

theorem lt_holds_iff (d cutoff : Date) :
    Comparison.lt.holds (.text d.text) (.text cutoff.text) = true ↔ d < cutoff := by
  show (!decide (textBytes cutoff.text ≤ textBytes d.text)) = true ↔ _
  rw [Bool.not_eq_true', decide_eq_false_iff_not, Date.textBytes_le_iff, not_le]

theorem Refines.deleteBefore (h : Refines F ops map store) (cutoff : Date) :
    Refines F (ops ++ [.deleteBefore cutoff]) (fun m d => if d < cutoff then none else map m d)
      (store.deleteBefore cutoff.text).2 := by
  have hmem : ∀ e, e ∈ (store.deleteBefore cutoff.text).2.table.entries ↔
      e ∈ store.table.entries ∧
        ¬Comparison.lt.holds (.text e.2.snapshotDate) (.text cutoff.text) = true := by
    intro e
    refine List.mem_filter.trans (and_congr_right fun _ => ?_)
    rw [Bool.not_eq_true, ← Bool.not_eq_true']
    rfl
  refine ⟨fun m d => ?_, fun k row hrow => ?_, fun m d s hs => ?_⟩
  · have hleft : ∀ row, (store.deleteBefore cutoff.text).2.table.lookup (m.toString, d.text) =
        some row → (map m d).map (historyRowOf F) = some row ∧
          ¬Comparison.lt.holds (.text row.snapshotDate) (.text cutoff.text) = true := by
      intro row hrow
      have he := (hmem _).mp (AList.mem_lookup_iff.mp hrow)
      rw [← h.rows m d]
      exact ⟨AList.mem_lookup_iff.mpr he.1, he.2⟩
    cases hs : map m d with
    | none =>
      rw [ite_self]
      refine Option.eq_none_iff_forall_ne_some.mpr fun row hrow => ?_
      have hsome := (hleft row hrow).1
      rw [hs] at hsome
      cases hsome
    | some s =>
      obtain ⟨s', _, _, rfl⟩ := h.entries m d s hs
      by_cases hd : d < cutoff
      · rw [if_pos hd]
        refine Option.eq_none_iff_forall_ne_some.mpr fun row hrow => ?_
        obtain ⟨hsome, hlate⟩ := hleft row hrow
        rw [hs] at hsome
        cases hsome
        exact hlate ((lt_holds_iff d cutoff).mpr hd)
      · rw [if_neg hd]
        refine AList.mem_lookup_iff.mpr ((hmem _).mpr ⟨h.mem_entries hs, fun hlt => hd ?_⟩)
        exact (lt_holds_iff d cutoff).mp hlt
  · have he := (hmem ⟨k, row⟩).mp (AList.mem_lookup_iff.mp hrow)
    exact h.keys k row (AList.mem_lookup_iff.mpr he.1)
  · split at hs
    · cases hs
    · obtain ⟨s', hmem', hrest⟩ := h.entries m d s hs
      exact ⟨s', List.mem_append_left _ hmem', hrest⟩

/-- **A deletion counts the entries before its date.** -/
theorem Refines.count (h : Refines F ops map store) (cutoff : Date) :
    (store.deleteBefore cutoff.text).1 = .ok (map.before cutoff).ncard := by
  let key (x : MacAddress × Date) : String × String := (x.1.toString, x.2.text)
  have hkey : Function.Injective key := by
    intro x y hxy
    obtain ⟨hm, hd⟩ := key_injective hxy
    exact Prod.ext hm hd
  let gone := store.table.entries.filter fun e =>
    Comparison.lt.holds (.text e.2.snapshotDate) (.text cutoff.text)
  have himage : key '' map.before cutoff = (gone.map Sigma.fst).toFinset := by
    ext k
    rw [List.coe_toFinset, Set.mem_ofPred_eq, List.mem_map]
    constructor
    · rintro ⟨⟨m, d⟩, ⟨hlt, hsome⟩, rfl⟩
      obtain ⟨s, hs⟩ := Option.isSome_iff_exists.mp hsome
      obtain ⟨s', _, _, rfl⟩ := h.entries m d s hs
      exact ⟨_, List.mem_filter.mpr ⟨h.mem_entries hs, (lt_holds_iff d cutoff).mpr hlt⟩, rfl⟩
    · rintro ⟨e, he, rfl⟩
      obtain ⟨hmem, hlt⟩ := List.mem_filter.mp he
      obtain ⟨m, d, s, rfl, hs, _, hdate⟩ := h.entry hmem
      have hlt' : Comparison.lt.holds (.text s.snapshotDate) (.text cutoff.text) = true := hlt
      rw [hdate, lt_holds_iff] at hlt'
      exact ⟨(m, d), ⟨hlt', by rw [hs]; rfl⟩, rfl⟩
  have hnodup : (gone.map Sigma.fst).Nodup := store.table.nodupKeys.sublist List.filter_sublist
  have hcard : (map.before cutoff).ncard = gone.length := by
    rw [← Set.ncard_image_of_injective _ hkey, himage, Set.ncard_coe_finset,
      List.toFinset_card_of_nodup hnodup, List.length_map]
  rw [hcard]
  exact congrArg Except.ok List.countP_eq_length_filter

/-- The numbers in the clause are those of the parameters, whichever of the dates are
given. -/
theorem historyWhere_eq (mac : MacAddress) (start stop : Option String) :
    historyWhere mac start stop =
      ((Where.all.bindSome .mac .eq (some (.text mac.toString))).bindSome .snapshotDate .ge
        (start.map .text)).bindSome .snapshotDate .le (stop.map .text) := by
  cases start with
  | none => cases stop <;> rfl
  | some _ => cases stop <;> rfl

/-- **The `WHERE` clause on a row of the map.** -/
theorem selects_historyWhere (mac : MacAddress) (start stop : Option Date)
    {s : DeviceHistorySnapshot} {d : Date} (hdate : s.snapshotDate = d.text) :
    (historyWhere mac (start.map Date.text) (stop.map Date.text)).selects HistoryRow.value
        (historyRowOf F s) = true ↔
      s.mac = mac ∧ (∀ a ∈ start, a ≤ d) ∧ ∀ b ∈ stop, d ≤ b := by
  have h₁ := Where.numbered_all.bindSome HistoryColumn.mac .eq (some (.text mac.toString))
  have h₂ := h₁.bindSome .snapshotDate .ge ((start.map Date.text).map .text)
  have hmac : Comparison.eq.holds (.text s.mac.toString) (.text mac.toString) = true ↔
      s.mac = mac := by
    simp [Comparison.holds, MacAddress.toString_injective.eq_iff]
  have hge : ∀ a : Date, Comparison.ge.holds (.text d.text) (.text a.text) = true ↔ a ≤ d := by
    intro a
    show decide (textBytes a.text ≤ textBytes d.text) = true ↔ a ≤ d
    rw [decide_eq_true_iff, Date.textBytes_le_iff]
  have hle : ∀ b : Date, Comparison.le.holds (.text d.text) (.text b.text) = true ↔ d ≤ b := by
    intro b
    show decide (textBytes d.text ≤ textBytes b.text) = true ↔ d ≤ b
    rw [decide_eq_true_iff, Date.textBytes_le_iff]
  rw [historyWhere_eq, Where.selects_bindSome h₂, Where.selects_bindSome h₁,
    Where.selects_bindSome Where.numbered_all, Where.selects_all, Bool.true_and, Bool.and_eq_true,
    Bool.and_eq_true, and_assoc]
  simp only [HistoryRow.value, historyRowOf, hdate, Option.all_some]
  refine and_congr hmac (and_congr ?_ ?_)
  · cases start with
    | none => simp
    | some a => simpa using hge a
  · cases stop with
    | none => simp
    | some b => simpa using hle b

noncomputable def dateOf : String → Option Date := Function.partialInv Date.text

theorem dateOf_text (d : Date) : dateOf d.text = some d := Function.partialInv_left Date.text_injective d

abbrev listedRows (store : SqliteHistoryStore) (mac : MacAddress) (start stop : Option Date) :
    List HistoryRow := store.selectRows mac (start.map Date.text) (stop.map Date.text)

theorem Refines.mem_listedRows (h : Refines F ops map store) {mac : MacAddress}
    {start stop : Option Date} {row : HistoryRow} :
    row ∈ listedRows store mac start stop ↔ ∃ d s, row = historyRowOf F s ∧ map mac d = some s ∧
      s.mac = mac ∧ s.snapshotDate = d.text ∧ (∀ a ∈ start, a ≤ d) ∧ ∀ b ∈ stop, d ≤ b := by
  rw [listedRows, SqliteHistoryStore.selectRows, List.mem_mergeSort, List.mem_filter, List.mem_map]
  constructor
  · rintro ⟨⟨e, he, rfl⟩, hselects⟩
    obtain ⟨m, d, s, rfl, hs, hm, hdate⟩ := h.entry he
    obtain ⟨rfl, hrange⟩ := (selects_historyWhere mac start stop hdate).mp hselects
    rw [← hm] at hs
    exact ⟨d, s, rfl, hs, rfl, hdate, hrange⟩
  · rintro ⟨d, s, rfl, hs, hm, hdate, hrange⟩
    exact ⟨⟨_, h.mem_entries hs, rfl⟩, (selects_historyWhere mac start stop hdate).mpr ⟨hm, hrange⟩⟩

theorem Refines.nodup_listedRows (h : Refines F ops map store) (mac : MacAddress)
    (start stop : Option Date) :
    ((listedRows store mac start stop).map HistoryRow.snapshotDate).Nodup := by
  have hkeys : (store.table.entries.map Sigma.snd).map (fun row => (row.mac, row.snapshotDate)) =
      store.table.entries.map Sigma.fst := by
    rw [List.map_map]
    refine List.map_congr_left fun e he => ?_
    obtain ⟨m, d, s, rfl, _, hm, hdate⟩ := h.entry he
    show (s.mac.toString, s.snapshotDate) = (m.toString, d.text)
    rw [hm, hdate]
  have hnodup : ((store.table.entries.map Sigma.snd).map
      fun row => (row.mac, row.snapshotDate)).Nodup := by
    rw [hkeys]
    exact store.table.nodupKeys
  have hlisted : ((listedRows store mac start stop).map
      fun row => (row.mac, row.snapshotDate)).Nodup :=
    ((List.mergeSort_perm _ _).map _).nodup_iff.mpr (hnodup.sublist (List.filter_sublist.map _))
  rw [List.Nodup, List.pairwise_map] at hlisted ⊢
  refine hlisted.imp_of_mem fun hrow hrow' hne hdate => hne ?_
  obtain ⟨_, s, rfl, _, hm, _⟩ := h.mem_listedRows.mp hrow
  obtain ⟨_, s', rfl, _, hm', _⟩ := h.mem_listedRows.mp hrow'
  refine Prod.ext ?_ hdate
  show s.mac.toString = s'.mac.toString
  rw [hm, hm']

theorem pairwise_listedRows (store : SqliteHistoryStore) (mac : MacAddress)
    (start stop : Option Date) : (listedRows store mac start stop).Pairwise
      fun row row' => textBytes row.snapshotDate ≤ textBytes row'.snapshotDate := by
  refine (List.pairwise_mergeSort ?_ ?_ _).imp fun hle => of_decide_eq_true hle
  · intro a b c hab hbc
    exact decide_eq_true (le_trans (of_decide_eq_true hab) (of_decide_eq_true hbc))
  · intro a b
    rw [Bool.or_eq_true]
    exact (le_total _ _).imp decide_eq_true decide_eq_true

noncomputable def listedDates (store : SqliteHistoryStore) (mac : MacAddress)
    (start stop : Option Date) : List Date :=
  (listedRows store mac start stop).filterMap fun row => dateOf row.snapshotDate

theorem Refines.pairwise_listedDates (h : Refines F ops map store) (mac : MacAddress)
    (start stop : Option Date) : (listedDates store mac start stop).Pairwise (· < ·) := by
  rw [listedDates, List.pairwise_filterMap]
  have hnodup := h.nodup_listedRows mac start stop
  rw [List.Nodup, List.pairwise_map] at hnodup
  refine ((pairwise_listedRows store mac start stop).and hnodup).imp_of_mem ?_
  intro row row' hrow hrow' hpair d hd d' hd'
  obtain ⟨e, s, rfl, _, _, hdate, _⟩ := h.mem_listedRows.mp hrow
  obtain ⟨e', s', rfl, _, _, hdate', _⟩ := h.mem_listedRows.mp hrow'
  simp only [historyRowOf, hdate, hdate', dateOf_text, Option.some.injEq, Date.textBytes_le_iff]
    at hpair hd hd'
  rw [← hd, ← hd']
  exact lt_of_le_of_ne hpair.1 fun he => hpair.2 (by rw [he])

theorem Refines.mem_listedDates (h : Refines F ops map store) {mac : MacAddress}
    {start stop : Option Date} (d : Date) : d ∈ listedDates store mac start stop ↔
      (map mac d).isSome ∧ (∀ a ∈ start, a ≤ d) ∧ ∀ b ∈ stop, d ≤ b := by
  rw [listedDates, List.mem_filterMap]
  constructor
  · rintro ⟨row, hrow, hd⟩
    obtain ⟨e, s, rfl, hs, _, hdate, hrange⟩ := h.mem_listedRows.mp hrow
    simp only [historyRowOf, hdate, dateOf_text, Option.some.injEq] at hd
    rw [← hd]
    exact ⟨by rw [hs]; rfl, hrange⟩
  · rintro ⟨hsome, hrange⟩
    obtain ⟨s, hs⟩ := Option.isSome_iff_exists.mp hsome
    obtain ⟨s', _, hm, rfl⟩ := h.entries mac d s hs
    exact ⟨_, h.mem_listedRows.mpr ⟨d, _, rfl, hs, hm, rfl, hrange⟩, dateOf_text d⟩

theorem Refines.read_listedRows (h : Refines F ops map store) (hF : F.Lawful)
    (hfit : ∀ m d s, map m d = some s → SnapshotFits s) {mac : MacAddress}
    {start stop : Option Date} {row : HistoryRow} (hrow : row ∈ listedRows store mac start stop)
    (now : RowClock) : ∃ d s, map mac d = some s ∧ dateOf row.snapshotDate = some d ∧
      rowToSnapshot F now row = .ok (persistedSnapshot s) := by
  obtain ⟨d, s, rfl, hs, _, hdate, _⟩ := h.mem_listedRows.mp hrow
  refine ⟨d, s, hs, ?_, rowToSnapshot_rowOf hF (hfit mac d s hs) now⟩
  show dateOf s.snapshotDate = some d
  rw [hdate, dateOf_text]

/-- **A listing**: the entries of the device in the range, in the order of the calendar. -/
theorem Refines.listHistory (h : Refines F ops map store) (hF : F.Lawful)
    (hfit : ∀ m d s, map m d = some s → SnapshotFits s) (clock : HistoryRow → RowClock)
    (mac : MacAddress) (start stop : Option Date) {limit : Option Nat}
    (hlimit : ∀ n ∈ limit, n ≤ maxInteger) :
    store.listHistory F clock mac (start.map Date.text) (stop.map Date.text) limit =
      .ok (takeLimit limit
        (((listedDates store mac start stop).filterMap (map mac)).map persistedSnapshot)) := by
  have hok : ∀ row ∈ listedRows store mac start stop, ∃ s,
      rowToSnapshot F (clock row) row = .ok s := by
    intro row hrow
    obtain ⟨_, s, _, _, hok⟩ := h.read_listedRows hF hfit hrow (clock row)
    exact ⟨_, hok⟩
  have hsnapshots : (listedRows store mac start stop).filterMap
        (fun row => (rowToSnapshot F (clock row) row).toOption) =
      ((listedDates store mac start stop).filterMap (map mac)).map persistedSnapshot := by
    rw [listedDates, List.filterMap_filterMap, List.map_filterMap]
    refine List.filterMap_congr fun row hrow => ?_
    obtain ⟨d, s, hs, hd, hok⟩ := h.read_listedRows hF hfit hrow (clock row)
    rw [hok, hd, Option.bind_some, hs]
    rfl
  have hfetch := fetchRows_eq_ok hlimit hok
  rw [hsnapshots] at hfetch
  rw [SqliteHistoryStore.listHistory, hfetch]

/-- **One call on the store and on the map.** -/
theorem Refines.step {op : HistoryOp} (h : Refines F ops map store)
    (hgood : GoodHistory (ops ++ [op])) :
    ∃ store' map' answer, (sqliteHistory F).step store op = some (store', answer) ∧
      perDayMap.step map op = some (map', answer) ∧ Refines F (ops ++ [op]) map' store' := by
  cases op with
  | insert date s =>
    have hfits := hgood.1 date s List.mem_concat_self
    have hinsert : store.insertSnapshot F (s.on date) =
        (.ok (), ⟨upsertRow store.table (historyRowOf F (s.on date))⟩) :=
      if_pos ⟨hfits.1, hfits.2.1, hfits.2.2.1⟩
    refine ⟨_, _, .inserted (.ok ()), ?_, rfl, h.insert hgood.2⟩
    simp only [sqliteHistory, HistoryOp.call, SqliteHistoryStore.call, hinsert]
  | deleteBefore cutoff =>
    refine ⟨_, _, .deleted (.ok (map.before cutoff).ncard), ?_, rfl, h.deleteBefore cutoff⟩
    simp only [sqliteHistory, HistoryOp.call, SqliteHistoryStore.call]
    rw [h.count cutoff]

/-- **The history store is a per-day map in calendar order.**  On every sequence of
insertions and deletions with dates of the calendar, the store answers as the map does, and
afterwards a listing gives one snapshot for each date of the range that is in the map, in
the order of the calendar and cut to the limit, with times in milliseconds. -/
theorem history_refines_perDayMap (hF : F.Lawful) {ops : List HistoryOp}
    (hfits : ∀ date s, .insert date s ∈ ops → SnapshotFits s) (hfirst : FirstSeenKept ops) :
    ∃ store map answers, (sqliteHistory F).run .empty ops = some (store, answers) ∧
      perDayMap.run (fun _ _ => none) ops = some (map, answers) ∧
      ∀ (clock : HistoryRow → RowClock) (mac : MacAddress) (start stop : Option Date)
        (limit : Option Nat), (∀ n ∈ limit, n ≤ maxInteger) →
        ∃ dates : List Date, dates.Pairwise (· < ·) ∧
          (∀ d, d ∈ dates ↔ (map mac d).isSome ∧ (∀ a ∈ start, a ≤ d) ∧ ∀ b ∈ stop, d ≤ b) ∧
          store.listHistory F clock mac (start.map Date.text) (stop.map Date.text) limit =
            .ok (takeLimit limit ((dates.filterMap (map mac)).map persistedSnapshot)) := by
  obtain ⟨store, answers, map, answers', hs, hm, hrefines, hsame⟩ := (sqliteHistory F).lockstep
    (N := perDayMap) (R := fun ops os ps store map => Refines F ops map store ∧ os = ps)
    GoodHistory.of_snoc ⟨refines_empty, rfl⟩
    (by
      intro ops os ps store map op hgood h
      obtain ⟨store', map', answer, hstore, hmap, hrefines⟩ := h.1.step hgood
      exact ⟨store', answer, map', answer, hstore, hmap, hrefines, by rw [h.2]⟩)
    ops ⟨hfits, hfirst⟩
  subst hsame
  refine ⟨store, map, answers, hs, hm, fun clock mac start stop limit hlimit => ?_⟩
  refine ⟨listedDates store mac start stop, hrefines.pairwise_listedDates mac start stop,
    hrefines.mem_listedDates, hrefines.listHistory hF (fun m d s hs => ?_) clock mac start stop hlimit⟩
  obtain ⟨s', hs', _, rfl⟩ := hrefines.entries m d s hs
  exact hfits d s' hs'

end Refinement

def february1 : Date := ⟨2026, 2, 1, by decide, by decide, by decide, by decide, by decide⟩

def february28 : Date := ⟨2026, 2, 28, by decide, by decide, by decide, by decide, by decide⟩

def march1 : Date := ⟨2026, 3, 1, by decide, by decide, by decide, by decide, by decide⟩

def laptopSnapshot (packetCount : Nat) : DeviceHistorySnapshot :=
  .fromDevice { laptop with packetCount := packetCount } "" ⟨60000000007⟩

/-- Two days of the laptop, the second written twice, and a deletion at its start. -/
def laptopDays : List HistoryOp :=
  [.insert february28 (laptopSnapshot 3), .insert march1 (laptopSnapshot 4),
    .insert march1 (laptopSnapshot 5), .deleteBefore march1]

theorem snapshotFits_laptop {n : Nat} (h : n ≤ i64Max) : SnapshotFits (laptopSnapshot n) := by
  refine ⟨h, show 180 ≤ i64Max by decide, show 0 ≤ i64Max by decide, fun p k hp => ?_⟩
  by_cases hq : p = .tcp
  · subst hq
    have hlookup : laptop.protocolStats.lookup .tcp = some k := hp
    rw [laptop, Finmap.lookup_insert] at hlookup
    cases hlookup
    decide
  · have hlookup : laptop.protocolStats.lookup p = some k := hp
    rw [laptop, Finmap.lookup_insert_of_ne _ hq, Finmap.lookup_empty] at hlookup
    cases hlookup

theorem map_of_laptopDays {map : HistoryMap} {answers : List HistoryAnswer}
    (h : perDayMap.run (fun _ _ => none) laptopDays = some (map, answers)) (d : Date) :
    map laptop.mac d = if d = march1 then some ((laptopSnapshot 5).on march1) else none := by
  simp only [Machine.run, perDayMap, laptopDays, Option.map_some, Option.some.injEq,
    Prod.mk.injEq] at h
  obtain ⟨rfl, _⟩ := h
  have hbefore : february28 < march1 :=
    (Date.lt_iff_lex _ _).mpr (.inr ⟨rfl, .inl (show 2 < 3 by decide)⟩)
  by_cases hd : d = march1
  · subst hd
    simp only [lt_irrefl, if_false, if_true]
    rfl
  · by_cases hd' : d = february28
    · subst hd'
      simp only [hbefore, if_true, hd, if_false]
    · simp only [hd, hd', and_false, if_false, ite_self]

/-- The last snapshot of the first of March is all that is left. -/
theorem history_of_laptop : ∃ F : TextFormats, F.Lawful ∧ LaptopTexts F ∧ ∃ store answers,
    (sqliteHistory F).run .empty laptopDays = some (store, answers) ∧
      ∀ clock, store.listHistory F clock laptop.mac (some "2026-02-01") none (some 10) =
        .ok [persistedSnapshot ((laptopSnapshot 5).on march1)] := by
  obtain ⟨F, hF, htexts⟩ := exists_lawful
  have hcount : ∀ date s, .insert date s ∈ laptopDays → ∃ n ≤ i64Max, s = laptopSnapshot n := by
    intro date s hs
    simp only [laptopDays, List.mem_cons, HistoryOp.insert.injEq, reduceCtorEq, List.not_mem_nil,
      or_false] at hs
    rcases hs with ⟨_, rfl⟩ | ⟨_, rfl⟩ | ⟨_, rfl⟩
    · exact ⟨3, by decide, rfl⟩
    · exact ⟨4, by decide, rfl⟩
    · exact ⟨5, by decide, rfl⟩
  obtain ⟨store, map, answers, hstore, hmap, hlist⟩ := history_refines_perDayMap hF
    (fun date s hs => by
      obtain ⟨n, hn, rfl⟩ := hcount date s hs
      exact snapshotFits_laptop hn)
    (fun date s date' s' hs hs' _ => by
      obtain ⟨n, _, rfl⟩ := hcount date s hs
      obtain ⟨n', _, rfl⟩ := hcount date' s' hs'
      rfl)
  refine ⟨F, hF, htexts, store, answers, hstore, fun clock => ?_⟩
  obtain ⟨dates, hsorted, hdates, hanswer⟩ := hlist clock laptop.mac (some february1) none (some 10)
    (fun n hn => by cases hn; decide)
  have hstart : february1 ≤ march1 :=
    le_of_lt ((Date.lt_iff_lex _ _).mpr (.inr ⟨rfl, .inl (show 2 < 3 by decide)⟩))
  have hone : dates = [march1] := by
    refine List.perm_singleton.mp ((List.perm_ext_iff_of_nodup (hsorted.imp ne_of_lt)
      (List.nodup_singleton _)).mpr fun d => ?_)
    rw [hdates, map_of_laptopDays hmap, List.mem_singleton]
    by_cases hd : d = march1
    · subst hd
      simpa using hstart
    · simp [hd]
  have htext : february1.text = "2026-02-01" := by decide
  have hleft : [march1].filterMap (map laptop.mac) = [(laptopSnapshot 5).on march1] := by
    have hentry := map_of_laptopDays hmap march1
    rw [if_pos rfl] at hentry
    rw [List.filterMap_cons_some hentry, List.filterMap_nil]
  rw [hone, hleft, Option.map_some, htext] at hanswer
  exact hanswer

end EdgeShield.Storage
