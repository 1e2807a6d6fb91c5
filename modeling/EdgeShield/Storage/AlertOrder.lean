import EdgeShield.Storage.AlertSqlite

/-!
# The order of a listing

Both alert stores promise the most recent alerts first.  `Ledger` is what that means: the
alerts that are there, the last inserted in front, under the ids that they were given; a
listing is its matching alerts, cut to the limit.

Both stores hold the alerts of the ledger (`Holds`), after any sequence of calls
(`holds_run`).  The rows of SQLite are ordered by id, which is the order of insertion
(`listAlerts_sqlite`).  The in-memory store sorts by timestamp instead, and a map is read in
any order: `newestFirst_iff` says that its listing is that of the ledger exactly when each
listed alert has a later timestamp than all the matching ones inserted before it.
-/

namespace EdgeShield.Storage

open EdgeShield.Lib EdgeShield.Common EdgeShield.Rules

/-! ### The ledger -/

/-- The alerts, the last inserted first, and the number of insertions. -/
structure Ledger where
  inserts : Nat
  alerts : List Alert

namespace Ledger

def empty : Ledger := ⟨0, []⟩

def find (l : Ledger) (id : AlertId) : Option Alert := l.alerts.find? fun a => a.id = id

def call (l : Ledger) : AlertCall → Ledger
  | .insertAlert alert =>
    let id := UInt64.ofNat (l.inserts + 1)
    ⟨l.inserts + 1, { alert with id := id } :: l.alerts⟩
  | .acknowledgeAlert id =>
    { l with
      alerts := l.alerts.map fun a => if a.id = id then { a with acknowledged := true } else a }
  | .deleteAlert id => { l with alerts := l.alerts.filter fun a => a.id ≠ id }
  | _ => l

/-- The matching alerts, most recently inserted first. -/
def matching (l : Ledger) (filter : AlertFilter) : List Alert := l.alerts.filter filter.keeps

/-- The ids are the numbers of the insertions, and the alerts can be stored. -/
structure Ordered (l : Ledger) : Prop where
  decreasing : l.alerts.Pairwise fun a b => b.id.toNat < a.id.toNat
  numbered : ∀ a ∈ l.alerts, a.id.toNat ≤ l.inserts
  fits : ∀ a ∈ l.alerts, FitsU64 a.deviceSnapshot

theorem find_acknowledge (l : Ledger) (id id' : AlertId) :
    (l.call (.acknowledgeAlert id)).find id' =
      if id' = id then (l.find id).map fun a => { a with acknowledged := true }
      else l.find id' := by
  obtain ⟨inserts, alerts⟩ := l
  simp only [call, find]
  induction alerts with
  | nil => simp
  | cons a alerts ih =>
    rw [List.map_cons, List.find?_cons, List.find?_cons, List.find?_cons, ih]
    by_cases ha : a.id = id
    · by_cases hid : id' = id
      · simp [ha, hid]
      · simp [ha, hid, Ne.symm hid]
    · by_cases hid : id' = id
      · simp [ha, hid]
      · simp [ha, hid]

theorem find_delete (l : Ledger) (id id' : AlertId) :
    (l.call (.deleteAlert id)).find id' = if id' = id then none else l.find id' := by
  obtain ⟨inserts, alerts⟩ := l
  simp only [call, find]
  induction alerts with
  | nil => simp
  | cons a alerts ih =>
    rw [List.find?_cons]
    by_cases ha : a.id = id
    · rw [List.filter_cons_of_neg (by simp [ha]), ih]
      by_cases hid : id' = id
      · simp [hid]
      · simp [ha, hid, Ne.symm hid]
    · rw [List.filter_cons_of_pos (by simp [ha]), List.find?_cons, ih]
      by_cases hid : id' = id
      · simp [ha, hid]
      · simp [hid]

theorem find_insert (l : Ledger) (alert : Alert) (id : AlertId) :
    (l.call (.insertAlert alert)).find id =
      if id = UInt64.ofNat (l.inserts + 1) then
        some { alert with id := UInt64.ofNat (l.inserts + 1) }
      else l.find id := by
  simp only [call, find, List.find?_cons]
  by_cases hid : id = UInt64.ofNat (l.inserts + 1)
  · rw [if_pos hid, decide_eq_true hid.symm]
  · rw [if_neg hid, decide_eq_false (Ne.symm hid)]

theorem toNat_newId {n : Nat} (h : n < maxInteger) : (UInt64.ofNat (n + 1)).toNat = n + 1 := by
  rw [UInt64.toNat_ofNat']
  refine Nat.mod_eq_of_lt ?_
  have hmax : maxInteger < 2 ^ 64 := by decide
  omega

theorem Ordered.insert {l : Ledger} (h : l.Ordered) {alert : Alert}
    (hfits : FitsU64 alert.deviceSnapshot) (hroom : l.inserts < maxInteger) :
    (l.call (.insertAlert alert)).Ordered := by
  have hid := toNat_newId hroom
  refine ⟨List.pairwise_cons.mpr ⟨fun a ha => ?_, h.decreasing⟩, fun a ha => ?_, fun a ha => ?_⟩
  · show a.id.toNat < (UInt64.ofNat (l.inserts + 1)).toNat
    rw [hid]
    exact Nat.lt_succ_of_le (h.numbered a ha)
  · rcases List.mem_cons.mp ha with rfl | ha
    · exact hid.le
    · exact (h.numbered a ha).trans (Nat.le_succ _)
  · rcases List.mem_cons.mp ha with rfl | ha
    · exact hfits
    · exact h.fits a ha

theorem Ordered.acknowledge {l : Ledger} (h : l.Ordered) (id : AlertId) :
    (l.call (.acknowledgeAlert id)).Ordered := by
  have hsame : ∀ a : Alert,
      (if a.id = id then { a with acknowledged := true } else a).id = a.id ∧
        (if a.id = id then { a with acknowledged := true } else a).deviceSnapshot =
          a.deviceSnapshot := by
    intro a
    split
    · exact ⟨rfl, rfl⟩
    · exact ⟨rfl, rfl⟩
  refine ⟨List.pairwise_map.mpr (h.decreasing.imp fun {a b} hab => ?_), fun a ha => ?_,
    fun a ha => ?_⟩
  · rw [(hsame a).1, (hsame b).1]
    exact hab
  · obtain ⟨b, hb, rfl⟩ := List.mem_map.mp ha
    rw [(hsame b).1]
    exact h.numbered b hb
  · obtain ⟨b, hb, rfl⟩ := List.mem_map.mp ha
    rw [(hsame b).2]
    exact h.fits b hb

theorem Ordered.delete {l : Ledger} (h : l.Ordered) (id : AlertId) :
    (l.call (.deleteAlert id)).Ordered :=
  ⟨h.decreasing.filter _, fun a ha => h.numbered a (List.mem_of_mem_filter ha),
    fun a ha => h.fits a (List.mem_of_mem_filter ha)⟩

end Ledger

def ledger (calls : List StoreCall) : Ledger := calls.foldl (fun l c => l.call c.call) .empty

theorem ledger_snoc (calls : List StoreCall) (c : StoreCall) :
    ledger (calls ++ [c]) = (ledger calls).call c.call := by
  rw [ledger, List.foldl_append]
  rfl

theorem inserts_ledger (calls : List StoreCall) : (ledger calls).inserts = insertCount calls := by
  induction calls using List.reverseRecOn with
  | nil => rfl
  | append_singleton calls c ih =>
    rw [ledger_snoc, insertCount_snoc, ← ih]
    obtain ⟨call, scan, clock⟩ := c
    cases call <;> rfl

/-! ### Both stores hold the ledger -/

section Simulation

variable {F : TextFormats} {J : SnapshotFormat}

/-- The map and the table have the alerts of the ledger, each under its id. -/
structure Holds (F : TextFormats) (J : SnapshotFormat) (l : Ledger) (m : InMemoryAlertStore)
    (q : SqliteAlertStore) : Prop where
  alerts : ∀ id, m.alerts.lookup id = l.find id
  rows : ∀ id : AlertId, q.rows.lookup id.toInt64 = (l.find id).map (alertRowOf F J)
  nextId : m.nextId = UInt64.ofNat (l.inserts + 1)
  seq : q.seq = l.inserts

theorem toInt64_ne {id id' : AlertId} (h : id ≠ id') : id.toInt64 ≠ id'.toInt64 :=
  fun he => h (congrArg Int64.toUInt64 he)

variable {l : Ledger} {m : InMemoryAlertStore} {q : SqliteAlertStore}

/-- **An insertion**: both stores file the alert under the next number. -/
theorem Holds.insertAlert (h : Holds F J l m q) (hroom : l.inserts < maxInteger) (a : Alert) :
    Holds F J (l.call (.insertAlert a)) (m.insertAlert a).2 (q.insertAlert F J a).2 := by
  have hq : (q.insertAlert F J a).2 =
      ⟨q.rows.insert (UInt64.ofNat (l.inserts + 1)).toInt64 (alertRowOf F J a),
        l.inserts + 1⟩ := by
    rw [SqliteAlertStore.insertAlert, h.seq, if_pos hroom]
    rfl
  rw [hq, InMemoryAlertStore.insertAlert, h.nextId]
  refine ⟨fun id => ?_, fun id => ?_, (UInt64.ofNat_add (l.inserts + 1) 1).symm, rfl⟩
  · rw [Ledger.find_insert]
    by_cases hid : id = UInt64.ofNat (l.inserts + 1)
    · rw [if_pos hid, hid, AList.lookup_insert]
    · rw [if_neg hid, AList.lookup_insert_ne hid, h.alerts]
  · rw [Ledger.find_insert]
    by_cases hid : id = UInt64.ofNat (l.inserts + 1)
    · rw [if_pos hid, hid, AList.lookup_insert]
      rfl
    · rw [if_neg hid, AList.lookup_insert_ne (toInt64_ne hid), h.rows]

/-- **An acknowledgment** of an alert that is there. -/
theorem Holds.acknowledge (h : Holds F J l m q) {id : AlertId} {a : Alert}
    (ha : l.find id = some a) :
    Holds F J (l.call (.acknowledgeAlert id))
      { m with alerts := m.alerts.insert id { a with acknowledged := true } }
      { q with rows := q.rows.insert id.toInt64 { alertRowOf F J a with acknowledged := 1 } } := by
  refine ⟨fun id' => ?_, fun id' => ?_, h.nextId, h.seq⟩
  · rw [Ledger.find_acknowledge]
    by_cases hid : id' = id
    · rw [if_pos hid, hid, AList.lookup_insert, ha]
      rfl
    · rw [if_neg hid, AList.lookup_insert_ne hid, h.alerts]
  · rw [Ledger.find_acknowledge]
    by_cases hid : id' = id
    · rw [if_pos hid, hid, AList.lookup_insert, ha]
      rfl
    · rw [if_neg hid, AList.lookup_insert_ne (toInt64_ne hid), h.rows]

theorem Holds.acknowledge_none (h : Holds F J l m q) {id : AlertId} (ha : l.find id = none) :
    Holds F J (l.call (.acknowledgeAlert id)) m q := by
  have hsame : ∀ id', (l.call (.acknowledgeAlert id)).find id' = l.find id' := by
    intro id'
    rw [Ledger.find_acknowledge]
    by_cases hid : id' = id
    · rw [if_pos hid, hid, ha]
      rfl
    · rw [if_neg hid]
  exact ⟨fun id' => (h.alerts id').trans (hsame id').symm,
    fun id' => by rw [hsame, h.rows], h.nextId, h.seq⟩

theorem Holds.deleteAlert (h : Holds F J l m q) (id : AlertId) :
    Holds F J (l.call (.deleteAlert id)) (m.deleteAlert id) (q.deleteAlert id) := by
  refine ⟨fun id' => ?_, fun id' => ?_, h.nextId, h.seq⟩
  · rw [Ledger.find_delete, InMemoryAlertStore.deleteAlert]
    by_cases hid : id' = id
    · rw [if_pos hid, hid, AList.lookup_erase]
    · rw [if_neg hid, AList.lookup_erase_ne hid, h.alerts]
  · rw [Ledger.find_delete, SqliteAlertStore.deleteAlert]
    by_cases hid : id' = id
    · rw [if_pos hid, hid, AList.lookup_erase]
      rfl
    · rw [if_neg hid, AList.lookup_erase_ne (toInt64_ne hid), h.rows]

/-- **One call** on both stores and on the ledger. -/
theorem Holds.call (h : Holds F J l m q) (c : StoreCall)
    (hroom : c.isInsert = true → l.inserts < maxInteger) :
    Holds F J (l.call c.call) (m.call c.scan c.call).2 (q.call F J c.clock c.call).2 := by
  obtain ⟨call, scan, clock⟩ := c
  cases call with
  | insertAlert a => exact h.insertAlert (hroom rfl) a
  | listAlerts filter => exact h
  | getAlert id => exact h
  | acknowledgeAlert id =>
    have halert := h.alerts id
    have hrow := h.rows id
    simp only [InMemoryAlertStore.call, SqliteAlertStore.call, InMemoryAlertStore.acknowledgeAlert,
      SqliteAlertStore.acknowledgeAlert, InMemoryAlertStore.getAlert, halert, hrow]
    cases ha : l.find id with
    | none => exact h.acknowledge_none ha
    | some a => exact h.acknowledge ha
  | deleteAlert id => exact h.deleteAlert id
  | isAcknowledged ruleName mac => exact h
  | countAlerts => exact h

theorem Ledger.Ordered.call (h : l.Ordered) (c : StoreCall)
    (hroom : c.isInsert = true → l.inserts < maxInteger)
    (hfits : ∀ a, c.call = .insertAlert a → FitsU64 a.deviceSnapshot) :
    (l.call c.call).Ordered := by
  obtain ⟨call, scan, clock⟩ := c
  cases call with
  | insertAlert a => exact h.insert (hfits a rfl) (hroom rfl)
  | acknowledgeAlert id => exact h.acknowledge id
  | deleteAlert id => exact h.delete id
  | _ => exact h

/-- The sequences of calls that both stores can carry out: fewer than `2 ^ 63` insertions, of
alerts whose counters are `u64` values. -/
def OrderedCalls (calls : List StoreCall) : Prop :=
  (∀ c ∈ calls, ∀ a, c.call = .insertAlert a → FitsU64 a.deviceSnapshot) ∧
    insertCount calls ≤ maxInteger

theorem OrderedCalls.of_snoc (calls : List StoreCall) (c : StoreCall)
    (h : OrderedCalls (calls ++ [c])) : OrderedCalls calls := by
  refine ⟨fun c' hc' => h.1 c' (List.mem_append_left _ hc'), ?_⟩
  have hle := h.2
  rw [insertCount_snoc] at hle
  omega

/-- **After any calls** both stores hold the ledger. -/
theorem holds_run {calls : List StoreCall} (hcalls : OrderedCalls calls) :
    ∃ m answers q answers', inMemoryCalls.run .new calls = some (m, answers) ∧
      (sqliteCalls F J).run .empty calls = some (q, answers') ∧
      (ledger calls).Ordered ∧ Holds F J (ledger calls) m q := by
  refine inMemoryCalls.lockstep (N := sqliteCalls F J)
    (R := fun calls _ _ m q => (ledger calls).Ordered ∧ Holds F J (ledger calls) m q)
    OrderedCalls.of_snoc ?_ ?_ calls hcalls
  · refine ⟨⟨.nil, ?_, ?_⟩, fun _ => rfl, fun _ => rfl, rfl, rfl⟩
    · exact fun a ha => absurd ha List.not_mem_nil
    · exact fun a ha => absurd ha List.not_mem_nil
  · rintro calls answers answers' m q c hok ⟨hordered, hholds⟩
    have hroom : c.isInsert = true → (ledger calls).inserts < maxInteger := by
      intro hc
      have hle := hok.2
      have hone : insertCount [c] = 1 := by simp [insertCount, hc]
      rw [insertCount_snoc, hone] at hle
      rw [inserts_ledger]
      exact hle
    refine ⟨_, _, _, _, rfl, rfl, ?_, ?_⟩
    · rw [ledger_snoc]
      exact hordered.call c hroom fun a ha => hok.1 c List.mem_concat_self a ha
    · rw [ledger_snoc]
      exact hholds.call c hroom

/-! ### The entries behind a ledger -/

theorem Ledger.Ordered.nodup_ids (h : l.Ordered) : (l.alerts.map Alert.id).Nodup := by
  refine List.pairwise_map.mpr (h.decreasing.imp fun {a b} hab hid => ?_)
  rw [hid] at hab
  exact absurd hab (Nat.lt_irrefl _)

/-- A map that finds the alerts of a ledger, each under its id, has one entry for each. -/
theorem perm_entries {κ β : Type} [DecidableEq κ] {key : AlertId → κ}
    (hkey : Function.Bijective key) {value : Alert → β} {s : AList fun _ : κ => β}
    (ho : l.Ordered) (h : ∀ id, s.lookup (key id) = (l.find id).map value) :
    s.entries.Perm (l.alerts.map fun a => ⟨key a.id, value a⟩) := by
  have hkeys : (l.alerts.map fun a => (⟨key a.id, value a⟩ : Σ _ : κ, β)).NodupKeys := by
    have hnd := ho.nodup_ids.map hkey.injective
    rw [List.map_map] at hnd
    rw [List.NodupKeys, List.keys, List.map_map]
    exact hnd
  have hfind : ∀ (alerts : List Alert) (id : AlertId),
      (alerts.map fun a => (⟨key a.id, value a⟩ : Σ _ : κ, β)).dlookup (key id) =
        (alerts.find? fun a => a.id = id).map value := by
    intro alerts id
    induction alerts with
    | nil => rfl
    | cons a alerts ih =>
      rw [List.map_cons, List.find?_cons]
      by_cases ha : a.id = id
      · rw [decide_eq_true ha, ← ha, List.dlookup_cons_eq]
        rfl
      · rw [decide_eq_false ha, List.dlookup_cons_ne _ _ fun he => ha (hkey.injective he).symm, ih]
  refine List.lookup_ext s.nodupKeys hkeys fun k b => ?_
  obtain ⟨id, rfl⟩ := hkey.surjective k
  have hlookup : s.entries.dlookup (key id) = (l.find id).map value := h id
  rw [hlookup, hfind]
  rfl

theorem Holds.perm_alerts (h : Holds F J l m q) (ho : l.Ordered) :
    (m.alerts.entries.map Sigma.snd).Perm l.alerts := by
  have hfind : ∀ i : AlertId, m.alerts.lookup (id i) = (l.find i).map id := by
    intro i
    rw [Option.map_id]
    exact h.alerts i
  have hperm := (perm_entries Function.bijective_id ho hfind).map Sigma.snd
  rw [List.map_map] at hperm
  exact hperm.trans (.of_eq (List.map_id _))

def rowEntry (F : TextFormats) (J : SnapshotFormat) (a : Alert) : Σ _ : Int64, AlertRow :=
  ⟨a.id.toInt64, alertRowOf F J a⟩

theorem Holds.perm_rows (h : Holds F J l m q) (ho : l.Ordered) :
    q.rows.entries.Perm (l.alerts.map (rowEntry F J)) := by
  have hcast : Function.Bijective UInt64.toInt64 :=
    ⟨fun a b hab => congrArg Int64.toUInt64 hab, fun k => ⟨k.toUInt64, rfl⟩⟩
  exact perm_entries hcast ho h.rows

/-! ### The listings -/

theorem Holds.sorted_rows (h : Holds F J l m q) (ho : l.Ordered) (hroom : l.inserts ≤ maxInteger)
    (filter : AlertFilter) :
    ((q.rows.entries.filter fun e => (buildFilter filter).selects AlertRow.value e.2).mergeSort
      fun a b => b.1 ≤ a.1) = (l.matching filter).map (rowEntry F J) := by
  have hle : ∀ a b : Σ _ : Int64, AlertRow, decide (b.1 ≤ a.1) = true ↔ b.1.toInt ≤ a.1.toInt := by
    intro a b
    rw [decide_eq_true_eq]
    exact Int64.le_iff_toInt_le
  have hperm : (q.rows.entries.filter fun e =>
      (buildFilter filter).selects AlertRow.value e.2).Perm
        ((l.matching filter).map (rowEntry F J)) := by
    refine ((h.perm_rows ho).filter _).trans (.of_eq ?_)
    rw [List.filter_map, Ledger.matching]
    exact congrArg _ (List.filter_congr fun a _ => selects_buildFilter filter a)
  have hdecreasing : ((l.matching filter).map (rowEntry F J)).Pairwise
      fun a b => b.1.toInt < a.1.toInt := by
    refine List.pairwise_map.mpr ((ho.decreasing.filter _).imp_of_mem fun {a b} ha hb hab => ?_)
    have hnum : ∀ c ∈ l.matching filter, (rowEntry F J c).1.toInt = c.id.toNat := fun c hc =>
      toInt_toInt64 ((ho.numbered c (List.mem_of_mem_filter hc)).trans hroom)
    rw [hnum a ha, hnum b hb]
    exact Int.ofNat_lt.mpr hab
  have hsorted := (List.pairwise_mergeSort
    (fun a b c hab hbc => (hle a c).mpr (((hle b c).mp hbc).trans ((hle a b).mp hab)))
    (fun a b => by rw [Bool.or_eq_true, hle, hle]; exact Int.le_total _ _)
    (q.rows.entries.filter fun e => (buildFilter filter).selects AlertRow.value e.2)).imp
      fun hab => (hle _ _).mp hab
  show takeLimit none _ = takeLimit none _
  exact takeLimit_eq_of_leads ((List.mergeSort_perm _ _).trans hperm) hsorted
    (leads_of_pairwise hdecreasing none)

/-- **SQLite lists as the ledger does**: its order is that of the ids. -/
theorem Holds.listAlerts_sqlite (h : Holds F J l m q) (ho : l.Ordered)
    (hroom : l.inserts ≤ maxInteger) (hF : F.Lawful) (hJ : J.Lawful)
    (clock : Int64 → Timestamp) {filter : AlertFilter}
    (hlimit : ∀ n ∈ filter.limit, n ≤ maxInteger) :
    ∃ alerts, q.listAlerts F J clock filter = .ok alerts ∧
      alerts.map Alert.id = (takeLimit filter.limit (l.matching filter)).map Alert.id := by
  have hread : ∀ a ∈ l.matching filter, ∀ now, ∃ b,
      rowToAlert F J now (rowEntry F J a).1 (rowEntry F J a).2 = .ok b ∧ b.id = a.id :=
    fun a ha now => ⟨_, rowToAlert_of_fitsU64 hF hJ (ho.fits a (List.mem_of_mem_filter ha)) now _,
      rfl⟩
  have hrows : ∀ e ∈ (l.matching filter).map (rowEntry F J), ∃ b,
      rowToAlert F J (clock e.1) e.1 e.2 = .ok b := by
    intro e he
    obtain ⟨a, ha, rfl⟩ := List.mem_map.mp he
    obtain ⟨b, hb, -⟩ := hread a ha (clock (rowEntry F J a).1)
    exact ⟨b, hb⟩
  refine ⟨_, by rw [SqliteAlertStore.listAlerts, h.sorted_rows ho hroom,
    fetchRows_eq_ok hlimit hrows], ?_⟩
  rw [map_takeLimit, map_takeLimit, List.map_filterMap, List.filterMap_map]
  refine congrArg _ ((List.filterMap_congr fun a ha => ?_).trans
    (congrFun List.filterMap_eq_map' _))
  obtain ⟨b, hb, hid⟩ := hread a ha (clock (rowEntry F J a).1)
  simp only [Function.comp]
  rw [hb]
  exact congrArg some hid

theorem Holds.perm_scan (h : Holds F J l m q) (ho : l.Ordered) (scan : InMemoryAlertStore.Scan)
    (filter : AlertFilter) :
    ((scan.read (m.alerts.entries.map Sigma.snd)).filter filter.keeps).Perm
      (l.matching filter) :=
  (((scan.perm _).trans (h.perm_alerts ho)).filter _)

/-- A scan that reads the matching alerts in a given order, in front of the others. -/
def scanAs (filter : AlertFilter) (alerts : List Alert) : InMemoryAlertStore.Scan where
  read all :=
    if alerts.isPerm (all.filter filter.keeps) then
      alerts ++ all.filter fun a => !filter.keeps a
    else all
  perm all := by
    split
    · next h => exact ((List.isPerm_iff.mp h).append_right _).trans (List.filter_append_perm _ all)
    · exact .refl all

theorem filter_scanAs {filter : AlertFilter} {alerts all : List Alert}
    (h : alerts.Perm (all.filter filter.keeps)) :
    ((scanAs filter alerts).read all).filter filter.keeps = alerts := by
  have hkeep : ∀ a ∈ alerts, filter.keeps a = true := fun a ha =>
    (List.mem_filter.mp (h.mem_iff.mp ha)).2
  simp only [scanAs, if_pos (List.isPerm_iff.mpr h), List.filter_append, List.filter_filter]
  rw [List.filter_eq_self.mpr hkeep]
  simp

theorem listAlerts_eq (m : InMemoryAlertStore) (scan : InMemoryAlertStore.Scan)
    (filter : AlertFilter) :
    m.listAlerts scan filter = takeLimit filter.limit
      (((scan.read (m.alerts.entries.map Sigma.snd)).filter filter.keeps).mergeSort
        fun a b => b.timestamp.nanos ≤ a.timestamp.nanos) := by
  rw [InMemoryAlertStore.listAlerts]
  cases filter.limit with
  | none => rfl
  | some n => rfl

theorem Ledger.Ordered.eq_of_map_id_eq (h : l.Ordered) {xs : List Alert} :
    ∀ {ys : List Alert}, (∀ x ∈ xs, x ∈ l.alerts) → (∀ y ∈ ys, y ∈ l.alerts) →
      xs.map Alert.id = ys.map Alert.id → xs = ys := by
  induction xs with
  | nil =>
    intro ys _ _ hids
    exact (List.map_eq_nil_iff.mp hids.symm).symm
  | cons x xs ih =>
    intro ys hxs hys hids
    cases ys with
    | nil => cases hids
    | cons y ys =>
      obtain ⟨hid, hrest⟩ := List.cons.inj hids
      obtain ⟨hx, hxs⟩ := List.forall_mem_cons.mp hxs
      obtain ⟨hy, hys⟩ := List.forall_mem_cons.mp hys
      rw [List.inj_on_of_nodup_map h.nodup_ids hx hy hid, ih hxs hys hrest]

theorem mem_of_mem_takeLimit {β : Type} {limit : Option Nat} {l : List β} {b : β}
    (h : b ∈ takeLimit limit l) : b ∈ l := by
  cases limit with
  | none => exact h
  | some n => exact List.mem_of_mem_take h

def alertNanos (a : Alert) : Int := a.timestamp.nanos

/-- **The in-memory store lists as the ledger does**, whatever order the map is read in,
exactly when the timestamps lead. -/
theorem Holds.listAlerts_memory_iff (h : Holds F J l m q) (ho : l.Ordered)
    (filter : AlertFilter) :
    (∀ scan, (m.listAlerts scan filter).map Alert.id =
        (takeLimit filter.limit (l.matching filter)).map Alert.id) ↔
      Leads alertNanos filter.limit (l.matching filter) := by
  have hle : ∀ a b : Alert, decide (b.timestamp.nanos ≤ a.timestamp.nanos) = true ↔
      alertNanos b ≤ alertNanos a := fun a b => decide_eq_true_iff
  have hnd : (l.matching filter).Nodup := (List.Nodup.of_map _ ho.nodup_ids).filter _
  have hmatch : ∀ a ∈ l.matching filter, a ∈ l.alerts := fun a ha => List.mem_of_mem_filter ha
  rw [← takeLimit_sort_iff hle hnd]
  refine ⟨fun hall alerts hperm => ?_, fun hall scan => ?_⟩
  · -- the map is read in the order of `alerts`
    have hscan : alerts.Perm ((m.alerts.entries.map Sigma.snd).filter filter.keeps) :=
      hperm.trans ((h.perm_alerts ho).filter _).symm
    have hlisted := hall (scanAs filter alerts)
    rw [listAlerts_eq, filter_scanAs hscan] at hlisted
    refine ho.eq_of_map_id_eq (fun a ha => hmatch a ?_) (fun a ha => hmatch a ?_) hlisted
    · exact hperm.mem_iff.mp (List.mem_mergeSort.mp (mem_of_mem_takeLimit ha))
    · exact mem_of_mem_takeLimit ha
  · rw [listAlerts_eq, hall _ (h.perm_scan ho scan filter)]

/-- Both stores give the same ids in the same order: the matching alerts, the most recently
inserted first, cut to the limit. -/
def NewestFirst (F : TextFormats) (J : SnapshotFormat) (l : Ledger) (m : InMemoryAlertStore)
    (q : SqliteAlertStore) (filter : AlertFilter) : Prop :=
  ∀ scan clock, ∃ alerts, q.listAlerts F J clock filter = .ok alerts ∧
    alerts.map Alert.id = (m.listAlerts scan filter).map Alert.id ∧
    alerts.map Alert.id = (takeLimit filter.limit (l.matching filter)).map Alert.id

/-- **Both stores list the most recent alerts first** exactly when each listed alert has a
later timestamp than every matching alert inserted before it. -/
theorem newestFirst_iff (hF : F.Lawful) (hJ : J.Lawful) {calls : List StoreCall}
    (hfits : ∀ c ∈ calls, ∀ a, c.call = .insertAlert a → FitsU64 a.deviceSnapshot)
    (hinserts : insertCount calls < 2 ^ 63) {filter : AlertFilter}
    (hlimit : ∀ n ∈ filter.limit, n < 2 ^ 63) :
    ∃ m answers q answers', inMemoryCalls.run .new calls = some (m, answers) ∧
      (sqliteCalls F J).run .empty calls = some (q, answers') ∧
      (NewestFirst F J (ledger calls) m q filter ↔
        Leads alertNanos filter.limit ((ledger calls).matching filter)) := by
  have hroom : insertCount calls ≤ maxInteger := Nat.le_sub_one_of_lt hinserts
  obtain ⟨m, answers, q, answers', hm, hq, hordered, hholds⟩ :=
    holds_run (F := F) (J := J) ⟨hfits, hroom⟩
  refine ⟨m, answers, q, answers', hm, hq, ?_⟩
  have hsqlite : ∀ clock, ∃ alerts, q.listAlerts F J clock filter = .ok alerts ∧
      alerts.map Alert.id =
        (takeLimit filter.limit ((ledger calls).matching filter)).map Alert.id := fun clock =>
    hholds.listAlerts_sqlite hordered (by rw [inserts_ledger]; exact hroom) hF hJ clock
      fun n hn => Nat.le_sub_one_of_lt (hlimit n hn)
  rw [← hholds.listAlerts_memory_iff hordered]
  refine ⟨fun h scan => ?_, fun h scan clock => ?_⟩
  · obtain ⟨alerts, -, hsame, hledger⟩ := h scan fun _ => ⟨0⟩
    exact hsame.symm.trans hledger
  · obtain ⟨alerts, hlist, hledger⟩ := hsqlite clock
    exact ⟨alerts, hlist, hledger.trans (h scan).symm, hledger⟩

end Simulation

def alertAt (nanos : Int) : Alert :=
  Alert.new "new-device" .warning .newDevice laptop "laptop joined" ⟨nanos⟩

def twoAlerts (first second : Int) : List StoreCall :=
  [plainCall (.insertAlert (alertAt first)), plainCall (.insertAlert (alertAt second))]

def latest : AlertFilter := ⟨none, none, none, some 1⟩

theorem fits_twoAlerts {first second : Int} :
    ∀ c ∈ twoAlerts first second, ∀ a, c.call = .insertAlert a → FitsU64 a.deviceSnapshot := by
  intro c hc a ha
  rcases List.mem_cons.mp hc with rfl | hc
  · cases ha
    exact fitsU64_laptop
  · rw [List.mem_singleton.mp hc] at ha
    cases ha
    exact fitsU64_laptop

theorem matching_twoAlerts (first second : Int) :
    (ledger (twoAlerts first second)).matching latest =
      [{ alertAt second with id := 2 }, { alertAt first with id := 1 }] := rfl

theorem newestFirst_iff_twoAlerts : ∃ F J, F.Lawful ∧ J.Lawful ∧
    ∃ m answers q answers',
      inMemoryCalls.run .new (twoAlerts 59000000000 60000000000) = some (m, answers) ∧
      (sqliteCalls F J).run .empty (twoAlerts 59000000000 60000000000) = some (q, answers') ∧
      NewestFirst F J (ledger (twoAlerts 59000000000 60000000000)) m q latest := by
  obtain ⟨F, hF, -⟩ := exists_lawful
  obtain ⟨J, hJ, -⟩ := exists_lawful_snapshot
  obtain ⟨m, answers, q, answers', hm, hq, hiff⟩ :=
    @newestFirst_iff F J hF hJ (twoAlerts 59000000000 60000000000) fits_twoAlerts (by decide)
      latest (by decide)
  refine ⟨F, J, hF, hJ, m, answers, q, answers', hm, hq, hiff.mpr ?_⟩
  rw [matching_twoAlerts]
  exact leads_of_pairwise (List.pairwise_pair.mpr (by decide)) _

/-- **A clock that steps back**: the alert inserted last has the earlier timestamp, SQLite
lists it as the latest, and the in-memory store does not. -/
theorem twoAlerts_not_newestFirst : ∃ F J, F.Lawful ∧ J.Lawful ∧
    ∃ m answers q answers',
      inMemoryCalls.run .new (twoAlerts 60000000000 59000000000) = some (m, answers) ∧
      (sqliteCalls F J).run .empty (twoAlerts 60000000000 59000000000) = some (q, answers') ∧
      (∀ clock, ∃ alerts, q.listAlerts F J clock latest = .ok alerts ∧
        alerts.map Alert.id = [2]) ∧
      ¬NewestFirst F J (ledger (twoAlerts 60000000000 59000000000)) m q latest := by
  obtain ⟨F, hF, -⟩ := exists_lawful
  obtain ⟨J, hJ, -⟩ := exists_lawful_snapshot
  obtain ⟨m, answers, q, answers', hm, hq, hordered, hholds⟩ :=
    @holds_run F J (twoAlerts 60000000000 59000000000) ⟨fits_twoAlerts, by decide⟩
  refine ⟨F, J, hF, hJ, m, answers, q, answers', hm, hq, fun clock => ?_, fun h => ?_⟩
  · have hlimit : ∀ n ∈ latest.limit, n ≤ maxInteger := by decide
    obtain ⟨alerts, hlist, hids⟩ :=
      hholds.listAlerts_sqlite hordered (by decide) hF hJ clock hlimit
    rw [matching_twoAlerts] at hids
    exact ⟨alerts, hlist, hids⟩
  · have hleads := (hholds.listAlerts_memory_iff hordered latest).mp fun scan => by
      obtain ⟨alerts, -, hsame, hledger⟩ := h scan fun _ => ⟨0⟩
      exact hsame.symm.trans hledger
    rw [matching_twoAlerts] at hleads
    exact absurd (hleads [] _ _ rfl (by decide) _ List.mem_cons_self) (by decide)

end EdgeShield.Storage
