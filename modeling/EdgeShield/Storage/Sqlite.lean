import Mathlib.Data.Finmap
import EdgeShield.Common.Alert
import EdgeShield.Storage.Store

/-!
# The SQLite device store

`crates/storage/src/sqlite.rs`: a cache of device records, a set of MACs whose record
was written since the last flush, and the table `devices`, whose columns are texts
and integers.  `flush` writes the rows of the dirty MACs and then clears their marks;
`open` decodes all rows into a fresh cache.

The text of a record is put together from formats that other crates and the standard
library define: MAC and IP addresses, RFC 3339 times, and JSON.  They are a parameter
(`TextFormats`), and `Lawful` says that each parser undoes its formatter.  What the
store itself adds is written out: the sets as sorted lists, the statistics as a list
of pairs, the protocol parser, and the row rule `INSERT … ON CONFLICT`, which keeps
the first `first_seen` of a row.

`rowToDevice_rowOf` is the round trip of a record through its row.
-/

namespace EdgeShield.Storage

open EdgeShield.Common
open EdgeShield.Common (Protocol)

/-! ### Text formats -/

/-- The formats that a row is made of. -/
structure TextFormats where
  parseMac : String → Except String MacAddress
  ipText : IpAddr → String
  parseIp : String → Option IpAddr
  timeText : Timestamp → String
  parseTime : String → Option Timestamp
  /-- `serde_json::to_string` on a `Vec<String>`. -/
  jsonStrings : List String → String
  parseJsonStrings : String → Option (List String)
  /-- `serde_json::to_string` on a `Vec<(String, u64)>`. -/
  jsonPairs : List (String × Nat) → String
  parseJsonPairs : String → Option (List (String × Nat))

/-- Parsing undoes formatting; the text of a time keeps its milliseconds, and JSON
holds `u64` values. -/
structure TextFormats.Lawful (F : TextFormats) : Prop where
  mac : ∀ m : MacAddress, F.parseMac m.toString = .ok m
  ip : ∀ ip, F.parseIp (F.ipText ip) = some ip
  time : ∀ t, F.parseTime (F.timeText t) = some t.truncMillis
  strings : ∀ l, F.parseJsonStrings (F.jsonStrings l) = some l
  pairs : ∀ l, (∀ x ∈ l, x.2 ≤ u64Max) → F.parseJsonPairs (F.jsonPairs l) = some l

/-- `str::parse::<u8>`: digits after an optional `+`, below 256. -/
def parseU8 (s : List Char) : Option UInt8 :=
  let digits := if s.head? = some '+' then s.tail else s
  if digits ≠ [] ∧ digits.all Char.isDigit then
    let n := digits.foldl (fun n c => 10 * n + (c.toNat - 48)) 0
    if n < 256 then some (UInt8.ofNat n) else none
  else none

def stripPrefix (pre s : List Char) : Option (List Char) :=
  if pre.isPrefixOf s then some (s.drop pre.length) else none

def stripSuffix (c : Char) (s : List Char) : Option (List Char) :=
  if s.getLast? = some c then some s.dropLast else none

/-- The protocol of a text; it stands in the source twice, for the set and for the
statistics. -/
def parseProtocol (s : String) : Option Protocol :=
  if s = "ARP" then some .arp
  else if s = "IPv4" then some .ipv4
  else if s = "ICMP" then some .icmp
  else if s = "TCP" then some .tcp
  else if s = "UDP" then some .udp
  else if s = "DNS" then some .dns
  else if s = "DHCP" then some .dhcp
  else if s = "HTTP" then some .http
  else if s = "HTTPS" then some .https
  else if s = "mDNS" then some .mdns
  else if s = "NTP" then some .ntp
  else
    (((stripPrefix "UNKNOWN(".toList s.toList).bind (stripSuffix ')')).bind parseU8).map
      Protocol.other

section Codecs

variable (F : TextFormats)

def ipsToJson (ips : Finset IpAddr) : String := F.jsonStrings (ips.sort.map F.ipText)

def ipList (ips : Finset IpAddr) : List IpAddr := ips.sort

def ipsFromJson (s : String) : Finset IpAddr :=
  (((F.parseJsonStrings s).getD []).filterMap F.parseIp).toFinset

def protocolsToJson (protocols : Finset Protocol) : String :=
  F.jsonStrings (protocols.sort.map Protocol.toString)

def protocolList (protocols : Finset Protocol) : List Protocol := protocols.sort

def protocolsFromJson (s : String) : Finset Protocol :=
  (((F.parseJsonStrings s).getD []).filterMap parseProtocol).toFinset

/-- The entries of the statistics, in the order of the protocols. -/
def statsList (stats : ProtocolStats) : List (Protocol × Nat) :=
  stats.keys.sort.filterMap fun p => (stats.lookup p).map (p, ·)

def protocolStatsToJson (stats : ProtocolStats) : String :=
  F.jsonPairs ((statsList stats).map fun x => (x.1.toString, x.2))

def protocolStatsFromJson (s : String) : ProtocolStats :=
  ((F.parseJsonPairs s).getD []).foldl
    (fun map x =>
      match parseProtocol x.1 with
      | some p => map.insert p x.2
      | none => map) ∅

/-! ### Rows -/

structure DeviceRow where
  mac : String
  ips : String
  hostname : Option String
  firstSeen : String
  lastSeen : String
  packetCount : Nat
  bytesSent : Nat
  bytesReceived : Nat
  protocols : String
  vendor : Option String
  dhcpVendorClass : Option String
  protocolStats : String
  deriving DecidableEq, Repr

def rowOf (d : Device) : DeviceRow where
  mac := d.mac.toString
  ips := ipsToJson F d.ips
  hostname := d.hostname
  firstSeen := F.timeText d.firstSeen
  lastSeen := F.timeText d.lastSeen
  packetCount := d.packetCount
  bytesSent := d.bytesSent
  bytesReceived := d.bytesReceived
  protocols := protocolsToJson F d.protocols
  vendor := d.vendor
  dhcpVendorClass := d.dhcpVendorClass
  protocolStats := protocolStatsToJson F d.protocolStats

/-- `row_to_device`; `now` is what the clock gives where a time does not parse, for
`first_seen` and for `last_seen`. -/
def rowToDevice (now : Timestamp × Timestamp) (row : DeviceRow) : Except StorageError Device :=
  match F.parseMac row.mac with
  | .error e => .error (.internal ("load row parse failed: " ++ e))
  | .ok mac => .ok
    { mac := mac
      ips := ipsFromJson F row.ips
      hostname := row.hostname
      firstSeen := (F.parseTime row.firstSeen).getD now.1
      lastSeen := (F.parseTime row.lastSeen).getD now.2
      packetCount := row.packetCount
      bytesSent := row.bytesSent
      bytesReceived := row.bytesReceived
      protocols := protocolsFromJson F row.protocols
      vendor := row.vendor
      dhcpVendorClass := row.dhcpVendorClass
      protocolStats := protocolStatsFromJson F row.protocolStats }

abbrev Table := AList fun _ : String => DeviceRow

/-- `INSERT … ON CONFLICT(mac) DO UPDATE`: every column but `mac` and `first_seen` is
overwritten. -/
def insertRow (table : Table) (row : DeviceRow) : Table :=
  match table.lookup row.mac with
  | some old => table.insert row.mac { row with firstSeen := old.firstSeen }
  | none => table.insert row.mac row

/-! ### The store -/

structure SqliteStore where
  cache : MemoryStore
  dirty : Finset MacAddress
  table : Table

def i64Max : Nat := 2 ^ 63 - 1

/-- The error of `execute` for a record: a counter that does not fit, or an error of
the database. -/
def executeError (sqlError : MacAddress → Option String) (d : Device) : Option String :=
  if d.packetCount ≤ i64Max ∧ d.bytesSent ≤ i64Max ∧ d.bytesReceived ≤ i64Max then sqlError d.mac
  else some "out of range integral type conversion attempted"

def flushLoop (cache : MemoryStore) (sqlError : MacAddress → Option String) :
    List MacAddress → Nat → Table → Except StorageError Nat × Table
  | [], written, table => (.ok written, table)
  | mac :: macs, written, table =>
    match cache.get mac with
    | none => flushLoop cache sqlError macs written table
    | some d =>
      match executeError sqlError d with
      | some e => (.error (.internal ("flush upsert failed: " ++ e)), table)
      | none => flushLoop cache sqlError macs (written + 1) (insertRow table (rowOf F d))

namespace SqliteStore

def empty : SqliteStore where
  cache := .new
  dirty := ∅
  table := ∅

def upsert (s : SqliteStore) (d : Device) : SqliteStore :=
  { s with cache := s.cache.upsert d, dirty := insert d.mac s.dirty }

/-- `flush`: `macs` is the order in which the dirty set is read, and `sqlError` tells
which rows the database refuses.  On an error the marks stay. -/
def flush (s : SqliteStore) (macs : List MacAddress) (sqlError : MacAddress → Option String) :
    Except StorageError Nat × SqliteStore :=
  match flushLoop F s.cache sqlError macs 0 s.table with
  | (.ok written, table) => (.ok written, { s with table := table, dirty := s.dirty \ macs.toFinset })
  | (.error e, table) => (.error e, { s with table := table })

end SqliteStore

/-- `load_all`: every row into the cache; `clock` has the clock reads for a row. -/
def loadAll (clock : DeviceRow → Timestamp × Timestamp) :
    List DeviceRow → MemoryStore → Except StorageError MemoryStore
  | [], cache => .ok cache
  | row :: rows, cache => do
    let d ← rowToDevice F (clock row) row
    loadAll clock rows (cache.upsert d)

/-- `SqliteStore::open` on a file with this table. -/
def SqliteStore.open (table : Table) (clock : DeviceRow → Timestamp × Timestamp) :
    Except StorageError SqliteStore := do
  let cache ← loadAll F clock (table.entries.map Sigma.snd) .new
  return { cache := cache, dirty := ∅, table := table }

end Codecs

/-! ### Round trips -/

theorem parseU8_toDigits : ∀ n : Fin 256, parseU8 (Nat.toDigits 10 n) = some (UInt8.ofNat n) := by
  decide +kernel

/-- The text of an unknown protocol is longer than that of any known one, and so it
gets to the last branch. -/
theorem parseProtocol_unknown (digits : List Char) :
    parseProtocol ("UNKNOWN(" ++ String.ofList digits ++ ")") = (parseU8 digits).map .other := by
  have hlist : ("UNKNOWN(" ++ String.ofList digits ++ ")").toList =
      "UNKNOWN(".toList ++ (digits ++ [')']) := by simp
  have hne : ∀ t : String, t.toList.length < 9 → "UNKNOWN(" ++ String.ofList digits ++ ")" ≠ t := by
    intro t ht he
    rw [← he, hlist] at ht
    simp only [String.reduceToList, List.length_append, List.length_cons, List.length_nil] at ht
    omega
  unfold parseProtocol
  iterate 11 rw [if_neg (hne _ (by decide))]
  rw [hlist]
  simp [stripPrefix, stripSuffix]

/-- **The protocol parser undoes `Display`.** -/
theorem parseProtocol_toString (p : Protocol) : parseProtocol p.toString = some p := by
  cases p with
  | other n =>
    have hdigits := parseU8_toDigits ⟨n.toNat, n.toNat_lt⟩
    rw [UInt8.ofNat_toNat] at hdigits
    exact (parseProtocol_unknown _).trans (by rw [hdigits, Option.map_some])
  | _ => rfl

theorem toFinset_filterMap_sort {α : Type} [LinearOrder α] [DecidableEq α] {text : α → String}
    {parse : String → Option α} (h : ∀ a, parse (text a) = some a) (s : Finset α) :
    ((s.sort.map text).filterMap parse).toFinset = s := by
  rw [List.filterMap_map, show (parse ∘ text) = some from funext h, List.filterMap_some,
    Finset.sort_toFinset]

theorem mem_statsList {stats : ProtocolStats} {p : Protocol} {n : Nat} :
    (p, n) ∈ statsList stats ↔ stats.lookup p = some n := by
  simp only [statsList, List.mem_filterMap, Finset.mem_sort, Finmap.mem_keys, Option.map_eq_some_iff,
    Prod.mk.injEq]
  constructor
  · rintro ⟨q, _, m, hq, rfl, rfl⟩
    exact hq
  · intro h
    exact ⟨p, Finmap.lookup_isSome.mp (by rw [h]; rfl), n, h, rfl, rfl⟩

theorem nodup_statsList (stats : ProtocolStats) : ((statsList stats).map Prod.fst).Nodup := by
  have hsub : ∀ ps : List Protocol,
      ((ps.filterMap fun p => (stats.lookup p).map (p, ·)).map Prod.fst).Sublist ps := by
    intro ps
    induction ps with
    | nil => exact .slnil
    | cons p ps ih =>
      cases h : stats.lookup p with
      | none => simpa [h] using ih.cons p
      | some n => simpa [h] using ih
  exact (Finset.sort_nodup _ _).sublist (hsub _)

theorem lookup_foldl_insert_of_notMem {l : List (Protocol × Nat)} {p : Protocol}
    (h : p ∉ l.map Prod.fst) : ∀ map : ProtocolStats,
      (l.foldl (fun map x => map.insert x.1 x.2) map).lookup p = map.lookup p := by
  induction l with
  | nil => intro map; rfl
  | cons x l ih =>
    intro map
    rw [List.map_cons, List.mem_cons, not_or] at h
    rw [List.foldl_cons, ih h.2, Finmap.lookup_insert_of_ne _ h.1]

theorem lookup_foldl_insert_of_mem {l : List (Protocol × Nat)} (hnd : (l.map Prod.fst).Nodup)
    {p : Protocol} {n : Nat} (h : (p, n) ∈ l) : ∀ map : ProtocolStats,
      (l.foldl (fun map x => map.insert x.1 x.2) map).lookup p = some n := by
  induction l with
  | nil => exact absurd h List.not_mem_nil
  | cons x l ih =>
    intro map
    rw [List.map_cons, List.nodup_cons] at hnd
    rw [List.foldl_cons]
    rcases List.mem_cons.mp h with rfl | h
    · rw [lookup_foldl_insert_of_notMem hnd.1, Finmap.lookup_insert]
    · exact ih hnd.2 h _

theorem foldl_insert_of_perm {stats : ProtocolStats} {l : List (Protocol × Nat)}
    (hperm : l.Perm (statsList stats)) :
    l.foldl (fun (map : ProtocolStats) x => map.insert x.1 x.2) ∅ = stats := by
  have hnd : (l.map Prod.fst).Nodup := (hperm.map Prod.fst).nodup_iff.mpr (nodup_statsList stats)
  refine Finmap.ext_lookup fun p => ?_
  cases hp : stats.lookup p with
  | some n => exact lookup_foldl_insert_of_mem hnd (hperm.mem_iff.mpr (mem_statsList.mpr hp)) ∅
  | none =>
    rw [lookup_foldl_insert_of_notMem, Finmap.lookup_empty]
    intro hmem
    obtain ⟨⟨q, n⟩, hq, rfl⟩ := List.mem_map.mp hmem
    rw [mem_statsList.mp (hperm.mem_iff.mp hq)] at hp
    cases hp

section RoundTrip

variable {F : TextFormats} (hF : F.Lawful)

include hF

theorem ipsFromJson_toJson (ips : Finset IpAddr) : ipsFromJson F (ipsToJson F ips) = ips := by
  rw [ipsFromJson, ipsToJson, hF.strings, Option.getD_some]
  exact toFinset_filterMap_sort hF.ip ips

theorem protocolsFromJson_toJson (protocols : Finset Protocol) :
    protocolsFromJson F (protocolsToJson F protocols) = protocols := by
  rw [protocolsFromJson, protocolsToJson, hF.strings, Option.getD_some]
  exact toFinset_filterMap_sort parseProtocol_toString protocols

theorem protocolStatsFromJson_toJson {stats : ProtocolStats}
    (h : ∀ p n, stats.lookup p = some n → n ≤ u64Max) :
    protocolStatsFromJson F (protocolStatsToJson F stats) = stats := by
  have hpairs : ∀ x ∈ (statsList stats).map (fun x => (x.1.toString, x.2)), x.2 ≤ u64Max := by
    intro x hx
    obtain ⟨⟨p, n⟩, hp, rfl⟩ := List.mem_map.mp hx
    exact h p n (mem_statsList.mp hp)
  rw [protocolStatsFromJson, protocolStatsToJson, hF.pairs _ hpairs, Option.getD_some,
    List.foldl_map]
  simp only [parseProtocol_toString]
  exact foldl_insert_of_perm (.refl _)

/-- What the table keeps of a record: all of it, with times in milliseconds. -/
def persisted (d : Device) : Device :=
  { d with firstSeen := d.firstSeen.truncMillis, lastSeen := d.lastSeen.truncMillis }

/-- **A record comes back from its row.** -/
theorem rowToDevice_rowOf {d : Device}
    (hstats : ∀ p n, d.protocolStats.lookup p = some n → n ≤ u64Max) (now : Timestamp × Timestamp) :
    rowToDevice F now (rowOf F d) = .ok (persisted d) := by
  simp only [rowToDevice, rowOf, hF.mac, hF.time, Option.getD_some, ipsFromJson_toJson hF,
    protocolsFromJson_toJson hF, protocolStatsFromJson_toJson hF hstats]
  rfl

end RoundTrip

/-! ### Writing rows -/

section Rows

variable {F : TextFormats}

theorem lookup_insertRow (table : Table) (row : DeviceRow) (k : String) :
    (insertRow table row).lookup k =
      if k = row.mac then
        some { row with
          firstSeen := ((table.lookup row.mac).map DeviceRow.firstSeen).getD row.firstSeen }
      else table.lookup k := by
  unfold insertRow
  by_cases hk : k = row.mac
  · subst hk
    cases table.lookup row.mac with
    | none => simp
    | some old => simp
  · cases table.lookup row.mac with
    | none => simp [hk, AList.lookup_insert_ne hk]
    | some old => simp [hk, AList.lookup_insert_ne hk]

/-- One pass of the loop of `flush`, where no error comes up. -/
def flushRow (F : TextFormats) (cache : MemoryStore) (table : Table) (mac : MacAddress) : Table :=
  match cache.get mac with
  | none => table
  | some d => insertRow table (rowOf F d)

/-- The row of `m` shows the cached record. -/
def Synced (F : TextFormats) (cache : MemoryStore) (table : Table) (m : MacAddress) : Prop :=
  table.lookup m.toString = (cache.get m).map (rowOf F)

/-- Every row belongs to a cached record and has its first time. -/
def RowsCached (F : TextFormats) (cache : MemoryStore) (table : Table) : Prop :=
  ∀ m row, table.lookup m.toString = some row →
    ∃ d, cache.get m = some d ∧ row.firstSeen = F.timeText d.firstSeen

theorem rowsCached_of_synced {cache : MemoryStore} {table : Table}
    (h : ∀ m, Synced F cache table m) : RowsCached F cache table := by
  intro m row hrow
  rw [h m] at hrow
  obtain ⟨d, hd, rfl⟩ := Option.map_eq_some_iff.mp hrow
  exact ⟨d, hd, rfl⟩

theorem lookup_flushRow_of_ne {cache : MemoryStore} {table : Table} {m m' : MacAddress}
    (h : m' ≠ m) : (flushRow F cache table m).lookup m'.toString = table.lookup m'.toString := by
  unfold flushRow
  split
  · rfl
  · next d hd =>
    rw [lookup_insertRow, if_neg]
    intro he
    exact h ((MacAddress.toString_injective he).trans (MemoryStore.mac_of_get hd))

theorem synced_flushRow {cache : MemoryStore} {table : Table} (h : RowsCached F cache table)
    (m : MacAddress) : Synced F cache (flushRow F cache table m) m := by
  unfold Synced flushRow
  cases hd : cache.get m with
  | none =>
    cases hrow : table.lookup m.toString with
    | none => rfl
    | some row =>
      obtain ⟨d, hd', _⟩ := h m row hrow
      rw [hd] at hd'
      cases hd'
  | some d =>
    have hmac : (rowOf F d).mac = m.toString :=
      congrArg MacAddress.toString (MemoryStore.mac_of_get hd)
    have hfirst : ((table.lookup (rowOf F d).mac).map DeviceRow.firstSeen).getD
        (rowOf F d).firstSeen = (rowOf F d).firstSeen := by
      rw [hmac]
      cases hrow : table.lookup m.toString with
      | none => rfl
      | some row =>
        obtain ⟨d', hd', hfirst⟩ := h m row hrow
        rw [hd] at hd'
        cases hd'
        exact hfirst
    simp only [Option.map_some]
    rw [lookup_insertRow, if_pos hmac.symm, hfirst]

theorem RowsCached.flushRow {cache : MemoryStore} {table : Table} (h : RowsCached F cache table)
    (m : MacAddress) : RowsCached F cache (flushRow F cache table m) := by
  intro m' row hrow
  by_cases hm : m' = m
  · subst hm
    rw [synced_flushRow h m'] at hrow
    obtain ⟨d, hd, rfl⟩ := Option.map_eq_some_iff.mp hrow
    exact ⟨d, hd, rfl⟩
  · rw [lookup_flushRow_of_ne hm] at hrow
    exact h m' row hrow

theorem Synced.flushRow {cache : MemoryStore} {table : Table} {m : MacAddress}
    (hs : Synced F cache table m) (h : RowsCached F cache table) (m' : MacAddress) :
    Synced F cache (flushRow F cache table m') m := by
  by_cases hm : m = m'
  · subst hm
    exact synced_flushRow h m
  · exact (lookup_flushRow_of_ne hm).trans hs

/-- **What the loop of `flush` does**: it writes all rows, or it stops at a row that the
database refuses and has written the rows before it. -/
theorem flushLoop_cases (cache : MemoryStore) (sqlError : MacAddress → Option String) :
    ∀ (macs : List MacAddress) (written : Nat) (table : Table),
      (∃ n, flushLoop F cache sqlError macs written table =
        (.ok n, macs.foldl (flushRow F cache) table)) ∨
      ∃ e m d done, m ∈ macs ∧ cache.get m = some d ∧ executeError sqlError d ≠ none ∧
        done <+: macs ∧ flushLoop F cache sqlError macs written table =
          (.error e, done.foldl (flushRow F cache) table) := by
  intro macs
  induction macs with
  | nil => intro written table; exact .inl ⟨written, rfl⟩
  | cons m macs ih =>
    intro written table
    rw [flushLoop, List.foldl_cons]
    cases hd : cache.get m with
    | none =>
      have hrow : flushRow F cache table m = table := by simp only [flushRow, hd]
      simp only [hrow]
      refine (ih written table).imp_right ?_
      rintro ⟨e, m', d, done, hm', hd', he, hdone, h⟩
      refine ⟨e, m', d, m :: done, List.mem_cons_of_mem _ hm', hd', he,
        List.prefix_cons_inj m |>.mpr hdone, ?_⟩
      rw [List.foldl_cons, hrow, h]
    | some d =>
      cases he : executeError sqlError d with
      | some e =>
        simp only [he]
        exact .inr ⟨_, m, d, [], List.mem_cons_self, hd, by rw [he]; exact nofun,
          List.nil_prefix, rfl⟩
      | none =>
        have hrow : flushRow F cache table m = insertRow table (rowOf F d) := by
          simp only [flushRow, hd]
        simp only [he, hrow]
        refine (ih (written + 1) _).imp_right ?_
        rintro ⟨e, m', d', done, hm', hd', he, hdone, h⟩
        refine ⟨e, m', d', m :: done, List.mem_cons_of_mem _ hm', hd', he,
          List.prefix_cons_inj m |>.mpr hdone, ?_⟩
        rw [List.foldl_cons, hrow, h]

theorem foldl_flushRow {cache : MemoryStore} (macs : List MacAddress) :
    ∀ {table : Table}, RowsCached F cache table →
      RowsCached F cache (macs.foldl (flushRow F cache) table) ∧
      (∀ m, m ∈ macs ∨ Synced F cache table m →
        Synced F cache (macs.foldl (flushRow F cache) table) m) ∧
      ∀ m, m ∉ macs →
        (macs.foldl (flushRow F cache) table).lookup m.toString = table.lookup m.toString := by
  induction macs with
  | nil => exact fun h => ⟨h, by simp, fun _ _ => rfl⟩
  | cons m macs ih =>
    intro table h
    obtain ⟨hrows, hsync, hkeep⟩ := ih (h.flushRow m)
    refine ⟨hrows, fun m' hm' => hsync m' ?_, fun m' hm' => ?_⟩
    · rcases hm' with hm' | hm'
      · rcases List.mem_cons.mp hm' with rfl | hm'
        · exact .inr (synced_flushRow h m')
        · exact .inl hm'
      · exact .inr (hm'.flushRow h m)
    · rw [List.mem_cons, not_or] at hm'
      rw [List.foldl_cons, hkeep m' hm'.2, lookup_flushRow_of_ne hm'.1]

end Rows

end EdgeShield.Storage
