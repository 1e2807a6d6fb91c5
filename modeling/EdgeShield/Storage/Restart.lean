import Mathlib.Data.Countable.Basic
import Mathlib.Logic.Encodable.Basic
import Mathlib.Logic.Equiv.List
import EdgeShield.Lib.Machine
import EdgeShield.Storage.Sqlite

/-!
# Restart

A history is a sequence of upserts and flushes on a `SqliteStore`.  A flush may fail at
any row, and then it has written the rows before it and cleared no mark.  After a flush
that succeeds, opening the file gives back every record as it was last upserted, up to
the milliseconds of its two times (`open_after_flush`).

`Kept` is the invariant of a history: the cache holds the last upserts, an unmarked MAC
is in step with its row, and every row belongs to a cached record with the same first
time.  The last part needs that the records of one MAC agree on this time, since a row
never changes it.
-/

namespace EdgeShield.Storage

open EdgeShield.Lib EdgeShield.Common
open EdgeShield.Common (Protocol)

inductive StoreOp where
  | upsert (d : Device)
  | flush (macs : List MacAddress) (sqlError : MacAddress → Option String)

/-- A history as a machine; the output is the result of a flush. -/
def history (F : TextFormats) : Machine SqliteStore StoreOp (Option (Except StorageError Nat)) where
  step s
    | .upsert d => some (s.upsert d, none)
    | .flush macs sqlError =>
      -- the loop reads the dirty set in some order
      if macs.Nodup ∧ macs.toFinset = s.dirty then
        let (result, s) := s.flush F macs sqlError
        some (s, some result)
      else none

def lastUpserted (ops : List StoreOp) (m : MacAddress) : Option Device :=
  ops.foldl (fun last op =>
    match op with
    | .upsert d => if d.mac = m then some d else last
    | .flush _ _ => last) none

theorem lastUpserted_upsert (ops : List StoreOp) (d : Device) (m : MacAddress) :
    lastUpserted (ops ++ [.upsert d]) m = if m = d.mac then some d else lastUpserted ops m := by
  rw [lastUpserted, List.foldl_append]
  simp only [List.foldl_cons, List.foldl_nil, eq_comm (a := m)]
  rfl

theorem lastUpserted_flush (ops : List StoreOp) (macs : List MacAddress)
    (sqlError : MacAddress → Option String) (m : MacAddress) :
    lastUpserted (ops ++ [.flush macs sqlError]) m = lastUpserted ops m := by
  rw [lastUpserted, List.foldl_append]
  rfl

theorem mem_of_lastUpserted {ops : List StoreOp} {m : MacAddress} {d : Device}
    (h : lastUpserted ops m = some d) : .upsert d ∈ ops ∧ d.mac = m := by
  induction ops using List.reverseRecOn with
  | nil => cases h
  | append_singleton ops op ih =>
    cases op with
    | upsert d' =>
      rw [lastUpserted_upsert] at h
      split at h
      · next hm =>
        cases h
        exact ⟨List.mem_concat_self, hm.symm⟩
      · exact (ih h).imp_left (List.mem_append_left _)
    | flush macs sqlError =>
      rw [lastUpserted_flush] at h
      exact (ih h).imp_left (List.mem_append_left _)

section Histories

variable {F : TextFormats}

def FirstSeenAgree (ops : List StoreOp) : Prop :=
  ∀ d d', .upsert d ∈ ops → .upsert d' ∈ ops → d.mac = d'.mac → d.firstSeen = d'.firstSeen

theorem FirstSeenAgree.of_append {ops ops' : List StoreOp} (h : FirstSeenAgree (ops ++ ops')) :
    FirstSeenAgree ops :=
  fun d d' hd hd' => h d d' (List.mem_append_left _ hd) (List.mem_append_left _ hd')

structure Kept (F : TextFormats) (ops : List StoreOp) (s : SqliteStore) : Prop where
  cache : ∀ m, s.cache.get m = lastUpserted ops m
  clean : ∀ m, m ∉ s.dirty → Synced F s.cache s.table m
  rows : RowsCached F s.cache s.table
  keys : ∀ k row, s.table.lookup k = some row → ∃ m : MacAddress, k = m.toString

theorem kept_empty : Kept F [] .empty where
  cache _ := rfl
  clean _ _ := rfl
  rows _ _ h := by cases h
  keys _ _ h := by cases h

theorem Kept.upsert {ops : List StoreOp} {s : SqliteStore} (h : Kept F ops s) {d : Device}
    (hfirst : FirstSeenAgree (ops ++ [.upsert d])) : Kept F (ops ++ [.upsert d]) (s.upsert d) where
  cache m := by rw [SqliteStore.upsert, MemoryStore.get_upsert, lastUpserted_upsert, h.cache]
  clean m hm := by
    rw [SqliteStore.upsert, Finset.mem_insert, not_or] at hm
    rw [Synced, SqliteStore.upsert, MemoryStore.get_upsert, if_neg hm.1]
    exact h.clean m hm.2
  rows m row hrow := by
    obtain ⟨d', hd', htime⟩ := h.rows m row hrow
    rw [SqliteStore.upsert, MemoryStore.get_upsert]
    by_cases hm : m = d.mac
    · obtain ⟨hmem, hmac⟩ := mem_of_lastUpserted (h.cache m ▸ hd')
      refine ⟨d, if_pos hm, ?_⟩
      rw [htime, hfirst d' d (List.mem_append_left _ hmem)
        List.mem_concat_self (hmac.trans hm)]
    · exact ⟨d', by rw [if_neg hm, hd'], htime⟩
  keys := h.keys

theorem keys_foldl_flushRow {cache : MemoryStore} (macs : List MacAddress) :
    ∀ {table : Table}, (∀ k row, table.lookup k = some row → ∃ m : MacAddress, k = m.toString) →
      ∀ k row, (macs.foldl (flushRow F cache) table).lookup k = some row →
        ∃ m : MacAddress, k = m.toString := by
  induction macs with
  | nil => exact fun h => h
  | cons m macs ih =>
    intro table h
    refine ih fun k row hrow => ?_
    unfold flushRow at hrow
    split at hrow
    · exact h k row hrow
    · next d hd =>
      rw [lookup_insertRow] at hrow
      split at hrow
      · next hk => exact ⟨d.mac, hk⟩
      · exact h k row hrow

theorem Kept.foldl_flushRow {ops : List StoreOp} {s : SqliteStore} (h : Kept F ops s)
    (macs : List MacAddress) :
    Kept F ops { s with table := macs.foldl (flushRow F s.cache) s.table } where
  cache := h.cache
  clean m hm := (Storage.foldl_flushRow macs h.rows).2.1 m (.inr (h.clean m hm))
  rows := (Storage.foldl_flushRow macs h.rows).1
  keys := keys_foldl_flushRow macs h.keys

/-- **A flush keeps the invariant**, and after one that succeeds every MAC is in step
with its row. -/
theorem Kept.flush {ops : List StoreOp} {s : SqliteStore} (h : Kept F ops s)
    {macs : List MacAddress} (hdirty : macs.toFinset = s.dirty)
    (sqlError : MacAddress → Option String) :
    Kept F ops (s.flush F macs sqlError).2 ∧
      ∀ n, (s.flush F macs sqlError).1 = .ok n →
        ∀ m, Synced F (s.flush F macs sqlError).2.cache (s.flush F macs sqlError).2.table m := by
  rcases flushLoop_cases (F := F) s.cache sqlError macs 0 s.table with
    ⟨n, hn⟩ | ⟨e, _, _, done, _, _, _, _, he⟩
  · simp only [SqliteStore.flush, hn]
    have hsync : ∀ m, Synced F s.cache (macs.foldl (flushRow F s.cache) s.table) m := by
      intro m
      refine (Storage.foldl_flushRow macs h.rows).2.1 m ?_
      by_cases hm : m ∈ macs
      · exact .inl hm
      · exact .inr (h.clean m fun hd => hm (List.mem_toFinset.mp (hdirty ▸ hd)))
    exact ⟨{ h.foldl_flushRow macs with clean := fun m _ => hsync m }, fun _ _ => hsync⟩
  · simp only [SqliteStore.flush, he]
    exact ⟨h.foldl_flushRow done, nofun⟩

theorem kept_run {ops : List StoreOp} {s : SqliteStore}
    {outs : List (Option (Except StorageError Nat))}
    (h : (history F).run .empty ops = some (s, outs)) (hfirst : FirstSeenAgree ops) :
    Kept F ops s := by
  refine (history F).run_induction (P := fun ops _ s => FirstSeenAgree ops → Kept F ops s)
    (fun _ => kept_empty) ?_ h hfirst
  intro ops outs s op s' o _ ih hs hfirst
  have hk := ih hfirst.of_append
  cases op with
  | upsert d =>
    cases hs
    exact hk.upsert hfirst
  | flush macs sqlError =>
    simp only [history] at hs
    split at hs
    · next hm =>
      cases hs
      have hf := (hk.flush hm.2 sqlError).1
      exact { hf with cache := fun m => by rw [lastUpserted_flush]; exact hf.cache m }
    · cases hs

/-! ### Opening the file -/

theorem loadAll_eq_ok (clock : DeviceRow → Timestamp × Timestamp) {rows : List DeviceRow}
    (h : ∀ row ∈ rows, ∃ d, rowToDevice F (clock row) row = .ok d) :
    ∃ ds : List Device, (∀ cache, loadAll F clock rows cache = .ok (ds.foldl MemoryStore.upsert cache)) ∧
      ∀ d, d ∈ ds ↔ ∃ row ∈ rows, rowToDevice F (clock row) row = .ok d := by
  induction rows with
  | nil => exact ⟨[], fun _ => rfl, by simp⟩
  | cons row rows ih =>
    obtain ⟨d, hd⟩ := h row List.mem_cons_self
    obtain ⟨ds, hds, hmem⟩ := ih fun row' hr => h row' (List.mem_cons_of_mem _ hr)
    refine ⟨d :: ds, fun cache => ?_, fun d' => ?_⟩
    · rw [loadAll, hd]
      exact hds (cache.upsert d)
    · rw [List.mem_cons, hmem]
      constructor
      · rintro (rfl | ⟨row', hr, hd'⟩)
        · exact ⟨row, List.mem_cons_self, hd⟩
        · exact ⟨row', List.mem_cons_of_mem _ hr, hd'⟩
      · rintro ⟨row', hr, hd'⟩
        rcases List.mem_cons.mp hr with rfl | hr
        · rw [hd] at hd'
          cases hd'
          exact .inl rfl
        · exact .inr ⟨row', hr, hd'⟩

theorem get_foldl_upsert {ds : List Device} {m : MacAddress} {r : Option Device}
    (hmem : ∀ d, r = some d → d ∈ ds ∧ d.mac = m) (huniq : ∀ d ∈ ds, d.mac = m → r = some d) :
    (ds.foldl MemoryStore.upsert .new).get m = r := by
  have hsome : ∀ (ds : List Device) (cache : MemoryStore), (∀ d ∈ ds, d.mac = m → r = some d) →
      (ds.foldl MemoryStore.upsert cache).get m =
        if ∃ d ∈ ds, d.mac = m then r else cache.get m := by
    intro ds
    induction ds with
    | nil => intro cache _; simp
    | cons d ds ih =>
      intro cache hu
      rw [List.foldl_cons, ih _ fun d' hd' => hu d' (List.mem_cons_of_mem _ hd')]
      by_cases hex : ∃ d' ∈ ds, d'.mac = m
      · obtain ⟨d', hd', hm'⟩ := hex
        rw [if_pos ⟨d', hd', hm'⟩, if_pos ⟨d', List.mem_cons_of_mem _ hd', hm'⟩]
      · rw [if_neg hex, MemoryStore.get_upsert]
        by_cases hm : m = d.mac
        · rw [if_pos hm, if_pos ⟨d, List.mem_cons_self, hm.symm⟩, hu d List.mem_cons_self hm.symm]
        · rw [if_neg hm, if_neg]
          rintro ⟨d', hd', hm'⟩
          rcases List.mem_cons.mp hd' with rfl | hd'
          · exact hm hm'.symm
          · exact hex ⟨d', hd', hm'⟩
  rw [hsome ds .new huniq]
  split
  · rfl
  · next hno =>
    cases r with
    | none => rfl
    | some d => exact absurd ⟨d, hmem d rfl⟩ hno

/-- The counters of a record fit into SQLite's integers. -/
def CountersFit (d : Device) : Prop :=
  d.packetCount ≤ i64Max ∧ d.bytesSent ≤ i64Max ∧ d.bytesReceived ≤ i64Max ∧
    ∀ p n, d.protocolStats.lookup p = some n → n ≤ i64Max

theorem CountersFit.stats_le {d : Device} (h : CountersFit d) {p : Protocol} {n : Nat}
    (hp : d.protocolStats.lookup p = some n) : n ≤ u64Max :=
  (h.2.2.2 p n hp).trans (by decide)

/-- **A file in step with its records opens as these records.** -/
theorem open_of_synced (hF : F.Lawful) {ops : List StoreOp} {s : SqliteStore} (h : Kept F ops s)
    (hsync : ∀ m, Synced F s.cache s.table m) (hfit : ∀ d, .upsert d ∈ ops → CountersFit d)
    (clock : DeviceRow → Timestamp × Timestamp) :
    ∃ s', SqliteStore.open F s.table clock = .ok s' ∧
      ∀ m, s'.cache.get m = (lastUpserted ops m).map persisted := by
  have hrow : ∀ row ∈ s.table.entries.map Sigma.snd, ∃ m d, lastUpserted ops m = some d ∧
      row = rowOf F d := by
    intro row hr
    obtain ⟨⟨k, row'⟩, he, rfl⟩ := List.mem_map.mp hr
    have hl : s.table.lookup k = some row' := AList.mem_lookup_iff.mpr he
    obtain ⟨m, rfl⟩ := h.keys k row' hl
    rw [hsync m] at hl
    obtain ⟨d, hd, hrow⟩ := Option.map_eq_some_iff.mp hl
    exact ⟨m, d, h.cache m ▸ hd, hrow.symm⟩
  have hback : ∀ m d, lastUpserted ops m = some d → ∀ now,
      rowToDevice F now (rowOf F d) = .ok (persisted d) := fun m d hd now =>
    rowToDevice_rowOf hF (fun _ _ hp => (hfit d (mem_of_lastUpserted hd).1).stats_le hp) now
  obtain ⟨ds, hload, hmem⟩ := loadAll_eq_ok (F := F) clock fun row hr => by
    obtain ⟨m, d, hd, rfl⟩ := hrow row hr
    exact ⟨persisted d, hback m d hd _⟩
  refine ⟨{ cache := ds.foldl MemoryStore.upsert .new, dirty := ∅, table := s.table }, ?_,
    fun m => ?_⟩
  · rw [SqliteStore.open, hload]
    rfl
  refine get_foldl_upsert ?_ ?_
  · intro d' hd'
    obtain ⟨d, hd, rfl⟩ := Option.map_eq_some_iff.mp hd'
    have hl : s.table.lookup m.toString = some (rowOf F d) := by
      rw [hsync m, h.cache m, hd, Option.map_some]
    exact ⟨(hmem _).mpr ⟨rowOf F d, List.mem_map.mpr ⟨_, AList.mem_lookup_iff.mp hl, rfl⟩,
      hback m d hd _⟩, (mem_of_lastUpserted hd).2⟩
  · intro d' hd' hm
    obtain ⟨row, hr, hd'⟩ := (hmem d').mp hd'
    obtain ⟨m', d, hd, rfl⟩ := hrow row hr
    rw [hback m' d hd] at hd'
    cases hd'
    have hmm : m' = m := (mem_of_lastUpserted hd).2.symm.trans hm
    rw [← hmm, hd, Option.map_some]

/-- **Restart.**  After a history that ends with a flush that succeeds, opening the
file gives every MAC the record last upserted for it, with times in milliseconds. -/
theorem open_after_flush (hF : F.Lawful) {ops : List StoreOp} {s : SqliteStore}
    {outs : List (Option (Except StorageError Nat))} {macs : List MacAddress}
    {sqlError : MacAddress → Option String} {n : Nat}
    (h : (history F).run .empty (ops ++ [.flush macs sqlError]) = some (s, outs))
    (hok : outs.getLast? = some (some (.ok n)))
    (hfit : ∀ d, .upsert d ∈ ops → CountersFit d) (hfirst : FirstSeenAgree ops)
    (clock : DeviceRow → Timestamp × Timestamp) :
    ∃ s', SqliteStore.open F s.table clock = .ok s' ∧
      ∀ m, s'.cache.get m = (lastUpserted ops m).map persisted := by
  obtain ⟨s₁, outs₁, o, h₁, hs, rfl⟩ := (history F).run_snoc.mp h
  simp only [history] at hs
  split at hs
  · next hm =>
    obtain ⟨hk, hsync⟩ := (kept_run h₁ hfirst).flush hm.2 sqlError
    cases hs
    rw [List.getLast?_concat, Option.some.injEq, Option.some.injEq] at hok
    exact open_of_synced hF hk (hsync n hok) hfit clock
  · cases hs

end Histories

/-! ### Lawful formats -/

theorem countable_string : Countable String := by
  have hchar : Countable Char := Function.Injective.countable fun _ _ => Char.toNat_inj.mp
  exact Function.Injective.countable fun _ _ => String.toList_inj.mp

/-- There are texts for all values of a type that are the given ones where they are
given. -/
theorem exists_text (α : Type) [Countable α] (known : List (α × String))
    (hinj : ∀ x ∈ known, ∀ y ∈ known, x.2 = y.2 ↔ x.1 = y.1)
    (hx : ∀ x ∈ known, x.2.toList.head? ≠ some 'x') :
    ∃ text : α → String, Function.Injective text ∧ ∀ x ∈ known, text x.1 = x.2 := by
  classical
  obtain ⟨code, hcode⟩ := exists_injective_nat α
  let other (a : α) : String := String.ofList ('x' :: List.replicate (code a) '1')
  have hother : Function.Injective other := by
    intro a b h
    have hlist := congrArg List.length (String.ofList_injective h)
    exact hcode (by simpa using hlist)
  have hne : ∀ {a : α} (h : ∃ t, (a, t) ∈ known) (b : α), h.choose ≠ other b := by
    intro a h b he
    refine hx _ h.choose_spec ?_
    rw [he]
    simp [other]
  refine ⟨fun a => if h : ∃ t, (a, t) ∈ known then h.choose else other a, ?_, ?_⟩
  · intro a b h
    by_cases ha : ∃ t, (a, t) ∈ known
    · by_cases hb : ∃ t, (b, t) ∈ known
      · simp only [dif_pos ha, dif_pos hb] at h
        exact (hinj _ ha.choose_spec _ hb.choose_spec).mp h
      · simp only [dif_pos ha, dif_neg hb] at h
        exact absurd h (hne ha _)
    · by_cases hb : ∃ t, (b, t) ∈ known
      · simp only [dif_neg ha, dif_pos hb] at h
        exact absurd h.symm (hne hb _)
      · simp only [dif_neg ha, dif_neg hb] at h
        exact hother h
  · rintro ⟨a, t⟩ hmem
    have h : ∃ t, (a, t) ∈ known := ⟨t, hmem⟩
    simp only [dif_pos h]
    exact (hinj _ h.choose_spec _ hmem).mpr rfl

noncomputable def formatsOf (ipText : IpAddr → String) (timeText : Timestamp → String)
    (strings : List String → String) (pairs : List (String × Nat) → String) : TextFormats where
  parseMac s :=
    match Function.partialInv MacAddress.toString s with
    | some m => .ok m
    | none => .error "invalid MAC address"
  ipText := ipText
  parseIp := Function.partialInv ipText
  timeText t := timeText t.truncMillis
  parseTime := Function.partialInv timeText
  jsonStrings := strings
  parseJsonStrings := Function.partialInv strings
  jsonPairs := pairs
  parseJsonPairs := Function.partialInv pairs

theorem lawful_formatsOf {ipText : IpAddr → String} {timeText : Timestamp → String}
    {strings : List String → String} {pairs : List (String × Nat) → String}
    (hip : Function.Injective ipText) (htime : Function.Injective timeText)
    (hstrings : Function.Injective strings) (hpairs : Function.Injective pairs) :
    (formatsOf ipText timeText strings pairs).Lawful where
  mac m := by
    simp only [formatsOf, Function.partialInv_left MacAddress.toString_injective]
  ip := Function.partialInv_left hip
  time _ := Function.partialInv_left htime _
  strings := Function.partialInv_left hstrings
  pairs l _ := Function.partialInv_left hpairs l

/-- The texts of the rows of a laptop and of a printer, as the libraries give them. -/
structure LaptopTexts (F : TextFormats) : Prop where
  ip : F.ipText (.ofOctets 10 0 0 2) = "10.0.0.2"
  first : F.timeText ⟨0⟩ = "1970-01-01T00:00:00.000Z"
  last : F.timeText ⟨60000000007⟩ = "1970-01-01T00:01:00.000Z"
  ips : F.jsonStrings ["10.0.0.2"] = "[\"10.0.0.2\"]"
  protocols : F.jsonStrings ["TCP"] = "[\"TCP\"]"
  stats : F.jsonPairs [("TCP", 3)] = "[[\"TCP\",3]]"
  joinedStats : F.jsonPairs [("TCP", 1)] = "[[\"TCP\",1]]"
  printerIps : F.jsonStrings [] = "[]"
  printerProtocols : F.jsonStrings ["UDP"] = "[\"UDP\"]"
  printerStats : F.jsonPairs [("UDP", 1)] = "[[\"UDP\",1]]"

theorem exists_lawful : ∃ F : TextFormats, F.Lawful ∧ LaptopTexts F := by
  have hstring := countable_string
  have hip : Countable IpAddr := IpAddr.key_injective.countable
  have htime : Countable Timestamp :=
    Function.Injective.countable (f := Timestamp.nanos) fun a b h => by cases a; cases b; cases h; rfl
  obtain ⟨ipText, hip, hip'⟩ := exists_text IpAddr [(.ofOctets 10 0 0 2, "10.0.0.2")]
    (by decide) (by decide)
  obtain ⟨timeText, ht, ht'⟩ := exists_text Timestamp
    [(⟨0⟩, "1970-01-01T00:00:00.000Z"), (⟨60000000000⟩, "1970-01-01T00:01:00.000Z")]
    (by decide) (by decide)
  obtain ⟨strings, hs, hs'⟩ := exists_text (List String)
    [(["10.0.0.2"], "[\"10.0.0.2\"]"), (["TCP"], "[\"TCP\"]"), ([], "[]"),
      (["UDP"], "[\"UDP\"]")] (by decide) (by decide)
  obtain ⟨pairs, hp, hp'⟩ := exists_text (List (String × Nat))
    [([("TCP", 3)], "[[\"TCP\",3]]"), ([("TCP", 1)], "[[\"TCP\",1]]"),
      ([("UDP", 1)], "[[\"UDP\",1]]")] (by decide) (by decide)
  exact ⟨formatsOf ipText timeText strings pairs, lawful_formatsOf hip ht hs hp,
    { ip := hip' (_, _) List.mem_cons_self
      first := ht' (⟨0⟩, _) (by simp)
      last := ht' (⟨60000000000⟩, _) (by simp)
      ips := hs' (["10.0.0.2"], _) (by simp)
      protocols := hs' (["TCP"], _) (by simp)
      stats := hp' ([("TCP", 3)], _) (by simp)
      joinedStats := hp' ([("TCP", 1)], _) (by simp)
      printerIps := hs' ([], _) (by simp)
      printerProtocols := hs' (["UDP"], _) (by simp)
      printerStats := hp' ([("UDP", 1)], _) (by simp) }⟩

def laptop : Device where
  mac := .ofBytes 0x00 0x11 0x22 0x33 0x44 0x55
  ips := {.ofOctets 10 0 0 2}
  hostname := some "laptop"
  firstSeen := ⟨0⟩
  lastSeen := ⟨60000000007⟩
  packetCount := 3
  bytesSent := 180
  bytesReceived := 0
  protocols := {.tcp}
  vendor := none
  dhcpVendorClass := none
  protocolStats := (∅ : ProtocolStats).insert .tcp 3

def laptopJoined : Device :=
  { laptop with
    lastSeen := ⟨0⟩
    packetCount := 1
    bytesSent := 60
    protocolStats := (∅ : ProtocolStats).insert .tcp 1 }

def printer : Device where
  mac := .ofBytes 0x00 0x11 0x22 0x33 0x44 0x66
  ips := ∅
  hostname := none
  firstSeen := ⟨0⟩
  lastSeen := ⟨0⟩
  packetCount := 1
  bytesSent := 90
  bytesReceived := 0
  protocols := {.udp}
  vendor := none
  dhcpVendorClass := none
  protocolStats := (∅ : ProtocolStats).insert .udp 1

theorem countersFit_of_insert {d : Device} {p : Protocol} {n : Nat}
    (hcounters : d.packetCount ≤ i64Max ∧ d.bytesSent ≤ i64Max ∧ d.bytesReceived ≤ i64Max)
    (hstats : d.protocolStats = (∅ : ProtocolStats).insert p n) (hn : n ≤ i64Max) :
    CountersFit d := by
  refine ⟨hcounters.1, hcounters.2.1, hcounters.2.2, fun q k hq => ?_⟩
  rw [hstats] at hq
  by_cases hqp : q = p
  · rw [hqp, Finmap.lookup_insert] at hq
    cases hq
    exact hn
  · rw [Finmap.lookup_insert_of_ne _ hqp, Finmap.lookup_empty] at hq
    cases hq

/-- The first flush writes the printer's row only, and the laptop goes on sending. -/
def untilFlushed : List StoreOp :=
  [.upsert laptopJoined, .upsert printer,
    .flush [printer.mac, laptop.mac] fun m =>
      if m = laptop.mac then some "database is locked" else none,
    .upsert laptop]

/-- The laptop and the printer come back after a restart, the laptop with its last packet at the
full minute. -/
theorem open_after_flush_laptop : ∃ F : TextFormats, F.Lawful ∧ LaptopTexts F ∧ ∃ s outs s',
    (history F).run .empty (untilFlushed ++ [.flush [laptop.mac, printer.mac] fun _ => none]) =
        some (s, outs) ∧
      SqliteStore.open F s.table (fun _ => (⟨0⟩, ⟨0⟩)) = .ok s' ∧
      s'.cache.get laptop.mac = some { laptop with lastSeen := ⟨60000000000⟩ } ∧
      s'.cache.get printer.mac = some printer := by
  obtain ⟨F, hF, htexts⟩ := exists_lawful
  have hrun : ∃ s o₁ o₂ o₃ o₄, (history F).run .empty
      (untilFlushed ++ [.flush [laptop.mac, printer.mac] fun _ => none]) =
        some (s, [o₁, o₂, o₃, o₄, some (.ok 2)]) := ⟨_, _, _, _, _, rfl⟩
  obtain ⟨s, o₁, o₂, o₃, o₄, hs⟩ := hrun
  have hupserts : ∀ d, .upsert d ∈ untilFlushed → d = laptopJoined ∨ d = printer ∨ d = laptop := by
    intro d hd
    simpa [untilFlushed] using hd
  have hfit : ∀ d, .upsert d ∈ untilFlushed → CountersFit d := by
    intro d hd
    rcases hupserts d hd with rfl | rfl | rfl
    · exact countersFit_of_insert (by decide) rfl (by decide)
    · exact countersFit_of_insert (by decide) rfl (by decide)
    · exact countersFit_of_insert (by decide) rfl (by decide)
  have hfirst : FirstSeenAgree untilFlushed := by
    have hzero : ∀ d, .upsert d ∈ untilFlushed → d.firstSeen = ⟨0⟩ := by
      intro d hd
      rcases hupserts d hd with rfl | rfl | rfl <;> rfl
    exact fun d d' hd hd' _ => (hzero d hd).trans (hzero d' hd').symm
  obtain ⟨s', hopen, hget⟩ := open_after_flush hF hs rfl hfit hfirst fun _ => (⟨0⟩, ⟨0⟩)
  refine ⟨F, hF, htexts, s, _, s', hs, hopen, ?_, ?_⟩
  · rw [hget]
    rfl
  · rw [hget]
    rfl

end EdgeShield.Storage
