import EdgeShield.Discovery.Growth
import EdgeShield.Storage.Flush

/-!
# What a file shows

A row of the table is written from a record, but not always from one record: its first
time stays when the rest is overwritten.  `Shows` says what the row of a MAC shows when
the file is opened.  Times are kept in milliseconds, and so a row that keeps its first
time shows the same record as one that is written anew (`shows_flushRow`).

`Filed` is what the rows and the cache have in common while the daemon runs: every row
shows a record that the cached record has grown from.  Such a file can be opened, and
what the new cache holds is what the file shows (`open_of_readable`).
-/

namespace EdgeShield.Storage

open EdgeShield.Common EdgeShield.Discovery
open EdgeShield.Common (Protocol)

/-- The row of `m` shows the record `d`. -/
def Shows (F : TextFormats) (table : Table) (m : MacAddress) (d : Device) : Prop :=
  ∃ d₀, table.lookup m.toString = some (rowOf F d₀) ∧ d₀.mac = m ∧ WithinU64 d₀ ∧ persisted d₀ = d

def Readable (F : TextFormats) (table : Table) : Prop :=
  ∀ k row, table.lookup k = some row → ∃ (m : MacAddress) (d : Device), k = m.toString ∧
    Shows F table m d

/-- The cache and the rows while the daemon runs. -/
structure Filed (F : TextFormats) (cache : MemoryStore) (table : Table) : Prop where
  fits : ∀ m d, cache.get m = some d → WithinU64 d
  readable : Readable F table
  behind : ∀ m d, Shows F table m d → ∃ d', cache.get m = some d' ∧ Grows d (persisted d')

/-! ### Milliseconds -/

theorem Timestamp.truncMillis_truncMillis (t : Timestamp) :
    t.truncMillis.truncMillis = t.truncMillis := by
  simp only [Timestamp.truncMillis, Timestamp.mk.injEq]
  omega

@[simp] theorem persisted_persisted (d : Device) : persisted (persisted d) = persisted d := by
  simp only [persisted, Timestamp.truncMillis_truncMillis]

@[simp] theorem mac_persisted (d : Device) : (persisted d).mac = d.mac := rfl

theorem withinU64_persisted {d : Device} (h : WithinU64 d) : WithinU64 (persisted d) :=
  ⟨⟨h.counters.packets, h.counters.sent, h.counters.received⟩, h.stats⟩

theorem grows_persisted {d d' : Device} (h : Grows d d') :
    Grows (persisted d) (persisted d') :=
  { h with firstSeen := congrArg Timestamp.truncMillis h.firstSeen }

/-! ### Rows -/

variable {F : TextFormats}

theorem Shows.mac {table : Table} {m : MacAddress} {d : Device} (h : Shows F table m d) :
    d.mac = m := by
  obtain ⟨d₀, -, hm, -, rfl⟩ := h
  exact hm

theorem Shows.withinU64 {table : Table} {m : MacAddress} {d : Device} (h : Shows F table m d) :
    WithinU64 d := by
  obtain ⟨d₀, -, -, hfit, rfl⟩ := h
  exact withinU64_persisted hfit

theorem Shows.persisted {table : Table} {m : MacAddress} {d : Device} (h : Shows F table m d) :
    persisted d = d := by
  obtain ⟨d₀, -, -, -, rfl⟩ := h
  exact persisted_persisted d₀

theorem Shows.rowToDevice (hF : F.Lawful) {table : Table} {m : MacAddress} {d : Device}
    (h : Shows F table m d) : ∃ row, table.lookup m.toString = some row ∧
      ∀ now, rowToDevice F now row = .ok d := by
  obtain ⟨d₀, hrow, -, hfit, rfl⟩ := h
  exact ⟨_, hrow, fun now => rowToDevice_rowOf hF hfit.stats now⟩

theorem Shows.unique (hF : F.Lawful) {table : Table} {m : MacAddress} {d d' : Device}
    (h : Shows F table m d) (h' : Shows F table m d') : d = d' := by
  obtain ⟨row, hrow, hd⟩ := h.rowToDevice hF
  obtain ⟨row', hrow', hd'⟩ := h'.rowToDevice hF
  rw [hrow, Option.some.injEq] at hrow'
  subst hrow'
  have heq := (hd (⟨0⟩, ⟨0⟩)).symm.trans (hd' (⟨0⟩, ⟨0⟩))
  exact Except.ok.inj heq

theorem not_shows_empty (m : MacAddress) (d : Device) : ¬Shows F ∅ m d := by
  rintro ⟨d₀, hrow, -⟩
  cases hrow

theorem filed_empty : Filed F .new ∅ where
  fits _ _ h := by cases h
  readable _ _ h := by cases h
  behind m d h := absurd h (not_shows_empty m d)

/-- **A row written from a record shows it**, whatever first time it keeps. -/
theorem shows_flushRow {cache : MemoryStore} {table : Table} (h : Filed F cache table)
    {m : MacAddress} {d : Device} (hd : cache.get m = some d) :
    Shows F (flushRow F cache table m) m (persisted d) := by
  have hlookup := lookup_flushRow (F := F) hd table
  cases hrow : table.lookup m.toString with
  | none =>
    rw [hrow] at hlookup
    exact ⟨d, hlookup, MemoryStore.mac_of_get hd, h.fits m d hd, rfl⟩
  | some row =>
    obtain ⟨m', d', hm, hshow⟩ := h.readable _ row hrow
    cases MacAddress.toString_injective hm
    obtain ⟨d'', hd'', hgrow⟩ := h.behind m d' hshow
    rw [hd] at hd''
    cases hd''
    obtain ⟨d₀, hrow₀, -, -, rfl⟩ := hshow
    rw [hrow₀] at hlookup
    -- the row is that of the record with the old first time
    have hmac := MemoryStore.mac_of_get hd
    refine ⟨{ d with firstSeen := d₀.firstSeen }, hlookup, hmac, ?_, ?_⟩
    · exact ⟨⟨(h.fits m d hd).counters.packets, (h.fits m d hd).counters.sent,
        (h.fits m d hd).counters.received⟩, (h.fits m d hd).stats⟩
    · have hfirst : d.firstSeen.truncMillis = d₀.firstSeen.truncMillis := hgrow.firstSeen
      simp only [persisted, hfirst]

theorem shows_flushRow_of_ne {cache : MemoryStore} {table : Table} {m m' : MacAddress}
    (hm : m' ≠ m) {d : Device} :
    Shows F (flushRow F cache table m) m' d ↔ Shows F table m' d := by
  rw [Shows, Shows, lookup_flushRow_of_ne hm]

theorem flushRow_of_get_eq_none {cache : MemoryStore} {table : Table} {m : MacAddress}
    (h : cache.get m = none) : flushRow F cache table m = table := by
  rw [flushRow, h]

theorem shows_flushRow_cases (hF : F.Lawful) {cache : MemoryStore} {table : Table}
    (h : Filed F cache table) {m m' : MacAddress} {d : Device}
    (hs : Shows F (flushRow F cache table m) m' d) :
    Shows F table m' d ∨ ∃ d', cache.get m' = some d' ∧ d = persisted d' := by
  by_cases hm : m' = m
  · subst hm
    cases hd : cache.get m' with
    | none =>
      rw [flushRow_of_get_eq_none hd] at hs
      exact .inl hs
    | some d' => exact .inr ⟨d', rfl, hs.unique hF (shows_flushRow h hd)⟩
  · exact .inl ((shows_flushRow_of_ne hm).mp hs)

theorem Filed.flushRow (hF : F.Lawful) {cache : MemoryStore} {table : Table}
    (h : Filed F cache table) (m : MacAddress) : Filed F cache (flushRow F cache table m) where
  fits := h.fits
  readable k row hrow := by
    by_cases hk : k = m.toString
    · subst hk
      cases hd : cache.get m with
      | some d => exact ⟨m, _, rfl, shows_flushRow h hd⟩
      | none =>
        rw [flushRow_of_get_eq_none hd] at hrow ⊢
        exact h.readable _ row hrow
    · have hsame : (Storage.flushRow F cache table m).lookup k = table.lookup k := by
        unfold Storage.flushRow
        split
        · rfl
        · next d hd =>
          rw [lookup_insertRow, if_neg]
          rw [show (rowOf F d).mac = m.toString from
            congrArg MacAddress.toString (MemoryStore.mac_of_get hd)]
          exact hk
      rw [hsame] at hrow
      obtain ⟨m', d, rfl, hs⟩ := h.readable k row hrow
      have hm : m' ≠ m := fun he => hk (he ▸ rfl)
      exact ⟨m', d, rfl, (shows_flushRow_of_ne hm).mpr hs⟩
  behind m' d hs := by
    rcases shows_flushRow_cases hF h hs with hs | ⟨d', hd', rfl⟩
    · exact h.behind m' d hs
    · exact ⟨d', hd', .refl _⟩

theorem Filed.put {cache : MemoryStore} {table : Table} (h : Filed F cache table) {d : Device}
    (hfit : WithinU64 d) (hgrow : ∀ d', cache.get d.mac = some d' → Grows d' d) :
    Filed F (cache.upsert d) table where
  fits m d' hd' := by
    rw [MemoryStore.get_upsert] at hd'
    split at hd'
    · cases hd'
      exact hfit
    · exact h.fits m d' hd'
  readable := h.readable
  behind m d' hs := by
    obtain ⟨d'', hd'', hle⟩ := h.behind m d' hs
    rw [MemoryStore.get_upsert]
    by_cases hm : m = d.mac
    · subst hm
      exact ⟨d, if_pos rfl, hle.trans (grows_persisted (hgrow d'' hd''))⟩
    · exact ⟨d'', by rw [if_neg hm, hd''], hle⟩

theorem filed_of_shows {cache : MemoryStore} {table : Table} (h : Readable F table)
    (hcache : ∀ m d, cache.get m = some d ↔ Shows F table m d) : Filed F cache table where
  fits m d hd := ((hcache m d).mp hd).withinU64
  readable := h
  behind m d hs := ⟨d, (hcache m d).mpr hs, by rw [hs.persisted]; exact .refl d⟩

/-! ### Opening the file -/

/-- **A readable file can be opened, and the cache holds what it shows.** -/
theorem open_of_readable (hF : F.Lawful) {table : Table} (h : Readable F table)
    (clock : DeviceRow → Timestamp × Timestamp) :
    ∃ cache, SqliteStore.open F table clock = .ok { cache := cache, dirty := ∅, table := table } ∧
      ∀ m d, cache.get m = some d ↔ Shows F table m d := by
  have hrow : ∀ row ∈ table.entries.map Sigma.snd, ∃ (m : MacAddress) (d : Device),
      Shows F table m d ∧ ∀ now, rowToDevice F now row = .ok d := by
    intro row hr
    obtain ⟨⟨k, row'⟩, he, rfl⟩ := List.mem_map.mp hr
    have hl : table.lookup k = some row' := AList.mem_lookup_iff.mpr he
    obtain ⟨m, d, rfl, hs⟩ := h k row' hl
    obtain ⟨row, hrow, hd⟩ := hs.rowToDevice hF
    rw [hl, Option.some.injEq] at hrow
    subst hrow
    exact ⟨m, d, hs, hd⟩
  obtain ⟨ds, hload, hmem⟩ := loadAll_eq_ok (F := F) clock fun row hr => by
    obtain ⟨-, d, -, hd⟩ := hrow row hr
    exact ⟨d, hd _⟩
  have hds : ∀ d, d ∈ ds → Shows F table d.mac d := by
    intro d hd
    obtain ⟨row, hr, hd⟩ := (hmem d).mp hd
    obtain ⟨m, d', hs, hd'⟩ := hrow row hr
    rw [hd' _] at hd
    cases hd
    exact hs.mac ▸ hs
  refine ⟨ds.foldl MemoryStore.upsert .new, ?_, fun m d => ?_⟩
  · rw [SqliteStore.open, hload]
    rfl
  obtain ⟨r, hr⟩ : ∃ r : Option Device, ∀ d, r = some d ↔ Shows F table m d := by
    by_cases hex : ∃ d, Shows F table m d
    · obtain ⟨d, hs⟩ := hex
      refine ⟨some d, fun d' => ⟨?_, fun hs' => congrArg some (hs.unique hF hs')⟩⟩
      rintro ⟨⟩
      exact hs
    · exact ⟨none, fun d' => ⟨(fun hd => by cases hd), fun hs => absurd ⟨d', hs⟩ hex⟩⟩
  have hget : (ds.foldl MemoryStore.upsert .new).get m = r := by
    refine get_foldl_upsert (fun d hd => ?_) fun d hd hm => (hr d).mpr (hm ▸ hds d hd)
    have hs := (hr d).mp hd
    obtain ⟨row, hrow, hd'⟩ := hs.rowToDevice hF
    exact ⟨(hmem d).mpr ⟨row, List.mem_map.mpr ⟨_, AList.mem_lookup_iff.mp hrow, rfl⟩, hd' _⟩,
      hs.mac⟩
  rw [hget]
  exact hr d

end EdgeShield.Storage
