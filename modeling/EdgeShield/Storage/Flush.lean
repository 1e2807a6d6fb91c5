import EdgeShield.Storage.Restart

/-!
# Counters that block a flush

The counters of a record go up to `u64::MAX`, and an SQLite integer holds half of that: a
record with a larger counter cannot be bound, and `flush` returns at the first one.  What
stands behind it in the order of the dirty set is not written.

`flush_writes_iff` says that a flush succeeds and writes every dirty record exactly when
the counters of all of them are SQLite integers, for any cache, table and order.  The
database itself never fails here.
-/

namespace EdgeShield.Storage

open EdgeShield.Common

variable {F : TextFormats}

/-- The row that a record is written to: all its columns, and the first time of the row that
was there before. -/
def writtenRow (F : TextFormats) (old : Option DeviceRow) (d : Device) : DeviceRow :=
  { rowOf F d with firstSeen := (old.map DeviceRow.firstSeen).getD (rowOf F d).firstSeen }

def Bindable (d : Device) : Prop :=
  d.packetCount ≤ i64Max ∧ d.bytesSent ≤ i64Max ∧ d.bytesReceived ≤ i64Max

instance (d : Device) : Decidable (Bindable d) := by unfold Bindable; infer_instance

def noSqlError : MacAddress → Option String := fun _ => none

/-- A flush of the dirty set in this order succeeds, writes every dirty record and clears
its mark. -/
def FlushesAll (F : TextFormats) (s : SqliteStore) (macs : List MacAddress) : Prop :=
  ∃ written s', s.flush F macs noSqlError = (.ok written, s') ∧ s'.dirty = ∅ ∧
    ∀ m ∈ s.dirty, ∀ d, s.cache.get m = some d →
      s'.table.lookup m.toString = some (writtenRow F (s.table.lookup m.toString) d)

theorem executeError_of_not_bindable {d : Device} (h : ¬Bindable d) :
    executeError noSqlError d = some "out of range integral type conversion attempted" :=
  if_neg h

theorem executeError_eq_none {d : Device} : executeError noSqlError d = none ↔ Bindable d := by
  refine ⟨fun h => ?_, fun h => if_pos h⟩
  by_contra hbind
  rw [executeError_of_not_bindable hbind] at h
  cases h

/-! ### The rows after the loop -/

theorem lookup_foldl_flushRow_of_notMem {cache : MemoryStore} {macs : List MacAddress}
    {m : MacAddress} (h : m ∉ macs) : ∀ table : Table,
      (macs.foldl (flushRow F cache) table).lookup m.toString = table.lookup m.toString := by
  induction macs with
  | nil =>
    intro table
    rfl
  | cons m' macs ih =>
    intro table
    rw [List.mem_cons, not_or] at h
    rw [List.foldl_cons, ih h.2, lookup_flushRow_of_ne h.1]

theorem lookup_flushRow {cache : MemoryStore} {m : MacAddress} {d : Device}
    (hd : cache.get m = some d) (table : Table) :
    (flushRow F cache table m).lookup m.toString =
      some (writtenRow F (table.lookup m.toString) d) := by
  have hmac : (rowOf F d).mac = m.toString :=
    congrArg MacAddress.toString (MemoryStore.mac_of_get hd)
  rw [flushRow, hd]
  show (insertRow table (rowOf F d)).lookup m.toString = _
  rw [lookup_insertRow, if_pos hmac.symm, hmac]
  exact congrArg some (by rw [writtenRow, hmac])

/-- Each row is written once, and no later row of the loop touches it. -/
theorem lookup_foldl_flushRow {cache : MemoryStore} {macs : List MacAddress} (hnd : macs.Nodup)
    {m : MacAddress} {d : Device} (hm : m ∈ macs) (hd : cache.get m = some d) :
    ∀ table : Table, (macs.foldl (flushRow F cache) table).lookup m.toString =
      some (writtenRow F (table.lookup m.toString) d) := by
  induction macs with
  | nil => exact absurd hm List.not_mem_nil
  | cons m' macs ih =>
    intro table
    obtain ⟨hnot, hnd'⟩ := List.nodup_cons.mp hnd
    rw [List.foldl_cons]
    by_cases hmm : m = m'
    · subst hmm
      rw [lookup_foldl_flushRow_of_notMem hnot, lookup_flushRow hd]
    · rw [ih hnd' ((List.mem_cons.mp hm).resolve_left hmm), lookup_flushRow_of_ne hmm]

/-! ### When the loop gets through -/

theorem bindable_of_flushLoop {cache : MemoryStore} {macs : List MacAddress} :
    ∀ {written n : Nat} {table table' : Table},
      flushLoop F cache noSqlError macs written table = (.ok n, table') →
      ∀ m ∈ macs, ∀ d, cache.get m = some d → Bindable d := by
  induction macs with
  | nil =>
    intro written n table table' _ m hm
    exact absurd hm List.not_mem_nil
  | cons m' macs ih =>
    intro written n table table' h m hm d hd
    rw [flushLoop] at h
    cases hget : cache.get m' with
    | none =>
      simp only [hget] at h
      rcases List.mem_cons.mp hm with rfl | hm
      · rw [hget] at hd
        cases hd
      · exact ih h m hm d hd
    | some d' =>
      simp only [hget] at h
      cases he : executeError noSqlError d' with
      | some e =>
        simp only [he] at h
        cases h
      | none =>
        simp only [he] at h
        rcases List.mem_cons.mp hm with rfl | hm
        · rw [hget] at hd
          cases hd
          exact executeError_eq_none.mp he
        · exact ih h m hm d hd

/-- **A flush writes every dirty record** exactly when the counters of all of them can be
bound. -/
theorem flush_writes_iff (F : TextFormats) {s : SqliteStore} {macs : List MacAddress}
    (hnd : macs.Nodup) (hdirty : macs.toFinset = s.dirty) :
    FlushesAll F s macs ↔ ∀ m ∈ s.dirty, ∀ d, s.cache.get m = some d → Bindable d := by
  have hmem : ∀ m, m ∈ s.dirty ↔ m ∈ macs := by
    intro m
    rw [← hdirty, List.mem_toFinset]
  have hflush := flushLoop_cases (F := F) s.cache noSqlError macs 0 s.table
  refine ⟨?_, fun hall => ?_⟩
  · rintro ⟨written, s', hs', -, -⟩ m hm d hd
    rcases hflush with ⟨n, hn⟩ | ⟨e, m', d', done, -, -, -, -, he⟩
    · exact bindable_of_flushLoop hn m ((hmem m).mp hm) d hd
    · simp only [SqliteStore.flush, he] at hs'
      cases hs'
  · rcases hflush with ⟨n, hn⟩ | ⟨e, m, d, done, hm, hd, hne, -, -⟩
    · refine ⟨n, _, by rw [SqliteStore.flush, hn], ?_, fun m hm d hd => ?_⟩
      · show s.dirty \ macs.toFinset = ∅
        rw [hdirty, Finset.sdiff_self]
      · exact lookup_foldl_flushRow hnd ((hmem m).mp hm) hd s.table
    · exact absurd (executeError_eq_none.mpr (hall m ((hmem m).mpr hm) d hd)) hne

/-! ### A saturated record -/

def routerMac : MacAddress := .ofBytes 0x00 0x11 0x22 0x33 0x44 0x01
def phoneMac : MacAddress := .ofBytes 0x00 0x11 0x22 0x33 0x44 0x02

def sender (mac : MacAddress) (bytes : UInt64) : Device :=
  (Device.new mac ⟨0⟩).recordSent bytes.toNat .tcp ⟨0⟩

theorem recorded_sender (mac : MacAddress) (bytes : UInt64) : (sender mac bytes).Recorded :=
  .sent (.new mac ⟨0⟩) bytes .tcp ⟨0⟩

def twoSenders (routerBytes phoneBytes : UInt64) : SqliteStore :=
  (SqliteStore.empty.upsert (sender routerMac routerBytes)).upsert (sender phoneMac phoneBytes)

theorem get_twoSenders {routerBytes phoneBytes : UInt64} {m : MacAddress} {d : Device}
    (h : (twoSenders routerBytes phoneBytes).cache.get m = some d) :
    d = sender phoneMac phoneBytes ∨ d = sender routerMac routerBytes := by
  rw [twoSenders, SqliteStore.upsert, SqliteStore.upsert, MemoryStore.get_upsert] at h
  split at h
  · exact .inl (Option.some.inj h).symm
  · rw [MemoryStore.get_upsert] at h
    split at h
    · exact .inr (Option.some.inj h).symm
    · cases h

theorem flush_writes_iff_twoSenders :
    ∃ F : TextFormats, F.Lawful ∧ FlushesAll F (twoSenders 1500 60) [routerMac, phoneMac] := by
  obtain ⟨F, hF, -⟩ := exists_lawful
  refine ⟨F, hF, (flush_writes_iff F (by decide) (by decide +kernel)).mpr fun m _ d hd => ?_⟩
  rcases get_twoSenders hd with rfl | rfl
  · exact ⟨by decide +kernel, by decide +kernel, by decide +kernel⟩
  · exact ⟨by decide +kernel, by decide +kernel, by decide +kernel⟩

/-- **A saturated record blocks the others**: the router has a counter of `2 ^ 63`, the
flush returns an error, and the phone behind it gets no row. -/
theorem flush_twoSenders_blocked :
    (∀ m d, (twoSenders 0x8000000000000000 60).cache.get m = some d → d.Recorded) ∧
    ∃ F : TextFormats, F.Lawful ∧
      ¬FlushesAll F (twoSenders 0x8000000000000000 60) [routerMac, phoneMac] ∧
      ((twoSenders 0x8000000000000000 60).flush F [routerMac, phoneMac] noSqlError).2.table.lookup
        phoneMac.toString = none := by
  obtain ⟨F, hF, -⟩ := exists_lawful
  have hrouter : (twoSenders 0x8000000000000000 60).cache.get routerMac =
      some (sender routerMac 0x8000000000000000) := by
    rw [twoSenders, SqliteStore.upsert, SqliteStore.upsert, MemoryStore.get_upsert,
      if_neg (by decide +kernel), MemoryStore.get_upsert]
    exact if_pos rfl
  have hlarge : ¬Bindable (sender routerMac 0x8000000000000000) := by
    intro h
    exact absurd h.2.1 (by decide +kernel)
  have hflush : (twoSenders 0x8000000000000000 60).flush F [routerMac, phoneMac] noSqlError =
      (.error (.internal "flush upsert failed: out of range integral type conversion attempted"),
        twoSenders 0x8000000000000000 60) := by
    rw [SqliteStore.flush, flushLoop, hrouter]
    simp only [executeError_of_not_bindable hlarge]
    rfl
  refine ⟨fun m d hd => ?_, F, hF, fun hall => ?_, ?_⟩
  · rcases get_twoSenders hd with rfl | rfl
    · exact recorded_sender _ _
    · exact recorded_sender _ _
  · obtain ⟨written, s', hs', -, -⟩ := hall
    rw [hflush] at hs'
    cases hs'
  · rw [hflush]
    rfl

end EdgeShield.Storage
