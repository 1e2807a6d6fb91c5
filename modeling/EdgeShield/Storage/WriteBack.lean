import EdgeShield.Lib.Machine
import EdgeShield.Storage.Sqlite

/-!
# The write-back cache under concurrency

The upserting task and the flush run side by side, and each of their atomic steps can
come between two of the other: an upsert puts the record into the cache and then marks
its MAC; a flush reads the marks, writes the rows one by one, and then clears the
marks it had read, one by one.  `writeBack` is the machine of these steps, and
`run_upsertSteps` and `run_flushSteps` say that run through without interruption they
are `upsert` and `flush`.

Between the writing of a row and the clearing of its mark (`Phase.Window`) a mark does
not survive.  A record that is put and marked in this window is lost: its row is old
and its mark is cleared (`update_lost_in_window`).  The code reads the cached record just
before it writes the row from it, and the two are one step (`write`) here: the window
opens at this read.  `Consistent` is the invariant of
the runs that have no such mark, and with it no update is lost
(`no_lost_update`).
-/

namespace EdgeShield.Storage

open EdgeShield.Lib EdgeShield.Common

/-- Where the flush is: not running, writing rows, or clearing marks. -/
inductive Phase where
  | idle
  | writing (snapshot todo : List MacAddress)
  | clearing (todo : List MacAddress)
  deriving DecidableEq

/-- The store, the MAC of the upsert that has put its record and not marked it yet, and
the running flush. -/
structure WriteBackState where
  store : SqliteStore
  pending : Option MacAddress
  phase : Phase

inductive WriteBackAction where
  | put (d : Device)
  | mark
  | snapshot (macs : List MacAddress)
  | write
  | beginClear
  | clear
  | finish

def WriteBackState.start (store : SqliteStore) : WriteBackState where
  store := store
  pending := none
  phase := .idle

section Machine

variable (F : TextFormats)

def SqliteStore.writeOne (s : SqliteStore) (m : MacAddress) : SqliteStore :=
  { s with table := flushRow F s.cache s.table m }

def SqliteStore.clearOne (s : SqliteStore) (m : MacAddress) : SqliteStore :=
  { s with dirty := s.dirty.erase m }

def writeBackStep (s : WriteBackState) : WriteBackAction → Option (WriteBackState × Unit)
  | .put d =>
    match s.pending with
    | none =>
      some (⟨{ s.store with cache := s.store.cache.upsert d }, some d.mac, s.phase⟩, ())
    | some _ => none
  | .mark =>
    match s.pending with
    | some m => some (⟨{ s.store with dirty := insert m s.store.dirty }, none, s.phase⟩, ())
    | none => none
  | .snapshot macs =>
    match s.phase with
    | .idle =>
      -- the marks come in the order of the hash set, whatever it is
      if macs.Nodup ∧ macs.toFinset = s.store.dirty then
        some ({ s with phase := .writing macs macs }, ())
      else none
    | _ => none
  | .write =>
    match s.phase with
    | .writing snapshot (m :: todo) =>
      some (⟨s.store.writeOne F m, s.pending, .writing snapshot todo⟩, ())
    | _ => none
  | .beginClear =>
    match s.phase with
    | .writing snapshot [] => some ({ s with phase := .clearing snapshot }, ())
    | _ => none
  | .clear =>
    match s.phase with
    | .clearing (m :: todo) => some (⟨s.store.clearOne m, s.pending, .clearing todo⟩, ())
    | _ => none
  | .finish =>
    match s.phase with
    | .clearing [] => some ({ s with phase := .idle }, ())
    | _ => none

def writeBack : Machine WriteBackState WriteBackAction Unit where
  step := writeBackStep F

inductive WriteBackStep (s : WriteBackState) : WriteBackAction → WriteBackState → Prop where
  | put (d : Device) (free : s.pending = none) :
      WriteBackStep s (.put d)
        ⟨{ s.store with cache := s.store.cache.upsert d }, some d.mac, s.phase⟩
  | mark (m : MacAddress) (pending : s.pending = some m) :
      WriteBackStep s .mark ⟨{ s.store with dirty := insert m s.store.dirty }, none, s.phase⟩
  | snapshot (macs : List MacAddress) (idle : s.phase = .idle) (nodup : macs.Nodup)
      (all : macs.toFinset = s.store.dirty) :
      WriteBackStep s (.snapshot macs) { s with phase := .writing macs macs }
  | write (snapshot todo : List MacAddress) (m : MacAddress)
      (phase : s.phase = .writing snapshot (m :: todo)) :
      WriteBackStep s .write ⟨s.store.writeOne F m, s.pending, .writing snapshot todo⟩
  | beginClear (snapshot : List MacAddress) (phase : s.phase = .writing snapshot []) :
      WriteBackStep s .beginClear { s with phase := .clearing snapshot }
  | clear (todo : List MacAddress) (m : MacAddress) (phase : s.phase = .clearing (m :: todo)) :
      WriteBackStep s .clear ⟨s.store.clearOne m, s.pending, .clearing todo⟩
  | finish (phase : s.phase = .clearing []) : WriteBackStep s .finish { s with phase := .idle }

theorem writeBackStep_of_step {s s' : WriteBackState} {a : WriteBackAction} {o : Unit}
    (h : (writeBack F).step s a = some (s', o)) : WriteBackStep F s a s' := by
  cases a with
  | put d =>
    simp only [writeBack, writeBackStep] at h
    split at h
    · next hp => cases h; exact .put d hp
    · cases h
  | mark =>
    simp only [writeBack, writeBackStep] at h
    split at h
    · next m hp => cases h; exact .mark m hp
    · cases h
  | snapshot macs =>
    simp only [writeBack, writeBackStep] at h
    split at h
    · next hp =>
      split at h
      · next hm => cases h; exact .snapshot macs hp hm.1 hm.2
      · cases h
    · cases h
  | write =>
    simp only [writeBack, writeBackStep] at h
    split at h
    · next snapshot m todo hp => cases h; exact .write snapshot todo m hp
    · cases h
  | beginClear =>
    simp only [writeBack, writeBackStep] at h
    split at h
    · next snapshot hp => cases h; exact .beginClear snapshot hp
    · cases h
  | clear =>
    simp only [writeBack, writeBackStep] at h
    split at h
    · next m todo hp => cases h; exact .clear todo m hp
    · cases h
  | finish =>
    simp only [writeBack, writeBackStep] at h
    split at h
    · next hp => cases h; exact .finish hp
    · cases h

end Machine

/-! ### No lost update -/

/-- The flush has written the row of `m` and has not cleared its mark yet. -/
def Phase.Window : Phase → MacAddress → Prop
  | .idle, _ => False
  | .writing snapshot todo, m => m ∈ snapshot ∧ m ∉ todo
  | .clearing todo, m => m ∈ todo

section Invariant

variable (F : TextFormats)

def WriteBackState.Synced (s : WriteBackState) (m : MacAddress) : Prop :=
  Storage.Synced F s.store.cache s.store.table m

/-- When nothing is in progress, a record that differs from its row is marked. -/
def NoLostUpdate (s : WriteBackState) : Prop :=
  s.pending = none → s.phase = .idle → ∀ m, ¬s.Synced F m → m ∈ s.store.dirty

/-- A record is put with the first time that its row has, and is marked outside the
window of its MAC, unless the row already shows it. -/
def MarksOutsideWindow (s : WriteBackState) : WriteBackAction → Prop
  | .put d => ∀ row, s.store.table.lookup d.mac.toString = some row →
      row.firstSeen = F.timeText d.firstSeen
  | .mark => ∀ m, s.pending = some m → s.phase.Window m → s.Synced F m
  | _ => True

instance (phase : Phase) (m : MacAddress) : Decidable (phase.Window m) :=
  match phase with
  | .idle => inferInstanceAs (Decidable False)
  | .writing snapshot todo => inferInstanceAs (Decidable (m ∈ snapshot ∧ m ∉ todo))
  | .clearing todo => inferInstanceAs (Decidable (m ∈ todo))

instance (s : WriteBackState) (m : MacAddress) : Decidable (s.Synced F m) :=
  inferInstanceAs (Decidable (_ = _))

instance (s : WriteBackState) (a : WriteBackAction) : Decidable (MarksOutsideWindow F s a) :=
  match a with
  | .put d => inferInstanceAs (Decidable (∀ row, s.store.table.lookup d.mac.toString = some row →
      row.firstSeen = F.timeText d.firstSeen))
  | .mark => inferInstanceAs (Decidable (∀ m, s.pending = some m → s.phase.Window m → s.Synced F m))
  | .snapshot _ => inferInstanceAs (Decidable True)
  | .write => inferInstanceAs (Decidable True)
  | .beginClear => inferInstanceAs (Decidable True)
  | .clear => inferInstanceAs (Decidable True)
  | .finish => inferInstanceAs (Decidable True)

/-- The invariant: without a mark and a mark to come, a row shows the record, and in
the window at least the mark is still to come. -/
structure Consistent (s : WriteBackState) : Prop where
  clean : ∀ m, m ∉ s.store.dirty → s.pending ≠ some m → s.Synced F m
  window : ∀ m, s.phase.Window m → s.Synced F m ∨ s.pending = some m
  rows : RowsCached F s.store.cache s.store.table

end Invariant

section Runs

variable {F : TextFormats}

theorem synced_put_of_ne {s : WriteBackState} {d : Device} {m : MacAddress} (hm : m ≠ d.mac)
    (h : s.Synced F m) :
    Synced F (s.store.cache.upsert d) s.store.table m := by
  rw [Synced, MemoryStore.get_upsert, if_neg hm]
  exact h

theorem Consistent.put {s : WriteBackState} {d : Device} (h : Consistent F s)
    (hp : s.pending = none) (hok : MarksOutsideWindow F s (.put d)) :
    Consistent F ⟨{ s.store with cache := s.store.cache.upsert d }, some d.mac, s.phase⟩ := by
  constructor
  · intro m hd hne
    have hm : m ≠ d.mac := fun he => hne (by rw [he])
    exact synced_put_of_ne hm (h.clean m hd (by rw [hp]; exact nofun))
  · intro m hw
    by_cases hm : m = d.mac
    · exact .inr (by rw [hm])
    · rcases h.window m hw with hs | hs
      · exact .inl (synced_put_of_ne hm hs)
      · rw [hp] at hs
        cases hs
  · intro m row hrow
    by_cases hm : m = d.mac
    · subst hm
      exact ⟨d, by rw [MemoryStore.get_upsert, if_pos rfl], hok row hrow⟩
    · obtain ⟨d', hd', hfirst⟩ := h.rows m row hrow
      exact ⟨d', by rw [MemoryStore.get_upsert, if_neg hm, hd'], hfirst⟩

theorem Consistent.mark {s : WriteBackState} {m : MacAddress} (h : Consistent F s)
    (hp : s.pending = some m) (hok : MarksOutsideWindow F s .mark) :
    Consistent F ⟨{ s.store with dirty := insert m s.store.dirty }, none, s.phase⟩ := by
  constructor
  · intro m' hd _
    rw [Finset.mem_insert, not_or] at hd
    refine h.clean m' hd.2 ?_
    rw [hp]
    exact fun he => hd.1 (Option.some.inj he).symm
  · intro m' hw
    left
    rcases h.window m' hw with hs | hs
    · exact hs
    · rw [hp] at hs
      cases hs
      exact hok m hp hw
  · exact h.rows

theorem Consistent.write {s : WriteBackState} {snapshot todo : List MacAddress} {m : MacAddress}
    (h : Consistent F s) (hphase : s.phase = .writing snapshot (m :: todo)) :
    Consistent F ⟨s.store.writeOne F m, s.pending, .writing snapshot todo⟩ := by
  constructor
  · intro m' hd hne
    exact (h.clean m' hd hne).flushRow h.rows m
  · intro m' hw
    by_cases hm : m' = m
    · subst hm
      exact .inl (synced_flushRow h.rows m')
    · have hw' : s.phase.Window m' := by
        rw [hphase]
        exact ⟨hw.1, fun hc => (List.mem_cons.mp hc).elim hm hw.2⟩
      exact (h.window m' hw').imp_left fun hs => hs.flushRow h.rows m
  · exact h.rows.flushRow m

theorem Consistent.clear {s : WriteBackState} {todo : List MacAddress} {m : MacAddress}
    (h : Consistent F s) (hphase : s.phase = .clearing (m :: todo)) :
    Consistent F ⟨s.store.clearOne m, s.pending, .clearing todo⟩ := by
  constructor
  · intro m' hd hne
    by_cases hm : m' = m
    · subst hm
      exact (h.window m' (by rw [hphase]; exact List.mem_cons_self)).resolve_right hne
    · exact h.clean m' (fun hc => hd (Finset.mem_erase.mpr ⟨hm, hc⟩)) hne
  · intro m' hw
    exact h.window m' (by rw [hphase]; exact List.mem_cons_of_mem _ hw)
  · exact h.rows

/-- **One step keeps the invariant.** -/
theorem Consistent.step {s s' : WriteBackState} {a : WriteBackAction} {o : Unit}
    (h : Consistent F s) (hok : MarksOutsideWindow F s a)
    (hs : (writeBack F).step s a = some (s', o)) : Consistent F s' := by
  cases writeBackStep_of_step F hs with
  | put d free => exact h.put free hok
  | mark m pending => exact h.mark pending hok
  | snapshot macs idle nodup all =>
    -- nothing is written yet, so the window is empty
    exact ⟨h.clean, fun m hw => absurd hw.1 hw.2, h.rows⟩
  | write snapshot todo m phase => exact h.write phase
  | beginClear snapshot phase =>
    refine ⟨h.clean, fun m hw => h.window m ?_, h.rows⟩
    rw [phase]
    exact ⟨hw, List.not_mem_nil⟩
  | clear todo m phase => exact h.clear phase
  | finish phase => exact ⟨h.clean, fun m hw => hw.elim, h.rows⟩

theorem consistent_run {store : SqliteStore} {s : WriteBackState} {acts : List WriteBackAction}
    {outs : List Unit} (hsynced : ∀ m, Synced F store.cache store.table m)
    (h : (writeBack F).run (.start store) acts = some (s, outs))
    (hok : (writeBack F).Meets (MarksOutsideWindow F) (.start store) acts) : Consistent F s := by
  refine (writeBack F).run_induction_of_meets (P := fun _ _ s => Consistent F s) ?_ ?_ h hok
  · exact ⟨fun m _ _ => hsynced m, fun m hw => hw.elim, rowsCached_of_synced hsynced⟩
  · intro _ _ s a s' o _ hc hok hs
    exact hc.step hok hs

/-- **No update is lost** in the runs that set no mark in a window: from a store whose
rows show its records, in every state they reach. -/
theorem no_lost_update {store : SqliteStore} {s : WriteBackState} {acts : List WriteBackAction}
    {outs : List Unit} (hsynced : ∀ m, Synced F store.cache store.table m)
    (h : (writeBack F).run (.start store) acts = some (s, outs))
    (hok : (writeBack F).Meets (MarksOutsideWindow F) (.start store) acts) : NoLostUpdate F s := by
  intro hp _ m hdiff
  by_contra hclean
  refine hdiff ((consistent_run hsynced h hok).clean m hclean ?_)
  rw [hp]
  exact nofun

/-! ### One device, one flush -/

/-- The formats on records without addresses and protocols, seen at the epoch. -/
def epochFormats : TextFormats where
  parseMac _ := .error "invalid MAC address"
  ipText _ := ""
  parseIp _ := none
  timeText _ := "1970-01-01T00:00:00.000Z"
  parseTime _ := some ⟨0⟩
  jsonStrings _ := "[]"
  parseJsonStrings _ := some []
  jsonPairs _ := "[]"
  parseJsonPairs _ := some []

def counted (packets : Nat) : Device :=
  { Device.new (.ofBytes 0x00 0x11 0x22 0x33 0x44 0x55) ⟨0⟩ with packetCount := packets }

def firstRowWritten : List WriteBackAction :=
  [.put (counted 1), .mark, .snapshot [(counted 1).mac], .write]

/-- An update after the flush is marked and waits for the next one. -/
theorem no_lost_update_after_flush : ∃ s outs,
    (writeBack epochFormats).run (.start .empty)
      (firstRowWritten ++ [.beginClear, .clear, .finish, .put (counted 2), .mark]) =
        some (s, outs) ∧ NoLostUpdate epochFormats s := by
  obtain ⟨⟨s, outs⟩, h⟩ := Option.isSome_iff_exists.mp
    (by decide +kernel : ((writeBack epochFormats).run (.start .empty)
      (firstRowWritten ++ [.beginClear, .clear, .finish, .put (counted 2), .mark])).isSome = true)
  refine ⟨s, outs, h, no_lost_update (fun m => ?_) h ?_⟩
  · rw [Synced, SqliteStore.empty, MemoryStore.get_new]
    exact AList.lookup_empty _
  · decide +kernel

/-- An update that is put and marked while the flush is between the row and the mark. -/
def updateInWindow : List WriteBackAction :=
  firstRowWritten ++ [.put (counted 2), .mark, .beginClear, .clear, .finish]

/-- **The update is lost**: the row has one packet, the record two, and no mark is
left. -/
theorem update_lost_in_window : ∃ s outs,
    (writeBack epochFormats).run (.start .empty) updateInWindow = some (s, outs) ∧
      ¬NoLostUpdate epochFormats s := by
  have hview : ((writeBack epochFormats).run (.start .empty) updateInWindow).map
      (fun r => (r.1.pending, r.1.phase, r.1.store.dirty,
        (r.1.store.table.lookup (counted 1).mac.toString).map DeviceRow.packetCount,
        (r.1.store.cache.get (counted 1).mac).map Device.packetCount)) =
      some (none, .idle, ∅, some 1, some 2) := by decide +kernel
  obtain ⟨⟨s, outs⟩, h, hs⟩ := Option.map_eq_some_iff.mp hview
  simp only [Prod.mk.injEq] at hs
  obtain ⟨hpending, hidle, hdirty, hrow, hrecord⟩ := hs
  refine ⟨s, outs, h, fun hno => ?_⟩
  have hmem := hno hpending hidle (counted 1).mac fun hsync => ?_
  · rw [hdirty] at hmem
    exact Finset.notMem_empty _ hmem
  · obtain ⟨d, hd, hcount⟩ := Option.map_eq_some_iff.mp hrecord
    rw [WriteBackState.Synced, Synced, hd, Option.map_some] at hsync
    rw [hsync, Option.map_some, Option.some.injEq] at hrow
    have : d.packetCount = 1 := hrow
    omega

/-! ### Uninterrupted runs -/

theorem run_writes (snapshot : List MacAddress) (pending : Option MacAddress)
    (todo : List MacAddress) (store : SqliteStore) :
    (writeBack F).run ⟨store, pending, .writing snapshot todo⟩
        (List.replicate todo.length .write) =
      some (⟨todo.foldl (SqliteStore.writeOne F) store, pending, .writing snapshot []⟩,
        todo.map fun _ => ()) := by
  let state (store : SqliteStore) (todo : List MacAddress) : WriteBackState :=
    ⟨store, pending, .writing snapshot todo⟩
  have hstep : ∀ store m todo, (writeBack F).step (state store (m :: todo)) .write =
      some (state (store.writeOne F m) todo, ()) := fun _ _ _ => rfl
  exact (writeBack F).run_worklist hstep todo store

theorem run_clears (pending : Option MacAddress) (todo : List MacAddress) (store : SqliteStore) :
    (writeBack F).run ⟨store, pending, .clearing todo⟩ (List.replicate todo.length .clear) =
      some (⟨todo.foldl SqliteStore.clearOne store, pending, .clearing []⟩,
        todo.map fun _ => ()) := by
  let state (store : SqliteStore) (todo : List MacAddress) : WriteBackState :=
    ⟨store, pending, .clearing todo⟩
  have hstep : ∀ store m todo, (writeBack F).step (state store (m :: todo)) .clear =
      some (state (store.clearOne m) todo, ()) := fun _ _ _ => rfl
  exact (writeBack F).run_worklist hstep todo store

theorem foldl_writeOne (macs : List MacAddress) : ∀ store : SqliteStore,
    macs.foldl (SqliteStore.writeOne F) store =
      { store with table := macs.foldl (flushRow F store.cache) store.table } := by
  induction macs with
  | nil => intro store; rfl
  | cons m macs ih =>
    intro store
    rw [List.foldl_cons, ih]
    rfl

theorem foldl_clearOne (macs : List MacAddress) : ∀ store : SqliteStore,
    macs.foldl SqliteStore.clearOne store =
      { store with dirty := store.dirty \ macs.toFinset } := by
  induction macs with
  | nil => intro store; simp
  | cons m macs ih =>
    intro store
    rw [List.foldl_cons, ih]
    simp only [SqliteStore.clearOne, SqliteStore.mk.injEq, true_and, and_true]
    ext x
    simp only [Finset.mem_sdiff, Finset.mem_erase, List.mem_toFinset, List.mem_cons, not_or]
    tauto

/-- What is left of a flush that still has to clear these marks. -/
def clearSteps (macs : List MacAddress) : List WriteBackAction :=
  List.replicate macs.length .clear ++ [.finish]

theorem run_clearSteps (macs : List MacAddress) (store : SqliteStore)
    (pending : Option MacAddress) : ∃ outs,
      (writeBack F).run ⟨store, pending, .clearing macs⟩ (clearSteps macs) =
        some (⟨{ store with dirty := store.dirty \ macs.toFinset }, pending, .idle⟩, outs) := by
  refine ⟨_, (writeBack F).run_snoc.mpr ⟨_, _, (), run_clears pending macs store, ?_, rfl⟩⟩
  rw [foldl_clearOne]
  rfl

/-- What is left of a flush that still has to write these rows of its snapshot. -/
def writeSteps (snapshot todo : List MacAddress) : List WriteBackAction :=
  List.replicate todo.length .write ++ .beginClear :: clearSteps snapshot

theorem run_writeSteps (snapshot todo : List MacAddress) (store : SqliteStore)
    (pending : Option MacAddress) : ∃ outs,
      (writeBack F).run ⟨store, pending, .writing snapshot todo⟩ (writeSteps snapshot todo) =
        some (⟨{ store with
          table := todo.foldl (flushRow F store.cache) store.table
          dirty := store.dirty \ snapshot.toFinset }, pending, .idle⟩, outs) := by
  obtain ⟨outs, h⟩ := run_clearSteps (F := F) snapshot
    { store with table := todo.foldl (flushRow F store.cache) store.table } pending
  have hw := run_writes (F := F) snapshot pending todo store
  rw [foldl_writeOne] at hw
  exact ⟨_, (writeBack F).run_append.mpr ⟨_, _, _, hw,
    (writeBack F).run_cons.mpr ⟨_, (), outs, rfl, h, rfl⟩, rfl⟩⟩

theorem run_upsertSteps (store : SqliteStore) (d : Device) (phase : Phase) :
    (writeBack F).run ⟨store, none, phase⟩ [.put d, .mark] =
      some (⟨store.upsert d, none, phase⟩, [(), ()]) := rfl

/-- **The steps of a flush without interruption are `flush`**, where the database
refuses no row. -/
theorem run_flushSteps {store : SqliteStore} {macs : List MacAddress} (hnd : macs.Nodup)
    (hdirty : macs.toFinset = store.dirty) {sqlError : MacAddress → Option String}
    (hno : ∀ m ∈ macs, ∀ d, store.cache.get m = some d → executeError sqlError d = none) :
    ∃ outs, (writeBack F).run (.start store) (.snapshot macs :: writeSteps macs macs) =
      some (.start (store.flush F macs sqlError).2, outs) := by
  obtain ⟨outs, h⟩ := run_writeSteps (F := F) macs macs store none
  have hstep : (writeBack F).step (.start store) (.snapshot macs) =
      some (⟨store, none, .writing macs macs⟩, ()) := by
    simp only [writeBack, writeBackStep, WriteBackState.start]
    rw [if_pos ⟨hnd, hdirty⟩]
  refine ⟨() :: outs, (writeBack F).run_cons.mpr ⟨_, (), outs, hstep, ?_, rfl⟩⟩
  rw [h]
  rcases flushLoop_cases (F := F) store.cache sqlError macs 0 store.table with
    ⟨n, hn⟩ | ⟨e, m, d, _, hm, hd, he, _⟩
  · simp only [SqliteStore.flush, hn]
    rfl
  · exact absurd (hno m hm d hd) he

/-- **A mark in the window is lost.**  When the row does not show the record, the flush
can go on to the end without another upsert, and leaves the record unmarked. -/
theorem update_lost_of_mark {s : WriteBackState} {m : MacAddress} (hp : s.pending = some m)
    (hw : s.phase.Window m) (hrows : RowsCached F s.store.cache s.store.table)
    (hdiff : ¬s.Synced F m) :
    ∃ acts s' outs, (writeBack F).run s (.mark :: acts) = some (s', outs) ∧ ¬NoLostUpdate F s' := by
  obtain ⟨store, pending, phase⟩ := s
  simp only at hp
  subst hp
  cases phase with
  | idle => exact hw.elim
  | writing snapshot todo =>
    obtain ⟨outs, h⟩ := run_writeSteps (F := F) snapshot todo
      { store with dirty := insert m store.dirty } none
    refine ⟨writeSteps snapshot todo, _, () :: outs,
      (writeBack F).run_cons.mpr ⟨_, (), outs, rfl, h, rfl⟩, fun hno => ?_⟩
    have hstale : ¬Synced F store.cache (todo.foldl (flushRow F store.cache) store.table) m := by
      rw [Synced, (foldl_flushRow todo hrows).2.2 m hw.2]
      exact hdiff
    have hdirty := hno rfl rfl m hstale
    exact (Finset.mem_sdiff.mp hdirty).2 (List.mem_toFinset.mpr hw.1)
  | clearing todo =>
    obtain ⟨outs, h⟩ := run_clearSteps (F := F) todo
      { store with dirty := insert m store.dirty } none
    refine ⟨clearSteps todo, _, () :: outs,
      (writeBack F).run_cons.mpr ⟨_, (), outs, rfl, h, rfl⟩, fun hno => ?_⟩
    have hdirty := hno rfl rfl m hdiff
    exact (Finset.mem_sdiff.mp hdirty).2 (List.mem_toFinset.mpr hw)

end Runs

end EdgeShield.Storage
