import EdgeShield.Daemon.Lifetime

/-!
# What survives a crash

The process may end between any two steps: it is killed, the pipeline panics, or the last
flush fails.  The file is then what the flushes have written so far, and the next start reads
it.  `DaemonState.Filed` is the invariant of all runs, whatever order the tasks take: every
row is behind the cached record of its device.

From it, the file can always be opened, what it knows about a device it never forgets
(`open_grows`), and every record it has was once in the cache (`open_wasCached`).
-/

namespace EdgeShield.Daemon

open EdgeShield.Lib EdgeShield.Common EdgeShield.Packet EdgeShield.Storage EdgeShield.Discovery

section Runs

variable {F : TextFormats} {ouiMap : Nat → Option String} {capacity : Nat}

/-! ### The records that are put -/

theorem mac_oldSource (store : MemoryStore) (x : Sighting) (clock : ClockReads) :
    (oldSource ouiMap store x clock).mac = x.srcMac := by
  rw [oldSource]
  cases h : store.get x.srcMac with
  | none => rfl
  | some d => exact MemoryStore.mac_of_get h

theorem mac_oldDestination (store : MemoryStore) (x : Sighting) (clock : ClockReads) :
    (oldDestination ouiMap store x clock).mac = x.dstMac := by
  rw [oldDestination]
  cases h : store.get x.dstMac with
  | none => rfl
  | some d => exact MemoryStore.mac_of_get h

variable (ouiMap) in
theorem withinU64_getD {store : MemoryStore} (h : ∀ m d, store.get m = some d → WithinU64 d)
    (m m' : MacAddress) (now : Timestamp) :
    WithinU64 ((store.get m).getD (newDevice ouiMap m' now)) := by
  cases hd : store.get m with
  | none => exact withinU64_newDevice ouiMap m' now
  | some d => exact h m d hd

/-- **A record that is put has grown** from the one it replaces. -/
theorem grows_of_update {store : MemoryStore} (h : ∀ m d, store.get m = some d → WithinU64 d)
    {task task' : Task} {d : Device} (hu : task.update ouiMap store = some (d, task')) :
    WithinU64 d ∧ ∀ d', store.get d.mac = some d' → Grows d' d := by
  cases task with
  | source x clock =>
    cases hu
    have hfit := withinU64_getD ouiMap h x.srcMac x.srcMac clock.newSource
    refine ⟨hfit.sourceRecord x clock.packet, fun d' hd' => ?_⟩
    rw [mac_sourceRecord, mac_oldSource] at hd'
    rw [oldSource, hd']
    exact grows_sourceRecord (h _ d' hd') x clock.packet
  | destination x clock =>
    cases hu
    have hfit := withinU64_getD ouiMap h x.dstMac x.dstMac clock.newDestination
    refine ⟨hfit.destinationRecord x clock.packet, fun d' hd' => ?_⟩
    rw [mac_destinationRecord, mac_oldDestination] at hd'
    rw [oldDestination, hd']
    exact grows_destinationRecord (h _ d' hd') x clock.packet
  | receiving => cases hu
  | finished => cases hu
  | crashed => cases hu

/-! ### The file behind the cache -/

def DaemonState.Filed (F : TextFormats) (s : DaemonState) : Prop :=
  Storage.Filed F s.wb.store.cache s.wb.store.table

theorem open_of_filed (hF : F.Lawful) {s : DaemonState} (h : s.Filed F)
    (clock : DeviceRow → Timestamp × Timestamp) :
    ∃ store, SqliteStore.open F s.wb.store.table clock = .ok store ∧
      store.dirty = ∅ ∧ store.table = s.wb.store.table ∧
      ∀ m d, store.cache.get m = some d ↔ Shows F s.wb.store.table m d := by
  obtain ⟨cache, hopen, hcache⟩ := open_of_readable hF h.readable clock
  exact ⟨_, hopen, rfl, rfl, hcache⟩

theorem opened_eq (hF : F.Lawful) {s : DaemonState} (h : s.Filed F)
    {clock : DeviceRow → Timestamp × Timestamp} {store : SqliteStore}
    (hopen : SqliteStore.open F s.wb.store.table clock = .ok store) :
    store.dirty = ∅ ∧ store.table = s.wb.store.table ∧
      ∀ m d, store.cache.get m = some d ↔ Shows F s.wb.store.table m d := by
  obtain ⟨store', hopen', hrest⟩ := open_of_filed hF h clock
  rw [hopen, Except.ok.injEq] at hopen'
  subst hopen'
  exact hrest

theorem filed_step (hF : F.Lawful) {s s' : DaemonState} {a : DaemonAction} {o : Observation}
    (h : s.Filed F) (hs : DaemonStep F ouiMap capacity s a s' o) : s'.Filed F := by
  cases hs with
  | put d task update free =>
    obtain ⟨hfit, hgrow⟩ := grows_of_update h.fits update
    exact h.put hfit hgrow
  | write sqlError snapshot todo m phase => exact h.flushRow hF m
  | reopen clock store opened =>
    obtain ⟨-, htable, hcache⟩ := opened_eq hF h opened
    show Storage.Filed F store.cache store.table
    rw [htable]
    exact filed_of_shows h.readable hcache
  | _ => exact h

theorem filed_run (hF : F.Lawful) {s₀ s : DaemonState} (h₀ : s₀.Filed F)
    {acts : List DaemonAction} {outs : List Observation}
    (h : (daemon F ouiMap capacity).run s₀ acts = some (s, outs)) : s.Filed F :=
  (daemon F ouiMap capacity).run_induction (P := fun _ _ s => s.Filed F) h₀
    (fun _ _ _ _ _ _ _ hs hstep => filed_step hF hs (daemonStep_of_step F ouiMap capacity hstep)) h

theorem filed_of_run (hF : F.Lawful) {s : DaemonState} {acts : List DaemonAction}
    {outs : List Observation}
    (h : (daemon F ouiMap capacity).run (.start .empty) acts = some (s, outs)) : s.Filed F :=
  filed_run hF (show DaemonState.Filed F (.start .empty) from filed_empty) h

/-! ### The file only grows -/

def TableGrows (F : TextFormats) (table table' : Table) : Prop :=
  ∀ m d, Shows F table m d → ∃ d', Shows F table' m d' ∧ Grows d d'

theorem TableGrows.refl (table : Table) : TableGrows F table table :=
  fun _ d h => ⟨d, h, .refl d⟩

theorem TableGrows.trans {table table' table'' : Table} (h : TableGrows F table table')
    (h' : TableGrows F table' table'') : TableGrows F table table'' := by
  intro m d hs
  obtain ⟨d', hs', hle⟩ := h m d hs
  obtain ⟨d'', hs'', hle'⟩ := h' m d' hs'
  exact ⟨d'', hs'', hle.trans hle'⟩

theorem tableGrows_flushRow {cache : MemoryStore} {table : Table}
    (h : Storage.Filed F cache table) (m : MacAddress) :
    TableGrows F table (flushRow F cache table m) := by
  intro m' d hs
  by_cases hm : m' = m
  · subst hm
    obtain ⟨d', hd', hle⟩ := h.behind m' d hs
    exact ⟨_, shows_flushRow h hd', hle⟩
  · exact ⟨d, (shows_flushRow_of_ne hm).mpr hs, .refl d⟩

theorem tableGrows_step (hF : F.Lawful) {s s' : DaemonState} {a : DaemonAction} {o : Observation}
    (h : s.Filed F) (hs : DaemonStep F ouiMap capacity s a s' o) :
    TableGrows F s.wb.store.table s'.wb.store.table := by
  cases hs with
  | write sqlError snapshot todo m phase => exact tableGrows_flushRow h m
  | reopen clock store opened =>
    show TableGrows F s.wb.store.table store.table
    rw [(opened_eq hF h opened).2.1]
    exact .refl _
  | _ => exact .refl _

theorem tableGrows_run (hF : F.Lawful) {s₀ s : DaemonState} (h₀ : s₀.Filed F)
    {acts : List DaemonAction} {outs : List Observation}
    (h : (daemon F ouiMap capacity).run s₀ acts = some (s, outs)) :
    TableGrows F s₀.wb.store.table s.wb.store.table := by
  refine (daemon F ouiMap capacity).run_induction
    (P := fun _ _ s => TableGrows F s₀.wb.store.table s.wb.store.table) (.refl _) ?_ h
  intro acts outs s a s' o hr hgrow hs
  exact hgrow.trans
    (tableGrows_step hF (filed_run hF h₀ hr) (daemonStep_of_step F ouiMap capacity hs))

/-- **The file only grows.**  Whatever happens between two moments of the daemon's life,
kills and panics included, the file can be opened at both, and what it knows about a device
at the first it still knows at the second. -/
theorem open_grows (hF : F.Lawful) {s₁ s₂ : DaemonState} {acts₁ acts₂ : List DaemonAction}
    {outs₁ outs₂ : List Observation}
    (h₁ : (daemon F ouiMap capacity).run (.start .empty) acts₁ = some (s₁, outs₁))
    (h₂ : (daemon F ouiMap capacity).run s₁ acts₂ = some (s₂, outs₂))
    (clock₁ clock₂ : DeviceRow → Timestamp × Timestamp) :
    ∃ store₁ store₂, SqliteStore.open F s₁.wb.store.table clock₁ = .ok store₁ ∧
      SqliteStore.open F s₂.wb.store.table clock₂ = .ok store₂ ∧
      ∀ m d₁, store₁.cache.get m = some d₁ →
        ∃ d₂, store₂.cache.get m = some d₂ ∧ Grows d₁ d₂ := by
  have hfiled₁ := filed_of_run hF h₁
  obtain ⟨store₁, hopen₁, -, -, hcache₁⟩ := open_of_filed hF hfiled₁ clock₁
  obtain ⟨store₂, hopen₂, -, -, hcache₂⟩ := open_of_filed hF (filed_run hF hfiled₁ h₂) clock₂
  refine ⟨store₁, store₂, hopen₁, hopen₂, fun m d₁ hd₁ => ?_⟩
  obtain ⟨d₂, hs₂, hle⟩ := tableGrows_run hF hfiled₁ h₂ m d₁ ((hcache₁ m d₁).mp hd₁)
  exact ⟨d₂, (hcache₂ m d₂).mpr hs₂, hle⟩

/-! ### Crashes -/

/-- At some moment of the run the cache held a record for `m` that is `d` in the file. -/
def WasCached (F : TextFormats) (ouiMap : Nat → Option String) (capacity : Nat)
    (acts : List DaemonAction) (m : MacAddress) (d : Device) : Prop :=
  ∃ acts₁ acts₂ s₁ outs₁ d₁, acts = acts₁ ++ acts₂ ∧
    (daemon F ouiMap capacity).run (.start .empty) acts₁ = some (s₁, outs₁) ∧
    s₁.wb.store.cache.get m = some d₁ ∧ persisted d₁ = d

theorem WasCached.snoc {acts : List DaemonAction} {m : MacAddress} {d : Device}
    (h : WasCached F ouiMap capacity acts m d) (a : DaemonAction) :
    WasCached F ouiMap capacity (acts ++ [a]) m d := by
  obtain ⟨acts₁, acts₂, s₁, outs₁, d₁, rfl, hrest⟩ := h
  exact ⟨acts₁, acts₂ ++ [a], s₁, outs₁, d₁, List.append_assoc _ _ _, hrest⟩

theorem wasCached_of_shows (hF : F.Lawful) {s : DaemonState} {acts : List DaemonAction}
    {outs : List Observation}
    (h : (daemon F ouiMap capacity).run (.start .empty) acts = some (s, outs)) :
    ∀ m d, Shows F s.wb.store.table m d → WasCached F ouiMap capacity acts m d := by
  refine (daemon F ouiMap capacity).run_induction
    (P := fun acts _ s => ∀ m d, Shows F s.wb.store.table m d →
      WasCached F ouiMap capacity acts m d) ?_ ?_ h
  · intro m d hs
    exact absurd hs (not_shows_empty m d)
  intro acts outs s a s' o hr ih hstep m d hs
  have hfiled := filed_of_run hF hr
  cases daemonStep_of_step F ouiMap capacity hstep with
  | write sqlError snapshot todo m' phase =>
    rcases shows_flushRow_cases hF hfiled hs with hs | ⟨d', hd', rfl⟩
    · exact (ih m d hs).snoc _
    · exact ⟨acts, [_], s, outs, d', rfl, hr, hd', rfl⟩
  | reopen clock store opened =>
    have htable := (opened_eq hF hfiled opened).2.1
    rw [show (DaemonState.start store).wb.store.table = store.table from rfl, htable] at hs
    exact (ih m d hs).snoc _
  | _ => exact (ih m d hs).snoc _

/-- **A crash loses time and nothing else.**  When the process ends anywhere in a run, the
next start finds for each device a record that the cache held at some moment. -/
theorem open_wasCached (hF : F.Lawful) {s : DaemonState} {acts : List DaemonAction}
    {outs : List Observation}
    (h : (daemon F ouiMap capacity).run (.start .empty) acts = some (s, outs))
    (clock : DeviceRow → Timestamp × Timestamp) :
    ∃ store, SqliteStore.open F s.wb.store.table clock = .ok store ∧
      ∀ m d, store.cache.get m = some d → WasCached F ouiMap capacity acts m d := by
  obtain ⟨store, hopen, -, -, hcache⟩ := open_of_filed hF (filed_of_run hF h) clock
  exact ⟨store, hopen, fun m d hd => wasCached_of_shows hF h m d ((hcache m d).mp hd)⟩

end Runs

/-! ### Two lives -/

def lifeShown : List Observation :=
  [.accepted announcement, .received announcement, .nothing, .nothing] ++ List.replicate 7 .nothing

def firstLife : List DaemonAction := announce ++ shutDown

/-- The daemon is started again on the same file, and sees the announcer once more. -/
def secondLife : List DaemonAction := .reopen (fun _ => (⟨0⟩, ⟨0⟩)) :: (announce ++ shutDown)

/-- **Two lives of the daemon.**  At the end of the first one the announcer has a row. -/
theorem run_twoLives {F : TextFormats} (hF : F.Lawful) : ∃ s₁ s₂,
    (daemon F (fun _ => none) 1).run (.start .empty) firstLife = some (s₁, lifeShown) ∧
      (daemon F (fun _ => none) 1).run s₁ secondLife = some (s₂, .nothing :: lifeShown) ∧
      (daemon F (fun _ => none) 1).Meets Orderly (.start .empty) (firstLife ++ secondLife) ∧
      s₂.main = .stopped true ∧ ∃ d, Shows F s₁.wb.store.table announcer d := by
  obtain ⟨t₁, s₁, hsees₁, hstops₁, hmeets₁, hmain₁, hcache₁, htable₁, d₁, hd₁, hcount₁⟩ :=
    @run_announce_shutDown F .empty 0 rfl (fun _ h => by cases h) (by decide)
  have hlife₁ : (daemon F (fun _ => none) 1).run (.start .empty) firstLife =
      some (s₁, lifeShown) := (daemon F _ 1).run_append.mpr ⟨_, _, _, hsees₁, hstops₁, rfl⟩
  have hfiled := filed_of_run hF hlife₁
  obtain ⟨store, hopen, hclean, -, hcache⟩ := open_of_filed hF hfiled fun _ => (⟨0⟩, ⟨0⟩)
  -- what the second life starts with is behind the cache of the first
  have hseen : ∀ d, store.cache.get announcer = some d → SeenAtMost 1 d := by
    intro d hd
    obtain ⟨d', hd', hgrow⟩ := hfiled.behind announcer d ((hcache announcer d).mp hd)
    obtain rfl := Option.some.inj (hd'.symm.trans hd₁)
    exact ⟨hgrow.packetCount.trans hcount₁.packets, hgrow.bytesSent.trans hcount₁.sent,
      Nat.le_zero.mp (hgrow.bytesReceived.trans hcount₁.received.le)⟩
  obtain ⟨t₂, s₂, hsees₂, hstops₂, hmeets₂, hmain₂, -⟩ :=
    run_announce_shutDown F hclean hseen (by decide)
  have hreopen : (daemon F (fun _ => none) 1).step s₁ (.reopen fun _ => (⟨0⟩, ⟨0⟩)) =
      some (.start store, .nothing) := by
    simp only [daemon, daemonStep, hopen]
  have hlife₂ : (daemon F (fun _ => none) 1).run s₁ secondLife =
      some (s₂, .nothing :: lifeShown) :=
    (daemon F _ 1).run_cons.mpr ⟨_, _, _, hreopen,
      (daemon F _ 1).run_append.mpr ⟨_, _, _, hsees₂, hstops₂, rfl⟩, rfl⟩
  refine ⟨s₁, s₂, hlife₁, hlife₂, ?_, hmain₂, persisted d₁, ?_⟩
  · exact ((daemon F _ 1).meets_append hlife₁).mpr
      ⟨hmeets₁, ((daemon F _ 1).meets_cons_of_step hreopen).mpr ⟨hmain₁, hmeets₂⟩⟩
  · rw [htable₁]
    exact shows_flushRow (filed_of_run hF hsees₁) (hcache₁ ▸ hd₁)

/-- From one life to the next, the file grows: the announcer is in it at both ends. -/
theorem open_grows_announcement : ∃ F : TextFormats, F.Lawful ∧ ∃ s₁ s₂ store₁ store₂,
    (daemon F (fun _ => none) 1).run (.start .empty) firstLife = some (s₁, lifeShown) ∧
      (daemon F (fun _ => none) 1).run s₁ secondLife = some (s₂, .nothing :: lifeShown) ∧
      SqliteStore.open F s₁.wb.store.table (fun _ => (⟨0⟩, ⟨0⟩)) = .ok store₁ ∧
      SqliteStore.open F s₂.wb.store.table (fun _ => (⟨0⟩, ⟨0⟩)) = .ok store₂ ∧
      (∃ d₁, store₁.cache.get announcer = some d₁) ∧
      ∀ m d₁, store₁.cache.get m = some d₁ →
        ∃ d₂, store₂.cache.get m = some d₂ ∧ Grows d₁ d₂ := by
  obtain ⟨F, hF, -⟩ := exists_lawful
  obtain ⟨s₁, s₂, h₁, h₂, -, -, d, hshown⟩ := run_twoLives hF
  obtain ⟨store₁, store₂, hopen₁, hopen₂, hgrow⟩ :=
    open_grows hF h₁ h₂ (fun _ => (⟨0⟩, ⟨0⟩)) fun _ => (⟨0⟩, ⟨0⟩)
  have hknown := ((opened_eq hF (filed_of_run hF h₁) hopen₁).2.2 announcer d).mpr hshown
  exact ⟨F, hF, s₁, s₂, store₁, store₂, h₁, h₂, hopen₁, hopen₂, ⟨d, hknown⟩, hgrow⟩

theorem open_wasCached_announcement : ∃ F : TextFormats, F.Lawful ∧ ∃ s outs store,
    (daemon F (fun _ => none) 1).run (.start .empty) (firstLife ++ secondLife) = some (s, outs) ∧
      SqliteStore.open F s.wb.store.table (fun _ => (⟨0⟩, ⟨0⟩)) = .ok store ∧
      ∀ m d, store.cache.get m = some d →
        WasCached F (fun _ => none) 1 (firstLife ++ secondLife) m d := by
  obtain ⟨F, hF, -⟩ := exists_lawful
  obtain ⟨s₁, s₂, h₁, h₂, -⟩ := run_twoLives hF
  have h := (daemon F _ 1).run_append.mpr ⟨_, _, _, h₁, h₂, rfl⟩
  obtain ⟨store, hopen, hcached⟩ := open_wasCached hF h fun _ => (⟨0⟩, ⟨0⟩)
  exact ⟨F, hF, s₂, _, store, h, hopen, hcached⟩

end EdgeShield.Daemon
