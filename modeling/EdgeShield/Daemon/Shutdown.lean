import EdgeShield.Daemon.Durability

/-!
# A graceful shutdown

When the last flush has succeeded, the file shows every device of the cache, in whatever
order the tasks took their steps (`open_keeps_inventory`).

`Tracked` follows the marks for a property of rows that writing a row brings about: that
there is a row, or that the row shows the record.  The first is never lost again, and so a
mark that is set in the window of a flush does no harm to it; the second is lost with the
next update, and there the mark must wait for the window to close.
-/

namespace EdgeShield.Daemon

open EdgeShield.Lib EdgeShield.Common EdgeShield.Packet EdgeShield.Storage EdgeShield.Discovery

section Runs

variable {F : TextFormats} {ouiMap : Nat → Option String} {capacity : Nat}

/-! ### Marks -/

/-- Without a mark and a mark to come, the row is fresh, and in the window of a flush a mark
is at most to come. -/
structure Tracked (fresh : Table → MacAddress → Device → Prop) (wb : WriteBackState) : Prop where
  clean : ∀ m d, wb.store.cache.get m = some d → m ∉ wb.store.dirty → wb.pending ≠ some m →
    fresh wb.store.table m d
  window : ∀ m d, wb.store.cache.get m = some d → wb.phase.Window m →
    fresh wb.store.table m d ∨ wb.pending = some m

/-- A property that holds of a row when it is written, and of one that is read from the file,
and that other rows do not touch. -/
structure Refreshed (F : TextFormats) (fresh : Table → MacAddress → Device → Prop) : Prop where
  written : ∀ {cache : MemoryStore} {table : Table} {m : MacAddress} {d : Device},
    Storage.Filed F cache table → cache.get m = some d → fresh (flushRow F cache table m) m d
  kept : ∀ {cache : MemoryStore} {table : Table} {m m' : MacAddress} {d : Device}, m ≠ m' →
    fresh table m d → fresh (flushRow F cache table m') m d
  opened : ∀ {table : Table} {m : MacAddress} {d : Device}, Shows F table m d → fresh table m d

def HasRow (F : TextFormats) (table : Table) (m : MacAddress) (_ : Device) : Prop :=
  ∃ d', Shows F table m d'

def UpToDate (F : TextFormats) (table : Table) (m : MacAddress) (d : Device) : Prop :=
  Shows F table m (persisted d)

theorem refreshed_hasRow : Refreshed F (HasRow F) where
  written h hd := ⟨_, shows_flushRow h hd⟩
  kept hm h := by
    obtain ⟨d', hs⟩ := h
    exact ⟨d', (shows_flushRow_of_ne hm).mpr hs⟩
  opened h := ⟨_, h⟩

theorem refreshed_upToDate : Refreshed F (UpToDate F) where
  written h hd := shows_flushRow h hd
  kept hm h := (shows_flushRow_of_ne hm).mpr h
  opened h := by rw [UpToDate, h.persisted]; exact h

section Tracking

variable {fresh : Table → MacAddress → Device → Prop}

theorem Refreshed.flushRow (hfresh : Refreshed F fresh) {cache : MemoryStore} {table : Table}
    (h : Storage.Filed F cache table) {m : MacAddress} {d : Device} (hd : cache.get m = some d)
    (m' : MacAddress) (hm : fresh table m d) : fresh (flushRow F cache table m') m d := by
  by_cases he : m = m'
  · subst he
    exact hfresh.written h hd
  · exact hfresh.kept he hm

theorem Tracked.put {wb : WriteBackState} (h : Tracked fresh wb) (hp : wb.pending = none)
    (d : Device) :
    Tracked fresh
      ⟨{ wb.store with cache := wb.store.cache.upsert d }, some d.mac, wb.phase⟩ where
  clean m d' hd' hm hne := by
    have hmac : m ≠ d.mac := fun he => hne (by rw [he])
    rw [MemoryStore.get_upsert, if_neg hmac] at hd'
    exact h.clean m d' hd' hm (by rw [hp]; exact nofun)
  window m d' hd' hw := by
    by_cases hmac : m = d.mac
    · exact .inr (by rw [hmac])
    · rw [MemoryStore.get_upsert, if_neg hmac] at hd'
      refine .inl ((h.window m d' hd' hw).resolve_right ?_)
      rw [hp]
      exact nofun

theorem Tracked.mark {wb : WriteBackState} (h : Tracked fresh wb) {m : MacAddress}
    (hp : wb.pending = some m)
    (hfresh : ∀ d, wb.store.cache.get m = some d → wb.phase.Window m →
      fresh wb.store.table m d) :
    Tracked fresh ⟨{ wb.store with dirty := insert m wb.store.dirty }, none, wb.phase⟩ where
  clean m' d hd hm _ := by
    rw [Finset.mem_insert, not_or] at hm
    refine h.clean m' d hd hm.2 ?_
    rw [hp]
    exact fun he => hm.1 (Option.some.inj he).symm
  window m' d hd hw := by
    left
    rcases h.window m' d hd hw with hf | hf
    · exact hf
    · rw [hp] at hf
      cases hf
      exact hfresh d hd hw

theorem Tracked.write (hrule : Refreshed F fresh) {wb : WriteBackState} (h : Tracked fresh wb)
    (hfiled : Storage.Filed F wb.store.cache wb.store.table) {snapshot todo : List MacAddress}
    {m : MacAddress} (hphase : wb.phase = .writing snapshot (m :: todo)) :
    Tracked fresh ⟨wb.store.writeOne F m, wb.pending, .writing snapshot todo⟩ where
  clean m' d hd hm hne := hrule.flushRow hfiled hd m (h.clean m' d hd hm hne)
  window m' d hd hw := by
    by_cases he : m' = m
    · subst he
      exact .inl (hrule.written hfiled hd)
    · have hw' : wb.phase.Window m' := by
        rw [hphase]
        exact ⟨hw.1, fun hc => (List.mem_cons.mp hc).elim he hw.2⟩
      exact (h.window m' d hd hw').imp_left (hrule.flushRow hfiled hd m)

theorem Tracked.clear {wb : WriteBackState} (h : Tracked fresh wb) {todo : List MacAddress}
    {m : MacAddress} (hphase : wb.phase = .clearing (m :: todo)) :
    Tracked fresh ⟨wb.store.clearOne m, wb.pending, .clearing todo⟩ where
  clean m' d hd hm hne := by
    by_cases he : m' = m
    · subst he
      exact (h.window m' d hd (by rw [hphase]; exact List.mem_cons_self)).resolve_right hne
    · exact h.clean m' d hd (fun hc => hm (Finset.mem_erase.mpr ⟨he, hc⟩)) hne
  window m' d hd hw := h.window m' d hd (by rw [hphase]; exact List.mem_cons_of_mem _ hw)

theorem Tracked.of_phase {wb : WriteBackState} (h : Tracked fresh wb) {phase : Phase}
    (hphase : ∀ m, phase.Window m → wb.phase.Window m) :
    Tracked fresh { wb with phase := phase } where
  clean := h.clean
  window m d hd hw := h.window m d hd (hphase m hw)

/-- **One step keeps the marks right**, when a mark that is set in a window finds its row
fresh. -/
theorem Tracked.step (hF : F.Lawful) (hrule : Refreshed F fresh) {s s' : DaemonState}
    {a : DaemonAction} {o : Observation} (h : Tracked fresh s.wb) (hfiled : s.Filed F)
    (hmark : a = .mark → ∀ m d, s.wb.pending = some m → s.wb.store.cache.get m = some d →
      s.wb.phase.Window m → fresh s.wb.store.table m d)
    (hs : DaemonStep F ouiMap capacity s a s' o) : Tracked fresh s'.wb := by
  have hnone : ∀ {macs : List MacAddress} {m : MacAddress}, ¬(Phase.writing macs macs).Window m :=
    fun hw => hw.2 hw.1
  cases hs with
  | put d task update free => exact h.put free d
  | mark m pending => exact h.mark pending fun d hd hw => hmark rfl m d pending hd hw
  | snapshot macs idle all => exact h.of_phase fun m hw => absurd hw hnone
  | write sqlError snapshot todo m phase => exact h.write hrule hfiled phase
  | fail sqlError => exact h.of_phase fun m hw => hw.elim
  | beginClear snapshot phase =>
    refine h.of_phase fun m hw => ?_
    rw [phase]
    exact ⟨hw, List.not_mem_nil⟩
  | clear todo m phase => exact h.clear phase
  | finish phase => exact h.of_phase fun m hw => hw.elim
  | finalFlush macs main task idle all => exact h.of_phase fun m hw => absurd hw hnone
  | reopen clock store opened =>
    obtain ⟨-, htable, hcache⟩ := opened_eq hF hfiled opened
    constructor
    · intro m d hd _ _
      show fresh store.table m d
      rw [htable]
      exact hrule.opened ((hcache m d).mp hd)
    · intro m d _ hw
      exact hw.elim
  | _ => exact h

theorem tracked_start : Tracked fresh (WriteBackState.start .empty) where
  clean _ _ h := by cases h
  window _ _ h := by cases h

end Tracking

/-! ### The last flush -/

/-- The MACs that a flush has read and not cleared. -/
def flushedMacs : Phase → List MacAddress
  | .idle => []
  | .writing snapshot _ => snapshot
  | .clearing todo => todo

/-- After the end of the pipeline nothing is marked, and the last flush clears all marks. -/
structure Closing (s : DaemonState) : Prop where
  finished : s.task = .finished → s.capturing = false ∧ s.queue = [] ∧ s.wb.pending = none
  flushing : s.main = .flushing →
    s.task = .finished ∧ s.wb.store.dirty ⊆ (flushedMacs s.wb.phase).toFinset
  stopped : s.main = .stopped true → s.task = .finished ∧ s.wb.store.dirty = ∅

theorem closing_start (store : SqliteStore) : Closing (.start store) where
  finished h := by cases h
  flushing h := by cases h
  stopped h := by cases h

theorem flushed_eq_flushing {main : MainPhase} {result : Bool} :
    main.flushed result ≠ .flushing := by
  cases main with
  | flushing => exact nofun
  | serving => exact nofun
  | draining => exact nofun
  | stopped result' => exact nofun

theorem flushed_eq_stopped {main : MainPhase} {result : Bool}
    (h : main.flushed result = .stopped true) :
    (main = .flushing ∧ result = true) ∨ main = .stopped true := by
  cases main with
  | flushing => cases h; exact .inl ⟨rfl, rfl⟩
  | serving => cases h
  | draining => cases h
  | stopped result' => exact .inr h

theorem ofFrame_ne_finished (frame : Frame) : Task.ofFrame frame ≠ .finished := by
  unfold Task.ofFrame
  split
  · exact nofun
  · exact nofun
  · exact nofun

theorem update_ne_finished {store : MemoryStore} {task task' : Task} {d : Device}
    (h : task.update ouiMap store = some (d, task')) : task ≠ .finished ∧ task' ≠ .finished := by
  cases task with
  | source x clock =>
    cases h
    refine ⟨nofun, ?_⟩
    split
    · exact nofun
    · exact nofun
  | destination x clock => cases h; exact ⟨nofun, nofun⟩
  | receiving => cases h
  | finished => cases h
  | crashed => cases h

theorem Closing.step {s s' : DaemonState} {a : DaemonAction} {o : Observation} (h : Closing s)
    (hs : DaemonStep F ouiMap capacity s a s' o) : Closing s' := by
  cases hs with
  | drop frame capturing => exact h
  | accept frame capturing room =>
    refine ⟨fun ht => ?_, h.flushing, h.stopped⟩
    rw [(h.finished ht).1] at capturing
    cases capturing
  | giveUp => exact ⟨fun ht => ⟨rfl, (h.finished ht).2⟩, h.flushing, h.stopped⟩
  | receive frame rest queue task free =>
    refine ⟨fun ht => absurd ht (ofFrame_ne_finished frame), fun hm => ?_, fun hm => ?_⟩
    · rw [(h.flushing hm).1] at task
      cases task
    · rw [(h.stopped hm).1] at task
      cases task
  | done queue capturing task free =>
    exact ⟨fun _ => ⟨capturing, queue, free⟩, fun hm => ⟨rfl, (h.flushing hm).2⟩,
      fun hm => ⟨rfl, (h.stopped hm).2⟩⟩
  | put d task update free =>
    obtain ⟨hne, hne'⟩ := update_ne_finished update
    exact ⟨fun ht => absurd ht hne', fun hm => absurd (h.flushing hm).1 hne,
      fun hm => absurd (h.stopped hm).1 hne⟩
  | mark m pending =>
    have hne : s.task ≠ .finished := by
      intro ht
      rw [(h.finished ht).2.2] at pending
      cases pending
    exact ⟨fun ht => absurd ht hne, fun hm => absurd (h.flushing hm).1 hne,
      fun hm => absurd (h.stopped hm).1 hne⟩
  | snapshot macs idle all =>
    exact ⟨h.finished, fun hm => ⟨(h.flushing hm).1, all.symm.subset⟩, h.stopped⟩
  | write sqlError snapshot todo m phase =>
    refine ⟨h.finished, fun hm => ⟨(h.flushing hm).1, ?_⟩, h.stopped⟩
    have hsub := (h.flushing hm).2
    rw [phase] at hsub
    exact hsub
  | fail sqlError =>
    refine ⟨h.finished, fun hm => absurd hm flushed_eq_flushing, fun hm => ?_⟩
    rcases flushed_eq_stopped hm with ⟨-, hr⟩ | hm
    · cases hr
    · exact h.stopped hm
  | beginClear snapshot phase =>
    refine ⟨h.finished, fun hm => ⟨(h.flushing hm).1, ?_⟩, h.stopped⟩
    have hsub := (h.flushing hm).2
    rw [phase] at hsub
    exact hsub
  | clear todo m phase =>
    refine ⟨h.finished, fun hm => ⟨(h.flushing hm).1, ?_⟩, fun hm => ⟨(h.stopped hm).1, ?_⟩⟩
    · have hsub := (h.flushing hm).2
      rw [phase, flushedMacs, List.toFinset_cons] at hsub
      exact Finset.subset_insert_iff.mp hsub
    · show s.wb.store.dirty.erase m = ∅
      rw [(h.stopped hm).2, Finset.erase_empty]
  | finish phase =>
    refine ⟨h.finished, fun hm => absurd hm flushed_eq_flushing, fun hm => ?_⟩
    rcases flushed_eq_stopped hm with ⟨hm, -⟩ | hm
    · obtain ⟨ht, hsub⟩ := h.flushing hm
      rw [phase] at hsub
      exact ⟨ht, Finset.subset_empty.mp hsub⟩
    · exact h.stopped hm
  | stop main =>
    exact ⟨fun ht => ⟨rfl, (h.finished ht).2⟩, nofun, nofun⟩
  | finalFlush macs main task idle all =>
    exact ⟨h.finished, fun _ => ⟨task, all.symm.subset⟩, nofun⟩
  | reopen clock store opened => exact closing_start store

theorem closing_run {s : DaemonState} {acts : List DaemonAction} {outs : List Observation}
    (h : (daemon F ouiMap capacity).run (.start .empty) acts = some (s, outs)) : Closing s :=
  (daemon F ouiMap capacity).run_induction (P := fun _ _ s => Closing s) (closing_start _)
    (fun _ _ _ _ _ _ _ hs hstep => hs.step (daemonStep_of_step F ouiMap capacity hstep)) h

theorem Tracked.fresh_of_stopped {fresh : Table → MacAddress → Device → Prop} {s : DaemonState}
    (h : Tracked fresh s.wb) (hclosing : Closing s) (hstop : s.main = .stopped true)
    {m : MacAddress} {d : Device} (hd : s.wb.store.cache.get m = some d) :
    fresh s.wb.store.table m d := by
  obtain ⟨htask, hdirty⟩ := hclosing.stopped hstop
  refine h.clean m d hd (by rw [hdirty]; exact Finset.notMem_empty m) ?_
  rw [(hclosing.finished htask).2.2]
  exact nofun

/-! ### The inventory -/

/-- Marks and flushes are about devices of the cache, and a row that was written in the
running flush is there. -/
structure KnownToCache (F : TextFormats) (wb : WriteBackState) : Prop where
  marked : ∀ m ∈ wb.store.dirty, ∃ d, wb.store.cache.get m = some d
  pending : ∀ m, wb.pending = some m → ∃ d, wb.store.cache.get m = some d
  flushed : ∀ m ∈ flushedMacs wb.phase, ∃ d, wb.store.cache.get m = some d
  todo : ∀ snapshot todo, wb.phase = .writing snapshot todo → todo ⊆ snapshot
  shown : ∀ m d, wb.phase.Window m → HasRow F wb.store.table m d

theorem get_upsert_isSome {store : MemoryStore} {m : MacAddress}
    (h : ∃ d, store.get m = some d) (d : Device) : ∃ d', (store.upsert d).get m = some d' := by
  rw [MemoryStore.get_upsert]
  split
  · exact ⟨d, rfl⟩
  · exact h

theorem KnownToCache.snapshot {wb : WriteBackState} (h : KnownToCache F wb) {macs : List MacAddress}
    (all : macs.toFinset = wb.store.dirty) :
    KnownToCache F { wb with phase := .writing macs macs } where
  marked := h.marked
  pending := h.pending
  flushed m hm := h.marked m (all ▸ List.mem_toFinset.mpr hm)
  todo snapshot todo he := by cases he; exact List.Subset.refl _
  shown _ _ hw := absurd hw.1 hw.2

theorem KnownToCache.step (hF : F.Lawful) {s s' : DaemonState} {a : DaemonAction} {o : Observation}
    (h : KnownToCache F s.wb) (hfiled : s.Filed F) (hs : DaemonStep F ouiMap capacity s a s' o) :
    KnownToCache F s'.wb := by
  cases hs with
  | put d task update free =>
    exact
      { marked := fun m hm => get_upsert_isSome (h.marked m hm) d
        pending := fun m hm => by
          cases hm
          exact ⟨d, by rw [MemoryStore.get_upsert, if_pos rfl]⟩
        flushed := fun m hm => get_upsert_isSome (h.flushed m hm) d
        todo := h.todo
        shown := h.shown }
  | mark m pending =>
    refine { h with marked := fun m' hm => ?_, pending := fun m' hm => by cases hm }
    rcases Finset.mem_insert.mp hm with rfl | hm
    · exact h.pending m' pending
    · exact h.marked m' hm
  | snapshot macs idle all => exact h.snapshot all
  | finalFlush macs main task idle all => exact h.snapshot all
  | write sqlError snapshot todo m phase =>
    have hsub := h.todo snapshot (m :: todo) phase
    have hflushed := h.flushed
    rw [phase] at hflushed
    refine
      { marked := h.marked
        pending := h.pending
        flushed := hflushed
        todo := fun _ _ he => by
          cases he
          exact fun m' hm' => hsub (List.mem_cons_of_mem m hm')
        shown := fun m' d hw => ?_ }
    by_cases he : m' = m
    · subst he
      obtain ⟨d', hd'⟩ := hflushed m' hw.1
      exact refreshed_hasRow.written (d := d') hfiled hd'
    · refine refreshed_hasRow.kept he (h.shown m' d ?_)
      rw [phase]
      exact ⟨hw.1, fun hc => (List.mem_cons.mp hc).elim he hw.2⟩
  | fail sqlError =>
    exact
      { h with
        flushed := fun m hm => absurd hm List.not_mem_nil
        todo := nofun
        shown := fun m d hw => hw.elim }
  | beginClear snapshot phase =>
    have hflushed := h.flushed
    rw [phase] at hflushed
    refine { h with flushed := hflushed, todo := nofun, shown := fun m d hw => h.shown m d ?_ }
    rw [phase]
    exact ⟨hw, List.not_mem_nil⟩
  | clear todo m phase =>
    have hflushed := h.flushed
    rw [phase] at hflushed
    refine
      { marked := fun m' hm => h.marked m' (Finset.mem_of_mem_erase hm)
        pending := h.pending
        flushed := fun m' hm => hflushed m' (List.mem_cons_of_mem _ hm)
        todo := nofun
        shown := fun m' d hw => h.shown m' d ?_ }
    rw [phase]
    exact List.mem_cons_of_mem _ hw
  | finish phase =>
    exact
      { h with
        flushed := fun m hm => absurd hm List.not_mem_nil
        todo := nofun
        shown := fun m d hw => hw.elim }
  | reopen clock store opened =>
    obtain ⟨hdirty, -, -⟩ := opened_eq hF hfiled opened
    exact
      { marked := fun m hm => by
          rw [show (DaemonState.start store).wb.store.dirty = ∅ from hdirty] at hm
          exact absurd hm (Finset.notMem_empty m)
        pending := nofun
        flushed := fun m hm => absurd hm List.not_mem_nil
        todo := nofun
        shown := fun m d hw => hw.elim }
  | _ => exact h

theorem knownToCache_start : KnownToCache F (WriteBackState.start .empty) where
  marked m hm := absurd hm (Finset.notMem_empty m)
  pending := nofun
  flushed _ hm := absurd hm List.not_mem_nil
  todo := nofun
  shown _ _ hw := hw.elim

theorem known_run (hF : F.Lawful) {s : DaemonState} {acts : List DaemonAction}
    {outs : List Observation}
    (h : (daemon F ouiMap capacity).run (.start .empty) acts = some (s, outs)) :
    KnownToCache F s.wb ∧ Tracked (HasRow F) s.wb := by
  refine (daemon F ouiMap capacity).run_induction
    (P := fun _ _ s => KnownToCache F s.wb ∧ Tracked (HasRow F) s.wb)
    ⟨knownToCache_start, tracked_start⟩ ?_ h
  intro acts outs s a s' o hr ih hstep
  have hfiled := filed_of_run hF hr
  have hs := daemonStep_of_step F ouiMap capacity hstep
  exact ⟨ih.1.step hF hfiled hs,
    ih.2.step hF refreshed_hasRow hfiled (fun _ m d _ _ hw => ih.1.shown m d hw) hs⟩

/-- **The inventory survives a shutdown.**  When the last flush has succeeded, the next start
knows the devices that the daemon knew, and no others.  No order of the steps loses one. -/
theorem open_keeps_inventory (hF : F.Lawful) {s : DaemonState} {acts : List DaemonAction}
    {outs : List Observation}
    (h : (daemon F ouiMap capacity).run (.start .empty) acts = some (s, outs))
    (hstop : s.main = .stopped true) (clock : DeviceRow → Timestamp × Timestamp) :
    ∃ store, SqliteStore.open F s.wb.store.table clock = .ok store ∧
      ∀ m, (∃ d, store.cache.get m = some d) ↔ ∃ d, s.wb.store.cache.get m = some d := by
  have hfiled := filed_of_run hF h
  obtain ⟨store, hopen, -, -, hcache⟩ := open_of_filed hF hfiled clock
  refine ⟨store, hopen, fun m => ⟨?_, ?_⟩⟩
  · rintro ⟨d, hd⟩
    obtain ⟨d', hd', -⟩ := hfiled.behind m d ((hcache m d).mp hd)
    exact ⟨d', hd'⟩
  · rintro ⟨d, hd⟩
    obtain ⟨d', hs⟩ := (known_run hF h).2.fresh_of_stopped (closing_run h) hstop hd
    exact ⟨d', (hcache m d').mpr hs⟩

end Runs

theorem open_keeps_inventory_announcer : ∃ F : TextFormats, F.Lawful ∧ ∃ s outs store d,
    (daemon F (fun _ => none) 1).run (.start .empty) (firstLife ++ secondLife) = some (s, outs) ∧
      SqliteStore.open F s.wb.store.table (fun _ => (⟨0⟩, ⟨0⟩)) = .ok store ∧
      store.cache.get announcer = some d := by
  obtain ⟨F, hF, -⟩ := exists_lawful
  obtain ⟨s₁, s₂, h₁, h₂, -, hstop, d₁, hshown⟩ := run_twoLives hF
  have h := (daemon F _ 1).run_append.mpr ⟨_, _, _, h₁, h₂, rfl⟩
  obtain ⟨store, hopen, hget⟩ := open_keeps_inventory hF h hstop fun _ => (⟨0⟩, ⟨0⟩)
  obtain ⟨d₂, hd₂, -⟩ := tableGrows_run hF (filed_of_run hF h₁) h₂ announcer d₁ hshown
  obtain ⟨d, hd, -⟩ := (filed_of_run hF h).behind announcer d₂ hd₂
  obtain ⟨d', hd'⟩ := (hget announcer).mpr ⟨d, hd⟩
  exact ⟨F, hF, s₂, _, store, d', h, hopen, hd'⟩

end EdgeShield.Daemon
