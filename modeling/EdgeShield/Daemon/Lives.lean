import EdgeShield.Daemon.Shutdown

/-!
# One table over many lives

A daemon that is shut down and started again goes on where it stopped.  In an orderly run no
mark is set in the window of a flush, and a start follows a last flush that has succeeded.
Then the store is at every moment the table that one run of the discovery engine builds from
all frames taken off the channel since the first start, over all lives (`Follows`), and what
the file shows at the end is the table of all frames that were ever accepted
(`open_eq_discovery`).  Equality is up to the milliseconds of the two times, which is what a
file keeps of them.
-/

namespace EdgeShield.Daemon

open EdgeShield.Lib EdgeShield.Common EdgeShield.Packet EdgeShield.Storage EdgeShield.Discovery

/-! ### Tables in a file's eyes -/

/-- Two tables that a file does not tell apart. -/
def SamePersisted (table table' : MemoryStore) : Prop :=
  ∀ m, (table.get m).map persisted = (table'.get m).map persisted

theorem SamePersisted.refl (table : MemoryStore) : SamePersisted table table := fun _ => rfl

theorem persisted_sourceRecord (x : Sighting) (now : Timestamp) (d : Device) :
    persisted (sourceRecord x now (persisted d)) = persisted (sourceRecord x now d) := by
  simp only [sourceRecord_eq, persisted, Timestamp.truncMillis_truncMillis]

theorem persisted_destinationRecord (x : Sighting) (now : Timestamp) (d : Device) :
    persisted (destinationRecord x now (persisted d)) = persisted (destinationRecord x now d) := by
  simp only [destinationRecord_eq, persisted, Timestamp.truncMillis_truncMillis]

theorem persisted_getD {r r' : Option Device} (h : r.map persisted = r'.map persisted)
    (fresh : Device) : persisted (r.getD fresh) = persisted (r'.getD fresh) := by
  cases r with
  | none =>
    cases r' with
    | none => rfl
    | some d => cases h
  | some d =>
    cases r' with
    | none => cases h
    | some d' => exact Option.some.inj h

/-- **The same update on the same tables.** -/
theorem SamePersisted.updateEndpoint {table table' : MemoryStore} (h : SamePersisted table table')
    {mac : MacAddress} {fresh : Device} {record : Device → Device}
    {changed : Device → Device → Bool} (hfresh : fresh.mac = mac)
    (hrecord : ∀ d, (record d).mac = d.mac)
    (hpersisted : ∀ d, persisted (record (persisted d)) = persisted (record d)) :
    SamePersisted (updateEndpoint table mac fresh record changed).1
      (updateEndpoint table' mac fresh record changed).1 := by
  intro m
  rw [get_updateEndpoint hfresh hrecord, get_updateEndpoint hfresh hrecord]
  split
  · rw [Option.map_some, Option.map_some, ← hpersisted, persisted_getD (h mac) fresh, hpersisted]
  · exact h m

section Runs

variable {F : TextFormats} {ouiMap : Nat → Option String} {capacity : Nat}

theorem SamePersisted.updateSource {table table' : MemoryStore} (h : SamePersisted table table')
    (x : Sighting) (clock : ClockReads) :
    SamePersisted (updateSource ouiMap table x clock).1 (updateSource ouiMap table' x clock).1 :=
  h.updateEndpoint (mac_newDevice ouiMap _ _) (mac_sourceRecord x _) (persisted_sourceRecord x _)

theorem SamePersisted.updateDestination {table table' : MemoryStore}
    (h : SamePersisted table table') (x : Sighting) (clock : ClockReads) :
    SamePersisted (updateDestination ouiMap table x clock).1
      (updateDestination ouiMap table' x clock).1 :=
  h.updateEndpoint (mac_newDevice ouiMap _ _) (mac_destinationRecord x _)
    (persisted_destinationRecord x _)

/-! ### The frames of a run -/

/-- The frames that got onto the channel. -/
def accepted (outs : List Observation) : List Frame :=
  outs.filterMap fun
    | .accepted frame => some frame
    | _ => none

/-- The frames that the pipeline took off. -/
def receivedFrames (outs : List Observation) : List Frame :=
  outs.filterMap fun
    | .received frame => some frame
    | _ => none

/-- The store while the pipeline is at a task, against the table of the frames that it has
taken off: the last of them may be half done. -/
inductive Follows (ouiMap : Nat → Option String) (frames : List Frame) (store : MemoryStore) :
    Task → Prop where
  | resting (task : Task) (table : MemoryStore) (events : List (List DiscoveryEvent))
      (rest : task = .receiving ∨ task = .finished)
      (run : (discovery ouiMap).run .new frames = some (table, events))
      (same : SamePersisted store table) : Follows ouiMap frames store task
  | source (done : List Frame) (frame : Frame) (x : Sighting) (table : MemoryStore)
      (events : List (List DiscoveryEvent)) (last : frames = done ++ [frame])
      (run : (discovery ouiMap).run .new done = some (table, events))
      (seen : sight frame.buf = .ok (some x)) (same : SamePersisted store table) :
      Follows ouiMap frames store (.source x frame.clock)
  | destination (done : List Frame) (frame : Frame) (x : Sighting) (table : MemoryStore)
      (events : List (List DiscoveryEvent)) (last : frames = done ++ [frame])
      (run : (discovery ouiMap).run .new done = some (table, events))
      (seen : sight frame.buf = .ok (some x)) (other : x.srcMac ≠ x.dstMac)
      (same : SamePersisted store (updateSource ouiMap table x frame.clock).1) :
      Follows ouiMap frames store (.destination x frame.clock)
  | crashed : Follows ouiMap frames store .crashed

theorem fst_updateDevices (table : MemoryStore) (x : Sighting) (clock : ClockReads) :
    (updateDevices ouiMap table x clock).1 =
      if x.srcMac ≠ x.dstMac then
        (updateDestination ouiMap (updateSource ouiMap table x clock).1 x clock).1
      else (updateSource ouiMap table x clock).1 := by
  simp only [updateDevices]
  split
  · rfl
  · rfl

theorem Follows.of_updateDevices {done : List Frame} {frame : Frame} {x : Sighting}
    {table store : MemoryStore} {events : List (List DiscoveryEvent)}
    (hrun : (discovery ouiMap).run .new done = some (table, events))
    (hx : sight frame.buf = .ok (some x))
    (hsame : SamePersisted store (updateDevices ouiMap table x frame.clock).1) :
    Follows ouiMap (done ++ [frame]) store .receiving := by
  have hstep : (discovery ouiMap).step table frame =
      some (updateDevices ouiMap table x frame.clock) :=
    (discovery_step ouiMap).mpr (.inr ⟨x, hx, rfl⟩)
  exact .resting _ _ _ (.inl rfl) ((discovery ouiMap).run_snoc.mpr ⟨_, _, _, hrun, hstep, rfl⟩) hsame

theorem Follows.receive {frames : List Frame} {store : MemoryStore}
    (h : Follows ouiMap frames store .receiving) (frame : Frame) :
    Follows ouiMap (frames ++ [frame]) store (.ofFrame frame) := by
  cases h with
  | resting _ table events rest run same =>
    unfold Task.ofFrame
    split
    · next hnone =>
      have hstep : (discovery ouiMap).step table frame = some (table, []) :=
        (discovery_step ouiMap).mpr (.inl ⟨hnone, rfl, rfl⟩)
      exact .resting _ _ _ (.inl rfl)
        ((discovery ouiMap).run_snoc.mpr ⟨_, _, _, run, hstep, rfl⟩) same
    · next x hx => exact .source frames frame x table events rfl run hx same
    · exact .crashed

theorem Follows.put {frames : List Frame} {store : MemoryStore} {task task' : Task} {d : Device}
    (h : Follows ouiMap frames store task)
    (hu : task.update ouiMap store = some (d, task')) :
    Follows ouiMap frames (store.upsert d) task' := by
  cases h with
  | resting _ table events rest run same =>
    rcases rest with rfl | rfl
    · cases hu
    · cases hu
  | source done frame x table events last run seen same =>
    subst last
    cases hu
    have hsame : SamePersisted
        (store.upsert (sourceRecord x frame.clock.packet (oldSource ouiMap store x frame.clock)))
        (updateSource ouiMap table x frame.clock).1 := same.updateSource x frame.clock
    split
    · next hne => exact .destination done frame x table events rfl run seen hne hsame
    · next heq =>
      refine .of_updateDevices run seen ?_
      rw [fst_updateDevices, if_neg heq]
      exact hsame
  | destination done frame x table events last run seen other same =>
    subst last
    cases hu
    refine .of_updateDevices run seen ?_
    rw [fst_updateDevices, if_pos other]
    exact same.updateDestination x frame.clock
  | crashed => cases hu

/-! ### Orderly runs follow the discovery engine -/

structure OneTable (F : TextFormats) (ouiMap : Nat → Option String) (outs : List Observation)
    (s : DaemonState) : Prop where
  tracked : Tracked (UpToDate F) s.wb
  follows : Follows ouiMap (receivedFrames outs) s.wb.store.cache s.task
  queue : accepted outs = receivedFrames outs ++ s.queue

theorem OneTable.shows_iff {outs : List Observation} {s : DaemonState}
    (h : OneTable F ouiMap outs s) (hF : F.Lawful) (hfiled : s.Filed F) (hclosing : Closing s)
    (hstop : s.main = .stopped true) (m : MacAddress) (d : Device) :
    Shows F s.wb.store.table m d ↔ (s.wb.store.cache.get m).map persisted = some d := by
  constructor
  · intro hs
    obtain ⟨d', hd', -⟩ := hfiled.behind m d hs
    rw [hd', Option.map_some]
    exact congrArg some ((h.tracked.fresh_of_stopped hclosing hstop hd').unique hF hs)
  · intro hd
    obtain ⟨d', hd', rfl⟩ := Option.map_eq_some_iff.mp hd
    exact h.tracked.fresh_of_stopped hclosing hstop hd'

theorem observe_nothing (outs : List Observation) :
    accepted (outs ++ [.nothing]) = accepted outs ∧
      receivedFrames (outs ++ [.nothing]) = receivedFrames outs := by
  simp [accepted, receivedFrames]

theorem OneTable.of_nothing {outs : List Observation} {s s' : DaemonState}
    (h : OneTable F ouiMap outs s) (htracked : Tracked (UpToDate F) s'.wb)
    (hcache : s'.wb.store.cache = s.wb.store.cache) (htask : s'.task = s.task)
    (hqueue : s'.queue = s.queue) : OneTable F ouiMap (outs ++ [.nothing]) s' := by
  obtain ⟨hacc, hrec⟩ := observe_nothing outs
  refine ⟨htracked, ?_, ?_⟩
  · rw [hrec, hcache, htask]
    exact h.follows
  · rw [hacc, hrec, hqueue]
    exact h.queue

theorem OneTable.step (hF : F.Lawful) {outs : List Observation} {s s' : DaemonState}
    {a : DaemonAction} {o : Observation} (h : OneTable F ouiMap outs s) (hfiled : s.Filed F)
    (hclosing : Closing s) (hok : Orderly s a) (hs : DaemonStep F ouiMap capacity s a s' o) :
    OneTable F ouiMap (outs ++ [o]) s' := by
  have htracked : Tracked (UpToDate F) s'.wb := by
    refine h.tracked.step hF refreshed_upToDate hfiled (fun ha m d hp _ hw => ?_) hs
    subst ha
    exact absurd hw (hok m hp)
  obtain ⟨hacc, hrec⟩ := observe_nothing outs
  cases hs with
  | accept frame capturing room =>
    refine ⟨htracked, ?_, ?_⟩
    · simpa [receivedFrames] using h.follows
    · have hq := h.queue
      simp only [accepted, receivedFrames] at hq
      simp [accepted, receivedFrames, hq]
  | receive frame rest queue task free =>
    have hrec' : receivedFrames (outs ++ [.received frame]) = receivedFrames outs ++ [frame] := by
      simp [receivedFrames]
    refine ⟨htracked, ?_, ?_⟩
    · rw [hrec']
      exact (task ▸ h.follows).receive frame
    · rw [hrec', show accepted (outs ++ [.received frame]) = accepted outs by simp [accepted],
        h.queue, queue, List.append_assoc]
      rfl
  | done queue capturing task free =>
    refine ⟨htracked, ?_, by rw [hacc, hrec]; exact h.queue⟩
    rw [hrec]
    cases task ▸ h.follows with
    | resting _ table events rest run same => exact .resting _ table events (.inr rfl) run same
  | put d task update free =>
    refine ⟨htracked, ?_, by rw [hacc, hrec]; exact h.queue⟩
    rw [hrec]
    exact h.follows.put update
  | reopen clock store opened =>
    have hstop : s.main = .stopped true := hok
    obtain ⟨htask, -⟩ := hclosing.stopped hstop
    obtain ⟨-, -, hcache⟩ := opened_eq hF hfiled opened
    have hget : ∀ m, store.cache.get m = (s.wb.store.cache.get m).map persisted := by
      intro m
      refine Option.ext fun d => ?_
      rw [hcache m d, h.shows_iff hF hfiled hclosing hstop]
    refine ⟨htracked, ?_, ?_⟩
    · rw [hrec]
      cases htask ▸ h.follows with
      | resting _ table events rest run same =>
        refine .resting _ table events (.inl rfl) run fun m => ?_
        show (store.cache.get m).map persisted = _
        rw [hget, Option.map_map, ← same m]
        exact congrArg (fun f => (s.wb.store.cache.get m).map f) (funext persisted_persisted)
    · rw [hacc, hrec, h.queue, (hclosing.finished htask).2.1]
      rfl
  | drop frame capturing => exact h.of_nothing htracked rfl rfl rfl
  | giveUp => exact h.of_nothing htracked rfl rfl rfl
  | mark m pending => exact h.of_nothing htracked rfl rfl rfl
  | snapshot macs idle all => exact h.of_nothing htracked rfl rfl rfl
  | write sqlError snapshot todo m phase => exact h.of_nothing htracked rfl rfl rfl
  | fail sqlError => exact h.of_nothing htracked rfl rfl rfl
  | beginClear snapshot phase => exact h.of_nothing htracked rfl rfl rfl
  | clear todo m phase => exact h.of_nothing htracked rfl rfl rfl
  | finish phase => exact h.of_nothing htracked rfl rfl rfl
  | stop main => exact h.of_nothing htracked rfl rfl rfl
  | finalFlush macs main task idle all => exact h.of_nothing htracked rfl rfl rfl

theorem oneTable_run (hF : F.Lawful) {s : DaemonState} {acts : List DaemonAction}
    {outs : List Observation}
    (h : (daemon F ouiMap capacity).run (.start .empty) acts = some (s, outs))
    (hok : (daemon F ouiMap capacity).Meets Orderly (.start .empty) acts) :
    OneTable F ouiMap outs s := by
  refine (daemon F ouiMap capacity).run_induction_of_meets
    (P := fun _ outs s => OneTable F ouiMap outs s) ?_ ?_ h hok
  · exact ⟨tracked_start, .resting _ .new [] (.inl rfl) rfl (.refl _), rfl⟩
  · intro acts outs s a s' o hr ih hok hs
    exact ih.step hF (filed_of_run hF hr) (closing_run hr) hok
      (daemonStep_of_step F ouiMap capacity hs)

/-- **One table over many lives.**  After an orderly run that ends with a last flush that has
succeeded, the next start finds the table that the discovery engine builds from all frames
accepted since the first start. -/
theorem open_eq_discovery (hF : F.Lawful) {s : DaemonState} {acts : List DaemonAction}
    {outs : List Observation}
    (h : (daemon F ouiMap capacity).run (.start .empty) acts = some (s, outs))
    (hok : (daemon F ouiMap capacity).Meets Orderly (.start .empty) acts)
    (hstop : s.main = .stopped true) (clock : DeviceRow → Timestamp × Timestamp) :
    ∃ table events store, (discovery ouiMap).run .new (accepted outs) = some (table, events) ∧
      SqliteStore.open F s.wb.store.table clock = .ok store ∧
      ∀ m, store.cache.get m = (table.get m).map persisted := by
  have hone := oneTable_run hF h hok
  have hfiled := filed_of_run hF h
  have hclosing := closing_run h
  obtain ⟨htask, -⟩ := hclosing.stopped hstop
  obtain ⟨store, hopen, -, -, hcache⟩ := open_of_filed hF hfiled clock
  have hqueue : accepted outs = receivedFrames outs := by
    rw [hone.queue, (hclosing.finished htask).2.1, List.append_nil]
  cases htask ▸ hone.follows with
  | resting _ table events rest run same =>
    refine ⟨table, events, store, hqueue ▸ run, hopen, fun m => ?_⟩
    rw [← same m]
    refine Option.ext fun d => ?_
    rw [hcache m d, hone.shows_iff hF hfiled hclosing hstop]

end Runs

theorem open_eq_discovery_announcement : ∃ F : TextFormats, F.Lawful ∧ ∃ s outs table events store,
    (daemon F (fun _ => none) 1).run (.start .empty) (firstLife ++ secondLife) = some (s, outs) ∧
      (discovery fun _ => none).run .new [announcement, announcement] = some (table, events) ∧
      SqliteStore.open F s.wb.store.table (fun _ => (⟨0⟩, ⟨0⟩)) = .ok store ∧
      ∀ m, store.cache.get m = (table.get m).map persisted := by
  obtain ⟨F, hF, -⟩ := exists_lawful
  obtain ⟨s₁, s₂, h₁, h₂, hok, hstop, -⟩ := run_twoLives hF
  have h := (daemon F _ 1).run_append.mpr ⟨_, _, _, h₁, h₂, rfl⟩
  obtain ⟨table, events, store, hrun, hopen, hget⟩ :=
    open_eq_discovery hF h hok hstop fun _ => (⟨0⟩, ⟨0⟩)
  exact ⟨F, hF, s₂, _, table, events, store, h, hrun, hopen, hget⟩

end EdgeShield.Daemon
