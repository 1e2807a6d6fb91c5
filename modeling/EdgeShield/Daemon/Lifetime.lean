import EdgeShield.Daemon.Pipeline
import EdgeShield.Storage.Shown
import EdgeShield.Storage.WriteBack

/-!
# The life of the daemon

`crates/daemon/src/daemon.rs`, `run` and `flush_task`, and the capture thread of
`crates/packet/src/capture.rs`, as they share one device store: the capture thread puts
frames on a bounded channel, the pipeline task takes them off and updates the store one
endpoint after the other, and the flush task writes the store to the file.  On a signal
the capture thread is stopped, the pipeline works off what is left on the channel, and a
last flush follows.  `daemon` is the machine of these steps in any order.

The connection is behind a mutex that a flush holds to its end, so there is one flush at a
time, and the last one waits for one that is running.  A panic in the pipeline ends its
task; `run` then returns before the last flush.

`reopen` is the next start on the same file, and nothing else of the state is left.  It may
come at any time: after the last flush, after an error, or when the process is killed.
-/

namespace EdgeShield.Daemon

open EdgeShield.Lib EdgeShield.Common EdgeShield.Packet EdgeShield.Storage EdgeShield.Discovery

/-- Where the pipeline task is: at `recv`, about to update the source or the destination of
a frame, at its end, or stopped by a panic. -/
inductive Task where
  | receiving
  | source (x : Sighting) (clock : ClockReads)
  | destination (x : Sighting) (clock : ClockReads)
  | finished
  | crashed

/-- Where `run` is: waiting for a signal, for the pipeline task, for the last flush, or at
its end, with the result of that flush. -/
inductive MainPhase where
  | serving
  | draining
  | flushing
  | stopped (flushed : Bool)
  deriving DecidableEq

structure DaemonState where
  queue : List Frame
  capturing : Bool
  task : Task
  main : MainPhase
  wb : WriteBackState

def DaemonState.start (store : SqliteStore) : DaemonState where
  queue := []
  capturing := true
  task := .receiving
  main := .serving
  wb := .start store

inductive DaemonAction where
  | capture (frame : Frame)
  | giveUp
  | receive
  | put
  | mark
  | snapshot (macs : List MacAddress)
  | write (sqlError : Option String)
  | beginClear
  | clear
  | finish
  | stop
  | finalFlush (macs : List MacAddress)
  | reopen (clock : DeviceRow → Timestamp × Timestamp)

inductive Observation where
  | accepted (frame : Frame)
  | received (frame : Frame)
  | nothing

section Machine

variable (F : TextFormats) (ouiMap : Nat → Option String) (capacity : Nat)

def Task.ofFrame (frame : Frame) : Task :=
  match sight frame.buf with
  | .ok none => .receiving
  | .ok (some x) => .source x frame.clock
  | .error _ => .crashed

def Task.update (store : MemoryStore) : Task → Option (Device × Task)
  | .source x clock =>
    some (sourceRecord x clock.packet (oldSource ouiMap store x clock),
      if x.srcMac ≠ x.dstMac then .destination x clock else .receiving)
  | .destination x clock =>
    some (destinationRecord x clock.packet (oldDestination ouiMap store x clock), .receiving)
  | _ => none

def SqliteStore.writeError (store : SqliteStore) (m : MacAddress) (sqlError : Option String) :
    Option String :=
  (store.cache.get m).bind (executeError fun _ => sqlError)

/-- `run` when a flush returns: the last one is the end. -/
def MainPhase.flushed (result : Bool) : MainPhase → MainPhase
  | .flushing => .stopped result
  | main => main

def DaemonState.writeBack (s : DaemonState) (a : WriteBackAction) : Option DaemonState :=
  ((Storage.writeBack F).step s.wb a).map fun r => { s with wb := r.1 }

def daemonStep (s : DaemonState) : DaemonAction → Option (DaemonState × Observation)
  | .capture frame =>
    if s.capturing then
      match s.task with
      -- the receiver is dropped with the task
      | .crashed => some (s, .nothing)
      | _ =>
        if s.queue.length < capacity then
          some ({ s with queue := s.queue ++ [frame] }, .accepted frame)
        else some (s, .nothing)
    else none
  | .giveUp => if s.capturing then some ({ s with capturing := false }, .nothing) else none
  | .receive =>
    match s.task, s.wb.pending with
    | .receiving, none =>
      match s.queue with
      | frame :: rest => some ({ s with queue := rest, task := .ofFrame frame }, .received frame)
      | [] =>
        -- `recv` returns `None` when the sender is dropped and the channel is empty
        if s.capturing then none else some ({ s with task := .finished }, .nothing)
    | _, _ => none
  | .put =>
    match s.task.update ouiMap s.wb.store.cache with
    | some (d, task) => ({ s with task := task }.writeBack F (.put d)).map (·, .nothing)
    | none => none
  | .mark => (s.writeBack F .mark).map (·, .nothing)
  | .snapshot macs => (s.writeBack F (.snapshot macs)).map (·, .nothing)
  | .write sqlError =>
    match s.wb.phase with
    | .writing _ (m :: _) =>
      match SqliteStore.writeError s.wb.store m sqlError with
      -- `flush` returns the error, and all marks stay
      | some _ =>
        some ({ s with main := s.main.flushed false, wb := { s.wb with phase := .idle } }, .nothing)
      | none => (s.writeBack F .write).map (·, .nothing)
    | _ => none
  | .beginClear => (s.writeBack F .beginClear).map (·, .nothing)
  | .clear => (s.writeBack F .clear).map (·, .nothing)
  | .finish =>
    ({ s with main := s.main.flushed true }.writeBack F .finish).map (·, .nothing)
  | .stop =>
    match s.main with
    | .serving => some ({ s with capturing := false, main := .draining }, .nothing)
    | _ => none
  | .finalFlush macs =>
    match s.main, s.task with
    | .draining, .finished =>
      ({ s with main := .flushing }.writeBack F (.snapshot macs)).map (·, .nothing)
    | _, _ => none
  | .reopen clock =>
    match SqliteStore.open F s.wb.store.table clock with
    | .ok store => some (.start store, .nothing)
    | .error _ => none

def daemon : Machine DaemonState DaemonAction Observation where
  step := daemonStep F ouiMap capacity

/-! ### Steps -/

/-- The steps, one constructor for each kind: a step of the write-back cache (`cache`)
stands for a mark and for those of a flush. -/
inductive DaemonStep (s : DaemonState) : DaemonAction → DaemonState → Observation → Prop where
  | drop (frame : Frame) (capturing : s.capturing = true) : DaemonStep s (.capture frame) s .nothing
  | accept (frame : Frame) (capturing : s.capturing = true) (room : s.queue.length < capacity) :
      DaemonStep s (.capture frame) { s with queue := s.queue ++ [frame] } (.accepted frame)
  | giveUp : DaemonStep s .giveUp { s with capturing := false } .nothing
  | receive (frame : Frame) (rest : List Frame) (queue : s.queue = frame :: rest)
      (task : s.task = .receiving) (free : s.wb.pending = none) :
      DaemonStep s .receive { s with queue := rest, task := .ofFrame frame } (.received frame)
  | done (queue : s.queue = []) (capturing : s.capturing = false) (task : s.task = .receiving)
      (free : s.wb.pending = none) : DaemonStep s .receive { s with task := .finished } .nothing
  | put (d : Device) (task : Task) (update : s.task.update ouiMap s.wb.store.cache = some (d, task))
      (free : s.wb.pending = none) :
      DaemonStep s .put
        { s with
          task := task
          wb := ⟨{ s.wb.store with cache := s.wb.store.cache.upsert d }, some d.mac, s.wb.phase⟩ }
        .nothing
  | mark (m : MacAddress) (pending : s.wb.pending = some m) :
      DaemonStep s .mark
        { s with
          wb := ⟨{ s.wb.store with dirty := insert m s.wb.store.dirty }, none, s.wb.phase⟩ }
        .nothing
  | snapshot (macs : List MacAddress) (idle : s.wb.phase = .idle)
      (all : macs.toFinset = s.wb.store.dirty) :
      DaemonStep s (.snapshot macs) { s with wb := { s.wb with phase := .writing macs macs } }
        .nothing
  | write (sqlError : Option String) (snapshot todo : List MacAddress) (m : MacAddress)
      (phase : s.wb.phase = .writing snapshot (m :: todo)) :
      DaemonStep s (.write sqlError)
        { s with wb := ⟨s.wb.store.writeOne F m, s.wb.pending, .writing snapshot todo⟩ } .nothing
  | fail (sqlError : Option String) :
      DaemonStep s (.write sqlError)
        { s with main := s.main.flushed false, wb := { s.wb with phase := .idle } } .nothing
  | beginClear (snapshot : List MacAddress) (phase : s.wb.phase = .writing snapshot []) :
      DaemonStep s .beginClear { s with wb := { s.wb with phase := .clearing snapshot } } .nothing
  | clear (todo : List MacAddress) (m : MacAddress) (phase : s.wb.phase = .clearing (m :: todo)) :
      DaemonStep s .clear
        { s with wb := ⟨s.wb.store.clearOne m, s.wb.pending, .clearing todo⟩ } .nothing
  | finish (phase : s.wb.phase = .clearing []) :
      DaemonStep s .finish
        { s with main := s.main.flushed true, wb := { s.wb with phase := .idle } } .nothing
  | stop (main : s.main = .serving) :
      DaemonStep s .stop { s with capturing := false, main := .draining } .nothing
  | finalFlush (macs : List MacAddress) (main : s.main = .draining) (task : s.task = .finished)
      (idle : s.wb.phase = .idle) (all : macs.toFinset = s.wb.store.dirty) :
      DaemonStep s (.finalFlush macs)
        { s with main := .flushing, wb := { s.wb with phase := .writing macs macs } } .nothing
  | reopen (clock : DeviceRow → Timestamp × Timestamp) (store : SqliteStore)
      (opened : SqliteStore.open F s.wb.store.table clock = .ok store) :
      DaemonStep s (.reopen clock) (.start store) .nothing

theorem writeBack_eq_some {s s' : DaemonState} {a : WriteBackAction}
    (h : s.writeBack F a = some s') :
    ∃ wb, WriteBackStep F s.wb a wb ∧ s' = { s with wb := wb } := by
  obtain ⟨⟨wb, o⟩, hs, rfl⟩ := Option.map_eq_some_iff.mp h
  exact ⟨wb, writeBackStep_of_step F hs, rfl⟩

theorem map_nothing_eq_some {r : Option DaemonState} {s : DaemonState} {o : Observation}
    (h : r.map (·, Observation.nothing) = some (s, o)) : r = some s ∧ o = .nothing := by
  obtain ⟨t, rfl, he⟩ := Option.map_eq_some_iff.mp h
  cases he
  exact ⟨rfl, rfl⟩

theorem daemonStep_of_step {s s' : DaemonState} {a : DaemonAction} {o : Observation}
    (h : (daemon F ouiMap capacity).step s a = some (s', o)) :
    DaemonStep F ouiMap capacity s a s' o := by
  simp only [daemon] at h
  cases a with
  | capture frame =>
    simp only [daemonStep] at h
    split at h
    · next hc =>
      split at h
      · cases h
        exact .drop frame hc
      · split at h
        · next hroom => cases h; exact .accept frame hc hroom
        · cases h; exact .drop frame hc
    · cases h
  | giveUp =>
    simp only [daemonStep] at h
    split at h
    · cases h; exact .giveUp
    · cases h
  | receive =>
    simp only [daemonStep] at h
    split at h
    · next htask hfree =>
      split at h
      · next frame rest hq => cases h; exact .receive frame rest hq htask hfree
      · next hq =>
        split at h
        · cases h
        · next hc =>
          cases h
          exact .done hq (Bool.eq_false_iff.mpr hc) htask hfree
    · cases h
  | put =>
    simp only [daemonStep] at h
    split at h
    · next d task hu =>
      obtain ⟨hw, rfl⟩ := map_nothing_eq_some h
      obtain ⟨wb, hstep, rfl⟩ := writeBack_eq_some F hw
      cases hstep with
      | put d free => exact .put d task hu free
    · cases h
  | mark =>
    obtain ⟨hw, rfl⟩ := map_nothing_eq_some h
    obtain ⟨wb, hstep, rfl⟩ := writeBack_eq_some F hw
    cases hstep with
    | mark m pending => exact .mark m pending
  | snapshot macs =>
    obtain ⟨hw, rfl⟩ := map_nothing_eq_some h
    obtain ⟨wb, hstep, rfl⟩ := writeBack_eq_some F hw
    cases hstep with
    | snapshot macs idle nodup all => exact .snapshot macs idle all
  | write sqlError =>
    simp only [daemonStep] at h
    split at h
    · next snapshot m todo hphase =>
      split at h
      · cases h
        exact .fail sqlError
      · obtain ⟨hw, rfl⟩ := map_nothing_eq_some h
        obtain ⟨wb, hstep, rfl⟩ := writeBack_eq_some F hw
        cases hstep with
        | write snapshot todo m phase => exact .write sqlError snapshot todo m phase
    · cases h
  | beginClear =>
    obtain ⟨hw, rfl⟩ := map_nothing_eq_some h
    obtain ⟨wb, hstep, rfl⟩ := writeBack_eq_some F hw
    cases hstep with
    | beginClear snapshot phase => exact .beginClear snapshot phase
  | clear =>
    obtain ⟨hw, rfl⟩ := map_nothing_eq_some h
    obtain ⟨wb, hstep, rfl⟩ := writeBack_eq_some F hw
    cases hstep with
    | clear todo m phase => exact .clear todo m phase
  | finish =>
    obtain ⟨hw, rfl⟩ := map_nothing_eq_some h
    obtain ⟨wb, hstep, rfl⟩ := writeBack_eq_some F hw
    cases hstep with
    | finish phase => exact .finish phase
  | stop =>
    simp only [daemonStep] at h
    split at h
    · next hmain => cases h; exact .stop hmain
    · cases h
  | finalFlush macs =>
    simp only [daemonStep] at h
    split at h
    · next hmain htask =>
      obtain ⟨hw, rfl⟩ := map_nothing_eq_some h
      obtain ⟨wb, hstep, rfl⟩ := writeBack_eq_some F hw
      cases hstep with
      | snapshot macs idle nodup all => exact .finalFlush macs hmain htask idle all
    · cases h
  | reopen clock =>
    simp only [daemonStep] at h
    split at h
    · next store hopen => cases h; exact .reopen clock store hopen
    · cases h

end Machine

/-- A mark is set outside the window of its MAC, and a start follows a last flush that has
succeeded. -/
def Orderly (s : DaemonState) : DaemonAction → Prop
  | .mark => ∀ m, s.wb.pending = some m → ¬s.wb.phase.Window m
  | .reopen _ => s.main = .stopped true
  | _ => True

/-! ### A short life -/

/-- An ARP frame that `00:00:00:00:00:01` sends to itself. -/
def announcement : Frame where
  buf := ⟨[0, 0, 0, 0, 0, 1, 0, 0, 0, 0, 0, 1, 8, 6], 14⟩
  clock := ⟨⟨0⟩, ⟨0⟩, ⟨0⟩⟩

def announcer : MacAddress := .ofBytes 0 0 0 0 0 1

def announce : List DaemonAction := [.capture announcement, .receive, .put, .mark]

def shutDown : List DaemonAction :=
  [.stop, .receive, .finalFlush [announcer], .write none, .beginClear, .clear, .finish]

theorem sight_announcement : ∃ x, sight announcement.buf = .ok (some x) ∧
    x.srcMac = announcer ∧ x.dstMac = announcer ∧ x.packetLen = 14 := by
  have h : (Except.toOption (sight announcement.buf)).join.map
      (fun x => (x.srcMac, x.dstMac, x.packetLen)) = some (announcer, announcer, 14) := by
    decide +kernel
  cases hx : sight announcement.buf with
  | error e => rw [hx] at h; cases h
  | ok r =>
    cases r with
    | none => rw [hx] at h; cases h
    | some x =>
      rw [hx] at h
      simp only [Except.toOption, Option.join_some, Option.map_some, Option.some.injEq,
        Prod.mk.injEq] at h
      exact ⟨x, rfl, h⟩

structure SeenAtMost (n : Nat) (d : Device) : Prop where
  packets : d.packetCount ≤ n
  sent : d.bytesSent ≤ 14 * n
  received : d.bytesReceived = 0

theorem record_announcement {store : MemoryStore} {n : Nat} {x : Sighting}
    (hseen : ∀ d, store.get announcer = some d → SeenAtMost n d) (hn : n < 1000)
    (hsrc : x.srcMac = announcer) (hlen : x.packetLen = 14) :
    ∃ d, sourceRecord x announcement.clock.packet
        (oldSource (fun _ => none) store x announcement.clock) = d ∧
      d.mac = announcer ∧ SeenAtMost (n + 1) d ∧ executeError (fun _ => none) d = none := by
  have hold : SeenAtMost n (oldSource (fun _ => none) store x announcement.clock) ∧
      (oldSource (fun _ => none) store x announcement.clock).mac = announcer := by
    rw [oldSource, hsrc]
    cases hget : store.get announcer with
    | none => exact ⟨⟨Nat.zero_le _, Nat.zero_le _, rfl⟩, rfl⟩
    | some d => exact ⟨hseen d hget, MemoryStore.mac_of_get hget⟩
  obtain ⟨⟨hpackets, hsent, hreceived⟩, hmac⟩ := hold
  have hnew : SeenAtMost (n + 1) (sourceRecord x announcement.clock.packet
      (oldSource (fun _ => none) store x announcement.clock)) := by
    rw [sourceRecord_eq, hlen]
    refine ⟨(Nat.min_le_right _ _).trans (Nat.succ_le_succ hpackets), ?_, hreceived⟩
    exact (Nat.min_le_right _ _).trans (by omega)
  refine ⟨_, rfl, (mac_sourceRecord x _ _).trans hmac, hnew, if_pos ?_⟩
  have hmax : 14 * 1000 ≤ i64Max := by decide
  have hp := hnew.packets
  have hs := hnew.sent
  have hr := hnew.received
  omega

/-- **The daemon starts, sees one frame and is stopped.** -/
theorem run_announce_shutDown (F : TextFormats) {store : SqliteStore} {n : Nat}
    (hclean : store.dirty = ∅)
    (hseen : ∀ d, store.cache.get announcer = some d → SeenAtMost n d) (hn : n < 1000) :
    ∃ s₁ s₂, (daemon F (fun _ => none) 1).run (.start store) announce =
        some (s₁, [.accepted announcement, .received announcement, .nothing, .nothing]) ∧
      (daemon F (fun _ => none) 1).run s₁ shutDown = some (s₂, List.replicate 7 .nothing) ∧
      (daemon F (fun _ => none) 1).Meets Orderly (.start store) (announce ++ shutDown) ∧
      s₂.main = .stopped true ∧ s₂.wb.store.cache = s₁.wb.store.cache ∧
      s₂.wb.store.table = flushRow F s₁.wb.store.cache s₁.wb.store.table announcer ∧
      ∃ d, s₂.wb.store.cache.get announcer = some d ∧ SeenAtMost (n + 1) d := by
  obtain ⟨x, hx, hsrc, hdst, hlen⟩ := sight_announcement
  obtain ⟨d, hd, hmac, hcount, hwrite⟩ := record_announcement hseen hn hsrc hlen
  let put : SqliteStore := { store with cache := store.cache.upsert d }
  let marked : SqliteStore := { put with dirty := insert d.mac store.dirty }
  have hget : put.cache.get announcer = some d := by
    rw [MemoryStore.get_upsert, if_pos hmac.symm]
  have hput : (daemon F (fun _ => none) 1).step
      ⟨[], true, .ofFrame announcement, .serving, .start store⟩ .put =
        some (⟨[], true, .receiving, .serving, ⟨put, some d.mac, .idle⟩⟩, .nothing) := by
    have hupdate : (Task.ofFrame announcement).update (fun _ => none) store.cache =
        some (d, .receiving) := by
      rw [Task.ofFrame, hx, Task.update, hd, if_neg (by rw [hsrc, hdst]; exact fun h => h rfl)]
    simp only [daemon, daemonStep, WriteBackState.start, hupdate]
    rfl
  have hflush : (daemon F (fun _ => none) 1).step
      ⟨[], false, .finished, .draining, ⟨marked, none, .idle⟩⟩ (.finalFlush [announcer]) =
        some (⟨[], false, .finished, .flushing, ⟨marked, none, .writing [announcer] [announcer]⟩⟩,
          .nothing) := by
    have hdirty : marked.dirty = [announcer].toFinset := by
      show insert d.mac store.dirty = _
      rw [hclean, hmac]
      rfl
    have hguard : [announcer].Nodup ∧ [announcer].toFinset = marked.dirty :=
      ⟨List.nodup_singleton _, hdirty.symm⟩
    simp only [daemon, daemonStep, DaemonState.writeBack, Storage.writeBack, writeBackStep,
      if_pos hguard]
    rfl
  have hwrite : (daemon F (fun _ => none) 1).step
      ⟨[], false, .finished, .flushing, ⟨marked, none, .writing [announcer] [announcer]⟩⟩
        (.write none) =
        some (⟨[], false, .finished, .flushing,
          ⟨marked.writeOne F announcer, none, .writing [announcer] []⟩⟩, .nothing) := by
    have herror : SqliteStore.writeError marked announcer none = none := by
      rw [SqliteStore.writeError, show marked.cache.get announcer = some d from hget,
        Option.bind_some, hwrite]
    simp only [daemon, daemonStep, herror]
    rfl
  have hstart : (daemon F (fun _ => none) 1).run (.start store) announce =
      some (⟨[], true, .receiving, .serving, ⟨marked, none, .idle⟩⟩,
        [.accepted announcement, .received announcement, .nothing, .nothing]) := by
    refine (daemon F _ 1).run_cons.mpr ⟨_, _, _, rfl, ?_, rfl⟩
    refine (daemon F _ 1).run_cons.mpr ⟨_, _, _, rfl, ?_, rfl⟩
    exact (daemon F _ 1).run_cons.mpr ⟨_, _, _, hput, rfl, rfl⟩
  have hstop : (daemon F (fun _ => none) 1).run
      ⟨[], true, .receiving, .serving, ⟨marked, none, .idle⟩⟩ shutDown =
      some (⟨[], false, .finished, .stopped true,
        ⟨(marked.writeOne F announcer).clearOne announcer, none, .idle⟩⟩,
        List.replicate 7 .nothing) := by
    refine (daemon F _ 1).run_cons.mpr ⟨_, _, _, rfl, ?_, rfl⟩
    refine (daemon F _ 1).run_cons.mpr ⟨_, _, _, rfl, ?_, rfl⟩
    refine (daemon F _ 1).run_cons.mpr ⟨_, _, _, hflush, ?_, rfl⟩
    exact (daemon F _ 1).run_cons.mpr ⟨_, _, _, hwrite, rfl, rfl⟩
  have hmeets : (daemon F (fun _ => none) 1).Meets Orderly (.start store)
      (announce ++ shutDown) := by
    refine ((daemon F _ 1).meets_cons_of_step rfl).mpr ⟨trivial, ?_⟩
    refine ((daemon F _ 1).meets_cons_of_step rfl).mpr ⟨trivial, ?_⟩
    refine ((daemon F _ 1).meets_cons_of_step hput).mpr ⟨trivial, ?_⟩
    refine ((daemon F _ 1).meets_cons_of_step rfl).mpr ⟨fun _ _ hw => hw, ?_⟩
    refine ((daemon F _ 1).meets_cons_of_step rfl).mpr ⟨trivial, ?_⟩
    refine ((daemon F _ 1).meets_cons_of_step rfl).mpr ⟨trivial, ?_⟩
    refine ((daemon F _ 1).meets_cons_of_step hflush).mpr ⟨trivial, ?_⟩
    refine ((daemon F _ 1).meets_cons_of_step hwrite).mpr ⟨trivial, ?_⟩
    refine ((daemon F _ 1).meets_cons_of_step rfl).mpr ⟨trivial, ?_⟩
    refine ((daemon F _ 1).meets_cons_of_step rfl).mpr ⟨trivial, ?_⟩
    exact ((daemon F _ 1).meets_cons_of_step rfl).mpr ⟨trivial, trivial⟩
  exact ⟨_, _, hstart, hstop, hmeets, rfl, rfl, rfl, d, hget, hcount⟩

end EdgeShield.Daemon
