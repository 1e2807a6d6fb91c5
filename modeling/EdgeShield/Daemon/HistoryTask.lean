import EdgeShield.Api.Auth
import EdgeShield.Storage.HistorySqlite

/-!
# The history task

`history_snapshot_task` of `crates/daemon/src/daemon.rs`.  It computes the period of its timer
from `history_snapshot_hours`; then each pass of its loop takes a snapshot of every device and
deletes those that are older than `history_retention_days`.  A panic ends the task, and what
the pass has written before stays.

Three results can be out of range: the hours times 3600, with an outcome that depends on the
build, the days as a duration, and the time that lies so long back.  The functions of `chrono`
and `tokio` are a parameter (`TimeLibrary`), and `Documented` is what is documented of them.

`startTask_eq_iff` and `cutoff_eq_iff` say for which numbers a result is the exact one, and
`survives_iff` on which clock reads the task goes on pass after pass.
-/

namespace EdgeShield.Daemon

open EdgeShield.Lib EdgeShield.Common EdgeShield.Storage

/-- `*` on `u64`: out of range it panics with overflow checks, and wraps without. -/
def mul (overflowChecks : Bool) (a b : UInt64) : Run Empty UInt64 :=
  if a.toNat * b.toNat ≤ u64Max then .ok (a * b)
  else if overflowChecks then .panic
  else .ok (a * b)

/-! ### Times and durations -/

/-- `DateTime::<Utc>::MIN_UTC` and `MAX_UTC`, in nanoseconds since the epoch. -/
structure UtcRange where
  min : Int
  max : Int

@[ext] structure UtcTime (range : UtcRange) where
  nanos : Int
  min_le : range.min ≤ nanos
  le_max : nanos ≤ range.max

def dayNanos : Int := 86400 * 1000000000

/-- `TimeDelta::MAX`, `i64::MAX` milliseconds, in nanoseconds. -/
def maxDelta : Int := 9223372036854775807 * 1000000

@[ext] structure TimeDelta where
  nanos : Int
  neg_max_le : -maxDelta ≤ nanos
  le_max : nanos ≤ maxDelta

structure TimeLibrary where
  range : UtcRange
  /-- `chrono::Duration::days` -/
  days : Int64 → Run Empty TimeDelta
  /-- `DateTime<Utc> - Duration` -/
  sub : UtcTime range → TimeDelta → Run Empty (UtcTime range)
  /-- `DateTime::format("%Y-%m-%d")` -/
  formatDate : UtcTime range → String
  /-- `tokio::time::interval`, of a period in nanoseconds. -/
  interval : Nat → Run Empty Unit

/-- Each function gives its result where there is one, and panics elsewhere. -/
structure TimeLibrary.Documented (lib : TimeLibrary) : Prop where
  days : ∀ n delta, lib.days n = .ok delta ↔ delta.nanos = n.toInt * dayNanos
  sub : ∀ t delta t', lib.sub t delta = .ok t' ↔ t'.nanos = t.nanos - delta.nanos
  interval : ∀ period, lib.interval period = .ok () ↔ period ≠ 0

/-! ### The task -/

/-- What a pass of the loop meets: the result of `store.list()`, and its clock reads. -/
structure Wake (range : UtcRange) where
  listed : Except StorageError (List Device)
  today : UtcTime range
  snapshotTime : Device → Timestamp
  now : UtcTime range

/-- What a pass does about old snapshots: it deletes those before a date, or none, or panics. -/
structure Pass (range : UtcRange) where
  now : UtcTime range
  cutoff : Run Empty (Option (UtcTime range))

structure TaskState where
  history : SqliteHistoryStore
  running : Bool

section Task

variable (lib : TimeLibrary) (F : TextFormats)

/-- The period of the timer, which the task starts with. -/
def startTask (overflowChecks : Bool) (snapshotHours : UInt64) : Run Empty Nat := do
  let seconds ← mul overflowChecks snapshotHours 3600
  let period := Api.fromSecs seconds
  lib.interval period
  return period

/-- `Utc::now() - Duration::days(retention_days as i64)` -/
def cutoff (retentionDays : UInt64) (now : UtcTime lib.range) : Run Empty (UtcTime lib.range) := do
  let delta ← lib.days retentionDays.toInt64
  lib.sub now delta

/-- The snapshots of a pass; one that cannot be written is left out. -/
def takeSnapshots (today : String) (snapshotTime : Device → Timestamp) (devices : List Device)
    (history : SqliteHistoryStore) : SqliteHistoryStore :=
  devices.foldl (fun history device =>
    let snapshot := .fromDevice device today (snapshotTime device)
    (history.insertSnapshot F snapshot).2) history

def historyPass (retentionDays : UInt64) (history : SqliteHistoryStore) (w : Wake lib.range) :
    Run Empty (Option (UtcTime lib.range)) × SqliteHistoryStore :=
  match w.listed with
  | .error _ => (.ok none, history)
  | .ok devices =>
    let history := takeSnapshots F (lib.formatDate w.today) w.snapshotTime devices history
    if 0 < retentionDays then
      match cutoff lib retentionDays w.now with
      | .ok t => (.ok (some t), (history.deleteBefore (lib.formatDate t)).2)
      | .error fault => (.error fault, history)
    else (.ok none, history)

/-- The loop of `history_snapshot_task`, until it panics. -/
def historyTask (retentionDays : UInt64) : Machine TaskState (Wake lib.range) (Pass lib.range) where
  step s w :=
    if s.running then
      let (cutoff, history) := historyPass lib F retentionDays s.history w
      some (⟨history, cutoff.isOk⟩, ⟨w.now, cutoff⟩)
    else none

end Task

/-- The pass deletes nothing, or what is older than so many days. -/
def Pass.Exact {range : UtcRange} (retentionDays : UInt64) (p : Pass range) : Prop :=
  p.cutoff = .ok none ∨
    ∃ t, p.cutoff = .ok (some t) ∧ t.nanos = p.now.nanos - retentionDays.toNat * dayNanos

/-- The days reach back to a time that there is. -/
def ReachesBack {range : UtcRange} (retentionDays : UInt64) (now : UtcTime range) : Prop :=
  retentionDays.toNat ≤ 106751991167 ∧
    range.min ≤ now.nanos - retentionDays.toNat * dayNanos

/-! ### The period -/

theorem mul_of_le {overflowChecks : Bool} {a b : UInt64} (h : a.toNat * b.toNat ≤ u64Max) :
    mul overflowChecks a b = .ok (a * b) := if_pos h

theorem toNat_of_mul {overflowChecks : Bool} {a b c : UInt64} (h : mul overflowChecks a b = .ok c) :
    c.toNat = a.toNat * b.toNat % 2 ^ 64 := by
  rw [← UInt64.toNat_mul]
  rw [mul] at h
  split at h
  · cases h
    rfl
  · split at h
    · cases h
    · cases h
      rfl

/-- **The period is the exact one** up to a number of hours. -/
theorem startTask_eq_iff {lib : TimeLibrary} (hlib : lib.Documented) {overflowChecks : Bool}
    {snapshotHours : UInt64} (hpos : 0 < snapshotHours) :
    startTask lib overflowChecks snapshotHours =
        .ok (snapshotHours.toNat * 3600 * 1000000000) ↔
      snapshotHours.toNat ≤ 5124095576030431 := by
  have hhours : 0 < snapshotHours.toNat := UInt64.lt_iff_toNat_lt.mp hpos
  have h3600 : (3600 : UInt64).toNat = 3600 := rfl
  have hmax : u64Max = 5124095576030431 * 3600 + 15 := by decide
  constructor
  · intro h
    obtain ⟨seconds, hmul, h⟩ := Run.bind_eq_ok.mp h
    obtain ⟨_, _, h⟩ := Run.bind_eq_ok.mp h
    have hperiod := Except.ok.inj h
    have hseconds := toNat_of_mul hmul
    have hlt := seconds.toNat_lt
    rw [Api.fromSecs] at hperiod
    omega
  · intro h
    have hle : snapshotHours.toNat * (3600 : UInt64).toNat ≤ u64Max := by
      rw [h3600]
      omega
    have hmul : mul overflowChecks snapshotHours 3600 = .ok (snapshotHours * 3600) := mul_of_le hle
    have hseconds : (snapshotHours * 3600).toNat = snapshotHours.toNat * 3600 := by
      rw [toNat_of_mul hmul, h3600]
      omega
    have hperiod : Api.fromSecs (snapshotHours * 3600) = snapshotHours.toNat * 3600 * 1000000000 := by
      rw [Api.fromSecs, hseconds]
    have hinterval := (hlib.interval (snapshotHours.toNat * 3600 * 1000000000)).mpr (by omega)
    simp only [startTask, hmul, Run.ok_bind, hperiod, hinterval]
    rfl

/-! ### The time so many days back -/

section Passes

variable {lib : TimeLibrary} {F : TextFormats} {retentionDays : UInt64}

/-- **The cutoff is the exact one** where the days reach back to a time. -/
theorem cutoff_eq_iff (hlib : lib.Documented) {now : UtcTime lib.range} :
    (∃ t, cutoff lib retentionDays now = .ok t ∧
      t.nanos = now.nanos - retentionDays.toNat * dayNanos) ↔ ReachesBack retentionDays now := by
  have hday : dayNanos = 86400000000000 := rfl
  have hmax : maxDelta = 9223372036854775807000000 := rfl
  constructor
  · rintro ⟨t, hcutoff, ht⟩
    obtain ⟨delta, _, hsub⟩ := Run.bind_eq_ok.mp hcutoff
    have hdelta := (hlib.sub now delta t).mp hsub
    have hle := delta.le_max
    have hmin := t.min_le
    rw [hday] at ht
    rw [ReachesBack, hday]
    constructor
    · omega
    · omega
  · rintro ⟨hdays, hback⟩
    have hsmall : retentionDays.toNat ≤ maxInteger := by
      have : maxInteger = 9223372036854775807 := rfl
      omega
    have hcast := toInt_toInt64 hsmall
    have hnanos : (0 : Int) ≤ retentionDays.toNat * dayNanos ∧
        retentionDays.toNat * dayNanos ≤ maxDelta := by
      rw [hday]
      omega
    let delta : TimeDelta := ⟨retentionDays.toNat * dayNanos, by omega, hnanos.2⟩
    have hnow := now.le_max
    let t : UtcTime lib.range := ⟨now.nanos - retentionDays.toNat * dayNanos, hback, by omega⟩
    have hdelta : lib.days retentionDays.toInt64 = .ok delta := by
      rw [hlib.days, hcast]
    have hsub : lib.sub now delta = .ok t := (hlib.sub now delta t).mpr rfl
    refine ⟨t, ?_, rfl⟩
    rw [cutoff, hdelta, Run.ok_bind]
    exact hsub

/-! ### The passes -/

def Wake.Fits (retentionDays : UInt64) (w : Wake lib.range) : Prop :=
  0 < retentionDays → ∀ devices, w.listed = .ok devices → ReachesBack retentionDays w.now

theorem historyPass_of_listed {history : SqliteHistoryStore} {w : Wake lib.range}
    {devices : List Device} (h : w.listed = .ok devices) :
    (historyPass lib F retentionDays history w).1 =
      if 0 < retentionDays then (cutoff lib retentionDays w.now).map some else .ok none := by
  simp only [historyPass, h]
  split
  · cases cutoff lib retentionDays w.now with
    | ok t => rfl
    | error fault => rfl
  · rfl

theorem exact_map_some_iff {range : UtcRange} {now : UtcTime range} {r : Run Empty (UtcTime range)} :
    Pass.Exact retentionDays ⟨now, r.map some⟩ ↔
      ∃ t, r = .ok t ∧ t.nanos = now.nanos - retentionDays.toNat * dayNanos := by
  cases r with
  | error fault =>
    refine ⟨?_, ?_⟩
    · rintro (h | ⟨t, h, _⟩)
      · cases h
      · cases h
    · rintro ⟨t, h, _⟩
      cases h
  | ok t₀ =>
    refine ⟨?_, ?_⟩
    · rintro (h | ⟨t, h, ht⟩)
      · cases h
      · cases h
        exact ⟨t₀, rfl, ht⟩
    · rintro ⟨t, h, ht⟩
      cases h
      exact .inr ⟨t₀, rfl, ht⟩

/-- **One pass** is exact when the days reach back from its clock read, and only then. -/
theorem historyPass_exact_iff (hlib : lib.Documented) {history : SqliteHistoryStore}
    {w : Wake lib.range} :
    Pass.Exact retentionDays ⟨w.now, (historyPass lib F retentionDays history w).1⟩ ↔
      w.Fits retentionDays := by
  rw [Wake.Fits]
  cases hlisted : w.listed with
  | error e =>
    simp only [historyPass, hlisted]
    refine ⟨fun _ _ devices h => ?_, fun _ => .inl rfl⟩
    cases h
  | ok devices =>
    rw [historyPass_of_listed hlisted]
    by_cases hpos : 0 < retentionDays
    · rw [if_pos hpos, exact_map_some_iff, cutoff_eq_iff hlib]
      exact ⟨fun h _ _ _ => h, fun h => h hpos devices rfl⟩
    · rw [if_neg hpos]
      exact ⟨fun _ h => absurd h hpos, fun _ => .inl rfl⟩

theorem historyTask_step_of_exact {history : SqliteHistoryStore} {w : Wake lib.range}
    (h : Pass.Exact retentionDays ⟨w.now, (historyPass lib F retentionDays history w).1⟩) :
    (historyTask lib F retentionDays).step ⟨history, true⟩ w =
      some (⟨(historyPass lib F retentionDays history w).2, true⟩,
        ⟨w.now, (historyPass lib F retentionDays history w).1⟩) := by
  have hok : (historyPass lib F retentionDays history w).1.isOk = true := by
    rcases h with h | ⟨t, h, _⟩
    · exact congrArg Except.isOk h
    · exact congrArg Except.isOk h
  simp only [historyTask, if_true, hok]

/-- **The task goes on**, pass after pass and with the exact cutoffs, when the days reach back
from the clock read of each pass, and only then. -/
theorem survives_iff (hlib : lib.Documented) {history : SqliteHistoryStore}
    {wakes : List (Wake lib.range)} :
    (∃ s passes, (historyTask lib F retentionDays).run ⟨history, true⟩ wakes = some (s, passes) ∧
        ∀ p ∈ passes, p.Exact retentionDays) ↔
      ∀ w ∈ wakes, w.Fits retentionDays := by
  induction wakes generalizing history with
  | nil =>
    refine ⟨fun _ w hw => absurd hw List.not_mem_nil, fun _ => ?_⟩
    exact ⟨⟨history, true⟩, [], rfl, fun p hp => absurd hp List.not_mem_nil⟩
  | cons w wakes ih =>
    have hpass : Pass.Exact retentionDays ⟨w.now, (historyPass lib F retentionDays history w).1⟩ ↔
        w.Fits retentionDays := historyPass_exact_iff hlib
    rw [List.forall_mem_cons, ← hpass]
    constructor
    · rintro ⟨s, passes, hrun, hexact⟩
      obtain ⟨s', p, passes', hstep, hrest, rfl⟩ := (historyTask lib F retentionDays).run_cons.mp hrun
      obtain ⟨hp, hpasses⟩ := List.forall_mem_cons.mp hexact
      have hw : p = ⟨w.now, (historyPass lib F retentionDays history w).1⟩ := by
        cases hstep
        rfl
      rw [hw] at hp
      rw [historyTask_step_of_exact hp] at hstep
      cases hstep
      exact ⟨hp, ih.mp ⟨s, passes', hrest, hpasses⟩⟩
    · rintro ⟨hp, hwakes⟩
      obtain ⟨s, passes, hrest, hpasses⟩ := ih.mpr hwakes
      have hstep := historyTask_step_of_exact hp
      refine ⟨s, _, (historyTask lib F retentionDays).run_cons.mpr
        ⟨_, _, passes, hstep, hrest, rfl⟩, ?_⟩
      exact List.forall_mem_cons.mpr ⟨hp, hpasses⟩

end Passes

end EdgeShield.Daemon
