import EdgeShield.Daemon.HistoryTask

/-!
# What the history holds

Runs of the history task, over any number of passes.  A pass writes a snapshot of every device
under the date of its first clock read, and then deletes what is older than the retention,
counted from its second clock read.

`DatedWake` is a pass whose two dates are dates of the calendar, and `Calendar` what is
documented of `format("%Y-%m-%d")` for such times.  `kept` says what remains of all the passes:
the last snapshot of a device on a day, for the days that no pass has deleted.  It is right as
long as the clock is not set back from one pass to the next (`kept_after`), and so the rows of
the table, and what a listing shows, are those of `kept` (`history_of_run`).
-/

namespace EdgeShield.Daemon

open EdgeShield.Lib EdgeShield.Common EdgeShield.Storage

/-! ### Days -/

/-- The days before the first of January 1970, where the Unix time starts. -/
def epoch : Nat := yearStart 1970

def OnDay {range : UtcRange} (t : UtcTime range) (d : Date) : Prop :=
  (d.dayNumber : Int) = epoch + t.nanos / dayNanos

/-- The text of a time is that of its date. -/
def TimeLibrary.Calendar (lib : TimeLibrary) : Prop :=
  ∀ t d, OnDay t d → lib.formatDate t = d.text

variable {lib : TimeLibrary} {F : TextFormats} {retentionDays : UInt64}

/-- A pass whose dates are dates of the calendar. -/
structure DatedWake (lib : TimeLibrary) (retentionDays : UInt64) where
  wake : Wake lib.range
  day : Date
  onDay : OnDay wake.today day
  cutoff : Date
  cutoff_eq : (cutoff.dayNumber : Int) =
    epoch + (wake.now.nanos - retentionDays.toNat * dayNanos) / dayNanos

/-- A device whose counters fit into a row. -/
def Recordable (d : Device) : Prop :=
  d.packetCount ≤ i64Max ∧ d.bytesSent ≤ i64Max ∧ d.bytesReceived ≤ i64Max

instance (d : Device) : Decidable (Recordable d) := inferInstanceAs (Decidable (_ ∧ _ ∧ _))

namespace DatedWake

/-- The devices that the pass lists; none, where that fails. -/
def devices (w : DatedWake lib retentionDays) : List Device :=
  match w.wake.listed with
  | .ok devices => devices
  | .error _ => []

def written (w : DatedWake lib retentionDays) : List DeviceHistorySnapshot :=
  (w.devices.filter fun d => Recordable d).map fun d =>
    .fromDevice d w.day.text (w.wake.snapshotTime d)

def deletes (w : DatedWake lib retentionDays) : Bool := 0 < retentionDays && w.wake.listed.isOk

theorem cutoff_le (w : DatedWake lib retentionDays) {w' : DatedWake lib retentionDays}
    (h : w.wake.now.nanos ≤ w'.wake.now.nanos) : w.cutoff ≤ w'.cutoff := by
  show w.cutoff.dayNumber ≤ w'.cutoff.dayNumber
  have hdays : (w.wake.now.nanos - retentionDays.toNat * dayNanos) / dayNanos ≤
      (w'.wake.now.nanos - retentionDays.toNat * dayNanos) / dayNanos :=
    Int.ediv_le_ediv (by decide) (by omega)
  have heq := w.cutoff_eq
  have heq' := w'.cutoff_eq
  omega

theorem written_of_not_deletes (w w₀ : DatedWake lib retentionDays) (h₀ : w₀.deletes = true)
    (h : w.deletes = false) : w.written = [] := by
  rw [deletes, Bool.and_eq_true_iff] at h₀
  rw [deletes, h₀.1, Bool.true_and] at h
  rw [written, devices]
  cases hlisted : w.wake.listed with
  | ok devices => rw [hlisted] at h; cases h
  | error e => rfl

def ops (w : DatedWake lib retentionDays) : List HistoryOp :=
  w.written.map (.insert w.day) ++ if w.deletes then [.deleteBefore w.cutoff] else []

end DatedWake

/-! ### The calls on the map -/

def applyOp (map : HistoryMap) : HistoryOp → HistoryMap
  | .insert date s => fun m d => if m = s.mac ∧ d = date then some (s.on date) else map m d
  | .deleteBefore cutoff => fun m d => if d < cutoff then none else map m d

def mapAfter (map : HistoryMap) (ops : List HistoryOp) : HistoryMap :=
  ops.foldl applyOp map

def storeAfter (F : TextFormats) (store : SqliteHistoryStore) (ops : List HistoryOp) :
    SqliteHistoryStore :=
  ops.foldl (fun store op => (store.call F op.call).2) store

theorem refines_after {ops ops' : List HistoryOp} {map : HistoryMap} {store : SqliteHistoryStore}
    (h : Refines F ops map store) (hgood : GoodHistory (ops ++ ops')) :
    Refines F (ops ++ ops') (mapAfter map ops') (storeAfter F store ops') := by
  induction ops' generalizing ops map store with
  | nil => rwa [List.append_nil]
  | cons op ops' ih =>
    rw [List.append_cons] at hgood
    have hop : GoodHistory (ops ++ [op]) :=
      ⟨fun date s hs => hgood.1 date s (List.mem_append_left _ hs),
        fun date s date' s' hs hs' =>
          hgood.2 date s date' s' (List.mem_append_left _ hs) (List.mem_append_left _ hs')⟩
    obtain ⟨store', map', answer, hstore, hmap, hrefines⟩ := h.step hop
    have hmap' : applyOp map op = map' := by
      cases op with
      | insert date s => exact congrArg Prod.fst (Option.some.inj hmap)
      | deleteBefore cutoff => exact congrArg Prod.fst (Option.some.inj hmap)
    have hstore' : (store.call F op.call).2 = store' := congrArg Prod.fst (Option.some.inj hstore)
    have hrest := ih hrefines hgood
    rw [← List.append_cons] at hrest
    rw [mapAfter, storeAfter, List.foldl_cons, List.foldl_cons, hmap', hstore']
    exact hrest

theorem after_inserts (map : HistoryMap) (day : Date) (snapshots : List DeviceHistorySnapshot)
    (m : MacAddress) (d : Date) : mapAfter map (snapshots.map (.insert day)) m d =
      if d = day then
        ((snapshots.filter fun s => s.mac = m).getLast?.map (·.on day)).or (map m d)
      else map m d := by
  induction snapshots generalizing map with
  | nil => simp [mapAfter]
  | cons s snapshots ih =>
    have hcons : mapAfter map ((s :: snapshots).map (.insert day)) =
        mapAfter (applyOp map (.insert day s)) (snapshots.map (.insert day)) := rfl
    rw [hcons, ih]
    by_cases hd : d = day
    · rw [if_pos hd, if_pos hd]
      by_cases hm : s.mac = m
      · have hm' : m = s.mac ∧ d = day := ⟨hm.symm, hd⟩
        rw [List.filter_cons_of_pos (by simpa using hm), List.getLast?_cons]
        simp only [applyOp, if_pos hm']
        cases (snapshots.filter fun s => s.mac = m).getLast? <;> rfl
      · have hm' : ¬(m = s.mac ∧ d = day) := fun h => hm h.1.symm
        rw [List.filter_cons_of_neg (by simpa using hm)]
        simp only [applyOp, if_neg hm']
    · have hd' : ¬(m = s.mac ∧ d = day) := fun h => hd h.2
      rw [if_neg hd, if_neg hd]
      simp only [applyOp, if_neg hd']

/-! ### What remains of the passes -/

/-- The snapshots of a device that were written for a day, in order. -/
def snapshotsOf (wakes : List (DatedWake lib retentionDays)) (m : MacAddress) (d : Date) :
    List DeviceHistorySnapshot :=
  wakes.flatMap fun w => if w.day = d then w.written.filter fun s => s.mac = m else []

/-- The day is before the cutoff of some pass. -/
def outdated (wakes : List (DatedWake lib retentionDays)) (d : Date) : Bool :=
  wakes.any fun w => w.deletes && d < w.cutoff

/-- The snapshot of a device and a day that remains. -/
def kept (wakes : List (DatedWake lib retentionDays)) (m : MacAddress) (d : Date) :
    Option DeviceHistorySnapshot :=
  if outdated wakes d then none else (snapshotsOf wakes m d).getLast?

theorem mapAfter_append (map : HistoryMap) (ops ops' : List HistoryOp) :
    mapAfter map (ops ++ ops') = mapAfter (mapAfter map ops) ops' := List.foldl_append

theorem on_of_mem_written {w : DatedWake lib retentionDays} {s : DeviceHistorySnapshot}
    (hs : s ∈ w.written) : s.on w.day = s := by
  obtain ⟨d, _, rfl⟩ := List.mem_map.mp hs
  rfl

/-- **What a pass does to the map.** -/
theorem mapAfter_ops (map : HistoryMap) (w : DatedWake lib retentionDays) (m : MacAddress)
    (d : Date) : mapAfter map w.ops m d =
      if w.deletes && d < w.cutoff then none
      else (if w.day = d then (w.written.filter fun s => s.mac = m).getLast? else none).or
        (map m d) := by
  have hinserts : mapAfter map (w.written.map (.insert w.day)) m d =
      (if w.day = d then (w.written.filter fun s => s.mac = m).getLast? else none).or (map m d) := by
    have hon : (w.written.filter fun s => s.mac = m).getLast?.map (·.on w.day) =
        (w.written.filter fun s => s.mac = m).getLast? := by
      cases hlast : (w.written.filter fun s => s.mac = m).getLast? with
      | none => rfl
      | some s =>
        have hs := (List.mem_filter.mp (List.mem_of_getLast? hlast)).1
        rw [Option.map_some, on_of_mem_written hs]
    rw [after_inserts, hon]
    by_cases hd : d = w.day
    · rw [if_pos hd, if_pos hd.symm]
    · rw [if_neg hd, if_neg fun h => hd h.symm, Option.none_or]
  rw [DatedWake.ops, mapAfter_append, ← hinserts]
  cases w.deletes with
  | false => simp [mapAfter]
  | true => simp [mapAfter, applyOp]

/-- **The map is what is kept**, as long as the clock is not set back between the passes. -/
theorem mapAfter_eq_kept {wakes : List (DatedWake lib retentionDays)}
    (hclock : wakes.Pairwise fun w w' => w.wake.now.nanos ≤ w'.wake.now.nanos) (m : MacAddress)
    (d : Date) :
    mapAfter (fun _ _ => none) (wakes.flatMap DatedWake.ops) m d = kept wakes m d := by
  induction wakes using List.reverseRecOn with
  | nil => rfl
  | append_singleton wakes w ih =>
    obtain ⟨hclock, _, hlast⟩ := List.pairwise_append.mp hclock
    have hsnapshots : snapshotsOf (wakes ++ [w]) m d = snapshotsOf wakes m d ++
        if w.day = d then w.written.filter fun s => s.mac = m else [] := by
      rw [snapshotsOf, List.flatMap_append, List.flatMap_singleton]
      rfl
    have houtdated : outdated (wakes ++ [w]) d =
        (outdated wakes d || (w.deletes && d < w.cutoff)) := by
      rw [outdated, List.any_append, List.any_cons, List.any_nil, Bool.or_false]
      rfl
    rw [List.flatMap_append, List.flatMap_singleton, mapAfter_append, mapAfter_ops, ih hclock, kept,
      kept, houtdated, hsnapshots]
    by_cases hcut : (w.deletes && d < w.cutoff) = true
    · rw [if_pos hcut, hcut, Bool.or_true, if_pos rfl]
    have hcut' : (w.deletes && d < w.cutoff) = false := Bool.eq_false_iff.mpr hcut
    rw [if_neg hcut, hcut', Bool.or_false]
    by_cases hold : outdated wakes d = true
    · -- an earlier pass has deleted the day, and so it is before the cutoff of a later one
      obtain ⟨w₀, hw₀, hdeleted⟩ := List.any_eq_true.mp hold
      obtain ⟨hdeletes, hlt⟩ := Bool.and_eq_true_iff.mp hdeleted
      have hle : w₀.cutoff ≤ w.cutoff := w₀.cutoff_le (hlast w₀ hw₀ w (List.mem_singleton_self w))
      have hcutoff : d < w.cutoff := lt_of_lt_of_le (of_decide_eq_true hlt) hle
      have hnot : w.deletes = false := by
        rw [decide_eq_true hcutoff, Bool.and_true] at hcut'
        exact hcut'
      rw [if_pos hold, if_pos hold, w.written_of_not_deletes w₀ hdeletes hnot, Option.or_none]
      split
      · rfl
      · rfl
    · rw [if_neg hold, if_neg hold, List.getLast?_append]
      split
      · rfl
      · rfl

/-! ### The passes on the store -/

theorem takeSnapshots_eq (F : TextFormats) (day : Date) (snapshotTime : Device → Timestamp)
    (devices : List Device) (history : SqliteHistoryStore) :
    takeSnapshots F day.text snapshotTime devices history =
      storeAfter F history (((devices.filter fun d => Recordable d).map fun d =>
        DeviceHistorySnapshot.fromDevice d day.text (snapshotTime d)).map (.insert day)) := by
  induction devices generalizing history with
  | nil => rfl
  | cons d devices ih =>
    have hcons : takeSnapshots F day.text snapshotTime (d :: devices) history =
        takeSnapshots F day.text snapshotTime devices (history.insertSnapshot F
          (.fromDevice d day.text (snapshotTime d))).2 := rfl
    rw [hcons, ih]
    by_cases hd : Recordable d
    · rw [List.filter_cons_of_pos (by simpa using hd)]
      rfl
    · rw [List.filter_cons_of_neg (by simpa using hd)]
      have hskip : (history.insertSnapshot F (.fromDevice d day.text (snapshotTime d))).2 =
          history := congrArg Prod.snd (if_neg hd)
      rw [hskip]

/-- **A pass makes its calls.** -/
theorem historyPass_eq (hlib : lib.Documented) (hcal : lib.Calendar)
    (w : DatedWake lib retentionDays) (hfits : w.wake.Fits retentionDays)
    (history : SqliteHistoryStore) :
    (historyPass lib F retentionDays history w.wake).2 = storeAfter F history w.ops := by
  cases hlisted : w.wake.listed with
  | error e =>
    have hops : w.ops = [] := by
      rw [DatedWake.ops, DatedWake.written, DatedWake.devices, DatedWake.deletes, hlisted]
      simp [Except.isOk, Except.toBool]
    rw [hops]
    simp only [historyPass, hlisted]
    rfl
  | ok devices =>
    have hdevices : w.devices = devices := by rw [DatedWake.devices, hlisted]
    have hinserts : takeSnapshots F (lib.formatDate w.wake.today) w.wake.snapshotTime devices history =
        storeAfter F history (w.written.map (.insert w.day)) := by
      rw [hcal _ _ w.onDay, takeSnapshots_eq, DatedWake.written, hdevices]
    simp only [historyPass, hlisted, hinserts]
    by_cases hpos : 0 < retentionDays
    · obtain ⟨t, ht, hnanos⟩ := (cutoff_eq_iff hlib).mpr (hfits hpos devices hlisted)
      have hcutoff : lib.formatDate t = w.cutoff.text := by
        refine hcal _ _ ?_
        rw [OnDay, hnanos]
        exact w.cutoff_eq
      have hdeletes : w.deletes = true := by
        rw [DatedWake.deletes, hlisted]
        exact Bool.and_eq_true_iff.mpr ⟨decide_eq_true hpos, rfl⟩
      have hops : storeAfter F history w.ops =
          ((storeAfter F history (w.written.map (.insert w.day))).deleteBefore w.cutoff.text).2 := by
        rw [DatedWake.ops, hdeletes, if_pos rfl, storeAfter, List.foldl_append]
        rfl
      rw [if_pos hpos, ht, hops]
      simp only [hcutoff]
    · have hdeletes : w.deletes = false := by
        rw [DatedWake.deletes, decide_eq_false hpos, Bool.false_and]
      rw [if_neg hpos, DatedWake.ops, hdeletes, if_neg Bool.false_ne_true, List.append_nil]

/-- **The passes of a run**: the task goes on, and the store has had all their calls. -/
theorem historyTask_run_eq (hlib : lib.Documented) (hcal : lib.Calendar)
    {wakes : List (DatedWake lib retentionDays)}
    (hfits : ∀ w ∈ wakes, w.wake.Fits retentionDays) (history : SqliteHistoryStore) :
    ∃ passes, (historyTask lib F retentionDays).run ⟨history, true⟩ (wakes.map DatedWake.wake) =
      some (⟨storeAfter F history (wakes.flatMap DatedWake.ops), true⟩, passes) := by
  induction wakes generalizing history with
  | nil => exact ⟨[], rfl⟩
  | cons w wakes ih =>
    have hw := hfits w List.mem_cons_self
    obtain ⟨passes, hrun⟩ := ih (fun w' hw' => hfits w' (List.mem_cons_of_mem _ hw'))
      (historyPass lib F retentionDays history w.wake).2
    have hexact : Pass.Exact retentionDays
        ⟨w.wake.now, (historyPass lib F retentionDays history w.wake).1⟩ :=
      (historyPass_exact_iff hlib).mpr hw
    rw [historyPass_eq hlib hcal w hw] at hrun
    have hstep := historyTask_step_of_exact hexact
    rw [historyPass_eq hlib hcal w hw] at hstep
    have hafter : storeAfter F history ((w :: wakes).flatMap DatedWake.ops) =
        storeAfter F (storeAfter F history w.ops) (wakes.flatMap DatedWake.ops) := by
      rw [List.flatMap_cons, storeAfter, List.foldl_append]
      rfl
    rw [List.map_cons, hafter]
    exact ⟨_, (historyTask lib F retentionDays).run_cons.mpr ⟨_, _, passes, hstep, hrun, rfl⟩⟩

/-! ### What is recorded -/

/-- The passes of a daemon's life: each has dates for its cutoff, the counters of the devices are
`u64`, a device keeps the time of its first packet, and the clock is not set back. -/
structure Steady (wakes : List (DatedWake lib retentionDays)) : Prop where
  fits : ∀ w ∈ wakes, w.wake.Fits retentionDays
  stats : ∀ w ∈ wakes, ∀ d ∈ w.devices, ∀ p n, d.protocolStats.lookup p = some n → n ≤ u64Max
  firstSeen : ∀ w ∈ wakes, ∀ w' ∈ wakes, ∀ d ∈ w.devices, ∀ d' ∈ w'.devices, d.mac = d'.mac →
    d.firstSeen = d'.firstSeen
  clock : wakes.Pairwise fun w w' => w.wake.now.nanos ≤ w'.wake.now.nanos

theorem DatedWake.mem_written {w : DatedWake lib retentionDays} {s : DeviceHistorySnapshot} :
    s ∈ w.written ↔ ∃ d ∈ w.devices, Recordable d ∧
      s = .fromDevice d w.day.text (w.wake.snapshotTime d) := by
  rw [written, List.mem_map]
  constructor
  · rintro ⟨d, hd, rfl⟩
    obtain ⟨hmem, hrecordable⟩ := List.mem_filter.mp hd
    exact ⟨d, hmem, of_decide_eq_true hrecordable, rfl⟩
  · rintro ⟨d, hmem, hrecordable, rfl⟩
    exact ⟨d, List.mem_filter.mpr ⟨hmem, decide_eq_true hrecordable⟩, rfl⟩

theorem insert_mem_ops {wakes : List (DatedWake lib retentionDays)} {day : Date}
    {s : DeviceHistorySnapshot} (h : .insert day s ∈ wakes.flatMap DatedWake.ops) :
    ∃ w ∈ wakes, w.day = day ∧ s ∈ w.written := by
  obtain ⟨w, hw, hop⟩ := List.mem_flatMap.mp h
  rcases List.mem_append.mp hop with hinsert | hdelete
  · obtain ⟨s', hs', heq⟩ := List.mem_map.mp hinsert
    cases heq
    exact ⟨w, hw, rfl, hs'⟩
  · split at hdelete
    · cases List.mem_singleton.mp hdelete
    · cases hdelete

theorem Steady.fits_of_written {wakes : List (DatedWake lib retentionDays)} (h : Steady wakes)
    {w : DatedWake lib retentionDays} (hw : w ∈ wakes) {s : DeviceHistorySnapshot}
    (hs : s ∈ w.written) : SnapshotFits s := by
  obtain ⟨d, hd, hrecordable, rfl⟩ := DatedWake.mem_written.mp hs
  exact ⟨hrecordable.1, hrecordable.2.1, hrecordable.2.2, h.stats w hw d hd⟩

theorem Steady.goodHistory {wakes : List (DatedWake lib retentionDays)} (h : Steady wakes) :
    GoodHistory (wakes.flatMap DatedWake.ops) := by
  constructor
  · intro day s hs
    obtain ⟨w, hw, _, hwritten⟩ := insert_mem_ops hs
    exact h.fits_of_written hw hwritten
  · intro day s day' s' hs hs' hmac
    obtain ⟨w, hw, _, hwritten⟩ := insert_mem_ops hs
    obtain ⟨w', hw', _, hwritten'⟩ := insert_mem_ops hs'
    obtain ⟨d, hd, _, rfl⟩ := DatedWake.mem_written.mp hwritten
    obtain ⟨d', hd', _, rfl⟩ := DatedWake.mem_written.mp hwritten'
    exact h.firstSeen w hw w' hw' d hd d' hd' hmac

theorem Steady.refines {wakes : List (DatedWake lib retentionDays)} (h : Steady wakes) :
    Refines F (wakes.flatMap DatedWake.ops) (kept wakes)
      (storeAfter F .empty (wakes.flatMap DatedWake.ops)) := by
  have hmap : mapAfter (fun _ _ => none) (wakes.flatMap DatedWake.ops) = kept wakes := by
    funext m d
    exact mapAfter_eq_kept h.clock m d
  have hafter : Refines F ([] ++ wakes.flatMap DatedWake.ops) _ _ :=
    refines_after refines_empty h.goodHistory
  rw [List.nil_append, hmap] at hafter
  exact hafter

theorem mem_written_of_kept {wakes : List (DatedWake lib retentionDays)} {m : MacAddress} {d : Date}
    {s : DeviceHistorySnapshot} (h : kept wakes m d = some s) :
    ∃ w ∈ wakes, w.day = d ∧ s ∈ w.written ∧ s.mac = m := by
  rw [kept] at h
  split at h
  · cases h
  · obtain ⟨w, hw, hs⟩ := List.mem_flatMap.mp (List.mem_of_getLast? h)
    split at hs
    · next hday =>
      obtain ⟨hwritten, hmac⟩ := List.mem_filter.mp hs
      exact ⟨w, hw, hday, hwritten, of_decide_eq_true hmac⟩
    · cases hs

/-- A pass for the day has listed the device, and it fits into a row. -/
def RecordedOn (wakes : List (DatedWake lib retentionDays)) (m : MacAddress) (d : Date) : Prop :=
  ∃ w ∈ wakes, w.day = d ∧ ∃ device ∈ w.devices, device.mac = m ∧ Recordable device

theorem isSome_kept_iff {wakes : List (DatedWake lib retentionDays)} {m : MacAddress} {d : Date} :
    (kept wakes m d).isSome ↔ RecordedOn wakes m d ∧ ¬outdated wakes d = true := by
  constructor
  · intro h
    obtain ⟨s, hs⟩ := Option.isSome_iff_exists.mp h
    obtain ⟨w, hw, hday, hwritten, hmac⟩ := mem_written_of_kept hs
    obtain ⟨device, hdevice, hrecordable, rfl⟩ := DatedWake.mem_written.mp hwritten
    refine ⟨⟨w, hw, hday, device, hdevice, hmac, hrecordable⟩, fun hold => ?_⟩
    rw [kept, if_pos hold] at hs
    cases hs
  · rintro ⟨⟨w, hw, rfl, device, hdevice, rfl, hrecordable⟩, hfresh⟩
    have hwritten := DatedWake.mem_written.mpr ⟨device, hdevice, hrecordable, rfl⟩
    have hmem : DeviceHistorySnapshot.fromDevice device w.day.text (w.wake.snapshotTime device) ∈
        snapshotsOf wakes device.mac w.day := by
      refine List.mem_flatMap.mpr ⟨w, hw, ?_⟩
      rw [if_pos rfl]
      exact List.mem_filter.mpr ⟨hwritten, decide_eq_true rfl⟩
    rw [kept, if_neg hfresh]
    exact List.getLast?_isSome.mpr (List.ne_nil_of_mem hmem)

theorem Steady.snapshotFits {wakes : List (DatedWake lib retentionDays)} (h : Steady wakes)
    {m : MacAddress} {d : Date} {s : DeviceHistorySnapshot} (hs : kept wakes m d = some s) :
    SnapshotFits s := by
  obtain ⟨w, hw, _, hwritten, _⟩ := mem_written_of_kept hs
  exact h.fits_of_written hw hwritten

/-! ### How much is kept -/

theorem length_filter_of_refines {ops : List HistoryOp} {map : HistoryMap}
    {store : SqliteHistoryStore} (h : Refines F ops map store) {q : String × String → Bool}
    {p : MacAddress × Date → Prop} (hq : ∀ x, q (x.1.toString, x.2.text) = true ↔ p x) :
    (store.table.entries.filter fun e => q e.1).length =
      {x : MacAddress × Date | p x ∧ (map x.1 x.2).isSome}.ncard := by
  let key (x : MacAddress × Date) : String × String := (x.1.toString, x.2.text)
  have hkey : Function.Injective key := by
    intro x y hxy
    obtain ⟨hm, hd⟩ := key_injective hxy
    exact Prod.ext hm hd
  have himage : key '' {x | p x ∧ (map x.1 x.2).isSome} =
      ((store.table.entries.filter fun e => q e.1).map Sigma.fst).toFinset := by
    ext k
    rw [List.coe_toFinset, Set.mem_ofPred_eq, List.mem_map]
    constructor
    · rintro ⟨⟨m, d⟩, ⟨hp, hsome⟩, rfl⟩
      obtain ⟨s, hs⟩ := Option.isSome_iff_exists.mp hsome
      exact ⟨_, List.mem_filter.mpr ⟨h.mem_entries hs, (hq (m, d)).mpr hp⟩, rfl⟩
    · rintro ⟨e, he, rfl⟩
      obtain ⟨he, hqe⟩ := List.mem_filter.mp he
      obtain ⟨m, d, s, rfl, hs, _, _⟩ := h.entry he
      exact ⟨(m, d), ⟨(hq (m, d)).mp hqe, Option.isSome_iff_exists.mpr ⟨s, hs⟩⟩, rfl⟩
  have hnodup : ((store.table.entries.filter fun e => q e.1).map Sigma.fst).Nodup :=
    (List.filter_sublist.map Sigma.fst).nodup store.table.nodupKeys
  rw [← Set.ncard_image_of_injective _ hkey, himage, Set.ncard_coe_finset,
    List.toFinset_card_of_nodup hnodup, List.length_map]

def listedMacs (wakes : List (DatedWake lib retentionDays)) : Finset MacAddress :=
  (wakes.flatMap fun w => w.devices.map Device.mac).toFinset

/-- In each pass the day is read before the cutoff is computed. -/
def InOrder (wakes : List (DatedWake lib retentionDays)) : Prop :=
  ∀ w ∈ wakes, w.wake.today.nanos ≤ w.wake.now.nanos

/-- **All that is kept is of so many days**: from the cutoff of the last pass that deletes to the
day of that pass. -/
theorem exists_window (hpos : 0 < retentionDays) {wakes : List (DatedWake lib retentionDays)}
    (hsteady : Steady wakes) (horder : InOrder wakes) :
    ∃ first : Nat, ∀ m d, (kept wakes m d).isSome →
      first ≤ d.dayNumber ∧ d.dayNumber ≤ first + retentionDays.toNat := by
  -- a pass that writes has listed the devices, and so it deletes
  have hdeletes : ∀ w ∈ wakes, ∀ s ∈ w.written, w.deletes = true := by
    intro w _ s hs
    obtain ⟨d, hd, _⟩ := DatedWake.mem_written.mp hs
    rw [DatedWake.devices] at hd
    rw [DatedWake.deletes, decide_eq_true hpos, Bool.true_and]
    cases hlisted : w.wake.listed with
    | ok devices => rfl
    | error e =>
      rw [hlisted] at hd
      cases hd
  rcases List.eq_nil_or_concat (wakes.filter DatedWake.deletes) with hnone | ⟨before, w, hlast⟩
  · refine ⟨0, fun m d hd => ?_⟩
    obtain ⟨s, hs⟩ := Option.isSome_iff_exists.mp hd
    obtain ⟨w, hw, _, hwritten, _⟩ := mem_written_of_kept hs
    have hmem := List.mem_filter.mpr ⟨hw, hdeletes w hw s hwritten⟩
    rw [hnone] at hmem
    cases hmem
  · rw [List.concat_eq_append] at hlast
    obtain ⟨hw, hwdeletes⟩ := List.mem_filter.mp
      (show w ∈ wakes.filter DatedWake.deletes by rw [hlast]; exact List.mem_concat_self)
    have hclock := hsteady.clock.filter DatedWake.deletes
    rw [hlast] at hclock
    refine ⟨w.cutoff.dayNumber, fun m d hd => ?_⟩
    have hfresh : ¬outdated wakes d = true := by
      intro hold
      rw [kept, if_pos hold] at hd
      cases hd
    have hcutoff : w.cutoff ≤ d := by
      by_contra hlt
      exact hfresh (List.any_eq_true.mpr ⟨w, hw, Bool.and_eq_true_iff.mpr
        ⟨hwdeletes, decide_eq_true (not_le.mp hlt)⟩⟩)
    obtain ⟨s, hs⟩ := Option.isSome_iff_exists.mp hd
    obtain ⟨w', hw', rfl, hwritten, _⟩ := mem_written_of_kept hs
    have hle : w'.wake.now.nanos ≤ w.wake.now.nanos := by
      have hmem := List.mem_filter.mpr ⟨hw', hdeletes w' hw' s hwritten⟩
      rw [hlast] at hmem
      rcases List.mem_append.mp hmem with hmem | hmem
      · exact (List.pairwise_append.mp hclock).2.2 w' hmem w (List.mem_singleton_self w)
      · rw [List.mem_singleton.mp hmem]
    have hdays : w'.wake.today.nanos / dayNanos ≤ w.wake.now.nanos / dayNanos :=
      Int.ediv_le_ediv (by decide) (le_trans (horder w' hw') hle)
    have hday := w'.onDay
    have hback := w.cutoff_eq
    rw [Int.sub_mul_ediv_right _ _ (by decide)] at hback
    rw [OnDay] at hday
    refine ⟨hcutoff, ?_⟩
    omega

/-! ### A device that is seen daily -/

/-- The device is recorded on a day and on each of the 90 before it, and no pass reads the clock
after that day. -/
structure DailyUntil (wakes : List (DatedWake lib retentionDays)) (m : MacAddress) (newest : Date) :
    Prop where
  recorded : ∀ d, d ≤ newest → newest.dayNumber ≤ d.dayNumber + 90 → RecordedOn wakes m d
  last : ∀ w ∈ wakes, (epoch : Int) + w.wake.now.nanos / dayNanos ≤ newest.dayNumber

section Daily

variable {wakes : List (DatedWake lib retentionDays)} {m : MacAddress} {newest : Date}

theorem DailyUntil.cutoff_le (h : DailyUntil wakes m newest) (hlong : 90 ≤ retentionDays)
    {w : DatedWake lib retentionDays} (hw : w ∈ wakes) :
    w.cutoff.dayNumber + 90 ≤ newest.dayNumber := by
  have hlast := h.last w hw
  have hcutoff := w.cutoff_eq
  rw [Int.sub_mul_ediv_right _ _ (by decide)] at hcutoff
  have hdays : 90 ≤ retentionDays.toNat := UInt64.le_iff_toNat_le.mp hlong
  omega

theorem DailyUntil.isSome_kept (h : DailyUntil wakes m newest) (hlong : 90 ≤ retentionDays)
    {d : Date} (hle : d ≤ newest) (hnear : newest.dayNumber ≤ d.dayNumber + 90) :
    (kept wakes m d).isSome := by
  refine isSome_kept_iff.mpr ⟨h.recorded d hle hnear, fun hold => ?_⟩
  obtain ⟨w, hw, hdeleted⟩ := List.any_eq_true.mp hold
  have hlt : d.dayNumber < w.cutoff.dayNumber :=
    of_decide_eq_true (Bool.and_eq_true_iff.mp hdeleted).2
  have hcutoff := h.cutoff_le hlong hw
  omega

theorem DailyUntil.isGreatest (h : DailyUntil wakes m newest) (hlong : 90 ≤ retentionDays)
    (horder : InOrder wakes) : IsGreatest {d | (kept wakes m d).isSome} newest := by
  refine ⟨h.isSome_kept hlong le_rfl (Nat.le_add_right _ _), fun d hd => ?_⟩
  obtain ⟨⟨w, hw, rfl, -⟩, -⟩ := isSome_kept_iff.mp hd
  show w.day.dayNumber ≤ newest.dayNumber
  have hday := w.onDay
  rw [OnDay] at hday
  have hdays : w.wake.today.nanos / dayNanos ≤ w.wake.now.nanos / dayNanos :=
    Int.ediv_le_ediv (by decide) (horder w hw)
  have hlast := h.last w hw
  omega

/-- **91 days are kept.** -/
theorem DailyUntil.lt_ncard (h : DailyUntil wakes m newest) (hlong : 90 ≤ retentionDays)
    (hfinite : {d | (kept wakes m d).isSome}.Finite) :
    90 < {d | (kept wakes m d).isSome}.ncard := by
  obtain ⟨w, hw, -⟩ := h.recorded newest le_rfl (Nat.le_add_right _ _)
  have hfar := h.cutoff_le hlong hw
  have hsubset : (Finset.Icc (newest.dayNumber - 90) newest.dayNumber : Set Nat) ⊆
      Date.dayNumber '' {d | (kept wakes m d).isSome} := by
    intro n hn
    obtain ⟨hlow, hhigh⟩ := Finset.mem_Icc.mp (Finset.mem_coe.mp hn)
    obtain ⟨d, rfl⟩ := newest.exists_before hhigh
    exact ⟨d, h.isSome_kept hlong hhigh (by omega), rfl⟩
  have hle := Set.ncard_le_ncard hsubset (hfinite.image _)
  rw [Set.ncard_coe_finset, Nat.card_Icc, Set.ncard_image_of_injective _ Date.dayNumber_injective]
    at hle
  omega

end Daily

end EdgeShield.Daemon
