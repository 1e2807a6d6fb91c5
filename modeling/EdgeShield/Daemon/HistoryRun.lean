import EdgeShield.Api.Routes
import EdgeShield.Daemon.Durations
import EdgeShield.Daemon.Retention

/-!
# Listings of the history

What a request for the history of a device gives after the passes of a daemon's life:
`history_of_run` for any range of dates and limit, and `newest_listed_iff` for a request without
parameters, which gets at most 90 rows from the oldest on.  The retention of a configuration that
does not set one is 90 days, and of a device that is seen daily 91 days are then kept, the day of
the pass included: the newest is not shown.  `rows_le` bounds the rows of a device, and the table.

All this is about passes whose dates are dates of the calendar (`DatedWake`), with a retention that
the clock allows at each of them, counters in 64 bits, and a clock that is not set back (`Steady`).
-/

namespace EdgeShield.Daemon

open EdgeShield.Lib EdgeShield.Common EdgeShield.Storage

/-! ### A quarter of a year -/

open scoped Classical in
noncomputable def calendarTimes : TimeLibrary :=
  { chronoTimes with formatDate := fun t => if h : ∃ d, OnDay t d then h.choose.text else "" }

theorem calendarTimes_documented : calendarTimes.Documented :=
  ⟨chronoTimes_documented.days, chronoTimes_documented.sub, chronoTimes_documented.interval⟩

theorem calendarTimes_calendar : calendarTimes.Calendar := by
  intro t d h
  have hex : ∃ d, OnDay t d := ⟨d, h⟩
  have hchoose : hex.choose = d := by
    have hspec := hex.choose_spec
    rw [OnDay] at hspec h
    exact Date.dayNumber_injective (by omega)
  exact (dif_pos hex).trans (congrArg Date.text hchoose)

theorem yearStart_ge (y : Nat) : y * 365 ≤ yearStart y := by
  induction y with
  | zero => exact Nat.zero_le _
  | succ y ih =>
    have hyear : 365 ≤ monthStart y 13 := by
      simp only [monthStart, daysIn]
      cases isLeap y with
      | true => decide
      | false => decide
    rw [yearStart, Nat.succ_mul]
    exact Nat.add_le_add ih hyear

theorem epoch_eq : epoch = 719528 := by decide +kernel

theorem exists_day {n : Int} (hlow : -719528 ≤ n) (hhigh : n ≤ 36500) :
    ∃ d : Date, (d.dayNumber : Int) = epoch + n := by
  have hlast := yearStart_ge 10000
  obtain ⟨d, hd⟩ := Date.exists_dayNumber_eq (show (719528 + n).toNat < yearStart 10000 by omega)
  refine ⟨d, ?_⟩
  rw [hd, epoch_eq]
  omega

def midnight (n : Fin 91) : UtcTime chronoRange where
  nanos := (n : Int) * dayNanos
  min_le := by
    show -8334601228800000000000 ≤ (n : Int) * 86400000000000
    omega
  le_max := by
    show (n : Int) * 86400000000000 ≤ 8210266876799999999999
    omega

theorem nanos_midnight_div (n : Fin 91) : (midnight n).nanos / dayNanos = n :=
  Int.mul_ediv_cancel _ (by decide)

theorem nanos_midnight_le {n n' : Fin 91} (h : n ≤ n') : (midnight n).nanos ≤ (midnight n').nanos := by
  have hle : (n : Nat) ≤ n' := h
  show (n : Int) * 86400000000000 ≤ (n' : Int) * 86400000000000
  omega

theorem exists_daily (n : Fin 91) : ∃ w : DatedWake calendarTimes 90,
    w.wake = ⟨.ok [laptop], midnight n, fun _ => ⟨(midnight n).nanos⟩, midnight n⟩ := by
  obtain ⟨day, hday⟩ := exists_day (n := n) (by omega) (by omega)
  obtain ⟨cutoff, hcutoff⟩ := exists_day (n := n - 90) (by omega) (by omega)
  have hback : ((midnight n).nanos - (90 : UInt64).toNat * dayNanos) / dayNanos = n - 90 := by
    rw [Int.sub_mul_ediv_right _ _ (by decide), nanos_midnight_div]
    rfl
  refine ⟨⟨⟨.ok [laptop], midnight n, fun _ => ⟨(midnight n).nanos⟩, midnight n⟩, day, ?_, cutoff, ?_⟩,
    rfl⟩
  · rw [OnDay]
    show (day.dayNumber : Int) = epoch + (midnight n).nanos / dayNanos
    rw [nanos_midnight_div, hday]
  · show (cutoff.dayNumber : Int) =
      epoch + ((midnight n).nanos - (90 : UInt64).toNat * dayNanos) / dayNanos
    rw [hback, hcutoff]

noncomputable def daily (n : Fin 91) : DatedWake calendarTimes 90 := (exists_daily n).choose

theorem wake_daily (n : Fin 91) : (daily n).wake =
    ⟨.ok [laptop], midnight n, fun _ => ⟨(midnight n).nanos⟩, midnight n⟩ :=
  (exists_daily n).choose_spec

theorem dayNumber_daily (n : Fin 91) : (daily n).day.dayNumber = 719528 + n := by
  have hday : ((daily n).day.dayNumber : Int) = epoch + (midnight n).nanos / dayNanos := by
    have honDay := (daily n).onDay
    rw [OnDay, wake_daily] at honDay
    exact honDay
  rw [nanos_midnight_div, epoch_eq] at hday
  omega

noncomputable def quarter : List (DatedWake calendarTimes 90) := (List.finRange 91).map daily

theorem devices_of_mem_quarter {w : DatedWake calendarTimes 90} (h : w ∈ quarter) :
    w.devices = [laptop] := by
  obtain ⟨n, _, rfl⟩ := List.mem_map.mp h
  rw [DatedWake.devices, wake_daily]

theorem steady_quarter : Steady quarter where
  fits w hw := by
    obtain ⟨n, _, rfl⟩ := List.mem_map.mp hw
    rw [wake_daily]
    intro _ _ _
    refine ⟨by decide, ?_⟩
    show (-8334601228800000000000 : Int) ≤ (n : Int) * 86400000000000 - 90 * 86400000000000
    omega
  stats w hw d hd := by
    rw [devices_of_mem_quarter hw] at hd
    rw [List.mem_singleton.mp hd]
    exact fitsU64_laptop.2.2.2
  firstSeen w hw w' hw' d hd d' hd' _ := by
    rw [devices_of_mem_quarter hw] at hd
    rw [devices_of_mem_quarter hw'] at hd'
    rw [List.mem_singleton.mp hd, List.mem_singleton.mp hd']
  clock := by
    refine List.pairwise_map.mpr ((List.pairwise_le_finRange 91).imp fun hle => ?_)
    rw [wake_daily, wake_daily]
    exact nanos_midnight_le hle

theorem inOrder_quarter : InOrder quarter := by
  intro w hw
  obtain ⟨n, _, rfl⟩ := List.mem_map.mp hw
  rw [wake_daily]

theorem daily_mem_quarter (n : Fin 91) : daily n ∈ quarter :=
  List.mem_map.mpr ⟨n, List.mem_finRange n, rfl⟩

theorem recordedOn_daily (n : Fin 91) : RecordedOn quarter laptop.mac (daily n).day := by
  refine ⟨daily n, daily_mem_quarter n, rfl, laptop, ?_, rfl, by decide⟩
  rw [devices_of_mem_quarter (daily_mem_quarter n)]
  exact List.mem_singleton_self laptop

theorem dailyUntil_quarter : DailyUntil quarter laptop.mac (daily 90).day where
  recorded d hle hnear := by
    have hlast : (daily 90).day.dayNumber = 719528 + 90 := dayNumber_daily 90
    have hle' : d.dayNumber ≤ (daily 90).day.dayNumber := hle
    let n : Fin 91 := ⟨d.dayNumber - 719528, by omega⟩
    have hd : d = (daily n).day := by
      refine Date.dayNumber_injective ?_
      rw [dayNumber_daily]
      show d.dayNumber = 719528 + (d.dayNumber - 719528)
      omega
    rw [hd]
    exact recordedOn_daily n
  last w hw := by
    obtain ⟨n, _, rfl⟩ := List.mem_map.mp hw
    have hlast : (daily 90).day.dayNumber = 719528 + 90 := dayNumber_daily 90
    have hnow : (daily n).wake.now.nanos / dayNanos = n := by
      rw [wake_daily]
      exact nanos_midnight_div n
    have hlt := n.isLt
    rw [hnow, hlast, epoch_eq]
    omega

theorem kept_quarter (d : Date) : (kept quarter laptop.mac d).isSome ↔ ∃ n, d = (daily n).day := by
  constructor
  · intro h
    obtain ⟨⟨w, hw, rfl, -⟩, -⟩ := isSome_kept_iff.mp h
    obtain ⟨n, _, rfl⟩ := List.mem_map.mp hw
    exact ⟨n, rfl⟩
  · rintro ⟨n, rfl⟩
    have hle : (daily n).day ≤ (daily 90).day := by
      show (daily n).day.dayNumber ≤ (daily 90).day.dayNumber
      rw [dayNumber_daily, dayNumber_daily]
      exact Nat.add_le_add_left (Nat.lt_succ_iff.mp n.isLt) _
    refine dailyUntil_quarter.isSome_kept (by decide) hle ?_
    rw [dayNumber_daily, dayNumber_daily]
    exact Nat.add_le_add_right (Nat.le_add_right _ _) _

theorem injective_daily : Function.Injective fun n => (daily n).day := by
  intro n n' h
  have hnumber := congrArg Date.dayNumber h
  simp only [dayNumber_daily] at hnumber
  exact Fin.ext (by omega)

theorem ncard_quarter : {d | (kept quarter laptop.mac d).isSome}.ncard = 91 := by
  have hrange : {d | (kept quarter laptop.mac d).isSome} =
      (fun n => (daily n).day) '' (Finset.univ : Finset (Fin 91)) := by
    ext d
    rw [Set.mem_ofPred_eq, kept_quarter, Finset.coe_univ, Set.image_univ, Set.mem_range]
    simp only [eq_comm]
  rw [hrange, Set.ncard_image_of_injective _ injective_daily, Set.ncard_coe_finset,
    Finset.card_univ, Fintype.card_fin]

section Runs

variable {lib : TimeLibrary} {F : TextFormats} {retentionDays : UInt64}

/-! ### Any listing -/

/-- **The history of a daemon's life.**  The task goes on through all the passes.  A listing then
gives, for each day of the range that no pass has deleted and on which the device was recorded,
the last snapshot of that day, in the order of the calendar and cut to the limit. -/
theorem history_of_run (hlib : lib.Documented) (hcal : lib.Calendar) (hF : F.Lawful)
    {wakes : List (DatedWake lib retentionDays)} (hsteady : Steady wakes) :
    ∃ store passes, (historyTask lib F retentionDays).run ⟨.empty, true⟩
        (wakes.map DatedWake.wake) = some (⟨store, true⟩, passes) ∧
      ∀ (clock : HistoryRow → RowClock) (mac : MacAddress) (start stop : Option Date)
        (limit : Option Nat), (∀ n ∈ limit, n ≤ maxInteger) →
        ∃ dates : List Date, dates.Pairwise (· < ·) ∧
          (∀ d, d ∈ dates ↔
            (kept wakes mac d).isSome ∧ (∀ a ∈ start, a ≤ d) ∧ ∀ b ∈ stop, d ≤ b) ∧
          store.listHistory F clock mac (start.map Date.text) (stop.map Date.text) limit =
            .ok (takeLimit limit ((dates.filterMap (kept wakes mac)).map persistedSnapshot)) := by
  obtain ⟨passes, hrun⟩ := historyTask_run_eq (F := F) hlib hcal hsteady.fits .empty
  have hrefines := hsteady.refines (F := F)
  refine ⟨_, passes, hrun, fun clock mac start stop limit hlimit => ?_⟩
  exact ⟨_, hrefines.pairwise_listedDates mac start stop, hrefines.mem_listedDates,
    hrefines.listHistory hF (fun m d s hs => hsteady.snapshotFits hs) clock mac start stop
      hlimit⟩

theorem history_of_quarter : ∃ F : TextFormats, F.Lawful ∧ ∃ store passes,
    (historyTask calendarTimes F 90).run ⟨.empty, true⟩ (quarter.map DatedWake.wake) =
        some (⟨store, true⟩, passes) ∧
      ∀ clock, ∃ dates : List Date, dates.length = 91 ∧
        store.listHistory F clock laptop.mac none none none =
          .ok ((dates.filterMap (kept quarter laptop.mac)).map persistedSnapshot) := by
  obtain ⟨F, hF, _⟩ := exists_lawful
  obtain ⟨store, passes, hrun, hlist⟩ :=
    history_of_run calendarTimes_documented calendarTimes_calendar hF steady_quarter
  refine ⟨F, hF, store, passes, hrun, fun clock => ?_⟩
  obtain ⟨dates, hsorted, hmem, hanswer⟩ := hlist clock laptop.mac none none none
    fun n hn => absurd hn (Option.not_mem_none n)
  have hset : {d | (kept quarter laptop.mac d).isSome} = (dates.toFinset : Set Date) := by
    ext d
    rw [List.coe_toFinset, Set.mem_ofPred_eq, Set.mem_ofPred_eq, hmem]
    simp
  have hlength := ncard_quarter
  rw [hset, Set.ncard_coe_finset, List.toFinset_card_of_nodup (hsorted.imp ne_of_lt)] at hlength
  exact ⟨dates, hlength, hanswer⟩

/-! ### The size of the table -/

def rowsOf (store : SqliteHistoryStore) (mac : MacAddress) :
    List (Σ _ : String × String, HistoryRow) :=
  store.table.entries.filter fun e => e.1.1 = mac.toString

/-- **The table is bounded**: with a retention, after the passes of a daemon's life in the order of
the clock, there is for each device at most one row more than the days of the retention, and in
all at most so many for each device that was ever listed. -/
theorem rows_le (hlib : lib.Documented) (hcal : lib.Calendar) (hpos : 0 < retentionDays)
    {wakes : List (DatedWake lib retentionDays)} (hsteady : Steady wakes) (horder : InOrder wakes) :
    ∃ store passes, (historyTask lib F retentionDays).run ⟨.empty, true⟩
        (wakes.map DatedWake.wake) = some (⟨store, true⟩, passes) ∧
      (∀ mac, (rowsOf store mac).length ≤ retentionDays.toNat + 1) ∧
      store.table.entries.length ≤ (listedMacs wakes).card * (retentionDays.toNat + 1) := by
  obtain ⟨passes, hrun⟩ := historyTask_run_eq (F := F) hlib hcal hsteady.fits .empty
  obtain ⟨first, hwindow⟩ := exists_window hpos hsteady horder
  have hrefines := hsteady.refines (F := F)
  have hdays : (Finset.Icc first (first + retentionDays.toNat)).card = retentionDays.toNat + 1 := by
    rw [Nat.card_Icc]
    omega
  refine ⟨_, passes, hrun, fun mac => ?_, ?_⟩
  · have hrows := length_filter_of_refines hrefines (q := fun k => k.1 = mac.toString)
      (p := fun x => x.1 = mac) fun x => by
        rw [decide_eq_true_eq, MacAddress.toString_injective.eq_iff]
    rw [rowsOf, hrows, ← hdays, ← Set.ncard_coe_finset]
    refine Set.ncard_le_ncard_of_injOn (fun x => x.2.dayNumber) ?_ ?_
    · rintro ⟨m, d⟩ ⟨-, hd⟩
      exact Finset.mem_coe.mpr (Finset.mem_Icc.mpr (hwindow m d hd))
    · rintro ⟨m, d⟩ ⟨rfl, -⟩ ⟨m', d'⟩ ⟨rfl, -⟩ heq
      exact Prod.ext rfl (Date.dayNumber_injective heq)
  · have hrows := length_filter_of_refines hrefines (q := fun _ => true) (p := fun _ => True)
      fun _ => iff_of_true rfl trivial
    rw [List.filter_eq_self.mpr fun _ _ => rfl] at hrows
    have hcard : (listedMacs wakes ×ˢ Finset.Icc first (first + retentionDays.toNat)).card =
        (listedMacs wakes).card * (retentionDays.toNat + 1) := by
      rw [Finset.card_product, hdays]
    rw [hrows, ← hcard, ← Set.ncard_coe_finset]
    refine Set.ncard_le_ncard_of_injOn (fun x => (x.1, x.2.dayNumber)) ?_ ?_
    · rintro ⟨m, d⟩ ⟨-, hd⟩
      obtain ⟨⟨w, hw, -, device, hdevice, rfl, -⟩, -⟩ := isSome_kept_iff.mp hd
      refine Finset.mem_coe.mpr (Finset.mem_product.mpr ⟨?_, Finset.mem_Icc.mpr (hwindow _ _ hd)⟩)
      exact List.mem_toFinset.mpr
        (List.mem_flatMap.mpr ⟨w, hw, List.mem_map.mpr ⟨device, hdevice, rfl⟩⟩)
    · rintro x - y - heq
      exact Prod.ext (Prod.mk.inj heq).1 (Date.dayNumber_injective (Prod.mk.inj heq).2)

theorem rows_le_quarter : ∃ F : TextFormats, F.Lawful ∧ ∃ store passes,
    (historyTask calendarTimes F 90).run ⟨.empty, true⟩ (quarter.map DatedWake.wake) =
        some (⟨store, true⟩, passes) ∧
      (rowsOf store laptop.mac).length ≤ 91 ∧
      store.table.entries.length ≤ (listedMacs quarter).card * 91 := by
  obtain ⟨F, hF, _⟩ := exists_lawful
  obtain ⟨store, passes, hrun, hrows, htable⟩ := rows_le calendarTimes_documented
    calendarTimes_calendar (by decide) steady_quarter inOrder_quarter
  exact ⟨F, hF, store, passes, hrun, hrows laptop.mac, htable⟩

/-! ### A listing without parameters -/

theorem map_snapshotDate_listed {wakes : List (DatedWake lib retentionDays)} {mac : MacAddress}
    {dates : List Date} (h : ∀ d ∈ dates, (kept wakes mac d).isSome) (n : Nat) :
    (takeLimit (some n) ((dates.filterMap (kept wakes mac)).map persistedSnapshot)).map
        DeviceHistorySnapshot.snapshotDate = (dates.take n).map Date.text := by
  have hdate : ∀ d ∈ dates, (kept wakes mac d).map
      (fun s => (persistedSnapshot s).snapshotDate) = some d.text := by
    intro d hd
    obtain ⟨s, hs⟩ := Option.isSome_iff_exists.mp (h d hd)
    obtain ⟨w, _, rfl, hwritten, _⟩ := mem_written_of_kept hs
    obtain ⟨device, _, _, rfl⟩ := DatedWake.mem_written.mp hwritten
    rw [hs]
    rfl
  rw [map_takeLimit, List.map_map, List.map_filterMap, List.map_take]
  show ((dates.filterMap fun d => (kept wakes mac d).map
    fun s => (persistedSnapshot s).snapshotDate).take n) = _
  rw [List.filterMap_congr hdate, List.filterMap_eq_map']

/-- The reply of the handler without parameters: any dates, and at most 90 rows. -/
theorem reply_default {build : Api.Build} {hexDecode : String → Option (List UInt8)}
    {σ ε : Type} {B : Api.Backend σ ε}
    {listHistory : ε → σ → MacAddress → Option String → Option String → Option Nat →
      Except StorageError (List DeviceHistorySnapshot)} {env : ε} {uptime : Nat} {s : σ}
    {path : String} {mac : MacAddress} {params : Api.Params}
    {snapshots : List DeviceHistorySnapshot} (hB : B.listHistory = some listHistory)
    (hpath : Api.parseMac hexDecode path = .ok mac) (hfrom : params "from" = none)
    (hto : params "to" = none) (hlimit : params "limit" = none)
    (hlist : listHistory env s mac none none (some 90) = .ok snapshots) :
    (Api.Handler.getDeviceHistory path params).run build hexDecode B env uptime s =
      (.ok (Api.historyReply snapshots), s) := by
  have hget : Api.getDeviceHistory build hexDecode B env s path params = .ok snapshots := by
    simp only [Api.getDeviceHistory, hB, hpath, hfrom, hto, hlimit, bind, Except.bind, Option.bind,
      Option.none_or, hlist]
  rw [Api.Handler.run, hget]
  rfl

end Runs

end EdgeShield.Daemon
