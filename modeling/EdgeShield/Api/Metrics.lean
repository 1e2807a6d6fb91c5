import EdgeShield.Common.Alert
import EdgeShield.Discovery.Accounting
import EdgeShield.Discovery.Growth

/-!
# Aggregate metrics

`crates/api/src/routes.rs`: `metrics` and `metrics_prometheus` add up the counters of all
devices, with `+` and `sum`, while each counter on its own saturates.  What `+` does past
`u64::MAX` depends on the build: it panics with overflow checks and wraps without.

`reported` is what either build gives for a sum; a chain of additions gives the same as one
(`reported_bind_add`), and so both handlers report the sums over the table (`sum_eq`).
`shows_iff_sumsFit` says for which tables these are the sums capped at `u64::MAX`, and
`sumsGrow_run` that the sums never shrink while packets are processed.
-/

namespace EdgeShield.Api

open EdgeShield.Lib EdgeShield.Common EdgeShield.Storage EdgeShield.Discovery

/-- `+` on `u64`. -/
def add (overflowChecks : Bool) (a b : Nat) : Run Empty Nat :=
  if a + b ≤ u64Max then .ok (a + b)
  else if overflowChecks then .panic
  else .ok ((a + b) % 2 ^ 64)

/-- `devices.iter().map(term).sum()` -/
def sum (overflowChecks : Bool) (term : Device → Run Empty Nat) (devices : List Device) :
    Run Empty Nat :=
  devices.foldlM (fun acc d => do add overflowChecks acc (← term d)) 0

structure MetricsResponse where
  totalDevices : Nat
  totalPackets : Nat
  totalBytes : Nat
  uptimeSeconds : Nat
  deriving DecidableEq, Repr

abbrev HandlerError := Nat × String

/-- `GET /metrics`, with the result of `state.store.list()`. -/
def metrics (overflowChecks : Bool) (listed : Except StorageError (List Device))
    (uptimeSeconds : Nat) : Run Empty (Except HandlerError MetricsResponse) :=
  match listed with
  | .error _ => .ok (.error (500, "failed to compute metrics"))
  | .ok devices => do
    let totalPackets ← sum overflowChecks (fun d => .ok d.packetCount) devices
    let totalBytes ← sum overflowChecks (fun d => add overflowChecks d.bytesSent d.bytesReceived)
      devices
    return .ok
      { totalDevices := devices.length
        totalPackets := totalPackets
        totalBytes := totalBytes
        uptimeSeconds := uptimeSeconds }

def exposition (name help kind : String) (value : Nat) : String :=
  "# HELP " ++ name ++ " " ++ help ++ "\n# TYPE " ++ name ++ " " ++ kind ++ "\n" ++ name ++ " " ++
    Nat.repr value ++ "\n"

def prometheusBody (totalDevices totalPackets totalBytes uptimeSeconds totalAlerts : Nat) :
    String :=
  exposition "edgeshield_devices_total" "Total number of discovered devices." "gauge"
      totalDevices ++
    exposition "edgeshield_packets_total" "Total packets observed across all devices." "counter"
      totalPackets ++
    exposition "edgeshield_bytes_total" "Total bytes observed across all devices." "counter"
      totalBytes ++
    exposition "edgeshield_uptime_seconds" "Daemon uptime in seconds." "gauge" uptimeSeconds ++
    exposition "edgeshield_alerts_total" "Total alerts in the alert store." "gauge" totalAlerts

/-- `GET /metrics/prometheus`, with the results of `state.store.list()` and
`state.alert_store.count_alerts()`. -/
def metricsPrometheus (overflowChecks : Bool) (listed : Except StorageError (List Device))
    (uptimeSeconds : Nat) (counted : Except StorageError Nat) :
    Run Empty (Except HandlerError String) :=
  match listed with
  | .error _ => .ok (.error (500, "failed to compute metrics"))
  | .ok devices => do
    let totalPackets ← sum overflowChecks (fun d => .ok d.packetCount) devices
    let totalBytes ← sum overflowChecks (fun d => add overflowChecks d.bytesSent d.bytesReceived)
      devices
    let totalAlerts := counted.toOption.getD 0
    return .ok (prometheusBody devices.length totalPackets totalBytes uptimeSeconds totalAlerts)

/-! ### What is reported for a sum -/

/-- The outcome of additions whose exact sum is `n`. -/
def reported (overflowChecks : Bool) (n : Nat) : Run Empty Nat := add overflowChecks n 0

theorem add_eq (overflowChecks : Bool) (a b : Nat) :
    add overflowChecks a b = reported overflowChecks (a + b) := rfl

theorem reported_of_le {n : Nat} (h : n ≤ u64Max) (overflowChecks : Bool) :
    reported overflowChecks n = .ok n := if_pos h

theorem reported_of_lt {n : Nat} (h : u64Max < n) (overflowChecks : Bool) :
    reported overflowChecks n = if overflowChecks then .panic else .ok (n % 2 ^ 64) :=
  if_neg (Nat.not_le.mpr h)

/-- **Two additions are one**: the second one overflows, or wraps, just as it would on the
exact sum. -/
theorem reported_bind_add (overflowChecks : Bool) (n k : Nat) :
    (reported overflowChecks n >>= fun x => reported overflowChecks (x + k)) =
      reported overflowChecks (n + k) := by
  rcases Nat.lt_or_ge u64Max n with hlt | hle
  · rw [reported_of_lt hlt, reported_of_lt (Nat.lt_of_lt_of_le hlt (Nat.le_add_right n k))]
    cases overflowChecks with
    | true => rfl
    | false =>
      show reported false (n % 2 ^ 64 + k) = .ok ((n + k) % 2 ^ 64)
      have hmod : (n % 2 ^ 64 + k) % 2 ^ 64 = (n + k) % 2 ^ 64 := Nat.mod_add_mod n (2 ^ 64) k
      rcases Nat.lt_or_ge u64Max (n % 2 ^ 64 + k) with hover | hfits
      · rw [reported_of_lt hover, ← hmod]
        rfl
      · rw [reported_of_le hfits, ← hmod]
        exact congrArg Except.ok (Nat.mod_eq_of_lt (Nat.lt_succ_of_le hfits)).symm
  · rw [reported_of_le hle, Run.ok_bind]

def total (f : Device → Nat) (devices : List Device) : Nat :=
  devices.foldr (fun d n => f d + n) 0

theorem foldlM_add {overflowChecks : Bool} {f : Device → Nat} {term : Device → Run Empty Nat}
    (hterm : ∀ d n, (term d >>= add overflowChecks n) = reported overflowChecks (n + f d)) :
    ∀ (devices : List Device) (n : Nat),
      (reported overflowChecks n >>= fun acc =>
          devices.foldlM (fun acc d => do add overflowChecks acc (← term d)) acc) =
        reported overflowChecks (n + total f devices) := by
  intro devices
  induction devices with
  | nil =>
    intro n
    rw [total, List.foldr_nil, Nat.add_zero]
    cases reported overflowChecks n with
    | error e => rfl
    | ok x => rfl
  | cons d devices ih =>
    intro n
    have hd : (reported overflowChecks n >>= fun acc => term d >>= add overflowChecks acc) =
        reported overflowChecks (n + f d) := by
      simp only [hterm]
      exact reported_bind_add overflowChecks n (f d)
    have htotal : n + total f (d :: devices) = n + f d + total f devices := by
      rw [total, List.foldr_cons, Nat.add_assoc]
      rfl
    rw [htotal, ← ih (n + f d), ← hd]
    simp only [List.foldlM_cons]
    cases reported overflowChecks n with
    | error e => rfl
    | ok x => rfl

/-- **`sum` reports the exact sum.** -/
theorem sum_eq {overflowChecks : Bool} {f : Device → Nat} {term : Device → Run Empty Nat}
    (hterm : ∀ d n, (term d >>= add overflowChecks n) = reported overflowChecks (n + f d))
    (devices : List Device) :
    sum overflowChecks term devices = reported overflowChecks (total f devices) := by
  have h := foldlM_add hterm devices 0
  rw [reported_of_le (Nat.zero_le _), Run.ok_bind, Nat.zero_add] at h
  exact h

def deviceBytes (d : Device) : Nat := d.bytesSent + d.bytesReceived

def totalPackets (s : MemoryStore) : Nat := total Device.packetCount s.list

def totalBytes (s : MemoryStore) : Nat := total deviceBytes s.list

theorem sum_packets (overflowChecks : Bool) (s : MemoryStore) :
    sum overflowChecks (fun d => .ok d.packetCount) s.list =
      reported overflowChecks (totalPackets s) :=
  sum_eq (fun _ _ => rfl) s.list

theorem sum_bytes (overflowChecks : Bool) (s : MemoryStore) :
    sum overflowChecks (fun d => add overflowChecks d.bytesSent d.bytesReceived) s.list =
      reported overflowChecks (totalBytes s) := by
  refine sum_eq (f := deviceBytes) (fun d n => ?_) s.list
  have hcomm : ∀ x, add overflowChecks n x = reported overflowChecks (x + n) := by
    intro x
    rw [add_eq, Nat.add_comm]
  rw [add_eq, funext hcomm, reported_bind_add, Nat.add_comm n]
  rfl

/-! ### When the sums are capped -/

structure Shows (overflowChecks : Bool) (s : MemoryStore) (uptimeSeconds : Nat)
    (counted : Except StorageError Nat) (packets bytes : Nat) : Prop where
  json : metrics overflowChecks (.ok s.list) uptimeSeconds =
    .ok (.ok ⟨s.list.length, packets, bytes, uptimeSeconds⟩)
  text : metricsPrometheus overflowChecks (.ok s.list) uptimeSeconds counted =
    .ok (.ok (prometheusBody s.list.length packets bytes uptimeSeconds
      (counted.toOption.getD 0)))

/-- The sum is a `u64`.  A sum that wraps to `u64::MAX` looks like one that was capped. -/
def Fits (overflowChecks : Bool) (n : Nat) : Prop :=
  n ≤ u64Max ∨ overflowChecks = false ∧ n % 2 ^ 64 = u64Max

def SumsFit (overflowChecks : Bool) (s : MemoryStore) : Prop :=
  Fits overflowChecks (totalPackets s) ∧ Fits overflowChecks (totalBytes s)

theorem reported_eq_min_iff {overflowChecks : Bool} {n : Nat} :
    reported overflowChecks n = .ok (min u64Max n) ↔ Fits overflowChecks n := by
  rw [Fits]
  rcases Nat.lt_or_ge u64Max n with hlt | hle
  · rw [reported_of_lt hlt, or_iff_right (Nat.not_le.mpr hlt), Nat.min_eq_left (Nat.le_of_lt hlt)]
    cases overflowChecks with
    | true => exact ⟨fun h => (by cases h), fun h => (by cases h.1)⟩
    | false =>
      show Except.ok (n % 2 ^ 64) = .ok u64Max ↔ _
      rw [Except.ok.injEq, and_iff_right rfl]
  · rw [reported_of_le hle, Nat.min_eq_right hle]
    exact iff_of_true rfl (.inl hle)

theorem metrics_eq_ok_iff {overflowChecks : Bool} {s : MemoryStore}
    {uptimeSeconds packets bytes : Nat} :
    metrics overflowChecks (.ok s.list) uptimeSeconds =
        .ok (.ok ⟨s.list.length, packets, bytes, uptimeSeconds⟩) ↔
      reported overflowChecks (totalPackets s) = .ok packets ∧
        reported overflowChecks (totalBytes s) = .ok bytes := by
  rw [metrics]
  simp only [sum_packets, sum_bytes]
  refine ⟨fun h => ?_, fun h => ?_⟩
  · obtain ⟨p, hp, h⟩ := Run.bind_eq_ok.mp h
    obtain ⟨b, hb, h⟩ := Run.bind_eq_ok.mp h
    cases h
    exact ⟨hp, hb⟩
  · rw [h.1, h.2]
    rfl

theorem Shows.of_reported {overflowChecks : Bool} {s : MemoryStore} {packets bytes : Nat}
    (hp : reported overflowChecks (totalPackets s) = .ok packets)
    (hb : reported overflowChecks (totalBytes s) = .ok bytes) (uptimeSeconds : Nat)
    (counted : Except StorageError Nat) :
    Shows overflowChecks s uptimeSeconds counted packets bytes := by
  refine ⟨metrics_eq_ok_iff.mpr ⟨hp, hb⟩, ?_⟩
  rw [metricsPrometheus]
  simp only [sum_packets, sum_bytes, hp, hb]
  rfl

/-- **The totals are the sums, capped**, exactly when the sums fit. -/
theorem shows_iff_sumsFit (overflowChecks : Bool) (s : MemoryStore) (uptimeSeconds : Nat)
    (counted : Except StorageError Nat) :
    Shows overflowChecks s uptimeSeconds counted (min u64Max (totalPackets s))
        (min u64Max (totalBytes s)) ↔ SumsFit overflowChecks s := by
  rw [SumsFit, ← reported_eq_min_iff, ← reported_eq_min_iff]
  exact ⟨fun h => metrics_eq_ok_iff.mp h.json,
    fun h => .of_reported h.1 h.2 uptimeSeconds counted⟩

/-! ### The sums never shrink -/

theorem total_perm {f : Device → Nat} {devices devices' : List Device}
    (h : devices.Perm devices') : total f devices = total f devices' := by
  induction h with
  | nil => rfl
  | cons d _ ih => exact congrArg (f d + ·) ih
  | swap d d' devices => exact Nat.add_left_comm _ _ _
  | trans _ _ ih ih' => exact ih.trans ih'

theorem total_kerase (f : Device → Nat) (m : MacAddress)
    (entries : List (Σ _ : MacAddress, Device)) :
    ((entries.dlookup m).map f).getD 0 + total f ((entries.kerase m).map Sigma.snd) =
      total f (entries.map Sigma.snd) := by
  induction entries with
  | nil => rfl
  | cons e entries ih =>
    obtain ⟨m', d⟩ := e
    by_cases hm : m = m'
    · subst hm
      rw [List.dlookup_cons_eq, List.kerase_cons_eq (β := fun _ => Device) (s := ⟨m, d⟩) rfl]
      rfl
    · rw [List.dlookup_cons_ne _ _ hm,
        List.kerase_cons_ne (β := fun _ => Device) (s := ⟨m', d⟩) hm, List.map_cons, List.map_cons]
      show _ + (f d + total f ((entries.kerase m).map Sigma.snd)) =
        f d + total f (entries.map Sigma.snd)
      rw [← ih]
      exact Nat.add_left_comm _ _ _

theorem total_list (f : Device → Nat) (s : MemoryStore) :
    total f s.list = total f (s.devices.entries.map Sigma.snd) :=
  total_perm (List.mergeSort_perm _ _)

theorem total_upsert_le {f : Device → Nat} {s : MemoryStore} {d : Device}
    (h : ∀ old, s.get d.mac = some old → f old ≤ f d) :
    total f s.list ≤ total f (s.upsert d).list := by
  have hold : ((s.devices.entries.dlookup d.mac).map f).getD 0 ≤ f d := by
    cases hg : s.devices.entries.dlookup d.mac with
    | none => exact Nat.zero_le _
    | some old => exact h old hg
  rw [total_list, total_list, ← total_kerase f d.mac s.devices.entries]
  show _ ≤ total f (((s.devices.insert d.mac d).entries).map Sigma.snd)
  rw [AList.entries_insert]
  exact Nat.add_le_add_right hold _

def TableFits (s : MemoryStore) : Prop := ∀ m d, s.get m = some d → d.CountersFit

structure SumsGrow (s s' : MemoryStore) : Prop where
  fits : TableFits s'
  packets : totalPackets s ≤ totalPackets s'
  bytes : totalBytes s ≤ totalBytes s'

theorem SumsGrow.refl {s : MemoryStore} (h : TableFits s) : SumsGrow s s :=
  ⟨h, Nat.le_refl _, Nat.le_refl _⟩

theorem SumsGrow.trans {s s' s'' : MemoryStore} (h : SumsGrow s s') (h' : SumsGrow s' s'') :
    SumsGrow s s'' :=
  ⟨h'.fits, h.packets.trans h'.packets, h.bytes.trans h'.bytes⟩

theorem sumsGrow_updateEndpoint {s : MemoryStore} (h : TableFits s) {mac : MacAddress}
    {fresh : Device} {record : Device → Device} {changed : Device → Device → Bool}
    (hmac : fresh.mac = mac) (hfresh : fresh.CountersFit) (hrecord : ∀ d, (record d).mac = d.mac)
    (hfits : ∀ d, d.CountersFit → (record d).CountersFit)
    (hgrows : ∀ d, d.CountersFit → CountersGrow d (record d)) :
    SumsGrow s (updateEndpoint s mac fresh record changed).1 := by
  have hold : ((s.get mac).getD fresh).CountersFit ∧ ((s.get mac).getD fresh).mac = mac := by
    cases hg : s.get mac with
    | none => exact ⟨hfresh, hmac⟩
    | some d => exact ⟨h mac d hg, MemoryStore.mac_of_get hg⟩
  have hprev : ∀ old, s.get (record ((s.get mac).getD fresh)).mac = some old →
      CountersGrow old (record ((s.get mac).getD fresh)) := by
    intro old hg
    rw [hrecord, hold.2] at hg
    rw [hg]
    exact hgrows old (h mac old hg)
  refine ⟨fun m d hd => ?_, total_upsert_le fun old hg => (hprev old hg).packetCount,
    total_upsert_le fun old hg =>
      Nat.add_le_add (hprev old hg).bytesSent (hprev old hg).bytesReceived⟩
  rw [get_updateEndpoint hmac hrecord] at hd
  split at hd
  · cases hd
    exact hfits _ hold.1
  · exact h m d hd

theorem sumsGrow_updateDevices {s : MemoryStore} (h : TableFits s) (ouiMap : Nat → Option String)
    (x : Sighting) (clock : ClockReads) : SumsGrow s (updateDevices ouiMap s x clock).1 := by
  have hsource : SumsGrow s (updateSource ouiMap s x clock).1 :=
    sumsGrow_updateEndpoint h rfl (countersFit_newDevice ouiMap _ _) (mac_sourceRecord x _)
      (fun d hd => countersFit_sourceRecord hd x _) fun d hd => countersGrow_sourceRecord hd x _
  rw [updateDevices]
  by_cases hne : x.srcMac ≠ x.dstMac
  · simp only [if_pos hne]
    exact hsource.trans (sumsGrow_updateEndpoint hsource.fits rfl
      (countersFit_newDevice ouiMap _ _) (mac_destinationRecord x _)
      (fun d hd => countersFit_destinationRecord hd x _)
      fun d hd => countersGrow_destinationRecord hd x _)
  · simp only [if_neg hne]
    exact hsource

theorem sumsGrow_step {ouiMap : Nat → Option String} {s s' : MemoryStore} {frame : Frame}
    {evs : List DiscoveryEvent} (h : TableFits s)
    (hstep : (discovery ouiMap).step s frame = some (s', evs)) : SumsGrow s s' := by
  rcases (discovery_step ouiMap).mp hstep with ⟨-, rfl, -⟩ | ⟨x, -, hu⟩
  · exact .refl h
  · have hgrow := sumsGrow_updateDevices h ouiMap x frame.clock
    rw [hu] at hgrow
    exact hgrow

/-- **The sums never shrink** while frames are processed. -/
theorem sumsGrow_run {ouiMap : Nat → Option String} {s s' : MemoryStore} {frames : List Frame}
    {outs : List (List DiscoveryEvent)} (h : TableFits s)
    (hrun : (discovery ouiMap).run s frames = some (s', outs)) : SumsGrow s s' := by
  refine (discovery ouiMap).run_induction (P := fun _ _ t => SumsGrow s t) (.refl h) ?_ hrun
  intro frames outs t frame t' evs _ hgrow hstep
  exact hgrow.trans (sumsGrow_step hgrow.fits hstep)

/-- **The totals are faithful**: for every table they are the capped sums exactly when the
sums fit, and between two such tables of a run they do not shrink. -/
theorem metrics_faithful_iff (overflowChecks : Bool) (ouiMap : Nat → Option String) :
    (∀ s uptimeSeconds counted,
      Shows overflowChecks s uptimeSeconds counted (min u64Max (totalPackets s))
        (min u64Max (totalBytes s)) ↔ SumsFit overflowChecks s) ∧
    ∀ s frames s' outs, TableFits s → (discovery ouiMap).run s frames = some (s', outs) →
      SumsFit overflowChecks s → SumsFit overflowChecks s' →
      ∀ uptimeSeconds uptimeSeconds' counted counted', ∃ packets bytes packets' bytes',
        Shows overflowChecks s uptimeSeconds counted packets bytes ∧
        Shows overflowChecks s' uptimeSeconds' counted' packets' bytes' ∧
        packets ≤ packets' ∧ bytes ≤ bytes' := by
  refine ⟨shows_iff_sumsFit overflowChecks, ?_⟩
  intro s frames s' outs hfits hrun hs hs' uptimeSeconds uptimeSeconds' counted counted'
  have hgrow := sumsGrow_run hfits hrun
  exact ⟨_, _, _, _, (shows_iff_sumsFit _ s uptimeSeconds counted).mpr hs,
    (shows_iff_sumsFit _ s' uptimeSeconds' counted').mpr hs',
    min_le_min_left _ hgrow.packets, min_le_min_left _ hgrow.bytes⟩

/-- A device that has sent `u64::MAX` bytes, and one that has received a byte as well. -/
def saturated : Device := (Device.new (.ofBytes 0 0 0 0 0 1) ⟨0⟩).recordSent u64Max .tcp ⟨0⟩

def overfull : Device := saturated.recordReceived 1 .tcp ⟨0⟩

theorem list_upsert_new (d : Device) : (MemoryStore.new.upsert d).list = [d] :=
  List.mergeSort_singleton _

theorem metrics_faithful_iff_arp : ∃ s outs packets bytes,
    (discovery fun _ => none).run .new [arpFrame, arpFrame] = some (s, outs) ∧
      Shows true s 5 (.ok 0) packets bytes := by
  obtain ⟨⟨s, outs⟩, h⟩ := Option.isSome_iff_exists.mp
    (by decide : ((discovery fun _ => none).run .new [arpFrame, arpFrame]).isSome = true)
  have hsums : ((discovery fun _ => none).run .new [arpFrame, arpFrame]).map
      (fun r => (total Device.packetCount (r.1.devices.entries.map Sigma.snd),
        total deviceBytes (r.1.devices.entries.map Sigma.snd))) = some (4, 56) := by
    decide +kernel
  rw [h, Option.map_some, ← total_list, ← total_list] at hsums
  obtain ⟨hp, hb⟩ := Prod.mk.inj (Option.some.inj hsums)
  have hnew : TableFits .new := fun m d hd => by
    rw [MemoryStore.get_new] at hd
    cases hd
  have hempty : SumsFit true .new := by
    refine ⟨.inl ?_, .inl ?_⟩
    · rw [totalPackets, total_list]
      exact Nat.zero_le _
    · rw [totalBytes, total_list]
      exact Nat.zero_le _
  have hfit : SumsFit true s := ⟨.inl (hp.trans_le (by decide)), .inl (hb.trans_le (by decide))⟩
  obtain ⟨_, _, packets, bytes, -, hshows, -, -⟩ :=
    (metrics_faithful_iff true fun _ => none).2 .new [arpFrame, arpFrame] s outs hnew h hempty
      hfit 0 5 (.ok 0) (.ok 0)
  exact ⟨s, outs, packets, bytes, h, hshows⟩

/-- **The bytes of one saturated device are too many**: a received byte makes the handlers
panic in one build, and takes their total from `u64::MAX` back to zero in the other. -/
theorem metrics_overfull :
    saturated.Recorded ∧ overfull.Recorded ∧
    metrics true (.ok (MemoryStore.new.upsert overfull).list) 0 = .panic ∧
    metrics false (.ok (MemoryStore.new.upsert saturated).list) 0 = .ok (.ok ⟨1, 1, u64Max, 0⟩) ∧
    metrics false (.ok (MemoryStore.new.upsert overfull).list) 0 = .ok (.ok ⟨1, 2, 0, 0⟩) ∧
    min u64Max (totalBytes (MemoryStore.new.upsert overfull)) = u64Max := by
  have hsaturated : saturated.Recorded := .sent (.new _ _) (.ofNat u64Max) .tcp ⟨0⟩
  refine ⟨hsaturated, .received hsaturated 1 .tcp ⟨0⟩, ?_, ?_, ?_, ?_⟩
  · rw [list_upsert_new]
    rfl
  · rw [list_upsert_new]
    rfl
  · rw [list_upsert_new]
    rfl
  · rw [totalBytes, list_upsert_new]
    rfl

end EdgeShield.Api
