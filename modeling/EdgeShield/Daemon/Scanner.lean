import EdgeShield.Rules.Suppression

/-!
# The offline scanner

`crates/daemon/src/daemon.rs`, `offline_scanner`: on every tick, whatever the
interval, the scanner lists the device table and puts an event on the channel for
each device that has been silent for more than 60 seconds.  The rule engine takes it
from there.

A `deviceOffline` rule has a threshold of its own, and nothing compares it with the
silence of the device: the scanner does not know the rules, and the condition only
asks for an offline event.  So a rule alerts as soon as the scanner reports the
device.  `NoEarlyReport` says when this is right: the threshold is kept by
exactly the runs in which no rule is free to fire on a device that is silent for
more than 60 seconds and less than the threshold.
-/

namespace EdgeShield.Daemon

open EdgeShield.Lib EdgeShield.Common EdgeShield.Storage EdgeShield.Discovery EdgeShield.Rules

/-- `TimeDelta::num_seconds`: whole seconds, towards zero. -/
def numSeconds (nanos : Int) : Int := nanos.tdiv 1000000000

/-- `now.signed_duration_since(last_seen)`, in nanoseconds. -/
def silentFor (now : Timestamp) (d : Device) : Int := now.nanos - d.lastSeen.nanos

/-- The events of one tick of `offline_scanner`. -/
def offlineEvents (table : MemoryStore) (now : Timestamp) : List DiscoveryEvent :=
  (table.list.filter fun d => numSeconds (silentFor now d) > 60).map .deviceOffline

theorem sixty_lt_numSeconds {x : Int} : 60 < numSeconds x ↔ 61000000000 ≤ x := by
  unfold numSeconds
  rcases le_or_gt 0 x with h | h
  · rw [Int.tdiv_eq_ediv_of_nonneg h]
    omega
  · have hsign : Int.sign 1000000000 = 1 := rfl
    rw [Int.tdiv_eq_ediv, hsign]
    split
    · omega
    · omega

theorem mem_offlineEvents {table : MemoryStore} {now : Timestamp} {d : Device} :
    .deviceOffline d ∈ offlineEvents table now ↔
      table.get d.mac = some d ∧ 60 < numSeconds (silentFor now d) := by
  rw [offlineEvents, List.mem_map]
  constructor
  · rintro ⟨d', hd', he⟩
    cases he
    obtain ⟨hmem, hsilent⟩ := List.mem_filter.mp hd'
    exact ⟨MemoryStore.mem_list.mp hmem, by simpa using hsilent⟩
  · rintro ⟨hget, hsilent⟩
    exact ⟨d, List.mem_filter.mpr ⟨MemoryStore.mem_list.mpr hget, by simpa using hsilent⟩, rfl⟩

section Tick

variable {σ τ : Type} {S : AlertStore σ}

/-- Every offline event that the engine receives is one of the tick.  Events can be
missing, since a full channel drops them, and others can come in between. -/
def FedBy (table : MemoryStore) (now : Timestamp) (acts : List (Action τ)) : Prop :=
  ∀ d label, .receive (.deviceOffline d) label ∈ acts → .deviceOffline d ∈ offlineEvents table now

/-- Every alert of an offline rule is about a device that was silent for the
threshold. -/
def ThresholdKept (rules : List Rule) (now : Timestamp) (outs : List (Option (Emission τ))) :
    Prop :=
  ∀ e ∈ emissions outs, ∀ r n, rules[e.rule]? = some r → r.condition = .deviceOffline n →
    (n : Int) * 1000000000 ≤ silentFor now e.alert.deviceSnapshot

/-- No offline rule is free to fire on a device that is reported before the
threshold. -/
def NoEarlyReport (S : AlertStore σ) (now : Timestamp) (s : EngineState σ τ) (a : Action τ) :
    Prop :=
  ∀ inputs w rule n, a = .evaluate inputs → Due s w rule → rule.condition = .deviceOffline n →
    60 < numSeconds (silentFor now w.event.device) →
    silentFor now w.event.device < (n : Int) * 1000000000 →
    S.Acknowledged s.store rule.name w.event.device.mac

theorem offline_of_matches {event : DiscoveryEvent} {n : Nat}
    (h : (RuleCondition.deviceOffline n).matches event = true) :
    event = .deviceOffline event.device := by
  cases event with
  | deviceDiscovered d => cases h
  | deviceUpdated d => cases h
  | deviceOffline d => rfl

section Run

variable {table : MemoryStore} {now : Timestamp} {rules : List Rule} {store : σ} {clock : Nat}
  {acts : List (Action τ)} {s : EngineState σ τ} {outs : List (Option (Emission τ))}

theorem thresholdKept_of_meets (hfed : FedBy table now acts)
    (h : (engine S).run (.start rules store clock) acts = some (s, outs))
    (hok : (engine S).Meets (NoEarlyReport S now) (.start rules store clock) acts) :
    ThresholdKept rules now outs := by
  intro e he r n hr hcond
  obtain ⟨acts₁, inputs, acts₂, s₁, outs₁, w, rule, rfl, h₁, hb⟩ :=
    raisedIn_of_mem rfl h e (List.mem_append_left _ he)
  obtain ⟨r', hr', hset⟩ := settings_getElem? (settings_run h₁) hb.due.next
  have hrule : rule.condition = .deviceOffline n := by
    rw [← hb.position] at hr'
    cases hr.symm.trans hr'
    exact (Rule.of_settings_eq hset).2.2.1.symm.trans hcond
  have hevent := offline_of_matches (hrule ▸ hb.due.matched)
  have hrecv := received_run rfl h₁ w hb.due.working
  rw [hevent] at hrecv
  have hsilent := (mem_offlineEvents.mp (hfed _ _ (List.mem_append_left _ hrecv))).2
  by_contra hearly
  rw [hb.snapshot] at hearly
  refine hb.noAck ?_
  rw [hb.mac]
  exact (engine S).meets_iff.mp hok acts₁ _ acts₂ s₁ outs₁ rfl h₁ inputs w rule n rfl hb.due hrule
    hsilent (by omega)

/-- An alert that comes too early goes out, unless a failure drops it. -/
theorem meets_of_thresholdKept (hnf : NoFaults acts)
    (h : (engine S).run (.start rules store clock) acts = some (s, outs)) (hidle : s.work = none)
    (hkept : ThresholdKept rules now outs) :
    (engine S).Meets (NoEarlyReport S now) (.start rules store clock) acts := by
  refine (engine S).meets_iff.mpr ?_
  rintro acts₁ a acts₂ s₁ outs₁ rfl h₁ inputs w rule n rfl hdue hcond _ hearly
  by_contra hack
  obtain ⟨s₁', _, outs₂, h₁', h₂, rfl⟩ := (engine S).run_append.mp h
  rw [h₁] at h₁'
  cases h₁'
  obtain ⟨alert, _, hsnap, hmem⟩ := hdue.emits h₂ (fun i hi => hnf i (List.mem_append_right _ hi))
    hidle hack
  obtain ⟨r, hr, hset⟩ := settings_getElem? (settings_run h₁) hdue.next
  have hsent : ⟨w.done, s₁.clock, w.label, alert⟩ ∈ emissions (outs₁ ++ outs₂) := by
    rw [emissions_append]
    exact List.mem_append_right _ hmem
  have hbad := hkept _ hsent r n hr ((Rule.of_settings_eq hset).2.2.1.trans hcond)
  rw [hsnap] at hbad
  omega

/-- The scanner reports no device before its 61st second of silence, and thresholds
up to this are kept in every run. -/
theorem thresholdKept_of_le (hfed : FedBy table now acts)
    (h : (engine S).run (.start rules store clock) acts = some (s, outs))
    (hle : ∀ r ∈ rules, ∀ n, r.condition = .deviceOffline n → n ≤ 61) :
    ThresholdKept rules now outs := by
  refine thresholdKept_of_meets hfed h ((engine S).meets_iff.mpr ?_)
  intro acts₁ a acts₂ s₁ outs₁ _ h₁ inputs w rule n _ hdue hcond hsilent hearly
  obtain ⟨r, hr, hset⟩ := settings_getElem? (settings_run h₁) hdue.next
  have hn := hle r (List.mem_of_getElem? hr) n ((Rule.of_settings_eq hset).2.2.1.trans hcond)
  rw [sixty_lt_numSeconds] at hsilent
  omega

/-- **When the threshold is kept.**  It is kept in every run in which no offline rule
is free to fire on a device reported before the threshold; and where no store call
fails and the engine gets to the end, it is kept only then. -/
theorem thresholdKept_iff_noEarlyReport (hfed : FedBy table now acts)
    (h : (engine S).run (.start rules store clock) acts = some (s, outs)) :
    ((engine S).Meets (NoEarlyReport S now) (.start rules store clock) acts →
      ThresholdKept rules now outs) ∧
    (NoFaults acts → s.work = none → (ThresholdKept rules now outs ↔
      (engine S).Meets (NoEarlyReport S now) (.start rules store clock) acts)) :=
  ⟨thresholdKept_of_meets hfed h, fun hnf hidle =>
    ⟨meets_of_thresholdKept hnf h hidle, thresholdKept_of_meets hfed h⟩⟩

end Run

end Tick

/-! ### A device that is silent for a minute -/

def offlineRule : Rule := .new "offline" true (.deviceOffline 1800) .warning 0

def phoneTable : MemoryStore := MemoryStore.new.upsert phone

def reportPhone : List (Action Unit) :=
  [.receive (.deviceOffline phone) (), .evaluate quietInputs, .fire, .finish]

theorem fedBy_reportPhone (now : Timestamp) (h : 61000000000 ≤ now.nanos) :
    FedBy phoneTable now reportPhone := by
  intro d label hd
  simp only [reportPhone, List.mem_cons, Action.receive.injEq, DiscoveryEvent.deviceOffline.injEq,
    reduceCtorEq, List.not_mem_nil, or_false] at hd
  rw [hd.1, mem_offlineEvents, phoneTable, MemoryStore.get_upsert, if_pos rfl, sixty_lt_numSeconds]
  refine ⟨rfl, ?_⟩
  simp only [silentFor, phone, Device.new]
  omega

theorem noFaults_reportPhone : NoFaults reportPhone := by
  intro inputs h
  simp only [reportPhone, List.mem_cons, reduceCtorEq, Action.evaluate.injEq, List.not_mem_nil,
    or_false, false_or] at h
  rw [h]
  exact ⟨rfl, rfl⟩

/-- **The rule alerts after 61 seconds of silence**, with a threshold of 1800. -/
theorem threshold_broken_after_a_minute : ∃ s outs, FedBy phoneTable ⟨61000000000⟩ reportPhone ∧
    (engine InMemoryAlertStore.alertStore).run (.start [offlineRule] .new 0) reportPhone =
      some (s, outs) ∧ ¬ThresholdKept [offlineRule] ⟨61000000000⟩ outs := by
  obtain ⟨⟨s, outs⟩, h⟩ := Option.isSome_iff_exists.mp
    (by decide : ((engine InMemoryAlertStore.alertStore).run (.start [offlineRule] .new 0)
      reportPhone).isSome = true)
  refine ⟨s, outs, fedBy_reportPhone _ (le_refl _), h, fun hkept => ?_⟩
  have hview : ((engine InMemoryAlertStore.alertStore).run (.start [offlineRule] .new 0)
      reportPhone).map (fun r => (emissions r.2).map fun e => (e.rule, e.alert.deviceSnapshot)) =
      some [(0, phone)] := by decide +kernel
  rw [h, Option.map_some, Option.some.injEq] at hview
  obtain ⟨e, l, he, hev, _⟩ := List.map_eq_cons_iff.mp hview
  obtain ⟨hrule, hsnap⟩ := Prod.mk.inj hev
  have hbad := hkept e (he ▸ List.mem_cons_self) offlineRule 1800 (by rw [hrule]; rfl) rfl
  rw [hsnap] at hbad
  exact absurd hbad (by decide)

/-- After 1800 seconds the same alert is right, and the run has no early report. -/
theorem thresholdKept_after_half_an_hour :
    (engine InMemoryAlertStore.alertStore).Meets
      (NoEarlyReport InMemoryAlertStore.alertStore ⟨1800000000000⟩) (.start [offlineRule] .new 0)
      reportPhone := by
  obtain ⟨⟨s, outs⟩, h⟩ := Option.isSome_iff_exists.mp
    (by decide : ((engine InMemoryAlertStore.alertStore).run (.start [offlineRule] .new 0)
      reportPhone).isSome = true)
  have hview : ((engine InMemoryAlertStore.alertStore).run (.start [offlineRule] .new 0)
      reportPhone).map (fun r => (r.1.work.isNone,
        (emissions r.2).map fun e => (e.rule, e.alert.deviceSnapshot))) =
      some (true, [(0, phone)]) := by decide +kernel
  rw [h, Option.map_some, Option.some.injEq, Prod.mk.injEq] at hview
  refine (((thresholdKept_iff_noEarlyReport
    (fedBy_reportPhone ⟨1800000000000⟩ (by decide)) h).2 noFaults_reportPhone
      (Option.isNone_iff_eq_none.mp hview.1)).mp ?_)
  intro e he r n hr hcond
  have hmem : (e.rule, e.alert.deviceSnapshot) ∈ [(0, phone)] :=
    hview.2 ▸ List.mem_map_of_mem (f := fun e => (e.rule, e.alert.deviceSnapshot)) he
  obtain ⟨hrule, hsnap⟩ := Prod.mk.inj (List.mem_singleton.mp hmem)
  rw [hrule] at hr
  cases hr
  cases hcond
  rw [hsnap]
  decide

end EdgeShield.Daemon
