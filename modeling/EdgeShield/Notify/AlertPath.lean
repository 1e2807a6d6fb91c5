import EdgeShield.Lib.Pipe
import EdgeShield.Notify.Fanout

/-!
# From the rule engine to the notifiers

`crates/daemon/src/daemon.rs`, steps 7 to 10 of `run`: the rule engine sends its alerts on a
bounded channel, and `NotifierFanout::run` takes them off and hands each to one notifier
after the other.  `alertPath` is the two tasks at the channel, an instance of `piped`, with
notifiers of any kind.  When none is configured the receiver is dropped, and a send comes back
at once.

The fan-out as a function of all alerts, `fanout`, is what this comes to in every order of
the steps: the deliveries are its first part, at most `capacity + 1` alerts behind
(`deliveries_of_run`), and the fan-out can always get to its end (`deliveries_of_drain`).

The notifiers run in the task of the fan-out and not in tasks of their own, and `send` waits
for room.  So a notifier that does not come back holds up the others, and after
`capacity + 1` alerts the rule engine too (`emissions_of_hanging`).
-/

namespace EdgeShield.Notify

open EdgeShield.Lib EdgeShield.Common EdgeShield.Discovery EdgeShield.Rules

section Path

variable {σ τ ν α δ : Type}

/-- The rule engine and the fan-out.  The notifiers are numbered. -/
def alertPath (α : Type) (S : AlertStore σ) (capacity : Nat) (notifiers : List ν) :
    Machine (PipeState (EngineState σ τ) (Emission τ) (ν × Nat)) (PipeAction (Action τ) α)
      (PipeEvent (Emission τ) (ν × Nat) α) :=
  piped (engine S) capacity notifiers.zipIdx

variable (deliver : α → Alert → ν → δ)

def deliveryOf (d : ((ν × Nat) × Emission τ) × α) : δ := deliver d.2 d.1.2.alert d.1.1.1

def deliveries (outs : List (PipeEvent (Emission τ) (ν × Nat) α)) : List δ :=
  (served outs).map (deliveryOf deliver)

/-- `fanout`, on alerts that are numbered from `i` on. -/
def fanoutFrom (notifiers : List ν) (answers : Nat → Nat → α) (i : Nat) (alerts : List Alert) :
    List δ :=
  (alerts.zipIdx i).flatMap fun x =>
    notifiers.zipIdx.map fun n => deliver (answers x.2 n.2) x.1 n.1

variable {deliver}

/-! ### Answers by position -/

theorem fanoutFrom_cons (notifiers : List ν) (answers : Nat → Nat → α) (i : Nat)
    (alert : Alert) (alerts : List Alert) :
    fanoutFrom deliver notifiers answers i (alert :: alerts) =
      (notifiers.zipIdx.map fun n => deliver (answers i n.2) alert n.1) ++
        fanoutFrom deliver notifiers answers (i + 1) alerts := rfl

theorem length_fanoutFrom (notifiers : List ν) (answers : Nat → Nat → α)
    (alerts : List Alert) : ∀ i, (fanoutFrom deliver notifiers answers i alerts).length =
      alerts.length * notifiers.length := by
  induction alerts with
  | nil => intro i; simp [fanoutFrom]
  | cons alert alerts ih =>
    intro i
    rw [fanoutFrom_cons, List.length_append, ih, List.length_map, List.length_zipIdx,
      List.length_cons, Nat.succ_mul, Nat.add_comm]

variable {S : AlertStore σ} {capacity : Nat} {notifiers : List ν}

section Positions

-- what stands at the positions that no delivery has reached
variable [Inhabited α]

variable (deliver) in
theorem exists_answers_one (e : Emission τ) : ∀ (notifiers : List ν) (j : Nat)
    (ds : List (((ν × Nat) × Emission τ) × α)),
    ds.map Prod.fst <+: (notifiers.zipIdx j).map (·, e) →
      ∃ a : Nat → α, ds.map (deliveryOf deliver) <+:
        (notifiers.zipIdx j).map fun n => deliver (a n.2) e.alert n.1 := by
  intro notifiers
  induction notifiers with
  | nil =>
    intro j ds h
    rw [List.map_eq_nil_iff.mp (List.prefix_nil.mp h)]
    exact ⟨fun _ => default, List.nil_prefix⟩
  | cons n notifiers ih =>
    intro j ds h
    cases ds with
    | nil => exact ⟨fun _ => default, List.nil_prefix⟩
    | cons d ds =>
      rw [List.zipIdx_cons, List.map_cons, List.map_cons, List.cons_prefix_cons] at h
      obtain ⟨hd, hds⟩ := h
      obtain ⟨a, ha⟩ := ih (j + 1) ds hds
      refine ⟨fun k => if k = j then d.2 else a k, ?_⟩
      rw [List.zipIdx_cons, List.map_cons, List.map_cons, List.cons_prefix_cons]
      refine ⟨?_, ?_⟩
      · simp only [if_true, deliveryOf, hd]
      · -- the notifiers behind have larger numbers
        have hlater : ∀ n' ∈ notifiers.zipIdx (j + 1),
            deliver (if n'.2 = j then d.2 else a n'.2) e.alert n'.1 =
              deliver (a n'.2) e.alert n'.1 := by
          intro n' hn'
          have hle := List.le_snd_of_mem_zipIdx hn'
          have hj : n'.2 ≠ j := by omega
          rw [if_neg hj]
        rw [List.map_congr_left hlater]
        exact ha

variable (deliver) in
theorem exists_answers (notifiers : List ν) : ∀ (es : List (Emission τ)) (i : Nat)
    (ds : List (((ν × Nat) × Emission τ) × α)),
    ds.map Prod.fst <+: toAll notifiers.zipIdx es →
      ∃ answers, ds.map (deliveryOf deliver) <+:
        fanoutFrom deliver notifiers answers i (es.map Emission.alert) := by
  intro es
  induction es with
  | nil =>
    intro i ds h
    rw [List.map_eq_nil_iff.mp (List.prefix_nil.mp h)]
    exact ⟨fun _ _ => default, List.nil_prefix⟩
  | cons e es ih =>
    intro i ds h
    rw [toAll_cons] at h
    rcases List.prefix_or_prefix_of_prefix h (List.prefix_append _ _) with hfirst | hfirst
    · -- the first alert is in hand
      obtain ⟨a, ha⟩ := exists_answers_one deliver e notifiers 0 ds hfirst
      refine ⟨fun _ j => a j, ?_⟩
      rw [List.map_cons, fanoutFrom_cons]
      exact ha.trans (List.prefix_append _ _)
    · -- the first alert is done
      obtain ⟨rest, hrest⟩ := hfirst
      obtain ⟨ds₁, ds₂, rfl, hds₁, hds₂⟩ := List.map_eq_append_iff.mp hrest.symm
      rw [List.map_append, hds₁, hds₂, List.prefix_append_right_inj] at h
      obtain ⟨a, ha⟩ := exists_answers_one deliver e notifiers 0
        ds₁ (hds₁ ▸ List.prefix_refl _)
      obtain ⟨answers, hanswers⟩ := ih (i + 1) ds₂ (hds₂ ▸ h)
      have hlen : (ds₁.map (deliveryOf deliver)).length =
          (notifiers.zipIdx.map fun n =>
            deliver (a n.2) e.alert n.1).length := by
        have := congrArg List.length hds₁
        simpa using this
      refine ⟨fun k j => if k = i then a j else answers k j, ?_⟩
      have hlater : fanoutFrom deliver notifiers
          (fun k j => if k = i then a j else answers k j) (i + 1) (es.map Emission.alert) =
          fanoutFrom deliver notifiers answers (i + 1) (es.map Emission.alert) := by
        refine List.flatMap_congr fun x hx => ?_
        have hle := List.le_snd_of_mem_zipIdx hx
        have hi : x.2 ≠ i := by omega
        simp only [if_neg hi]
      rw [List.map_append, ha.eq_of_length hlen, List.map_cons, fanoutFrom_cons, hlater]
      simp only [if_true]
      rw [List.prefix_append_right_inj]
      exact hanswers

/-! ### The deliveries of a run -/

variable (deliver) in
/-- **The deliveries are the fan-out of the alerts**, in every order of the steps, up to the
alerts that are on their way, of which there are at most `capacity + 1`.  The alerts are those
of a run of the rule engine. -/
theorem deliveries_of_run {t : EngineState σ τ}
    {s : PipeState (EngineState σ τ) (Emission τ) (ν × Nat)}
    {acts : List (PipeAction (Action τ) α)}
    {outs : List (PipeEvent (Emission τ) (ν × Nat) α)}
    (h : (alertPath α S capacity notifiers).run (.start t) acts = some (s, outs)) :
    ∃ os answers, (engine S).run t (produced acts) = some (s.producer, os) ∧
      deliveries deliver outs <+:
        fanout deliver notifiers answers ((emissions os).map Emission.alert) ∧
      (emissions os).length * notifiers.length ≤
        (deliveries deliver outs).length + (capacity + 1) * notifiers.length := by
  obtain ⟨os, hengine, hos⟩ := run_produced h
  have hcons := conserved_run h
  obtain ⟨answers, hanswers⟩ := exists_answers deliver notifiers
    (sent outs) 0 (served outs) (hcons.all ▸ List.prefix_append _ _)
  refine ⟨os, answers, hengine, ?_, ?_⟩
  · rw [show emissions os = sent outs from hos]
    exact hanswers
  · have hlen := congrArg List.length hcons.all
    have hle := hcons.length_unserved_le
    rw [List.length_append, List.length_map, length_toAll, List.length_zipIdx] at hlen
    rw [List.length_zipIdx] at hle
    rw [show emissions os = sent outs from hos, deliveries, List.length_map]
    omega

variable (deliver) in
/-- **Nothing stays behind**: from every state of the two tasks, steps of the fan-out alone
complete the deliveries of all alerts sent so far, whatever the clients answer. -/
theorem deliveries_of_drain (hne : notifiers ≠ []) {t : EngineState σ τ}
    {s : PipeState (EngineState σ τ) (Emission τ) (ν × Nat)}
    {acts : List (PipeAction (Action τ) α)}
    {outs : List (PipeEvent (Emission τ) (ν × Nat) α)}
    (h : (alertPath α S capacity notifiers).run (.start t) acts = some (s, outs))
    (reply : ν × Nat → Emission τ → α) :
    ∃ acts' outs' answers, produced acts' = [] ∧
      (alertPath α S capacity notifiers).run s acts' = some (.start s.producer, outs') ∧
      deliveries deliver (outs ++ outs') =
        fanout deliver notifiers answers ((sent outs).map Emission.alert) := by
  have hzip : notifiers.zipIdx ≠ [] := by
    intro hnil
    exact hne (List.zipIdx_eq_nil_iff.mp hnil)
  obtain ⟨acts', outs', hr, hprod, hsent, hserved⟩ := run_drain hzip s reply
  have hall : (served (outs ++ outs')).map Prod.fst = toAll notifiers.zipIdx (sent outs) := by
    rw [served, List.filterMap_append, List.map_append]
    show (served outs).map Prod.fst ++ (served outs').map Prod.fst = _
    rw [hserved, List.map_map, ← (conserved_run h).all]
    exact congrArg _ (List.map_id _)
  obtain ⟨answers, hanswers⟩ := exists_answers deliver notifiers
    (sent outs) 0 (served (outs ++ outs')) (hall ▸ List.prefix_refl _)
  refine ⟨acts', outs', answers, hprod, hr, hanswers.eq_of_length ?_⟩
  have hlen := congrArg List.length hall
  rw [List.length_map, length_toAll, List.length_zipIdx] at hlen
  rw [List.length_map, length_fanoutFrom, List.length_map, hlen]

end Positions

/-- **A notifier that hangs stops the rule engine.**  From any state of the two tasks, and
while no delivery comes back, the engine sends what fits on the channel and one alert more. -/
theorem emissions_of_hanging (hne : notifiers ≠ []) {t : EngineState σ τ}
    {s s' : PipeState (EngineState σ τ) (Emission τ) (ν × Nat)}
    {acts acts' : List (PipeAction (Action τ) α)}
    {outs outs' : List (PipeEvent (Emission τ) (ν × Nat) α)}
    (h : (alertPath α S capacity notifiers).run (.start t) acts = some (s, outs))
    (h' : (alertPath α S capacity notifiers).run s acts' = some (s', outs'))
    (hhangs : ∀ a ∈ acts', ∀ answers, a ≠ .deliver answers) :
    backlog s + (sent outs').length ≤ capacity + 1 := by
  have hzip : notifiers.zipIdx ≠ [] := by
    intro hnil
    exact hne (List.zipIdx_eq_nil_iff.mp hnil)
  exact length_sent_of_stalled hzip (conserved_run h).queue h' hhangs

/-- Without notifiers the rule engine is never held up. -/
theorem run_of_no_notifiers {t u : EngineState σ τ} {is : List (Action τ)}
    {os : List (Option (Emission τ))} (h : (engine S).run t is = some (u, os)) :
    ∃ outs, (alertPath α S capacity ([] : List ν)).run (.start t) (is.map .produce) =
        some (.start u, outs) ∧ sent outs = emissions os :=
  run_of_no_receivers h

end Path

/-! ### A camera and two notifiers -/

def cameraAlert : List (PipeAction (Action Unit) Answers) :=
  (handle (.deviceOffline camera)).map .produce

def handOut : List (PipeAction (Action Unit) Answers) :=
  [.take, .deliver (clientsAnswer 0 0), .deliver (clientsAnswer 0 1)]

instance : Inhabited Answers := ⟨⟨.ok (), .error ""⟩⟩

abbrev cameraPath : Machine (PipeState (EngineState InMemoryAlertStore Unit) (Emission Unit)
      (PayloadNotifier × Nat)) (PipeAction (Action Unit) Answers)
    (PipeEvent (Emission Unit) (PayloadNotifier × Nat) Answers) :=
  alertPath Answers InMemoryAlertStore.alertStore 1 bothNotifiers

abbrev cameraDeliver : Answers → Alert → PayloadNotifier → Delivery :=
  PayloadNotifier.deliver displays visible

theorem deliveries_of_run_camera : ∃ s outs,
    cameraPath.run (.start cameraStart) (cameraAlert ++ handOut) = some (s, outs) ∧
      (deliveries cameraDeliver outs).length = 2 ∧
      ∃ os answers, cameraEngine.run cameraStart (handle (.deviceOffline camera)) =
          some (s.producer, os) ∧
        deliveries cameraDeliver outs <+:
          fanout cameraDeliver bothNotifiers answers ((emissions os).map Emission.alert) := by
  have hview : (cameraPath.run (.start cameraStart) (cameraAlert ++ handOut)).map
      (fun r => (deliveries cameraDeliver r.2).length) = some 2 := by decide +kernel
  obtain ⟨⟨s, outs⟩, h, hlen⟩ := Option.map_eq_some_iff.mp hview
  obtain ⟨os, answers, hengine, hpre, -⟩ :=
    deliveries_of_run cameraDeliver h
  exact ⟨s, outs, h, hlen, os, answers, hengine, hpre⟩

theorem deliveries_of_drain_camera : ∃ s outs acts' s' outs' answers,
    cameraPath.run (.start cameraStart) cameraAlert = some (s, outs) ∧ (sent outs).length = 1 ∧
      cameraPath.run s acts' = some (s', outs') ∧
      deliveries cameraDeliver (outs ++ outs') =
        fanout cameraDeliver bothNotifiers answers ((sent outs).map Emission.alert) := by
  have hview : (cameraPath.run (.start cameraStart) cameraAlert).map
      (fun r => (sent r.2).length) = some 1 := by decide +kernel
  obtain ⟨⟨s, outs⟩, h, hlen⟩ := Option.map_eq_some_iff.mp hview
  obtain ⟨acts', outs', answers, -, hr, hall⟩ := deliveries_of_drain cameraDeliver
    (List.cons_ne_nil _ _) h fun _ _ => clientsAnswer 0 0
  exact ⟨s, outs, acts', _, outs', answers, h, hlen, hr, hall⟩

/-- Two alerts go out while the first notifier hangs, and a channel of one is full then. -/
theorem emissions_of_hanging_camera : ∃ s outs s' outs',
    cameraPath.run (.start cameraStart) cameraAlert = some (s, outs) ∧
      cameraPath.run s (.take :: cameraAlert) = some (s', outs') ∧ (sent outs').length = 1 ∧
      backlog s + (sent outs').length ≤ 1 + 1 := by
  have hview : (cameraPath.run (.start cameraStart) cameraAlert).bind (fun r =>
      (cameraPath.run r.1 (.take :: cameraAlert)).map fun r' => (sent r'.2).length) = some 1 := by
    decide +kernel
  obtain ⟨⟨s, outs⟩, h, hnext⟩ := Option.bind_eq_some_iff.mp hview
  obtain ⟨⟨s', outs'⟩, h', hlen⟩ := Option.map_eq_some_iff.mp hnext
  refine ⟨s, outs, s', outs', h, h', hlen,
    emissions_of_hanging (List.cons_ne_nil _ _) h h' fun a ha answers => ?_⟩
  rcases List.mem_cons.mp ha with rfl | ha
  · exact nofun
  · obtain ⟨b, -, rfl⟩ := List.mem_map.mp ha
    exact nofun

end EdgeShield.Notify
