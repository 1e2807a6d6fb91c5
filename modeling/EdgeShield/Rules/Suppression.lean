import EdgeShield.Rules.Engine

/-!
# Cooldown and acknowledgment over runs

Two questions about a rule and a device: does the engine alert too often, and does
it stay silent when it should not?

For the first, `Spaced` ties the recorded times to the alerts that went out or are
about to: no alert is later than the time recorded for its rule and device, and any
two of them are a cooldown apart.  `raisedIn_of_mem` finds, for each alert, the
evaluation that raised it.

For the second, the recorded times should be the times of alerts.  They are not: the
time is recorded before the store is asked, so a match that is suppressed because of
an acknowledgment starts a cooldown without an alert.  When the acknowledged alert
is deleted in the meantime, the next match is lost
(`overSuppressed_after_delete`).  In the runs where this does not happen
(`NoSilentRecord`), every match is answered (`not_overSuppressed`).
-/

namespace EdgeShield.Rules

open EdgeShield.Lib EdgeShield.Common EdgeShield.Discovery

section Runs

variable {σ τ : Type} {S : AlertStore σ}

/-- The alerts that went out, and those that wait to. -/
def trail (outs : List (Option (Emission τ))) (s : EngineState σ τ) : List (Emission τ) :=
  emissions outs ++ s.inFlight

theorem emissions_append (os os' : List (Option (Emission τ))) :
    emissions (os ++ os') = emissions os ++ emissions os' := List.filterMap_append

theorem emissions_singleton (o : Option (Emission τ)) : emissions [o] = o.toList := by
  cases o <;> rfl

theorem trail_snoc_of_quiet {os : List (Option (Emission τ))} {o : Option (Emission τ)}
    {s s' : EngineState σ τ} (h : s.inFlight = o.toList ++ s'.inFlight) :
    trail (os ++ [o]) s' = trail os s := by
  rw [trail, trail, emissions_append, emissions_singleton, List.append_assoc, h]

theorem trail_snoc_none {os : List (Option (Emission τ))} (s' : EngineState σ τ) :
    trail (os ++ [none]) s' = emissions os ++ s'.inFlight := by
  rw [trail, emissions_append, emissions_singleton, Option.toList_none, List.append_nil]

theorem Outcome.trail_eq {s s' : EngineState σ τ} {w : Work τ} {rule : Rule} {inputs : Inputs}
    (h : Outcome S s s' w rule inputs) (os : List (Option (Emission τ))) :
    (inputs.ackFails ≠ none ∧ trail (os ++ [none]) s' = emissions os) ∨
    (inputs.ackFails = none ∧ S.Acknowledged s.store rule.name w.event.device.mac ∧
      trail (os ++ [none]) s' = trail os s) ∨
    ∃ alert, inputs.ackFails = none ∧
      ¬S.Acknowledged s.store rule.name w.event.device.mac ∧
      alert.mac = w.event.device.mac ∧ alert.deviceSnapshot = w.event.device ∧
      trail (os ++ [none]) s' = trail os s ++ [⟨w.done, s.clock, w.label, alert⟩] := by
  rw [trail_snoc_none]
  cases h with
  | failed hf flight => exact .inl ⟨hf, by rw [flight, List.append_nil]⟩
  | suppressed hf ack flight => exact .inr (.inl ⟨hf, ack, by rw [flight]; rfl⟩)
  | raised alert hf noAck mac snapshot flight =>
    exact .inr (.inr ⟨alert, hf, noAck, mac, snapshot, by
      rw [flight, trail, List.append_assoc]⟩)

theorem Due.raises {s s' : EngineState σ τ} {w : Work τ} {rule : Rule} {inputs : Inputs}
    {o : Option (Emission τ)} (hdue : Due s w rule)
    (hs : (engine S).step s (.evaluate inputs) = some (s', o)) (hf : inputs.ackFails = none)
    (hno : ¬S.Acknowledged s.store rule.name w.event.device.mac) :
    ∃ alert : Alert, alert.mac = w.event.device.mac ∧ alert.deviceSnapshot = w.event.device ∧
      s'.inFlight = s.inFlight ++ [⟨w.done, s.clock, w.label, alert⟩] := by
  have hs' : s' = s.conclude w (evaluateRule S rule w.event s.store s.clock inputs) := by
    simp only [engine, engineStep, hdue.working, hdue.next, hdue.enabled, if_true,
      Option.some.injEq, Prod.mk.injEq] at hs
    exact hs.1.symm
  have hout := (hdue.outcome S inputs).2
  rw [← hs'] at hout
  cases hout with
  | failed h _ => exact absurd hf h
  | suppressed _ ack _ => exact absurd ack hno
  | raised alert _ _ mac snapshot flight => exact ⟨alert, mac, snapshot, flight⟩

/-! ### Alerts are spaced -/

theorem Rule.cooldown_le_of_free {r : Rule} {mac : MacAddress} {now last : Nat}
    (h : r.cooling mac now = false) (hl : r.lastFired.lookup mac = some last) :
    r.cooldown ≤ now - last := by
  simpa [cooling, hl] using h

structure Spaced (trail : List (Emission τ)) (rules : List Rule) : Prop where
  recorded : ∀ e ∈ trail, ∀ r, rules[e.rule]? = some r → r.cooldownSeconds ≠ 0 →
    ∃ last, r.lastFired.lookup e.alert.mac = some last ∧ e.time ≤ last
  apart : trail.Pairwise fun e' e => ∀ r, rules[e.rule]? = some r → e'.rule = e.rule →
    e'.alert.mac = e.alert.mac → r.cooldown ≤ e.time - e'.time

theorem Spaced.sublist {l l' : List (Emission τ)} {rules : List Rule} (h : Spaced l rules)
    (hs : l'.Sublist l) : Spaced l' rules :=
  ⟨fun e he => h.recorded e (hs.subset he), h.apart.sublist hs⟩

theorem getElem?_set_cases {rules : List Rule} {i j : Nat} {rule r' r : Rule}
    (hi : rules[i]? = some rule) (h : (rules.set i r')[j]? = some r) :
    (j = i ∧ r = r') ∨ (j ≠ i ∧ rules[j]? = some r) := by
  obtain ⟨hlt, _⟩ := List.getElem?_eq_some_iff.mp hi
  by_cases hj : j = i
  · subst hj
    rw [List.getElem?_set_self hlt] at h
    exact .inl ⟨rfl, (Option.some.inj h).symm⟩
  · rw [List.getElem?_set_ne (Ne.symm hj)] at h
    exact .inr ⟨hj, h⟩

/-- **A due evaluation records its time** over times that are a cooldown old. -/
theorem Spaced.record {l : List (Emission τ)} {s : EngineState σ τ} {w : Work τ} {rule : Rule}
    (h : Spaced l s.rules) (hdue : Due s w rule) :
    Spaced l (s.rules.set w.done (rule.recorded w.event.device.mac s.clock)) := by
  constructor
  · intro e he r hr hc
    rcases getElem?_set_cases hdue.next hr with ⟨hrule, rfl⟩ | ⟨_, hr⟩
    · rw [(Rule.of_settings_eq (rule.settings_recorded _ _)).2.2.2] at hc
      obtain ⟨last, hl, hle⟩ := h.recorded e he rule (hrule ▸ hdue.next) hc
      by_cases hm : e.alert.mac = w.event.device.mac
      · have hlast := Rule.cooldown_le_of_free hdue.free (hm ▸ hl)
        have hpos : 0 < rule.cooldown := Nat.mul_pos (Nat.pos_of_ne_zero hc) (by decide)
        refine ⟨s.clock, ?_, by omega⟩
        rw [Rule.lookup_recorded, if_pos ⟨hc, hm⟩]
      · refine ⟨last, ?_, hle⟩
        rw [Rule.lookup_recorded, if_neg fun hc => hm hc.2, hl]
    · exact h.recorded e he r hr hc
  · refine h.apart.imp ?_
    intro e' e ha r hr hsame hmac
    rcases getElem?_set_cases hdue.next hr with ⟨hrule, rfl⟩ | ⟨_, hr⟩
    · rw [Rule.cooldown_of_settings_eq (rule.settings_recorded _ _)]
      exact ha rule (hrule ▸ hdue.next) hsame hmac
    · exact ha r hr hsame hmac

/-- **A new alert keeps its distance.** -/
theorem Spaced.raise {l : List (Emission τ)} {s : EngineState σ τ} {w : Work τ} {rule : Rule}
    (h : Spaced l s.rules) (hdue : Due s w rule) {alert : Alert}
    (hmac : alert.mac = w.event.device.mac) :
    Spaced (l ++ [⟨w.done, s.clock, w.label, alert⟩])
      (s.rules.set w.done (rule.recorded w.event.device.mac s.clock)) := by
  have hrec := h.record hdue
  obtain ⟨hlt, _⟩ := List.getElem?_eq_some_iff.mp hdue.next
  have hnew : ∀ r, (s.rules.set w.done (rule.recorded w.event.device.mac s.clock))[w.done]? =
      some r → r = rule.recorded w.event.device.mac s.clock := by
    intro r hr
    rw [List.getElem?_set_self hlt] at hr
    exact (Option.some.inj hr).symm
  constructor
  · intro e he r hr hc
    rcases List.mem_append.mp he with he | he
    · exact hrec.recorded e he r hr hc
    · rw [List.mem_singleton.mp he] at hr ⊢
      rw [hnew r hr] at hc ⊢
      rw [(Rule.of_settings_eq (rule.settings_recorded _ _)).2.2.2] at hc
      exact ⟨s.clock, by rw [Rule.lookup_recorded, if_pos ⟨hc, hmac⟩], le_refl _⟩
  · refine List.pairwise_append.mpr ⟨hrec.apart, List.pairwise_singleton _ _, ?_⟩
    intro e' he' e he r hr hsame hm
    rw [List.mem_singleton.mp he] at hr hsame hm ⊢
    rw [hnew r hr, Rule.cooldown_of_settings_eq (rule.settings_recorded _ _)]
    by_cases hc : rule.cooldownSeconds = 0
    · rw [Rule.cooldown, hc, Nat.zero_mul]
      exact Nat.zero_le _
    · obtain ⟨last, hl, hle⟩ := h.recorded e' he' rule (hsame ▸ hdue.next) hc
      have hlast := Rule.cooldown_le_of_free hdue.free ((hm.trans hmac) ▸ hl)
      exact hlast.trans (Nat.sub_le_sub_left hle s.clock)

theorem spaced_run {s₀ s : EngineState σ τ} {acts : List (Action τ)}
    {outs : List (Option (Emission τ))} (hstart : s₀.inFlight = [])
    (h : (engine S).run s₀ acts = some (s, outs)) : Spaced (trail outs s) s.rules := by
  refine (engine S).run_induction (P := fun _ outs s => Spaced (trail outs s) s.rules) ?_ ?_ h
  · rw [trail, hstart]
    exact ⟨by simp [emissions], List.Pairwise.nil⟩
  · intro _ outs s a s' o _ ih hs
    rcases step_cases S hs with ⟨hr, hf⟩ | ⟨inputs, w, rule, _, hdue, rfl, hr, hout⟩
    · rw [trail_snoc_of_quiet hf, hr]
      exact ih
    · rw [hr]
      rcases hout.trail_eq outs with ⟨_, ht⟩ | ⟨_, _, ht⟩ | ⟨alert, _, _, hmac, _, ht⟩
      · rw [ht]
        exact (ih.record hdue).sublist (List.sublist_append_left _ _)
      · rw [ht]
        exact ih.record hdue
      · rw [ht]
        exact ih.raise hdue hmac

/-! ### Where an alert comes from -/

/-- `e` is the alert of the evaluation that comes next in `s`. -/
structure RaisedBy (S : AlertStore σ) (s : EngineState σ τ) (w : Work τ) (rule : Rule)
    (e : Emission τ) : Prop where
  due : Due s w rule
  position : e.rule = w.done
  time : e.time = s.clock
  label : e.label = w.label
  mac : e.alert.mac = w.event.device.mac
  snapshot : e.alert.deviceSnapshot = w.event.device
  noAck : ¬S.Acknowledged s.store rule.name e.alert.mac

def RaisedIn (S : AlertStore σ) (s₀ : EngineState σ τ) (acts : List (Action τ))
    (e : Emission τ) : Prop :=
  ∃ acts₁ inputs acts₂ s₁ outs₁ w rule, acts = acts₁ ++ .evaluate inputs :: acts₂ ∧
    (engine S).run s₀ acts₁ = some (s₁, outs₁) ∧ RaisedBy S s₁ w rule e

theorem RaisedIn.snoc {s₀ : EngineState σ τ} {acts : List (Action τ)} {e : Emission τ}
    (h : RaisedIn S s₀ acts e) (a : Action τ) : RaisedIn S s₀ (acts ++ [a]) e := by
  obtain ⟨acts₁, inputs, acts₂, s₁, outs₁, w, rule, rfl, hr, hb⟩ := h
  exact ⟨acts₁, inputs, acts₂ ++ [a], s₁, outs₁, w, rule, by simp, hr, hb⟩

/-- **Every alert was raised by an evaluation of the run.** -/
theorem raisedIn_of_mem {s₀ s : EngineState σ τ} {acts : List (Action τ)}
    {outs : List (Option (Emission τ))} (hstart : s₀.inFlight = [])
    (h : (engine S).run s₀ acts = some (s, outs)) :
    ∀ e ∈ trail outs s, RaisedIn S s₀ acts e := by
  refine (engine S).run_induction
    (P := fun acts outs s => ∀ e ∈ trail outs s, RaisedIn S s₀ acts e) ?_ ?_ h
  · rw [trail, hstart]
    simp [emissions]
  · intro acts outs s a s' o hrun ih hs e he
    rcases step_cases S hs with ⟨_, hf⟩ | ⟨inputs, w, rule, rfl, hdue, rfl, _, hout⟩
    · rw [trail_snoc_of_quiet hf] at he
      exact (ih e he).snoc a
    · rcases hout.trail_eq outs with ⟨_, ht⟩ | ⟨_, _, ht⟩ | ⟨alert, _, hno, hmac, hsnap, ht⟩
      · rw [ht] at he
        exact (ih e (List.mem_append_left _ he)).snoc _
      · rw [ht] at he
        exact (ih e he).snoc _
      · rw [ht] at he
        rcases List.mem_append.mp he with he | he
        · exact (ih e he).snoc _
        · rw [List.mem_singleton.mp he]
          exact ⟨acts, inputs, [], s, outs, w, rule, rfl, hrun,
            ⟨hdue, rfl, rfl, rfl, hmac, hsnap, hmac ▸ hno⟩⟩

theorem settings_run {s₀ s : EngineState σ τ} {acts : List (Action τ)}
    {outs : List (Option (Emission τ))} (h : (engine S).run s₀ acts = some (s, outs)) :
    s.rules.map Rule.settings = s₀.rules.map Rule.settings := by
  refine (engine S).run_induction
    (P := fun _ _ s => s.rules.map Rule.settings = s₀.rules.map Rule.settings) rfl ?_ h
  intro _ _ s a s' o _ ih hs
  rw [settings_step S hs, ih]

theorem settings_getElem? {l l' : List Rule} (h : l.map Rule.settings = l'.map Rule.settings)
    {i : Nat} {r : Rule} (hr : l[i]? = some r) : ∃ r', l'[i]? = some r' ∧ r'.settings = r.settings := by
  have hi := congrArg (fun rs => rs[i]?) h
  simp only [List.getElem?_map, hr, Option.map_some] at hi
  exact Option.map_eq_some_iff.mp hi.symm

/-- **Alerts are never too frequent and respect acknowledgments.**  For every rule and
device, the alerts sent are a cooldown apart; and each was raised by an evaluation of
an enabled rule, at a time when the store held no acknowledged alert for it. -/
theorem alerts_spaced_and_unacknowledged {rules : List Rule} {store : σ} {clock : Nat}
    {acts : List (Action τ)} {s : EngineState σ τ} {outs : List (Option (Emission τ))}
    (h : (engine S).run (.start rules store clock) acts = some (s, outs)) :
    ((emissions outs).Pairwise fun e' e => ∀ r, rules[e.rule]? = some r → e'.rule = e.rule →
      e'.alert.mac = e.alert.mac → r.cooldown ≤ e.time - e'.time) ∧
    ∀ e ∈ emissions outs, ∃ acts₁ inputs acts₂ s₁ outs₁ w r,
      acts = acts₁ ++ .evaluate inputs :: acts₂ ∧
      (engine S).run (.start rules store clock) acts₁ = some (s₁, outs₁) ∧
      s₁.clock = e.time ∧ s₁.work = some w ∧ w.done = e.rule ∧
      w.event.device.mac = e.alert.mac ∧ rules[e.rule]? = some r ∧ r.enabled = true ∧
      ¬S.Acknowledged s₁.store r.name e.alert.mac := by
  constructor
  · have hsp := (spaced_run rfl h).apart.sublist (List.sublist_append_left _ _)
    refine hsp.imp ?_
    intro e' e ha r hr hsame hmac
    obtain ⟨r', hr', hset⟩ := settings_getElem? (settings_run h).symm hr
    rw [← Rule.cooldown_of_settings_eq hset]
    exact ha r' hr' hsame hmac
  · intro e he
    obtain ⟨acts₁, inputs, acts₂, s₁, outs₁, w, rule, hacts, hrun, hb⟩ :=
      raisedIn_of_mem rfl h e (List.mem_append_left _ he)
    obtain ⟨r, hr, hset⟩ := settings_getElem? (settings_run hrun) hb.due.next
    obtain ⟨hname, henabled, _⟩ := Rule.of_settings_eq hset
    refine ⟨acts₁, inputs, acts₂, s₁, outs₁, w, r, hacts, hrun, hb.time.symm, hb.due.working,
      hb.position.symm, hb.mac.symm, hb.position ▸ hr, henabled.trans hb.due.enabled, ?_⟩
    rw [hname]
    exact hb.noAck

/-! ### A rule that watches a phone -/

def phone : Device := .new (.ofBytes 0x00 0x11 0x22 0x33 0x44 0x55) ⟨0⟩

def watchRule : Rule := .new "watch" true .protocolChange .info 100

def watching : EngineState InMemoryAlertStore Unit := .start [watchRule] .new 0

def quietInputs : Inputs := ⟨⟨0⟩, [], none, none⟩

def alerted : List (Action Unit) :=
  [.receive (.deviceUpdated phone) (), .evaluate quietInputs, .fire, .finish]

/-- A second update after 100 seconds: two alerts, a cooldown apart. -/
theorem alerts_spaced_on_phone : ∃ s outs e' e,
    (engine InMemoryAlertStore.alertStore).run watching
      (alerted ++ .advance 100000000000 :: alerted) = some (s, outs) ∧
    emissions outs = [e', e] ∧ watchRule.cooldown ≤ e.time - e'.time := by
  obtain ⟨⟨s, outs⟩, h⟩ := Option.isSome_iff_exists.mp
    (by decide : ((engine InMemoryAlertStore.alertStore).run watching
      (alerted ++ .advance 100000000000 :: alerted)).isSome = true)
  have hview : ((engine InMemoryAlertStore.alertStore).run watching
      (alerted ++ .advance 100000000000 :: alerted)).map
        (fun r => (emissions r.2).map fun e => (e.rule, e.alert.mac)) =
      some [(0, phone.mac), (0, phone.mac)] := by decide +kernel
  rw [h, Option.map_some, Option.some.injEq] at hview
  obtain ⟨e', l, he, h', hl⟩ := List.map_eq_cons_iff.mp hview
  obtain ⟨e, l', rfl, h'', hl'⟩ := List.map_eq_cons_iff.mp hl
  rw [List.map_eq_nil_iff.mp hl'] at he
  simp only [Prod.mk.injEq] at h' h''
  have hpair := (alerts_spaced_and_unacknowledged h).1
  rw [he, List.pairwise_pair] at hpair
  exact ⟨s, outs, e', e, h, he, hpair watchRule (by rw [h''.1]; rfl) (h'.1.trans h''.1.symm)
    (h'.2.trans h''.2.symm)⟩

/-! ### Silence -/

def NoFaults (acts : List (Action τ)) : Prop :=
  ∀ inputs, .evaluate inputs ∈ acts → inputs.ackFails = none ∧ inputs.insertFails = none

theorem emitted_of_inFlight {acts : List (Action τ)} (hnf : NoFaults acts) :
    ∀ {s t : EngineState σ τ} {outs : List (Option (Emission τ))},
      (engine S).run s acts = some (t, outs) → ∀ e ∈ s.inFlight, e ∈ trail outs t := by
  induction acts with
  | nil =>
    intro s t outs h e he
    cases h
    exact List.mem_append_right _ he
  | cons a acts ih =>
    intro s t outs h e he
    have hnf' : NoFaults acts := fun inputs hi => hnf inputs (List.mem_cons_of_mem _ hi)
    obtain ⟨s', o, outs', hs, hrun, rfl⟩ := (engine S).run_cons.mp h
    have hcons : trail (o :: outs') t = o.toList ++ trail outs' t := by
      rw [trail, trail, ← List.singleton_append, emissions_append, emissions_singleton,
        List.append_assoc]
    rw [hcons]
    rcases step_cases S hs with ⟨_, hf⟩ | ⟨inputs, w, rule, rfl, _, rfl, _, hout⟩
    · rw [hf] at he
      rcases List.mem_append.mp he with he | he
      · exact List.mem_append_left _ he
      · exact List.mem_append_right _ (ih hnf' hrun e he)
    · refine List.mem_append_right _ (ih hnf' hrun e ?_)
      cases hout with
      | failed hf _ => exact absurd (hnf inputs List.mem_cons_self).1 hf
      | suppressed _ _ flight => rw [flight]; exact he
      | raised _ _ _ _ _ flight => rw [flight]; exact List.mem_append_left _ he

/-- A due evaluation without failures and acknowledgment ends in an alert that goes
out. -/
theorem Due.emits {s t : EngineState σ τ} {w : Work τ} {rule : Rule} {inputs : Inputs}
    {acts : List (Action τ)} {outs : List (Option (Emission τ))} (hdue : Due s w rule)
    (h : (engine S).run s (.evaluate inputs :: acts) = some (t, outs))
    (hnf : NoFaults (.evaluate inputs :: acts)) (hidle : t.work = none)
    (hno : ¬S.Acknowledged s.store rule.name w.event.device.mac) :
    ∃ alert : Alert, alert.mac = w.event.device.mac ∧ alert.deviceSnapshot = w.event.device ∧
      ⟨w.done, s.clock, w.label, alert⟩ ∈ emissions outs := by
  obtain ⟨s', o, outs', hs, hrun, rfl⟩ := (engine S).run_cons.mp h
  obtain ⟨alert, hmac, hsnap, hflight⟩ := hdue.raises hs (hnf inputs List.mem_cons_self).1 hno
  have hmem : (⟨w.done, s.clock, w.label, alert⟩ : Emission τ) ∈ trail outs' t :=
    emitted_of_inFlight (fun i hi => hnf i (List.mem_cons_of_mem _ hi)) hrun _
      (hflight ▸ List.mem_concat_self)
  rw [trail, EngineState.inFlight, hidle, List.append_nil] at hmem
  refine ⟨alert, hmac, hsnap, ?_⟩
  rw [← List.singleton_append, emissions_append]
  exact List.mem_append_right _ hmem

/-- The match that is evaluated next in `s` is answered: by an alert among the later
outputs, by an alert among the earlier ones whose cooldown is still running, or by
an acknowledged alert in the store. -/
def Answered (S : AlertStore σ) (s : EngineState σ τ) (w : Work τ) (rule : Rule)
    (earlier later : List (Option (Emission τ))) : Prop :=
  (∃ e ∈ emissions later, e.rule = w.done ∧ e.time = s.clock ∧ e.label = w.label ∧
    e.alert.deviceSnapshot = w.event.device ∧ e.alert.mac = w.event.device.mac) ∨
  (∃ e ∈ emissions earlier, e.rule = w.done ∧ e.alert.mac = w.event.device.mac ∧
    s.clock - e.time < rule.cooldown) ∨
  S.Acknowledged s.store rule.name w.event.device.mac

/-- In a run that ends with the engine waiting, every match of an enabled rule is
answered. -/
def NeverOverSuppressed (S : AlertStore σ) (s₀ : EngineState σ τ) (acts : List (Action τ)) : Prop :=
  ∀ acts₁ inputs acts₂ s₁ outs₁ s outs₂ w rule, acts = acts₁ ++ .evaluate inputs :: acts₂ →
    (engine S).run s₀ acts₁ = some (s₁, outs₁) →
    (engine S).run s₁ (.evaluate inputs :: acts₂) = some (s, outs₂) → s.work = none →
    s₁.work = some w → s₁.rules[w.done]? = some rule → rule.enabled = true →
    rule.condition.matches w.event = true → Answered S s₁ w rule outs₁ outs₂

/-- A due evaluation is not suppressed, unless the rule has no cooldown to record. -/
def NoSilentRecord (S : AlertStore σ) (s : EngineState σ τ) (a : Action τ) : Prop :=
  ∀ inputs w rule, a = .evaluate inputs → Due s w rule → rule.cooldownSeconds ≠ 0 →
    ¬S.Acknowledged s.store rule.name w.event.device.mac

theorem noSilentRecord_evaluate_iff {s : EngineState σ τ} {inputs : Inputs} :
    NoSilentRecord S s (.evaluate inputs) ↔ ∀ w ∈ s.work, ∀ rule ∈ s.rules[w.done]?,
      rule.enabled = true → rule.condition.matches w.event = true →
        rule.cooling w.event.device.mac s.clock = false → rule.cooldownSeconds ≠ 0 →
          S.isAcknowledged s.store rule.name w.event.device.mac ≠ true := by
  constructor
  · intro h w hw rule hrule henabled hmatched hfree hcooldown hacked
    exact h inputs w rule rfl ⟨hw, hrule, henabled, hmatched, hfree⟩ hcooldown
      ((S.isAcknowledged_iff _ _ _).mp hacked)
  · intro h _ w rule _ hdue hcooldown hacked
    exact h w hdue.working rule hdue.next hdue.enabled hdue.matched hdue.free hcooldown
      ((S.isAcknowledged_iff _ _ _).mpr hacked)

instance (s : EngineState σ τ) : ∀ a : Action τ, Decidable (NoSilentRecord S s a)
  | .evaluate _ => decidable_of_iff _ noSilentRecord_evaluate_iff.symm
  | .advance _ => .isTrue fun _ _ _ h => by cases h
  | .call _ => .isTrue fun _ _ _ h => by cases h
  | .receive _ _ => .isTrue fun _ _ _ h => by cases h
  | .fire => .isTrue fun _ _ _ h => by cases h
  | .finish => .isTrue fun _ _ _ h => by cases h

/-- Every recorded time is the time of an alert. -/
def TimesAreAlerts (trail : List (Emission τ)) (rules : List Rule) : Prop :=
  ∀ i r m last, rules[i]? = some r → r.lastFired.lookup m = some last →
    ∃ e ∈ trail, e.rule = i ∧ e.alert.mac = m ∧ e.time = last

theorem TimesAreAlerts.mono {l l' : List (Emission τ)} {rules : List Rule}
    (h : TimesAreAlerts l rules) (hsub : l ⊆ l') : TimesAreAlerts l' rules := by
  intro i r m last hr hl
  obtain ⟨e, he, h⟩ := h i r m last hr hl
  exact ⟨e, hsub he, h⟩

theorem TimesAreAlerts.record {l : List (Emission τ)} {s : EngineState σ τ} {w : Work τ}
    {rule : Rule} (h : TimesAreAlerts l s.rules) (hdue : Due s w rule)
    (hnew : rule.cooldownSeconds ≠ 0 →
      ∃ e ∈ l, e.rule = w.done ∧ e.alert.mac = w.event.device.mac ∧ e.time = s.clock) :
    TimesAreAlerts l (s.rules.set w.done (rule.recorded w.event.device.mac s.clock)) := by
  intro i r m last hr hl
  rcases getElem?_set_cases hdue.next hr with ⟨rfl, rfl⟩ | ⟨_, hr⟩
  · rw [Rule.lookup_recorded] at hl
    split at hl
    · next hc =>
      obtain ⟨e, he, hrule, hmac, htime⟩ := hnew hc.1
      cases hl
      exact ⟨e, he, hrule, hmac.trans hc.2.symm, htime⟩
    · exact h w.done rule m last hdue.next hl
  · exact h i r m last hr hl

theorem timesAreAlerts_run {s₀ s : EngineState σ τ} {acts : List (Action τ)}
    {outs : List (Option (Emission τ))} (hfresh : ∀ r ∈ s₀.rules, r.lastFired = ∅)
    (hnf : NoFaults acts) (hok : (engine S).Meets (NoSilentRecord S) s₀ acts)
    (h : (engine S).run s₀ acts = some (s, outs)) : TimesAreAlerts (trail outs s) s.rules := by
  refine (engine S).run_induction_of_meets
    (P := fun acts outs s => NoFaults acts → TimesAreAlerts (trail outs s) s.rules)
    ?_ ?_ h hok hnf
  · intro _ i r m last hr hl
    rw [hfresh r (List.mem_of_getElem? hr)] at hl
    simp at hl
  · intro acts outs s a s' o _ ih hok hs hnf
    have hrec := ih fun inputs hi => hnf inputs (List.mem_append_left _ hi)
    rcases step_cases S hs with ⟨hr, hf⟩ | ⟨inputs, w, rule, rfl, hdue, rfl, hr, hout⟩
    · rw [trail_snoc_of_quiet hf, hr]
      exact hrec
    · rw [hr]
      rcases hout.trail_eq outs with ⟨hf, _⟩ | ⟨_, hack, ht⟩ | ⟨alert, _, _, hmac, _, ht⟩
      · exact absurd (hnf inputs (by simp)).1 hf
      · rw [ht]
        exact hrec.record hdue fun hc => absurd hack (hok inputs w rule rfl hdue hc)
      · rw [ht]
        exact (hrec.mono (List.subset_append_left _ _)).record hdue
          fun _ => ⟨_, List.mem_concat_self, rfl, hmac, rfl⟩

/-- **Every match is answered** in the runs without failures whose suppressed matches
record no time. -/
theorem not_overSuppressed {rules : List Rule} {store : σ} {clock : Nat}
    {acts : List (Action τ)} (hfresh : ∀ r ∈ rules, r.lastFired = ∅) (hnf : NoFaults acts)
    (hok : (engine S).Meets (NoSilentRecord S) (.start rules store clock) acts) :
    NeverOverSuppressed S (.start rules store clock) acts := by
  rintro acts₁ inputs acts₂ s₁ outs₁ s outs₂ w rule rfl h₁ h₂ hidle hwork hnext hen hmatch
  have hnf₁ : NoFaults acts₁ := fun i hi => hnf i (List.mem_append_left _ hi)
  obtain ⟨hok₁, _⟩ := ((engine S).meets_append h₁).mp hok
  have hrec := timesAreAlerts_run hfresh hnf₁ hok₁ h₁
  cases hcool : rule.cooling w.event.device.mac s₁.clock with
  | true =>
    -- the recorded time is that of an alert, and not of one of this event
    rw [Rule.cooling] at hcool
    split at hcool
    · next last hl =>
      obtain ⟨e, he, hrule, hmac, htime⟩ := hrec w.done rule _ last hnext hl
      have hsent : e ∈ emissions outs₁ := by
        rcases List.mem_append.mp he with he | he
        · exact he
        · rw [EngineState.inFlight, hwork] at he
          exact absurd (w.below e he) (by omega)
      exact .inr (.inl ⟨e, hsent, hrule, hmac, by rw [htime]; simpa using hcool⟩)
    · cases hcool
  | false =>
    by_cases hack : S.Acknowledged s₁.store rule.name w.event.device.mac
    · exact .inr (.inr hack)
    · have hdue : Due s₁ w rule := ⟨hwork, hnext, hen, hmatch, hcool⟩
      obtain ⟨alert, hmac, hsnap, hmem⟩ := hdue.emits h₂
        (fun i hi => hnf i (List.mem_append_right _ hi)) hidle hack
      exact .inl ⟨_, hmem, rfl, rfl, rfl, hsnap, hmac⟩

def unheeded : List (Action Unit) :=
  [.receive (.deviceUpdated phone) (), .evaluate quietInputs, .finish]

/-- The alert is acknowledged, an update after 50 seconds falls into the cooldown, the alert is
deleted, and there is one more alert after the cooldown. -/
def acknowledgedThenAlerted : List (Action Unit) :=
  alerted ++ [.call (.acknowledge 1), .advance 50000000000] ++ unheeded ++
    [.call (.delete 1), .advance 60000000000] ++ alerted

/-- All three updates of the phone are answered. -/
theorem not_overSuppressed_on_phone :
    NeverOverSuppressed InMemoryAlertStore.alertStore watching acknowledgedThenAlerted := by
  refine not_overSuppressed (by simp [watchRule, Rule.new]) ?_ (by decide +kernel)
  intro inputs h
  have hinputs : inputs = quietInputs := by
    simpa [acknowledgedThenAlerted, alerted, unheeded] using h
  rw [hinputs]
  exact ⟨rfl, rfl⟩

/-- The alert is acknowledged, an update after 150 seconds is suppressed, the alert is
deleted, and 10 seconds later there is one more update. -/
def acknowledgedThenDeleted : List (Action Unit) :=
  alerted ++ [.call (.acknowledge 1), .advance 150000000000] ++ unheeded ++
    [.call (.delete 1), .advance 10000000000, .receive (.deviceUpdated phone) ()]

/-- **The last update is lost**: the only alert is 160 seconds old, and no alert is
acknowledged. -/
theorem overSuppressed_after_delete :
    ¬NeverOverSuppressed InMemoryAlertStore.alertStore watching
      (acknowledgedThenDeleted ++ [.evaluate quietInputs, .finish]) := by
  intro hall
  obtain ⟨⟨s, outs⟩, h⟩ := Option.isSome_iff_exists.mp
    (by decide +kernel : ((engine InMemoryAlertStore.alertStore).run watching
      (acknowledgedThenDeleted ++ [.evaluate quietInputs, .finish])).isSome = true)
  obtain ⟨s₁, outs₁, outs₂, h₁, h₂, rfl⟩ := (engine InMemoryAlertStore.alertStore).run_append.mp h
  have hview : ((engine InMemoryAlertStore.alertStore).run watching
      (acknowledgedThenDeleted ++ [.evaluate quietInputs, .finish])).map
        (fun r => ((emissions r.2).length, r.1.work.isNone)) = some (1, true) := by decide +kernel
  have hview₁ : ((engine InMemoryAlertStore.alertStore).run watching acknowledgedThenDeleted).map
      (fun r => ((emissions r.2).map Emission.time, r.1.clock,
        r.1.store.isAcknowledged "watch" phone.mac, r.1.work.map fun w => (w.event, w.done))) =
      some ([0], 160000000000, false, some (.deviceUpdated phone, 0)) := by decide +kernel
  rw [h, Option.map_some, Option.some.injEq, Prod.mk.injEq] at hview
  rw [h₁, Option.map_some, Option.some.injEq, Prod.mk.injEq, Prod.mk.injEq, Prod.mk.injEq] at hview₁
  obtain ⟨htimes, hclock, hack, hwork⟩ := hview₁
  obtain ⟨w, hw, hwe⟩ := Option.map_eq_some_iff.mp hwork
  obtain ⟨hevent, hdone⟩ := Prod.mk.inj hwe
  obtain ⟨rule, hrule, hset⟩ :=
    settings_getElem? (settings_run h₁).symm (show watching.rules[0]? = some watchRule from rfl)
  obtain ⟨hname, henabled, hcond, _⟩ := Rule.of_settings_eq hset
  have hanswer := hall _ _ [.finish] s₁ outs₁ s outs₂ w rule rfl h₁ h₂
    (Option.isNone_iff_eq_none.mp hview.2) hw (hdone ▸ hrule) henabled
    (by rw [hcond, hevent]; rfl)
  have hlater : emissions outs₂ = [] := by
    have hlen := hview.1
    rw [emissions_append, List.length_append, ← List.length_map Emission.time, htimes] at hlen
    exact List.eq_nil_of_length_eq_zero (by simpa using hlen)
  rcases hanswer with ⟨e, he, _⟩ | ⟨e, he, _, _, htime⟩ | hacked
  · rw [hlater] at he
    exact absurd he List.not_mem_nil
  · have hzero : e.time ∈ (emissions outs₁).map Emission.time := List.mem_map_of_mem he
    rw [htimes, List.mem_singleton] at hzero
    rw [hclock, hzero, Rule.cooldown_of_settings_eq hset] at htime
    exact absurd htime (by decide)
  · rw [hname, hevent] at hacked
    have := (InMemoryAlertStore.isAcknowledged_iff _ _ _).mpr hacked
    rw [show watchRule.name = "watch" from rfl] at this
    exact absurd (this.symm.trans hack) (by decide)

end Runs

end EdgeShield.Rules
