import EdgeShield.Config.Toml
import EdgeShield.Rules.Suppression

/-!
# From the configuration to the alerts

`crates/rules/src/config_bridge.rs`, and the rule set of `daemon::run`.  A rule of the
configuration becomes a rule of the engine, or is skipped; a rule set that is empty then is
replaced by one rule for every new device.  An accepted configuration has severities that can be
read, so a rule is skipped exactly for a condition that is a text and none of the two that there
are (`skipped_iff`).

`expected` reads the alerts for an event off the configuration.  `alerts_of_config` says that a
run of the engine sends no others, and none out of order or twice.  `alerts_eq_of_config` says that
it sends them all when no evaluation fails or is suppressed.  Both rest on `upTo_step`: one step of
the engine keeps to the list of what is announced for the events so far.
-/

namespace EdgeShield.Rules

open EdgeShield.Lib EdgeShield.Common EdgeShield.Discovery

/-! ### The conversion -/

def convertCondition : RuleConditionConfig → Except String RuleCondition
  | .simple s =>
    if s = "new_device" then .ok .newDevice
    else if s = "protocol_change" then .ok .protocolChange
    else .error ("unknown simple condition '" ++ s ++ "': expected new_device or protocol_change")
  | .newDeviceByVendor newDeviceByVendor => .ok (.newDeviceByVendor newDeviceByVendor)
  | .newDeviceByMacPrefix newDeviceByMacPrefix => .ok (.newDeviceByMacPrefix newDeviceByMacPrefix)
  | .deviceOffline afterSeconds => .ok (.deviceOffline afterSeconds.toNat)

def Rule.tryFrom (config : RuleConfig) : Except String Rule := do
  let severity ← Severity.fromStr config.severity
  let condition ← convertCondition config.condition
  return .new config.name config.enabled condition severity config.cooldownSeconds.toNat

/-- The rule for a configuration without one. -/
def defaultRule : Rule := .new "new_device" true .newDevice .info 0

/-- The rule set that `run` builds. -/
def ruleSet (config : Config) : List Rule :=
  let rules := config.rules.filterMap fun rc => (Rule.tryFrom rc).toOption
  if rules.isEmpty then [defaultRule] else rules

/-! ### What is skipped -/

/-- The condition is a text that is none of the two. -/
def Unknown (condition : RuleConditionConfig) : Prop :=
  ∃ s, condition = .simple s ∧ s ≠ "new_device" ∧ s ≠ "protocol_change"

instance : DecidablePred Unknown
  | .simple s => decidable_of_iff (s ≠ "new_device" ∧ s ≠ "protocol_change")
      ⟨fun h => ⟨s, rfl, h⟩, fun ⟨_, he, h⟩ => (RuleConditionConfig.simple.inj he) ▸ h⟩
  | .newDeviceByVendor _ => .isFalse fun ⟨_, h, _⟩ => by cases h
  | .newDeviceByMacPrefix _ => .isFalse fun ⟨_, h, _⟩ => by cases h
  | .deviceOffline _ => .isFalse fun ⟨_, h, _⟩ => by cases h

theorem convertCondition_error_iff {condition : RuleConditionConfig} :
    (∃ e, convertCondition condition = .error e) ↔ Unknown condition := by
  cases condition with
  | simple s =>
    by_cases hnew : s = "new_device"
    · refine iff_of_false ?_ ?_
      · rintro ⟨e, he⟩
        rw [convertCondition, if_pos hnew] at he
        cases he
      · rintro ⟨s', h, hne, _⟩
        cases h
        exact hne hnew
    by_cases hchange : s = "protocol_change"
    · refine iff_of_false ?_ ?_
      · rintro ⟨e, he⟩
        rw [convertCondition, if_neg hnew, if_pos hchange] at he
        cases he
      · rintro ⟨s', h, _, hne⟩
        cases h
        exact hne hchange
    · refine iff_of_true ?_ ⟨s, rfl, hnew, hchange⟩
      rw [convertCondition, if_neg hnew, if_neg hchange]
      exact ⟨_, rfl⟩
  | _ =>
    refine iff_of_false ?_ ?_
    · rintro ⟨e, he⟩
      cases he
    · rintro ⟨_, h, _⟩
      cases h

theorem checkRule_of_mem : ∀ {rules : List RuleConfig}, rules.forM checkRule = .ok () →
    ∀ rc ∈ rules, checkRule rc = .ok () := by
  intro rules
  induction rules with
  | nil => intro _ rc hrc; cases hrc
  | cons rc rules ih =>
    intro h
    obtain ⟨_, hrc, hrest⟩ := Run.bind_eq_ok.mp h
    exact List.forall_mem_cons.mpr ⟨hrc, ih hrest⟩

theorem severity_of_fromStr {tomlFromStr : String → Except String Config} {content : String}
    {config : Config} (h : Config.fromStr tomlFromStr content = .ok config) :
    ∀ rc ∈ config.rules, ∃ severity, Severity.fromStr rc.severity = .ok severity := by
  unfold Config.fromStr at h
  obtain ⟨read, _, h⟩ := Run.bind_eq_ok.mp h
  split at h
  · cases h
  obtain ⟨_, _, h⟩ := Run.bind_eq_ok.mp h
  obtain ⟨ntfy, _, h⟩ := Run.bind_eq_ok.mp h
  obtain ⟨_, hrules, h⟩ := Run.bind_eq_ok.mp h
  obtain ⟨_, _, h⟩ := Run.bind_eq_ok.mp h
  obtain ⟨_, _, h⟩ := Run.bind_eq_ok.mp h
  cases h
  intro rc hrc
  have hcheck := checkRule_of_mem hrules rc hrc
  rw [checkRule] at hcheck
  split at hcheck
  · cases hcheck
  cases hseverity : Severity.fromStr rc.severity with
  | ok severity => exact ⟨severity, rfl⟩
  | error e =>
    rw [hseverity] at hcheck
    cases hcheck

theorem tryFrom_eq_ok {rc : RuleConfig} {rule : Rule} : Rule.tryFrom rc = .ok rule ↔
    ∃ severity condition, Severity.fromStr rc.severity = .ok severity ∧
      convertCondition rc.condition = .ok condition ∧
      rule = .new rc.name rc.enabled condition severity rc.cooldownSeconds.toNat := by
  constructor
  · intro h
    obtain ⟨severity, hseverity, h⟩ := Run.bind_eq_ok.mp h
    obtain ⟨condition, hcondition, h⟩ := Run.bind_eq_ok.mp h
    cases h
    exact ⟨severity, condition, hseverity, hcondition, rfl⟩
  · rintro ⟨severity, condition, hseverity, hcondition, rfl⟩
    simp only [Rule.tryFrom, hseverity, hcondition]
    rfl

/-- **A rule of an accepted configuration is skipped** exactly for an unknown condition. -/
theorem skipped_iff {tomlFromStr : String → Except String Config} {content : String}
    {config : Config} (h : Config.fromStr tomlFromStr content = .ok config) {rc : RuleConfig}
    (hrc : rc ∈ config.rules) : (Rule.tryFrom rc).toOption = none ↔ Unknown rc.condition := by
  obtain ⟨severity, hseverity⟩ := severity_of_fromStr h rc hrc
  rw [← convertCondition_error_iff]
  cases hcondition : convertCondition rc.condition with
  | ok condition =>
    have hrule := tryFrom_eq_ok.mpr ⟨severity, condition, hseverity, hcondition, rfl⟩
    rw [hrule]
    refine iff_of_false (fun hnone => (by cases hnone)) ?_
    rintro ⟨e, he⟩
    cases he
  | error e =>
    refine iff_of_true ?_ ⟨e, rfl⟩
    simp only [Rule.tryFrom, hseverity, hcondition]
    rfl

/-! ### What a configuration asks for -/

/-- Whether an event is one that the condition is about, read off the configuration. -/
def asks : RuleConditionConfig → DiscoveryEvent → Bool
  | .simple s, .deviceDiscovered _ => s = "new_device"
  | .simple s, .deviceUpdated _ => s = "protocol_change"
  | .newDeviceByVendor text, .deviceDiscovered d =>
    d.vendor.any fun vendor => toAsciiLowercase text <:+: toAsciiLowercase vendor
  | .newDeviceByMacPrefix text, .deviceDiscovered d => macMatchesPrefix d.mac text
  | .deviceOffline _, .deviceOffline _ => true
  | _, _ => false

def announced (event : DiscoveryEvent) (name : String) (severity : Severity) : Alert :=
  Alert.new name severity (eventType event) event.device
    (buildMessage event.device (eventType event)) ⟨0⟩

/-- The alerts that a configuration asks for on an event, in the order of its rules. -/
def expected (config : Config) (event : DiscoveryEvent) : List Alert :=
  if ∀ rc ∈ config.rules, Unknown rc.condition then
    if isDiscovered event then [announced event "new_device" .info] else []
  else
    config.rules.filterMap fun rc =>
      if rc.enabled && asks rc.condition event then
        (Severity.fromStr rc.severity).toOption.map (announced event rc.name)
      else none

def Rule.meets (event : DiscoveryEvent) (rule : Rule) : Bool :=
  rule.enabled && rule.condition.matches event

theorem asks_of_unknown {condition : RuleConditionConfig} (h : Unknown condition)
    (event : DiscoveryEvent) : asks condition event = false := by
  obtain ⟨s, rfl, hnew, hchange⟩ := h
  cases event with
  | deviceDiscovered d => exact decide_eq_false hnew
  | deviceUpdated d => exact decide_eq_false hchange
  | deviceOffline d => rfl

theorem matches_of_convertCondition {config : RuleConditionConfig} {condition : RuleCondition}
    (h : convertCondition config = .ok condition) (event : DiscoveryEvent) :
    condition.matches event = asks config event := by
  cases config with
  | simple s =>
    rw [convertCondition] at h
    split at h
    · next hs =>
      cases h
      cases event <;> simp [RuleCondition.matches, isDiscovered, asks, hs]
    · split at h
      · next hs =>
        cases h
        cases event <;> simp [RuleCondition.matches, asks, hs]
      · cases h
  | newDeviceByVendor text =>
    cases h
    cases event with
    | deviceDiscovered d =>
      rw [RuleCondition.matches, asks, isDiscovered, Bool.true_and, DiscoveryEvent.device]
      cases d.vendor with
      | none => rfl
      | some vendor => rfl
    | deviceUpdated d => rfl
    | deviceOffline d => rfl
  | newDeviceByMacPrefix text =>
    cases h
    cases event <;> rfl
  | deviceOffline afterSeconds =>
    cases h
    cases event <;> rfl

/-- **The rule set of an accepted configuration** announces what the configuration asks for. -/
theorem map_filter_ruleSet {tomlFromStr : String → Except String Config} {content : String}
    {config : Config} (h : Config.fromStr tomlFromStr content = .ok config)
    (event : DiscoveryEvent) :
    ((ruleSet config).filter (Rule.meets event)).map (fun r => announced event r.name r.severity) =
      expected config event := by
  have hempty : (config.rules.filterMap fun rc => (Rule.tryFrom rc).toOption).isEmpty = true ↔
      ∀ rc ∈ config.rules, Unknown rc.condition := by
    rw [List.isEmpty_iff, List.filterMap_eq_nil_iff]
    exact forall₂_congr fun rc hrc => skipped_iff h hrc
  rw [ruleSet, expected]
  by_cases hall : ∀ rc ∈ config.rules, Unknown rc.condition
  · rw [if_pos hall, if_pos (hempty.mpr hall)]
    cases event <;> rfl
  · rw [if_neg hall, if_neg fun he => hall (hempty.mp he), List.filter_filterMap,
      List.map_filterMap]
    refine List.filterMap_congr fun rc hrc => ?_
    obtain ⟨severity, hseverity⟩ := severity_of_fromStr h rc hrc
    cases hcondition : convertCondition rc.condition with
    | ok condition =>
      have hrule := tryFrom_eq_ok.mpr ⟨severity, condition, hseverity, hcondition, rfl⟩
      have hmatches := matches_of_convertCondition hcondition event
      have hmeets : Rule.meets event (.new rc.name rc.enabled condition severity
          rc.cooldownSeconds.toNat) = (rc.enabled && condition.matches event) := rfl
      rw [hrule, hseverity, ← hmatches, ← hmeets]
      show Option.map _ (Option.filter _ (some _)) = _
      split
      · next hmet => rw [Option.filter_some_pos hmet]; rfl
      · next hmet => rw [Option.filter_some_neg (Bool.eq_false_of_not_eq_true hmet)]; rfl
    | error e =>
      have hunknown := convertCondition_error_iff.mp ⟨e, hcondition⟩
      rw [(skipped_iff h hrc).mpr hunknown, asks_of_unknown hunknown, Bool.and_false]
      rfl

/-! ### Runs of the engine -/

section Runs

variable {σ τ : Type} {S : AlertStore σ}

def Action.receipt : Action τ → Option (DiscoveryEvent × τ)
  | .receive event label => some (event, label)
  | _ => none

def received (acts : List (Action τ)) : List (DiscoveryEvent × τ) := acts.filterMap Action.receipt

/-- An alert but for its id and its time, under the label of its event. -/
def Emission.plain (e : Emission τ) : τ × Alert :=
  (e.label, { e.alert with id := 0, timestamp := ⟨0⟩ })

def rowsOf (rules : List Rule) (x : DiscoveryEvent × τ) : List (τ × Alert) :=
  (rules.filter (Rule.meets x.1)).map fun r => (x.2, announced x.1 r.name r.severity)

/-- What the rules announce for the events so far, up to the rule that comes next. -/
def upTo (rules : List Rule) (events : List (DiscoveryEvent × τ)) :
    Option (Work τ) → List (τ × Alert)
  | none => events.flatMap (rowsOf rules)
  | some w => events.dropLast.flatMap (rowsOf rules) ++
      rowsOf (rules.take w.done) (w.event, w.label)

def WorksOnLast (events : List (DiscoveryEvent × τ)) (s : EngineState σ τ) : Prop :=
  ∀ w, s.work = some w → events.getLast? = some (w.event, w.label)

theorem rowsOf_settings (rules : List Rule) (x : DiscoveryEvent × τ) :
    rowsOf (rules.map Rule.settings) x = rowsOf rules x := by
  rw [rowsOf, List.filter_map, List.map_map]
  rfl

theorem rowsOf_of_settings {rules rules' : List Rule}
    (h : rules.map Rule.settings = rules'.map Rule.settings) (x : DiscoveryEvent × τ) :
    rowsOf rules x = rowsOf rules' x := by
  rw [← rowsOf_settings rules, h, rowsOf_settings]

theorem upTo_of_settings {rules rules' : List Rule}
    (h : rules.map Rule.settings = rules'.map Rule.settings) (events : List (DiscoveryEvent × τ))
    (work : Option (Work τ)) : upTo rules events work = upTo rules' events work := by
  have hrows : rowsOf rules = rowsOf (τ := τ) rules' := funext (rowsOf_of_settings h)
  cases work with
  | none => rw [upTo, upTo, hrows]
  | some w =>
    have htake : (rules.take w.done).map Rule.settings = (rules'.take w.done).map Rule.settings := by
      rw [List.map_take, List.map_take, h]
    rw [upTo, upTo, hrows, rowsOf_of_settings htake]

theorem rowsOf_append (rules rules' : List Rule) (x : DiscoveryEvent × τ) :
    rowsOf (rules ++ rules') x = rowsOf rules x ++ rowsOf rules' x := by
  rw [rowsOf, List.filter_append, List.map_append]
  rfl

theorem rowsOf_take_succ {rules : List Rule} {i : Nat} {rule : Rule} (h : rules[i]? = some rule)
    (x : DiscoveryEvent × τ) :
    rowsOf (rules.take (i + 1)) x = rowsOf (rules.take i) x ++ rowsOf [rule] x := by
  rw [List.take_add_one, rowsOf_append, h]
  rfl

theorem rowsOf_unmet {rule : Rule} {x : DiscoveryEvent × τ} (h : rule.meets x.1 = false) :
    rowsOf [rule] x = [] := by
  rw [rowsOf, List.filter_singleton, h]
  rfl

theorem upTo_done {rules : List Rule} {events : List (DiscoveryEvent × τ)} {w : Work τ}
    (hlast : events.getLast? = some (w.event, w.label)) :
    upTo rules events none = upTo rules events (some w) ++
      rowsOf (rules.drop w.done) (w.event, w.label) := by
  have hsplit := List.dropLast_append_getLast? _ hlast
  rw [upTo, upTo, List.append_assoc, ← rowsOf_append, List.take_append_drop]
  conv_lhs => rw [← hsplit]
  rw [List.flatMap_append, List.flatMap_singleton]

theorem received_snoc (acts : List (Action τ)) (a : Action τ) :
    received (acts ++ [a]) = received acts ++ a.receipt.toList := by
  rw [received, List.filterMap_append]
  cases a <;> rfl

theorem evaluateRule_alert {rule : Rule} {event : DiscoveryEvent} {store : σ} {now : Nat}
    {inputs : Inputs} {alert : Alert}
    (h : (evaluateRule S rule event store now inputs).1 = .ok (some alert)) :
    rule.condition.matches event = true ∧
      ∃ id, alert = { ruleAlert rule event inputs.wallClock with id := id } := by
  by_cases hdue : rule.condition.matches event = true ∧
      rule.cooling event.device.mac now = false
  · refine ⟨hdue.1, ?_⟩
    cases hack : inputs.ackFails with
    | some e =>
      rw [evaluateRule_of_ackFails hdue.1 hdue.2 hack] at h
      cases h
    | none =>
      obtain ⟨hacked, hunstored, hstored⟩ :=
        @evaluateRule_of_answer _ S rule event store now inputs hdue.1 hdue.2 hack
      cases hanswer : S.isAcknowledged store rule.name event.device.mac with
      | true =>
        rw [hacked hanswer] at h
        cases h
      | false =>
        by_cases hinsert : inputs.insertFails = none
        · rw [hstored hanswer hinsert] at h
          cases h
          exact ⟨_, rfl⟩
        · rw [hunstored hanswer hinsert] at h
          cases h
          exact ⟨0, rfl⟩
  · rw [evaluateRule_of_not_due S hdue] at h
    cases h

theorem rowsOf_of_alert {rule : Rule} (henabled : rule.enabled = true) {w : Work τ} {store : σ}
    {now : Nat} {inputs : Inputs} {alert : Alert}
    (h : (evaluateRule S rule w.event store now inputs).1 = .ok (some alert)) :
    rowsOf [rule] (w.event, w.label) = [Emission.plain ⟨w.done, now, w.label, alert⟩] := by
  obtain ⟨hmatches, id, rfl⟩ := evaluateRule_alert h
  have hmeets : rule.meets w.event = true := by rw [Rule.meets, henabled, hmatches]; rfl
  rw [rowsOf, List.filter_singleton, hmeets]
  rfl

/-- The evaluation of a rule that is met neither fails nor is suppressed. -/
def Unhindered (S : AlertStore σ) (s : EngineState σ τ) (a : Action τ) : Prop :=
  ∀ inputs w rule, a = .evaluate inputs → s.work = some w → s.rules[w.done]? = some rule →
    rule.meets w.event = true → inputs.ackFails = none ∧
      rule.cooling w.event.device.mac s.clock = false ∧
      ¬S.Acknowledged s.store rule.name w.event.device.mac

theorem unhindered_of_not_mem {acts : List (Action τ)} (s : EngineState σ τ)
    (h : ∀ inputs, .evaluate inputs ∉ acts) : (engine S).Meets (Unhindered S) s acts := by
  induction acts generalizing s with
  | nil => trivial
  | cons a acts ih =>
    refine ⟨fun inputs w rule ha => absurd ?_ (h inputs), fun s' _ _ => ?_⟩
    · rw [ha]
      exact List.mem_cons_self
    · exact ih s' fun inputs hi => h inputs (List.mem_cons_of_mem _ hi)

theorem evaluateRule_of_unhindered {s : EngineState σ τ} {inputs : Inputs} {w : Work τ}
    {rule : Rule} (h : Unhindered S s (.evaluate inputs)) (working : s.work = some w)
    (next : s.rules[w.done]? = some rule) (enabled : rule.enabled = true) :
    (∃ alert, (evaluateRule S rule w.event s.store s.clock inputs).1 = .ok (some alert)) ∨
      (rule.meets w.event = false ∧
        (evaluateRule S rule w.event s.store s.clock inputs).1 = .ok none) := by
  cases hmeets : rule.meets w.event with
  | false =>
    rw [Rule.meets, enabled, Bool.true_and] at hmeets
    refine .inr ⟨rfl, ?_⟩
    rw [evaluateRule_of_not_due S fun hdue => Bool.false_ne_true (hmeets.symm.trans hdue.1)]
  | true =>
    obtain ⟨hack, hfree, hno⟩ := h inputs w rule rfl working next hmeets
    rw [Rule.meets, enabled, Bool.true_and] at hmeets
    obtain ⟨-, hunstored, hstored⟩ :=
      @evaluateRule_of_answer _ S rule w.event s.store s.clock inputs hmeets hfree hack
    have hanswer : S.isAcknowledged s.store rule.name w.event.device.mac = false :=
      Bool.eq_false_of_not_eq_true fun ha => hno ((S.isAcknowledged_iff _ _ _).mp ha)
    by_cases hinsert : inputs.insertFails = none
    · exact .inl ⟨_, by rw [hstored hanswer hinsert]⟩
    · exact .inl ⟨_, by rw [hunstored hanswer hinsert]⟩

/-- **One step** keeps to what the rules announce, and follows it if nothing hinders. -/
theorem upTo_step {s s' : EngineState σ τ} {a : Action τ} {o : Option (Emission τ)}
    {events : List (DiscoveryEvent × τ)} (hlast : WorksOnLast events s)
    (h : (engine S).step s a = some (s', o)) :
    WorksOnLast (events ++ a.receipt.toList) s' ∧
      ∃ added, upTo s.rules (events ++ a.receipt.toList) s'.work =
          upTo s.rules events s.work ++ added ∧
        ((o.toList ++ s'.inFlight).map Emission.plain).Sublist
          (s.inFlight.map Emission.plain ++ added) ∧
        (Unhindered S s a →
          (o.toList ++ s'.inFlight).map Emission.plain = s.inFlight.map Emission.plain ++ added) := by
  -- what is on its way stays, and nothing is added
  have hquiet : ∀ flight flight' : List (Emission τ), flight' = flight →
      (flight'.map Emission.plain).Sublist (flight.map Emission.plain ++ []) ∧
      (Unhindered S s a → flight'.map Emission.plain = flight.map Emission.plain ++ []) := by
    rintro flight _ rfl
    rw [List.append_nil]
    exact ⟨List.Sublist.refl _, fun _ => rfl⟩
  cases engineStep_of_step S h with
  | advance elapsed =>
    simp only [Action.receipt, Option.toList_none, List.append_nil]
    exact ⟨hlast, [], (List.append_nil _).symm, hquiet _ _ rfl⟩
  | call c =>
    simp only [Action.receipt, Option.toList_none, List.append_nil]
    exact ⟨hlast, [], (List.append_nil _).symm, hquiet _ _ rfl⟩
  | receive event label waiting =>
    refine ⟨fun w hw => ?_, [], ?_, hquiet _ _ ?_⟩
    · cases Option.some.inj hw
      exact List.getLast?_concat
    · rw [waiting, upTo, upTo]
      show (events ++ [(event, label)]).dropLast.flatMap _ ++ rowsOf (s.rules.take 0) _ = _
      rw [List.dropLast_concat, List.take_zero]
      rfl
    · rw [EngineState.inFlight, EngineState.inFlight, waiting]
      rfl
  | evaluate inputs w rule working next enabled =>
    have halert := fun alert => @rowsOf_of_alert _ _ S rule enabled w s.store s.clock inputs alert
    have hfree := fun hun : Unhindered S s (.evaluate inputs) =>
      evaluateRule_of_unhindered hun working next enabled
    have hflight : s.inFlight = w.alerts := by rw [EngineState.inFlight, working]
    simp only [Action.receipt, Option.toList_none, List.append_nil, List.nil_append, working, hflight]
    generalize evaluateRule S rule w.event s.store s.clock inputs = result at halert hfree
    obtain ⟨r, rule', store'⟩ := result
    -- one row more, if there is one
    have hrows : ∀ w' : Work τ, w'.event = w.event → w'.label = w.label → w'.done = w.done + 1 →
        upTo s.rules events (some w') =
          upTo s.rules events (some w) ++ rowsOf [rule] (w.event, w.label) := by
      intro w' hevent hlabel hdone
      rw [upTo, upTo, hevent, hlabel, hdone, rowsOf_take_succ next, List.append_assoc]
    cases r with
    | error e =>
      -- the rules after this one are passed over
      refine ⟨fun w' hw' => (by cases hw'), _, upTo_done (hlast w working),
        List.nil_sublist _, fun hun => ?_⟩
      rcases hfree hun with ⟨alert, hok⟩ | ⟨_, hok⟩
      · cases hok
      · cases hok
    | ok r =>
      cases r with
      | none =>
        refine ⟨fun w' hw' => ?_, _, hrows w.skip rfl rfl rfl, List.sublist_append_left _ _,
          fun hun => ?_⟩
        · cases Option.some.inj hw'
          exact hlast w working
        · rcases hfree hun with ⟨alert, hok⟩ | ⟨hunmet, _⟩
          · cases hok
          · rw [rowsOf_unmet hunmet, List.append_nil]
            rfl
      | some alert =>
        have hpushed : ((w.push s.clock alert).alerts).map Emission.plain =
            w.alerts.map Emission.plain ++ rowsOf [rule] (w.event, w.label) := by
          rw [halert alert rfl]
          exact List.map_append
        refine ⟨fun w' hw' => ?_, _, hrows (w.push s.clock alert) rfl rfl rfl, ?_, fun _ => hpushed⟩
        · cases Option.some.inj hw'
          exact hlast w working
        · exact hpushed ▸ List.Sublist.refl _
  | skip inputs w rule working next disabled =>
    have hunmet : rule.meets w.event = false := by
      rw [Rule.meets, Bool.eq_false_of_not_eq_true disabled, Bool.false_and]
    simp only [Action.receipt, Option.toList_none, List.append_nil]
    refine ⟨fun w' hw' => ?_, [], ?_, hquiet _ _ ?_⟩
    · cases Option.some.inj hw'
      exact hlast w working
    · rw [working, upTo, upTo, List.append_nil]
      show _ ++ rowsOf (s.rules.take (w.done + 1)) (w.event, w.label) = _
      rw [rowsOf_take_succ next, rowsOf_unmet hunmet, List.append_nil]
    · rw [EngineState.inFlight, EngineState.inFlight, working]
      rfl
  | fire w e rest working alerts done =>
    simp only [Action.receipt, Option.toList_none, List.append_nil]
    refine ⟨fun w' hw' => ?_, [], ?_, hquiet _ _ ?_⟩
    · cases Option.some.inj hw'
      exact hlast w working
    · rw [working, List.append_nil]
      rfl
    · rw [EngineState.inFlight, EngineState.inFlight, working]
      show e :: w.alerts.tail = w.alerts
      rw [alerts]
      rfl
  | finish w working alerts done =>
    simp only [Action.receipt, Option.toList_none, List.append_nil]
    refine ⟨fun w' hw' => (by cases hw'), [], ?_, hquiet _ _ ?_⟩
    · rw [working, upTo_done (hlast w working), done, List.drop_length]
      rfl
    · rw [EngineState.inFlight, EngineState.inFlight, working]
      show [] = w.alerts
      rw [alerts]

theorem trail_snoc (outs : List (Option (Emission τ))) (o : Option (Emission τ))
    (s : EngineState σ τ) :
    trail (outs ++ [o]) s = emissions outs ++ (o.toList ++ s.inFlight) := by
  rw [trail, emissions_append, emissions_singleton, List.append_assoc]

theorem worksOnLast_run {s₀ s : EngineState σ τ} {acts : List (Action τ)}
    {outs : List (Option (Emission τ))} (hstart : s₀.work = none)
    (h : (engine S).run s₀ acts = some (s, outs)) : WorksOnLast (received acts) s := by
  refine (engine S).run_induction (P := fun acts _ s => WorksOnLast (received acts) s) ?_ ?_ h
  · intro w hw
    rw [hstart] at hw
    cases hw
  · intro acts outs s a s' o _ ih hs
    rw [received_snoc]
    exact (upTo_step ih hs).1

theorem trail_sublist_run {s₀ s : EngineState σ τ} {acts : List (Action τ)}
    {outs : List (Option (Emission τ))} (hstart : s₀.work = none)
    (h : (engine S).run s₀ acts = some (s, outs)) :
    ((trail outs s).map Emission.plain).Sublist (upTo s₀.rules (received acts) s.work) := by
  refine (engine S).run_induction (P := fun acts outs s =>
    ((trail outs s).map Emission.plain).Sublist (upTo s₀.rules (received acts) s.work)) ?_ ?_ h
  · rw [trail, EngineState.inFlight, hstart]
    exact List.nil_sublist _
  · intro acts outs s a s' o hrun ih hs
    obtain ⟨_, added, hupTo, hsub, _⟩ := upTo_step (worksOnLast_run hstart hrun) hs
    have hsettings := settings_run hrun
    rw [trail, List.map_append] at ih
    rw [trail_snoc, received_snoc, ← upTo_of_settings hsettings, hupTo,
      upTo_of_settings hsettings, List.map_append]
    refine ((List.Sublist.refl _).append hsub).trans ?_
    rw [← List.append_assoc]
    exact ih.append (List.Sublist.refl _)

theorem trail_eq_run {s₀ s : EngineState σ τ} {acts : List (Action τ)}
    {outs : List (Option (Emission τ))} (hstart : s₀.work = none)
    (hok : (engine S).Meets (Unhindered S) s₀ acts)
    (h : (engine S).run s₀ acts = some (s, outs)) :
    (trail outs s).map Emission.plain = upTo s₀.rules (received acts) s.work := by
  refine (engine S).run_induction_of_meets (P := fun acts outs s =>
    (trail outs s).map Emission.plain = upTo s₀.rules (received acts) s.work) ?_ ?_ h hok
  · rw [trail, EngineState.inFlight, hstart]
    rfl
  · intro acts outs s a s' o hrun ih hok hs
    obtain ⟨_, added, hupTo, _, heq⟩ := upTo_step (worksOnLast_run hstart hrun) hs
    have hsettings := settings_run hrun
    rw [trail, List.map_append] at ih
    rw [trail_snoc, received_snoc, ← upTo_of_settings hsettings, hupTo,
      upTo_of_settings hsettings, List.map_append, heq hok, ← ih, List.append_assoc]

end Runs

/-! ### The alerts of a configuration -/

section Configured

variable {σ τ : Type} {S : AlertStore σ} {tomlFromStr : String → Except String Config}
  {content : String} {config : Config} {store : σ} {clock : Nat} {acts : List (Action τ)}
  {s : EngineState σ τ} {outs : List (Option (Emission τ))}

theorem rowsOf_ruleSet (hconfig : Config.fromStr tomlFromStr content = .ok config) :
    rowsOf (ruleSet config) = fun x : DiscoveryEvent × τ =>
      (expected config x.1).map fun alert => (x.2, alert) := by
  funext x
  rw [← map_filter_ruleSet hconfig, List.map_map]
  rfl

/-- **No other alerts.**  Over every run of the engine with the rules of an accepted
configuration, the alerts sent are some of those that the configuration asks for on the events
received: in the order of the events and of the rules, and none twice. -/
theorem alerts_of_config (hconfig : Config.fromStr tomlFromStr content = .ok config)
    (h : (engine S).run (.start (ruleSet config) store clock) acts = some (s, outs)) :
    ((emissions outs).map Emission.plain).Sublist ((received acts).flatMap fun x =>
      (expected config x.1).map fun alert => (x.2, alert)) := by
  rw [← rowsOf_ruleSet hconfig]
  have htrail := trail_sublist_run rfl h
  rw [trail, List.map_append] at htrail
  refine (List.sublist_append_left _ _).trans (htrail.trans ?_)
  cases hwork : s.work with
  | none => exact List.Sublist.refl _
  | some w =>
    have hlast := worksOnLast_run rfl h w hwork
    show (upTo (ruleSet config) (received acts) (some w)).Sublist
      (upTo (ruleSet config) (received acts) none)
    rw [upTo_done hlast]
    exact List.sublist_append_left _ _

/-- **All of them**, in a run that ends with the engine waiting and whose evaluations neither fail
nor are suppressed. -/
theorem alerts_eq_of_config (hconfig : Config.fromStr tomlFromStr content = .ok config)
    (h : (engine S).run (.start (ruleSet config) store clock) acts = some (s, outs))
    (hok : (engine S).Meets (Unhindered S) (.start (ruleSet config) store clock) acts)
    (hidle : s.work = none) :
    (emissions outs).map Emission.plain = (received acts).flatMap fun x =>
      (expected config x.1).map fun alert => (x.2, alert) := by
  have htrail := trail_eq_run rfl hok h
  rw [trail, EngineState.inFlight, hidle, List.append_nil] at htrail
  rw [← rowsOf_ruleSet hconfig]
  exact htrail

end Configured

/-! ### A rule for phones, and one that is misspelled -/

def phonesText : String :=
  "interface = \"eth0\"\napi_bind_address = \"127.0.0.1\"\n\n" ++
    "[[rules]]\nname = \"typo\"\nseverity = \"critical\"\ncondition = \"new_devices\"\n\n" ++
    "[[rules]]\nname = \"phones\"\nseverity = \"warning\"\ncooldown_seconds = 100\n" ++
    "condition.new_device_by_mac_prefix = \"00:11\"\n"

def phonesConfig : Config where
  interface := "eth0"
  apiPort := 8080
  apiBindAddress := "127.0.0.1"
  api := ⟨none, none, none⟩
  logLevel := "info"
  captureBuffer := 4096
  databasePath := ""
  mqtt := none
  ntfy := none
  webhook := none
  email := none
  rules := [⟨"typo", true, .simple "new_devices", "critical", 0⟩,
    ⟨"phones", true, .newDeviceByMacPrefix "00:11", "warning", 100⟩]
  scanner := ⟨60⟩
  storage := ⟨24, 90⟩

theorem phonesConfig_accepted :
    Config.fromStr plainToml phonesText = .ok phonesConfig := by
  decide +kernel

def phonesStart : EngineState InMemoryAlertStore Unit := .start (ruleSet phonesConfig) .new 0

def phoneFound : List (Action Unit) :=
  [.receive (.deviceDiscovered phone) (), .evaluate quietInputs, .fire, .finish]

theorem phoneFound_unhindered :
    (engine InMemoryAlertStore.alertStore).Meets (Unhindered InMemoryAlertStore.alertStore)
      phonesStart phoneFound := by
  refine ⟨fun _ _ _ h => (by cases h), fun s _ hs => ?_⟩
  cases hs
  refine ⟨fun inputs w rule h working next _ => ?_, fun s _ _ => unhindered_of_not_mem s (by simp)⟩
  cases h
  cases working
  have hfresh : ∀ r ∈ ruleSet phonesConfig, r.cooling phone.mac 0 = false := by decide +kernel
  refine ⟨rfl, hfresh rule (List.mem_of_getElem? next), fun hack => ?_⟩
  obtain ⟨alert, ⟨id, hid⟩, _⟩ := hack
  cases hid

/-- The phone is not alerted twice, and not by the rule that was skipped. -/
theorem alerts_of_config_phone : ∃ s outs,
    (engine InMemoryAlertStore.alertStore).run phonesStart phoneFound = some (s, outs) ∧
      ((emissions outs).map Emission.plain).Sublist
        [((), announced (.deviceDiscovered phone) "phones" .warning)] := by
  obtain ⟨⟨s, outs⟩, h⟩ := Option.isSome_iff_exists.mp
    (by decide +kernel : ((engine InMemoryAlertStore.alertStore).run phonesStart
      phoneFound).isSome = true)
  have hexpected : (received phoneFound).flatMap (fun x =>
      (expected phonesConfig x.1).map fun alert => (x.2, alert)) =
      [((), announced (.deviceDiscovered phone) "phones" .warning)] := by decide +kernel
  exact ⟨s, outs, h, hexpected ▸ alerts_of_config phonesConfig_accepted h⟩

theorem alerts_eq_of_config_phone : ∃ s outs,
    (engine InMemoryAlertStore.alertStore).run phonesStart phoneFound = some (s, outs) ∧
      (emissions outs).map Emission.plain =
        [((), announced (.deviceDiscovered phone) "phones" .warning)] := by
  obtain ⟨⟨s, outs⟩, h⟩ := Option.isSome_iff_exists.mp
    (by decide +kernel : ((engine InMemoryAlertStore.alertStore).run phonesStart
      phoneFound).isSome = true)
  have hidle : ((engine InMemoryAlertStore.alertStore).run phonesStart phoneFound).map
      (fun r => r.1.work.isNone) = some true := by decide +kernel
  rw [h, Option.map_some, Option.some.injEq] at hidle
  have hexpected : (received phoneFound).flatMap (fun x =>
      (expected phonesConfig x.1).map fun alert => (x.2, alert)) =
      [((), announced (.deviceDiscovered phone) "phones" .warning)] := by decide +kernel
  exact ⟨s, outs, h, hexpected ▸ alerts_eq_of_config phonesConfig_accepted h
    phoneFound_unhindered (Option.isNone_iff_eq_none.mp hidle)⟩

end EdgeShield.Rules
