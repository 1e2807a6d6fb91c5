import EdgeShield.Lib.Machine
import EdgeShield.Discovery.Engine
import EdgeShield.Rules.Store

/-!
# The rule engine

`crates/rules/src/engine.rs`: the engine receives one discovery event at a time,
evaluates every enabled rule on it, and then sends the alerts that came out.

`evaluateRule` is the evaluation of one rule.  `engine` is the task around it as a
machine: `receive` takes an event, `evaluate` handles the next rule, `fire` sends the
next alert, `finish` goes back to waiting.  Between any two of these time passes and
the API acknowledges and deletes alerts, and it can do so inside an evaluation too,
between the look at the store and the insertion.  An evaluation that fails ends the
event, and the alerts collected so far go nowhere.

An event carries a label in `τ` that no step reads.  It tells where an alert comes
from: the packet or the scanner tick that caused the event.

`EngineStep` lists the steps.  `Due` is an evaluation that gets past the cooldown;
`step_cases` and `work_step` say what a step does to the rules, the alerts on the way
out and the event in work, and the results about runs use nothing else of the machine.
-/

namespace EdgeShield.Rules

open EdgeShield.Lib EdgeShield.Common EdgeShield.Discovery

/-! ### Rules -/

inductive RuleCondition where
  | newDevice
  | newDeviceByVendor (vendorFilter : String)
  | newDeviceByMacPrefix (macPrefix : String)
  | deviceOffline (afterSeconds : Nat)
  | protocolChange
  deriving DecidableEq, Repr

/-- A rule; the times in `lastFired` are instants in nanoseconds. -/
structure Rule where
  name : String
  enabled : Bool
  condition : RuleCondition
  severity : Severity
  cooldownSeconds : Nat
  lastFired : AList fun _ : MacAddress => Nat

namespace Rule

def new (name : String) (enabled : Bool) (condition : RuleCondition) (severity : Severity)
    (cooldownSeconds : Nat) : Rule where
  name := name
  enabled := enabled
  condition := condition
  severity := severity
  cooldownSeconds := cooldownSeconds
  lastFired := ∅

def cooldown (r : Rule) : Nat := r.cooldownSeconds * 1000000000

/-- Whether the rule may fire for `mac` now; if so, the time is recorded. -/
def checkAndRecordCooldown (r : Rule) (mac : MacAddress) (now : Nat) : Bool × Rule :=
  if r.cooldownSeconds = 0 then (true, r)
  else
    match r.lastFired.lookup mac with
    | some last =>
      -- `duration_since` is zero for a time in the future
      if now - last < r.cooldown then (false, r)
      else (true, { r with lastFired := r.lastFired.insert mac now })
    | none => (true, { r with lastFired := r.lastFired.insert mac now })

end Rule

def toAsciiLowercase (s : String) : List Char := s.toList.map Char.toLower

def macMatchesPrefix (mac : MacAddress) (macPrefix : String) : Bool :=
  (toAsciiLowercase macPrefix).isPrefixOf (toAsciiLowercase mac.toString)

def isDiscovered : DiscoveryEvent → Bool
  | .deviceDiscovered _ => true
  | _ => false

/-- Whether an event meets the condition.  The threshold of `deviceOffline` is not
looked at. -/
def RuleCondition.matches (condition : RuleCondition) (event : DiscoveryEvent) : Bool :=
  match condition with
  | .newDevice => isDiscovered event
  | .newDeviceByVendor vendorFilter =>
    isDiscovered event &&
      match event.device.vendor with
      | some v => decide (toAsciiLowercase vendorFilter <:+: toAsciiLowercase v)
      | none => false
  | .newDeviceByMacPrefix macPrefix =>
    isDiscovered event && macMatchesPrefix event.device.mac macPrefix
  | .deviceOffline _ =>
    match event with
    | .deviceOffline _ => true
    | _ => false
  | .protocolChange =>
    match event with
    | .deviceUpdated _ => true
    | _ => false

def eventType : DiscoveryEvent → AlertEventType
  | .deviceDiscovered _ => .newDevice
  | .deviceUpdated _ => .protocolChange
  | .deviceOffline _ => .deviceOffline

def buildMessage (device : Device) (eventType : AlertEventType) : String :=
  let name := (device.hostname.or device.vendor).getD device.mac.toString
  let about := name ++ " (" ++ device.mac.toString ++ ")"
  match eventType with
  | .newDevice => "New device discovered: " ++ about
  | .deviceOffline => "Device offline: " ++ about
  | .protocolChange => "Protocol change for " ++ about
  | .custom s => s ++ ": " ++ about

/-! ### The evaluation of one rule -/

/-- What one evaluation takes from outside: the wall clock for the alert, the calls
of the API that come between the acknowledgment check and the insertion, and the
errors of the two store calls, if they fail. -/
structure Inputs where
  wallClock : Timestamp
  calls : List AlertStore.Call
  ackFails : Option StorageError
  insertFails : Option StorageError
  deriving DecidableEq, Repr

section Evaluate

variable {σ : Type} (S : AlertStore σ)

/-- The result of the evaluation, the rule with its cooldown state, and the store. -/
def evaluateRule (rule : Rule) (event : DiscoveryEvent) (store : σ) (now : Nat)
    (inputs : Inputs) : Except StorageError (Option Alert) × Rule × σ :=
  let device := event.device
  if rule.condition.matches event then
    match rule.checkAndRecordCooldown device.mac now with
    | (false, rule) => (.ok none, rule, store)
    | (true, rule) =>
      match inputs.ackFails with
      | some e => (.error e, rule, store)
      | none =>
        if S.isAcknowledged store rule.name device.mac then (.ok none, rule, store)
        else
          let message := buildMessage device (eventType event)
          let alert :=
            Alert.new rule.name rule.severity (eventType event) device message inputs.wallClock
          let store := inputs.calls.foldl S.call store
          match inputs.insertFails with
          | some _ => (.ok (some alert), rule, store)
          | none =>
            let (id, store) := S.insertAlert store alert
            (.ok (some { alert with id := id }), rule, store)
  else (.ok none, rule, store)

def Rule.cooling (r : Rule) (mac : MacAddress) (now : Nat) : Bool :=
  match r.lastFired.lookup mac with
  | some last => decide (now - last < r.cooldown)
  | none => false

/-- The rule after it got past the cooldown; a rule without one keeps no times. -/
def Rule.recorded (r : Rule) (mac : MacAddress) (now : Nat) : Rule :=
  if r.cooldownSeconds = 0 then r else { r with lastFired := r.lastFired.insert mac now }

theorem Rule.checkAndRecordCooldown_eq (r : Rule) (mac : MacAddress) (now : Nat) :
    r.checkAndRecordCooldown mac now =
      if r.cooling mac now then (false, r) else (true, r.recorded mac now) := by
  unfold checkAndRecordCooldown cooling recorded
  by_cases hc : r.cooldownSeconds = 0
  · have hzero : r.cooldown = 0 := by rw [cooldown, hc, Nat.zero_mul]
    rw [if_pos hc, if_pos hc, hzero]
    cases r.lastFired.lookup mac with
    | none => rfl
    | some last => simp
  · rw [if_neg hc, if_neg hc]
    cases r.lastFired.lookup mac with
    | none => simp
    | some last => simp only [decide_eq_true_eq]

theorem Rule.lookup_recorded (r : Rule) (mac m : MacAddress) (now : Nat) :
    (r.recorded mac now).lastFired.lookup m =
      if r.cooldownSeconds ≠ 0 ∧ m = mac then some now else r.lastFired.lookup m := by
  unfold recorded
  by_cases hc : r.cooldownSeconds = 0
  · simp [hc]
  · by_cases hm : m = mac
    · subst hm
      simp [hc]
    · simp [hc, hm, AList.lookup_insert_ne hm]

/-- The part of a rule that never changes. -/
def Rule.settings (r : Rule) : Rule := { r with lastFired := ∅ }

@[simp] theorem Rule.settings_recorded (r : Rule) (mac : MacAddress) (now : Nat) :
    (r.recorded mac now).settings = r.settings := by
  unfold recorded settings
  split
  · rfl
  · rfl

theorem Rule.of_settings_eq {r r' : Rule} (h : r.settings = r'.settings) :
    r.name = r'.name ∧ r.enabled = r'.enabled ∧ r.condition = r'.condition ∧
      r.cooldownSeconds = r'.cooldownSeconds := by
  simp only [settings, Rule.mk.injEq] at h
  exact ⟨h.1, h.2.1, h.2.2.1, h.2.2.2.2.1⟩

theorem Rule.cooldown_of_settings_eq {r r' : Rule} (h : r.settings = r'.settings) :
    r.cooldown = r'.cooldown := by
  rw [cooldown, cooldown, (of_settings_eq h).2.2.2]

end Evaluate

/-! ### What an evaluation returns -/

def ruleAlert (rule : Rule) (event : DiscoveryEvent) (wallClock : Timestamp) : Alert :=
  Alert.new rule.name rule.severity (eventType event) event.device
    (buildMessage event.device (eventType event)) wallClock

section Evaluations

variable {σ : Type} {S : AlertStore σ} {rule : Rule} {event : DiscoveryEvent} {store : σ} {now : Nat}
  {inputs : Inputs}

theorem evaluateRule_of_ackFails (hmatch : rule.condition.matches event = true)
    (hfree : rule.cooling event.device.mac now = false) {e : StorageError}
    (hack : inputs.ackFails = some e) :
    evaluateRule S rule event store now inputs =
      (.error e, rule.recorded event.device.mac now, store) := by
  simp only [evaluateRule, hmatch, if_true, Rule.checkAndRecordCooldown_eq, hfree,
    Bool.false_eq_true, if_false, hack]

theorem evaluateRule_of_answer (hmatch : rule.condition.matches event = true)
    (hfree : rule.cooling event.device.mac now = false) (hack : inputs.ackFails = none) :
    (S.isAcknowledged store rule.name event.device.mac = true →
      evaluateRule S rule event store now inputs =
        (.ok none, rule.recorded event.device.mac now, store)) ∧
    (S.isAcknowledged store rule.name event.device.mac = false → inputs.insertFails ≠ none →
      evaluateRule S rule event store now inputs =
        (.ok (some (ruleAlert rule event inputs.wallClock)),
          rule.recorded event.device.mac now, inputs.calls.foldl S.call store)) ∧
    (S.isAcknowledged store rule.name event.device.mac = false → inputs.insertFails = none →
      evaluateRule S rule event store now inputs =
        (.ok (some { ruleAlert rule event inputs.wallClock with
            id := (S.insertAlert (inputs.calls.foldl S.call store)
              (ruleAlert rule event inputs.wallClock)).1 }),
          rule.recorded event.device.mac now,
          (S.insertAlert (inputs.calls.foldl S.call store)
            (ruleAlert rule event inputs.wallClock)).2)) := by
  have hsettings := rule.settings_recorded event.device.mac now
  have hname := (Rule.of_settings_eq hsettings).1
  have hseverity : (rule.recorded event.device.mac now).severity = rule.severity := by
    show (rule.recorded event.device.mac now).settings.severity = rule.settings.severity
    rw [hsettings]
  refine ⟨fun hanswer => ?_, fun hanswer hinsert => ?_, fun hanswer hinsert => ?_⟩
  · simp only [evaluateRule, hmatch, if_true, Rule.checkAndRecordCooldown_eq, hfree,
      Bool.false_eq_true, if_false, hack, hname, hanswer]
  · obtain ⟨e, he⟩ := Option.ne_none_iff_exists'.mp hinsert
    simp only [evaluateRule, hmatch, if_true, Rule.checkAndRecordCooldown_eq, hfree,
      Bool.false_eq_true, if_false, hack, hname, hanswer, hseverity, he, ruleAlert]
  · simp only [evaluateRule, hmatch, if_true, Rule.checkAndRecordCooldown_eq, hfree,
      Bool.false_eq_true, if_false, hack, hname, hanswer, hseverity, hinsert, ruleAlert]

theorem evaluateRule_of_not_due (S : AlertStore σ)
    (h : ¬(rule.condition.matches event = true ∧ rule.cooling event.device.mac now = false)) :
    evaluateRule S rule event store now inputs = (.ok none, rule, store) := by
  simp only [evaluateRule, Rule.checkAndRecordCooldown_eq]
  by_cases hm : rule.condition.matches event = true
  · have hc : rule.cooling event.device.mac now = true := by
      rw [← Bool.not_eq_false]
      exact fun hc => h ⟨hm, hc⟩
    rw [if_pos hm, if_pos hc]
  · rw [if_neg hm]

end Evaluations

/-! ### The engine task -/

/-- An alert on its way out: the position of its rule, the time of the evaluation,
and the label of the event. -/
structure Emission (τ : Type) where
  rule : Nat
  time : Nat
  label : τ
  alert : Alert

/-- An event that is being processed: how many rules are done, and the alerts that
wait to be sent, which come from these rules. -/
structure Work (τ : Type) where
  event : DiscoveryEvent
  label : τ
  done : Nat
  alerts : List (Emission τ)
  below : ∀ e ∈ alerts, e.rule < done

namespace Work

variable {τ : Type}

def start (event : DiscoveryEvent) (label : τ) : Work τ where
  event := event
  label := label
  done := 0
  alerts := []
  below := by simp

def skip (w : Work τ) : Work τ :=
  { w with
    done := w.done + 1
    below := fun e he => Nat.lt_succ_of_lt (w.below e he) }

def push (w : Work τ) (time : Nat) (alert : Alert) : Work τ :=
  { w with
    done := w.done + 1
    alerts := w.alerts ++ [⟨w.done, time, w.label, alert⟩]
    below := by
      intro e he
      rcases List.mem_append.mp he with he | he
      · exact Nat.lt_succ_of_lt (w.below e he)
      · rw [List.mem_singleton.mp he]
        exact Nat.lt_succ_self w.done }

def pop (w : Work τ) : Work τ :=
  { w with
    alerts := w.alerts.tail
    below := fun e he => w.below e (List.mem_of_mem_tail he) }

end Work

structure EngineState (σ τ : Type) where
  rules : List Rule
  store : σ
  clock : Nat
  work : Option (Work τ)

inductive Action (τ : Type) where
  | advance (elapsed : Nat)
  | call (c : AlertStore.Call)
  | receive (event : DiscoveryEvent) (label : τ)
  | evaluate (inputs : Inputs)
  | fire
  | finish

section Machine

variable {σ τ : Type} (S : AlertStore σ)

namespace EngineState

def start (rules : List Rule) (store : σ) (clock : Nat) : EngineState σ τ where
  rules := rules
  store := store
  clock := clock
  work := none

def inFlight (s : EngineState σ τ) : List (Emission τ) :=
  match s.work with
  | some w => w.alerts
  | none => []

/-- The state after an evaluation of the rule at `w.done`.  On an error,
`process_event` returns at once. -/
def conclude (s : EngineState σ τ) (w : Work τ)
    (result : Except StorageError (Option Alert) × Rule × σ) : EngineState σ τ :=
  { s with
    rules := s.rules.set w.done result.2.1
    store := result.2.2
    work :=
      match result.1 with
      | .error _ => none
      | .ok none => some w.skip
      | .ok (some alert) => some (w.push s.clock alert) }

end EngineState

def engineStep (s : EngineState σ τ) :
    Action τ → Option (EngineState σ τ × Option (Emission τ))
  | .advance elapsed => some ({ s with clock := s.clock + elapsed }, none)
  | .call c => some ({ s with store := S.call s.store c }, none)
  | .receive event label =>
    match s.work with
    | none => some ({ s with work := some (.start event label) }, none)
    | some _ => none
  | .evaluate inputs =>
    match s.work with
    | none => none
    | some w =>
      match s.rules[w.done]? with
      | none => none
      | some rule =>
        if rule.enabled then
          some (s.conclude w (evaluateRule S rule w.event s.store s.clock inputs), none)
        else some ({ s with work := some w.skip }, none)
  | .fire =>
    match s.work with
    | none => none
    | some w =>
      match w.alerts with
      | [] => none
      | e :: _ =>
        if w.done = s.rules.length then some ({ s with work := some w.pop }, some e)
        else none
  | .finish =>
    match s.work with
    | none => none
    | some w =>
      if w.done = s.rules.length ∧ w.alerts.isEmpty then some ({ s with work := none }, none)
      else none

/-- The engine task.  The output of a step is the alert that it hands to the
notifiers. -/
def engine : Machine (EngineState σ τ) (Action τ) (Option (Emission τ)) where
  step := engineStep S

inductive EngineStep (s : EngineState σ τ) :
    Action τ → EngineState σ τ → Option (Emission τ) → Prop where
  | advance (elapsed : Nat) :
      EngineStep s (.advance elapsed) { s with clock := s.clock + elapsed } none
  | call (c : AlertStore.Call) : EngineStep s (.call c) { s with store := S.call s.store c } none
  | receive (event : DiscoveryEvent) (label : τ) (waiting : s.work = none) :
      EngineStep s (.receive event label) { s with work := some (.start event label) } none
  | evaluate (inputs : Inputs) (w : Work τ) (rule : Rule) (working : s.work = some w)
      (next : s.rules[w.done]? = some rule) (enabled : rule.enabled = true) :
      EngineStep s (.evaluate inputs)
        (s.conclude w (evaluateRule S rule w.event s.store s.clock inputs)) none
  | skip (inputs : Inputs) (w : Work τ) (rule : Rule) (working : s.work = some w)
      (next : s.rules[w.done]? = some rule) (disabled : ¬rule.enabled = true) :
      EngineStep s (.evaluate inputs) { s with work := some w.skip } none
  | fire (w : Work τ) (e : Emission τ) (rest : List (Emission τ)) (working : s.work = some w)
      (alerts : w.alerts = e :: rest) (done : w.done = s.rules.length) :
      EngineStep s .fire { s with work := some w.pop } (some e)
  | finish (w : Work τ) (working : s.work = some w) (alerts : w.alerts = [])
      (done : w.done = s.rules.length) :
      EngineStep s .finish { s with work := none } none

theorem engineStep_of_step {s s' : EngineState σ τ} {a : Action τ} {o : Option (Emission τ)}
    (h : (engine S).step s a = some (s', o)) : EngineStep S s a s' o := by
  cases a with
  | advance elapsed => cases h; exact .advance elapsed
  | call c => cases h; exact .call c
  | receive event label =>
    simp only [engine, engineStep] at h
    split at h
    · next hw => cases h; exact .receive event label hw
    · cases h
  | evaluate inputs =>
    simp only [engine, engineStep] at h
    split at h
    · cases h
    next w hw =>
    split at h
    · cases h
    next rule hr =>
    split at h
    · next hen => cases h; exact .evaluate inputs w rule hw hr hen
    · next hen => cases h; exact .skip inputs w rule hw hr hen
  | fire =>
    simp only [engine, engineStep] at h
    split at h
    · cases h
    next w hw =>
    split at h
    · cases h
    next e rest halerts =>
    split at h
    · next hdone => cases h; exact .fire w e rest hw halerts hdone
    · cases h
  | finish =>
    simp only [engine, engineStep] at h
    split at h
    · cases h
    next w hw =>
    split at h
    · next hdone => cases h; exact .finish w hw (List.isEmpty_iff.mp hdone.2) hdone.1
    · cases h

def emissions (outs : List (Option (Emission τ))) : List (Emission τ) := outs.filterMap id

/-- The next evaluation finds an enabled rule that matches and is not cooling
down. -/
structure Due (s : EngineState σ τ) (w : Work τ) (rule : Rule) : Prop where
  working : s.work = some w
  next : s.rules[w.done]? = some rule
  enabled : rule.enabled = true
  matched : rule.condition.matches w.event = true
  free : rule.cooling w.event.device.mac s.clock = false

/-- What comes of a due evaluation: an error drops the alerts in flight, an
acknowledgment suppresses, and otherwise there is one more alert in flight. -/
inductive Outcome (s s' : EngineState σ τ) (w : Work τ) (rule : Rule) (inputs : Inputs) : Prop where
  | failed (h : inputs.ackFails ≠ none) (flight : s'.inFlight = [])
  | suppressed (h : inputs.ackFails = none)
      (ack : S.Acknowledged s.store rule.name w.event.device.mac)
      (flight : s'.inFlight = s.inFlight)
  | raised (alert : Alert) (h : inputs.ackFails = none)
      (noAck : ¬S.Acknowledged s.store rule.name w.event.device.mac)
      (mac : alert.mac = w.event.device.mac) (snapshot : alert.deviceSnapshot = w.event.device)
      (flight : s'.inFlight = s.inFlight ++ [⟨w.done, s.clock, w.label, alert⟩])

theorem Due.outcome {s : EngineState σ τ} {w : Work τ} {rule : Rule} (hdue : Due s w rule)
    (inputs : Inputs) :
    (evaluateRule S rule w.event s.store s.clock inputs).2.1 =
        rule.recorded w.event.device.mac s.clock ∧
      Outcome S s (s.conclude w (evaluateRule S rule w.event s.store s.clock inputs)) w rule
        inputs := by
  have hflight : s.inFlight = w.alerts := by rw [EngineState.inFlight, hdue.working]
  cases hack : inputs.ackFails with
  | some e =>
    rw [evaluateRule_of_ackFails hdue.matched hdue.free hack]
    refine ⟨rfl, .failed ?_ rfl⟩
    rw [hack]
    exact Option.some_ne_none e
  | none =>
    obtain ⟨hacked, hunstored, hstored⟩ :=
      @evaluateRule_of_answer _ S rule w.event s.store s.clock inputs hdue.matched hdue.free hack
    cases hanswer : S.isAcknowledged s.store rule.name w.event.device.mac with
    | true =>
      rw [hacked hanswer]
      exact ⟨rfl, .suppressed hack ((S.isAcknowledged_iff _ _ _).mp hanswer) hflight.symm⟩
    | false =>
      have hno : ¬S.Acknowledged s.store rule.name w.event.device.mac := by
        intro h
        exact absurd (hanswer.symm.trans ((S.isAcknowledged_iff _ _ _).mpr h)) (by decide)
      by_cases hinsert : inputs.insertFails = none
      · rw [hstored hanswer hinsert]
        exact ⟨rfl, .raised _ hack hno rfl rfl (by rw [hflight]; rfl)⟩
      · rw [hunstored hanswer hinsert]
        exact ⟨rfl, .raised _ hack hno rfl rfl (by rw [hflight]; rfl)⟩

/-- **What a step does.**  Either the rules stay as they are and no alert is gained
or lost on the way out, or it is the evaluation of a due rule. -/
theorem step_cases {s s' : EngineState σ τ} {a : Action τ} {o : Option (Emission τ)}
    (h : (engine S).step s a = some (s', o)) :
    (s'.rules = s.rules ∧ s.inFlight = o.toList ++ s'.inFlight) ∨
    ∃ inputs w rule, a = .evaluate inputs ∧ Due s w rule ∧ o = none ∧
      s'.rules = s.rules.set w.done (rule.recorded w.event.device.mac s.clock) ∧
      Outcome S s s' w rule inputs := by
  cases engineStep_of_step S h with
  | advance elapsed => exact .inl ⟨rfl, rfl⟩
  | call c => exact .inl ⟨rfl, rfl⟩
  | receive event label waiting =>
    exact .inl ⟨rfl, by simp only [EngineState.inFlight, waiting]; rfl⟩
  | evaluate inputs w rule working next enabled =>
    by_cases hdue : rule.condition.matches w.event = true ∧
        rule.cooling w.event.device.mac s.clock = false
    · have hd : Due s w rule := ⟨working, next, enabled, hdue.1, hdue.2⟩
      obtain ⟨hrule, hout⟩ := hd.outcome S inputs
      exact .inr ⟨inputs, w, rule, rfl, hd, rfl, by rw [EngineState.conclude, hrule], hout⟩
    · rw [evaluateRule_of_not_due S hdue]
      refine .inl ⟨?_, by simp only [EngineState.inFlight, EngineState.conclude, working]; rfl⟩
      obtain ⟨hlt, hget⟩ := List.getElem?_eq_some_iff.mp next
      simp only [EngineState.conclude]
      rw [← hget, List.set_getElem_self]
  | skip inputs w rule working next disabled =>
    exact .inl ⟨rfl, by simp only [EngineState.inFlight, working]; rfl⟩
  | fire w e rest working alerts done =>
    exact .inl ⟨rfl, by simp only [EngineState.inFlight, working, Work.pop, alerts]; rfl⟩
  | finish w working alerts done =>
    exact .inl ⟨rfl, by simp only [EngineState.inFlight, working, alerts]; rfl⟩

/-- What a step does to the event in work: it is done, it is a new one, or it goes
on. -/
theorem work_step {s s' : EngineState σ τ} {a : Action τ} {o : Option (Emission τ)}
    (h : (engine S).step s a = some (s', o)) :
    s'.work = none ∨ (∃ event label, a = .receive event label ∧
      s'.work = some (.start event label)) ∨
    ∃ w w', s.work = some w ∧ s'.work = some w' ∧ w'.event = w.event ∧ w'.label = w.label := by
  have hsame : s'.work = s.work → s'.work = none ∨ ∃ w w', s.work = some w ∧ s'.work = some w' ∧
      w'.event = w.event ∧ w'.label = w.label := by
    intro he
    cases hw : s.work with
    | none => exact .inl (he.trans hw)
    | some w => exact .inr ⟨w, w, rfl, he.trans hw, rfl, rfl⟩
  cases engineStep_of_step S h with
  | advance elapsed => exact (hsame rfl).imp_right .inr
  | call c => exact (hsame rfl).imp_right .inr
  | receive event label waiting => exact .inr (.inl ⟨event, label, rfl, rfl⟩)
  | evaluate inputs w rule working next enabled =>
    simp only [EngineState.conclude]
    split
    · exact .inl rfl
    · exact .inr (.inr ⟨w, _, working, rfl, rfl, rfl⟩)
    · exact .inr (.inr ⟨w, _, working, rfl, rfl, rfl⟩)
  | skip inputs w rule working next disabled => exact .inr (.inr ⟨w, _, working, rfl, rfl, rfl⟩)
  | fire w e rest working alerts done => exact .inr (.inr ⟨w, _, working, rfl, rfl, rfl⟩)
  | finish w working alerts done => exact .inl rfl

theorem settings_step {s s' : EngineState σ τ} {a : Action τ} {o : Option (Emission τ)}
    (h : (engine S).step s a = some (s', o)) :
    s'.rules.map Rule.settings = s.rules.map Rule.settings := by
  rcases step_cases S h with ⟨hr, _⟩ | ⟨_, w, rule, _, hdue, _, hr, _⟩
  · rw [hr]
  · obtain ⟨hlt, hget⟩ := List.getElem?_eq_some_iff.mp hdue.next
    rw [hr, List.map_set, Rule.settings_recorded, ← List.map_set, ← hget, List.set_getElem_self]

theorem received_run {S : AlertStore σ} {s₀ s : EngineState σ τ} {acts : List (Action τ)}
    {outs : List (Option (Emission τ))} (hstart : s₀.work = none)
    (h : (engine S).run s₀ acts = some (s, outs)) :
    ∀ w, s.work = some w → .receive w.event w.label ∈ acts := by
  refine (engine S).run_induction
    (P := fun acts _ s => ∀ w, s.work = some w → .receive w.event w.label ∈ acts) ?_ ?_ h
  · intro w hw
    rw [hstart] at hw
    cases hw
  · intro acts outs s a s' o _ ih hs w' hw'
    rcases work_step S hs with hnone | ⟨event, label, rfl, hw⟩ | ⟨w, w₁, hw, hw₁, hevent, hlabel⟩
    · rw [hnone] at hw'
      cases hw'
    · rw [hw] at hw'
      cases hw'
      exact List.mem_concat_self
    · rw [hw₁] at hw'
      cases hw'
      rw [hevent, hlabel]
      exact List.mem_append_left _ (ih w hw)

end Machine

end EdgeShield.Rules
