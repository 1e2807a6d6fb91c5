import EdgeShield.Rules.Engine

/-!
# Alerts that are kept and never sent

`process_event` as one function: it evaluates the rules one after the other and collects
their alerts, and then it sends them.  An evaluation persists its alert at once, and so an
evaluation that fails later on, and returns from `process_event`, leaves alerts in the store
that are not sent.

To say what was inserted, the evaluation runs on `AlertStore.logged`, the store together
with the list of the alerts that it took, under the ids that it assigned.  `Turn` is what a
rule meets when its turn comes: the store is shared with the API, and any state of it is
allowed.  `processEvent_delivered_iff` says for all rules, events and turns when every alert
that was inserted is sent, and `engine_processEvent` that each run of the engine task on an
event is a `processEvent`.
-/

namespace EdgeShield.Rules

open EdgeShield.Lib EdgeShield.Common EdgeShield.Discovery

/-- The store with a log of what was inserted, under the ids that it assigned. -/
def logged {σ : Type} (S : AlertStore σ) : AlertStore (σ × List Alert) where
  insertAlert s alert :=
    let (id, store) := S.insertAlert s.1 alert
    (id, (store, s.2 ++ [{ alert with id := id }]))
  acknowledgeAlert s id := (S.acknowledgeAlert s.1 id).map fun store => (store, s.2)
  deleteAlert s id := (S.deleteAlert s.1 id, s.2)
  isAcknowledged s ruleName mac := S.isAcknowledged s.1 ruleName mac
  Holds s a := S.Holds s.1 a
  isAcknowledged_iff s := S.isAcknowledged_iff s.1

/-- What a rule meets when its turn comes: the time, the state of the shared store, and the
inputs of the evaluation. -/
structure Turn (σ : Type) where
  now : Nat
  store : σ
  inputs : Inputs

/-- What the loop over the rules leaves: the collected alerts, or the error it returned
with, the rules, and the alerts that were inserted. -/
structure Evaluated where
  alerts : Except StorageError (List Alert)
  rules : List Rule
  stored : List Alert

namespace Evaluated

def cons (rule : Rule) (e : Evaluated) : Evaluated := { e with rules := rule :: e.rules }

@[simp] theorem alerts_cons (rule : Rule) (e : Evaluated) : (e.cons rule).alerts = e.alerts := rfl

@[simp] theorem stored_cons (rule : Rule) (e : Evaluated) : (e.cons rule).stored = e.stored := rfl

@[simp] theorem rules_cons (rule : Rule) (e : Evaluated) :
    (e.cons rule).rules = rule :: e.rules := rfl

end Evaluated

section Process

variable {σ : Type} (S : AlertStore σ) (event : DiscoveryEvent)

/-- The loop of `process_event` over the rules, with the alerts so far. -/
def evaluateRules : List (Rule × Turn σ) → List Alert → List Alert → Evaluated
  | [], stored, alerts => ⟨.ok alerts, [], stored⟩
  | (rule, turn) :: rest, stored, alerts =>
    if rule.enabled then
      match evaluateRule (logged S) rule event (turn.store, stored) turn.now turn.inputs with
      -- `?` leaves the loop, and the alerts with it
      | (.error e, rule, _, stored) => ⟨.error e, rule :: rest.map Prod.fst, stored⟩
      | (.ok none, rule, _, stored) => (evaluateRules rest stored alerts).cons rule
      | (.ok (some alert), rule, _, stored) =>
        (evaluateRules rest stored (alerts ++ [alert])).cons rule
    else (evaluateRules rest stored alerts).cons rule

/-- What one event comes to: the result of `process_event`, the rules after it, the alerts
that were inserted, and the alerts that were sent on `alert_tx`. -/
structure Processed where
  result : Except StorageError Unit
  rules : List Rule
  stored : List Alert
  sent : List Alert

def processEvent (rules : List (Rule × Turn σ)) : Processed :=
  let evaluated := evaluateRules S event rules [] []
  match evaluated.alerts with
  | .error e => ⟨.error e, evaluated.rules, evaluated.stored, []⟩
  | .ok alerts => ⟨.ok (), evaluated.rules, evaluated.stored, alerts⟩

/-! ### When alerts are lost -/

variable {S event}

def IsDue (event : DiscoveryEvent) (x : Rule × Turn σ) : Prop :=
  x.1.enabled = true ∧ x.1.condition.matches event = true ∧
    x.1.cooling event.device.mac x.2.now = false

def Fails (event : DiscoveryEvent) (x : Rule × Turn σ) : Prop :=
  IsDue event x ∧ x.2.inputs.ackFails ≠ none

def Inserts (S : AlertStore σ) (event : DiscoveryEvent) (x : Rule × Turn σ) : Prop :=
  IsDue event x ∧ x.2.inputs.ackFails = none ∧ x.2.inputs.insertFails = none ∧
    S.isAcknowledged x.2.store x.1.name event.device.mac = false

/-- **Alerts are lost**: a rule inserts its alert, none before it failed, and one behind it
fails. -/
def Loses (S : AlertStore σ) (event : DiscoveryEvent) : List (Rule × Turn σ) → Prop
  | [] => False
  | x :: rest =>
    ¬Fails event x ∧ ((Inserts S event x ∧ ∃ y ∈ rest, Fails event y) ∨ Loses S event rest)

theorem logged_calls (calls : List AlertStore.Call) :
    ∀ (store : σ) (stored : List Alert),
      calls.foldl (logged S).call (store, stored) = (calls.foldl S.call store, stored) := by
  induction calls with
  | nil =>
    intro store stored
    rfl
  | cons call calls ih =>
    intro store stored
    have hcall : (logged S).call (store, stored) call = (S.call store call, stored) := by
      cases call with
      | delete id => rfl
      | acknowledge id =>
        simp only [AlertStore.call, logged]
        cases S.acknowledgeAlert store id with
        | ok store' => rfl
        | error e => rfl
    rw [List.foldl_cons, List.foldl_cons, hcall]
    exact ih _ _

/-- **One evaluation**: it fails, or it inserts one alert and returns it, or it inserts
nothing. -/
theorem evaluateRule_logged {rule : Rule} {turn : Turn σ} (henabled : rule.enabled = true)
    (stored : List Alert) :
    ∃ rule' store',
      (Fails event (rule, turn) ∧ ∃ e,
        evaluateRule (logged S) rule event (turn.store, stored) turn.now turn.inputs =
          (.error e, rule', store', stored)) ∨
      (Inserts S event (rule, turn) ∧ ∃ alert, alert.ruleName = rule.name ∧
        evaluateRule (logged S) rule event (turn.store, stored) turn.now turn.inputs =
          (.ok (some alert), rule', store', stored ++ [alert])) ∨
      (¬Fails event (rule, turn) ∧ ¬Inserts S event (rule, turn) ∧
        ∃ r : Option Alert, (∀ alert ∈ r, alert.ruleName = rule.name) ∧
          evaluateRule (logged S) rule event (turn.store, stored) turn.now turn.inputs =
            (.ok r, rule', store', stored)) := by
  by_cases hdue : rule.condition.matches event = true ∧
      rule.cooling event.device.mac turn.now = false
  · have hd : IsDue event (rule, turn) := ⟨henabled, hdue⟩
    cases hack : turn.inputs.ackFails with
    | some e =>
      exact ⟨_, _, .inl ⟨⟨hd, fun h => absurd (hack.symm.trans h) (Option.some_ne_none e)⟩, e,
        evaluateRule_of_ackFails hdue.1 hdue.2 hack⟩⟩
    | none =>
      have hfails : ¬Fails event (rule, turn) := fun h => h.2 hack
      obtain ⟨hacked, hunstored, hstored⟩ :=
        @evaluateRule_of_answer _ (logged S) rule event (turn.store, stored) turn.now turn.inputs
          hdue.1 hdue.2 hack
      cases hanswer : S.isAcknowledged turn.store rule.name event.device.mac with
      | true =>
        refine ⟨_, _, .inr (.inr ⟨hfails, fun h => ?_, none, fun _ h => (by cases h),
          hacked hanswer⟩)⟩
        exact absurd (hanswer.symm.trans h.2.2.2) (by decide)
      | false =>
        have hcalls := @logged_calls _ S turn.inputs.calls turn.store stored
        by_cases hinsert : turn.inputs.insertFails = none
        · have h := hstored hanswer hinsert
          rw [hcalls] at h
          exact ⟨_, _, .inr (.inl ⟨⟨hd, hack, hinsert, hanswer⟩, _, rfl, h⟩)⟩
        · have h := hunstored hanswer hinsert
          rw [hcalls] at h
          exact ⟨_, _, .inr (.inr ⟨hfails, fun hi => hinsert hi.2.2.1, some _,
            fun _ ha => (by cases ha; rfl), h⟩)⟩
  · rw [evaluateRule_of_not_due _ hdue]
    exact ⟨_, _, .inr (.inr ⟨fun h => hdue h.1.2, fun h => hdue h.1.2, none,
      fun _ h => (by cases h), rfl⟩)⟩

/-- **One turn of the loop**: it ends with an error, or it collects the alert that was
inserted, or nothing was inserted. -/
theorem evaluateRules_cons (x : Rule × Turn σ) (rest : List (Rule × Turn σ))
    (stored alerts : List Alert) :
    (Fails event x ∧ ∃ e rules, evaluateRules S event (x :: rest) stored alerts =
      ⟨.error e, rules, stored⟩) ∨
    (¬Fails event x ∧ Inserts S event x ∧ ∃ alert rule, alert.ruleName = x.1.name ∧
      evaluateRules S event (x :: rest) stored alerts =
        (evaluateRules S event rest (stored ++ [alert]) (alerts ++ [alert])).cons rule) ∨
    (¬Fails event x ∧ ¬Inserts S event x ∧ ∃ (more : Option Alert) (rule : Rule),
      (∀ alert ∈ more, alert.ruleName = x.1.name) ∧
      evaluateRules S event (x :: rest) stored alerts =
        (evaluateRules S event rest stored (alerts ++ more.toList)).cons rule) := by
  obtain ⟨rule, turn⟩ := x
  by_cases henabled : rule.enabled = true
  · rw [evaluateRules, if_pos henabled]
    obtain ⟨rule', store', ⟨hfail, e, he⟩ | ⟨hinsert, alert, hname, he⟩ |
        ⟨hfail, hinsert, r, hname, he⟩⟩ :=
      @evaluateRule_logged _ S event rule turn henabled stored
    · rw [he]
      exact .inl ⟨hfail, e, _, rfl⟩
    · rw [he]
      exact .inr (.inl ⟨fun h => h.2 hinsert.2.1, hinsert, alert, rule', hname, rfl⟩)
    · rw [he]
      refine .inr (.inr ⟨hfail, hinsert, r, rule', hname, ?_⟩)
      cases r with
      | none => rw [Option.toList_none, List.append_nil]
      | some alert => rfl
  · rw [evaluateRules, if_neg henabled]
    refine .inr (.inr ⟨fun h => henabled h.1.1, fun h => henabled h.1.1, none, rule,
      fun _ h => (by cases h), ?_⟩)
    rw [Option.toList_none, List.append_nil]

theorem evaluateRules_of_forall (rules : List (Rule × Turn σ)) :
    ∀ (stored alerts : List Alert), (∀ x ∈ rules, ¬Fails event x) →
      ∃ new more, (evaluateRules S event rules stored alerts).stored = stored ++ new ∧
        (evaluateRules S event rules stored alerts).alerts = .ok (alerts ++ more) ∧
        new.Sublist more ∧
        (more.map Alert.ruleName).Sublist (rules.map fun x => x.1.name) := by
  induction rules with
  | nil =>
    intro stored alerts _
    exact ⟨[], [], (List.append_nil _).symm, by rw [List.append_nil]; rfl, List.Sublist.refl _,
      List.Sublist.refl _⟩
  | cons x rest ih =>
    intro stored alerts hall
    obtain ⟨hx, hrest⟩ := List.forall_mem_cons.mp hall
    rcases @evaluateRules_cons _ S event x rest stored alerts with
      ⟨hfail, -⟩ | ⟨-, -, alert, rule, hname, he⟩ | ⟨-, -, before, rule, hname, he⟩
    · exact absurd hfail hx
    · obtain ⟨new, more, hstored, halerts, hsub, hnames⟩ :=
        ih (stored ++ [alert]) (alerts ++ [alert]) hrest
      rw [he, Evaluated.stored_cons, Evaluated.alerts_cons, hstored, halerts, List.append_assoc,
        List.append_assoc]
      refine ⟨_, _, rfl, rfl, hsub.cons_cons alert, ?_⟩
      rw [List.singleton_append, List.map_cons, List.map_cons, hname]
      exact hnames.cons_cons _
    · obtain ⟨new, more, hstored, halerts, hsub, hnames⟩ := ih stored (alerts ++ before.toList) hrest
      rw [he, Evaluated.stored_cons, Evaluated.alerts_cons, hstored, halerts, List.append_assoc]
      refine ⟨_, _, rfl, rfl, hsub.trans (List.sublist_append_right _ more), ?_⟩
      rw [List.map_cons]
      cases before with
      | none => exact hnames.cons _
      | some alert =>
        rw [Option.toList_some, List.singleton_append, List.map_cons, hname alert rfl]
        exact hnames.cons_cons _

theorem evaluateRules_of_exists (rules : List (Rule × Turn σ)) :
    ∀ (stored alerts : List Alert), (∃ x ∈ rules, Fails event x) →
      ∃ e new, (evaluateRules S event rules stored alerts).alerts = .error e ∧
        (evaluateRules S event rules stored alerts).stored = stored ++ new ∧
        (new = [] ↔ ¬Loses S event rules) := by
  induction rules with
  | nil =>
    rintro stored alerts ⟨x, hx, -⟩
    exact absurd hx List.not_mem_nil
  | cons x rest ih =>
    rintro stored alerts hexists
    have hrest : ¬Fails event x → ∃ y ∈ rest, Fails event y := by
      intro hx
      obtain ⟨y, hy, hfail⟩ := hexists
      rcases List.mem_cons.mp hy with rfl | hy
      · exact absurd hfail hx
      · exact ⟨y, hy, hfail⟩
    rcases @evaluateRules_cons _ S event x rest stored alerts with
      ⟨hfail, e, rules, he⟩ | ⟨hx, hinsert, alert, rule, -, he⟩ | ⟨hx, hinsert, more, rule, -, he⟩
    · rw [he]
      exact ⟨e, [], rfl, (List.append_nil stored).symm, fun _ h => h.1 hfail, fun _ => rfl⟩
    · obtain ⟨e, new, herror, hstored, -⟩ := ih (stored ++ [alert]) (alerts ++ [alert]) (hrest hx)
      rw [he, Evaluated.stored_cons, Evaluated.alerts_cons, hstored, List.append_assoc]
      refine ⟨e, _, herror, rfl, fun h => ?_, fun h => ?_⟩
      · cases h
      · exact absurd ⟨hx, .inl ⟨hinsert, hrest hx⟩⟩ h
    · obtain ⟨e, new, herror, hstored, hloses⟩ := ih stored (alerts ++ more.toList) (hrest hx)
      rw [he, Evaluated.stored_cons, Evaluated.alerts_cons, hstored]
      refine ⟨e, new, herror, rfl, hloses.trans (not_congr ?_)⟩
      rw [Loses, and_iff_right hx, or_iff_right fun h => hinsert h.1]

theorem not_loses_of_forall {rules : List (Rule × Turn σ)} (h : ∀ x ∈ rules, ¬Fails event x) :
    ¬Loses S event rules := by
  induction rules with
  | nil => exact id
  | cons x rest ih =>
    obtain ⟨-, hrest⟩ := List.forall_mem_cons.mp h
    rintro ⟨-, ⟨-, y, hy, hfail⟩ | hloses⟩
    · exact hrest y hy hfail
    · exact ih hrest hloses

/-- What is inserted is sent, under the ids that the store assigned, and what is sent is
sent in rule order. -/
def Delivered (rules : List (Rule × Turn σ)) (p : Processed) : Prop :=
  p.stored.Sublist p.sent ∧ (p.sent.map Alert.ruleName).Sublist (rules.map fun x => x.1.name)

/-- **Every alert that was inserted is sent**, in rule order, exactly when no rule fails
behind one that inserted its alert. -/
theorem processEvent_delivered_iff (S : AlertStore σ) (rules : List (Rule × Turn σ))
    (event : DiscoveryEvent) :
    Delivered rules (processEvent S event rules) ↔ ¬Loses S event rules := by
  rw [processEvent, Delivered]
  by_cases hexists : ∃ x ∈ rules, Fails event x
  · obtain ⟨e, new, herror, hstored, hloses⟩ := @evaluateRules_of_exists _ S event rules [] [] hexists
    rw [List.nil_append] at hstored
    simp only [herror, hstored]
    rw [List.sublist_nil, hloses]
    exact and_iff_left (List.nil_sublist _)
  · have hall : ∀ x ∈ rules, ¬Fails event x := fun x hx hfail => hexists ⟨x, hx, hfail⟩
    obtain ⟨new, more, hstored, halerts, hsub, hnames⟩ :=
      @evaluateRules_of_forall _ S event rules [] [] hall
    rw [List.nil_append] at hstored halerts
    simp only [halerts, hstored]
    exact ⟨fun _ => not_loses_of_forall hall, fun _ => ⟨hsub, hnames⟩⟩

def guestDiscovered : DiscoveryEvent :=
  .deviceDiscovered (.new (.ofBytes 0x00 0x11 0x22 0x33 0x44 0x66) ⟨0⟩)

/-- Two rules for new devices.  The first one inserts its alert, and the look for
acknowledged alerts fails for the second one. -/
def secondFails : List (Rule × Turn InMemoryAlertStore) :=
  let first : Rule := .new "first" true .newDevice .info 0
  let second : Rule := .new "second" true .newDevice .info 0
  let alert := ruleAlert first guestDiscovered ⟨0⟩
  [(first, ⟨0, .new, ⟨⟨0⟩, [], none, none⟩⟩),
    (second, ⟨0, (InMemoryAlertStore.new.insertAlert alert).2,
      ⟨⟨0⟩, [], some (.internal "database is locked"), none⟩⟩)]

/-- **An alert is kept and never sent**: the store has the first rule's alert, under the id
1, and the notifiers get nothing. -/
theorem alert_kept_and_not_sent :
    (processEvent InMemoryAlertStore.alertStore guestDiscovered secondFails).stored.map
        (fun a => (a.ruleName, a.id)) = [("first", 1)] ∧
      (processEvent InMemoryAlertStore.alertStore guestDiscovered secondFails).sent = [] ∧
      ¬∀ (rules : List (Rule × Turn InMemoryAlertStore)) event,
        Delivered rules (processEvent InMemoryAlertStore.alertStore event rules) := by
  have hstored : (processEvent InMemoryAlertStore.alertStore guestDiscovered
      secondFails).stored.map (fun a => (a.ruleName, a.id)) = [("first", 1)] := by decide +kernel
  have hsent : (processEvent InMemoryAlertStore.alertStore guestDiscovered
      secondFails).sent = [] := by decide +kernel
  refine ⟨hstored, hsent, fun hall => ?_⟩
  obtain ⟨hsub, -⟩ := hall secondFails guestDiscovered
  rw [hsent, List.sublist_nil] at hsub
  rw [hsub] at hstored
  cases hstored

end Process

/-! ### The engine task on one event -/

section Machine

variable {σ τ : Type} {S : AlertStore σ}

def Evaluated.sent (e : Evaluated) : List Alert :=
  match e.alerts with
  | .error _ => []
  | .ok alerts => alerts

@[simp] theorem Evaluated.sent_cons (rule : Rule) (e : Evaluated) : (e.cons rule).sent = e.sent :=
  rfl

theorem processEvent_eq (event : DiscoveryEvent) (rules : List (Rule × Turn σ)) :
    (processEvent S event rules).sent = (evaluateRules S event rules [] []).sent ∧
      (processEvent S event rules).rules = (evaluateRules S event rules [] []).rules := by
  rw [processEvent, Evaluated.sent]
  cases (evaluateRules S event rules [] []).alerts with
  | error e => exact ⟨rfl, rfl⟩
  | ok alerts => exact ⟨rfl, rfl⟩

theorem evaluateRule_logged_eq (rule : Rule) (event : DiscoveryEvent) (store : σ)
    (stored : List Alert) (now : Nat) (inputs : Inputs) :
    ∃ store' stored', evaluateRule (logged S) rule event (store, stored) now inputs =
      ((evaluateRule S rule event store now inputs).1,
        (evaluateRule S rule event store now inputs).2.1, store', stored') := by
  by_cases hdue : rule.condition.matches event = true ∧
      rule.cooling event.device.mac now = false
  · cases hack : inputs.ackFails with
    | some e =>
      rw [evaluateRule_of_ackFails hdue.1 hdue.2 hack, evaluateRule_of_ackFails hdue.1 hdue.2 hack]
      exact ⟨_, _, rfl⟩
    | none =>
      obtain ⟨hacked, hunstored, hstored⟩ :=
        @evaluateRule_of_answer _ S rule event store now inputs hdue.1 hdue.2 hack
      obtain ⟨hacked', hunstored', hstored'⟩ :=
        @evaluateRule_of_answer _ (logged S) rule event (store, stored) now inputs hdue.1 hdue.2
          hack
      have hcalls := @logged_calls _ S inputs.calls store stored
      cases hanswer : S.isAcknowledged store rule.name event.device.mac with
      | true =>
        rw [hacked hanswer, hacked' hanswer]
        exact ⟨_, _, rfl⟩
      | false =>
        by_cases hinsert : inputs.insertFails = none
        · rw [hstored hanswer hinsert, hstored' hanswer hinsert, hcalls]
          exact ⟨_, _, rfl⟩
        · rw [hunstored hanswer hinsert, hunstored' hanswer hinsert, hcalls]
          exact ⟨_, _, rfl⟩
  · rw [evaluateRule_of_not_due _ hdue, evaluateRule_of_not_due _ hdue]
    exact ⟨_, _, rfl⟩

theorem engine_idle (acts : List (Action τ)) :
    ∀ {s s' : EngineState σ τ} {outs : List (Option (Emission τ))}, s.work = none →
      (∀ event label, .receive event label ∉ acts) →
      (engine S).run s acts = some (s', outs) → emissions outs = [] ∧ s'.rules = s.rules := by
  induction acts with
  | nil =>
    intro s s' outs _ _ hrun
    cases hrun
    exact ⟨rfl, rfl⟩
  | cons a acts ih =>
    intro s s' outs hidle hnone hrun
    obtain ⟨s₁, o, outs', hstep, hrest, rfl⟩ := (engine S).run_cons.mp hrun
    have hmore : ∀ event label, .receive event label ∉ acts :=
      fun event label h => hnone event label (List.mem_cons_of_mem a h)
    cases engineStep_of_step S hstep with
    | advance elapsed =>
      have hkept : ({ s with clock := s.clock + elapsed } : EngineState σ τ).work = none := hidle
      have h := ih hkept hmore hrest
      exact h
    | call c =>
      have hkept : ({ s with store := S.call s.store c } : EngineState σ τ).work = none := hidle
      have h := ih hkept hmore hrest
      exact h
    | receive event label _ => exact absurd List.mem_cons_self (hnone event label)
    | evaluate inputs w rule working _ _ => exact absurd (hidle.symm.trans working) (by simp)
    | skip inputs w rule working _ _ => exact absurd (hidle.symm.trans working) (by simp)
    | fire w e rest working _ _ => exact absurd (hidle.symm.trans working) (by simp)
    | finish w working _ _ => exact absurd (hidle.symm.trans working) (by simp)

theorem set_spec {α : Type} {l : List α} {k : Nat} {x : α} (h : l[k]? = some x) (y : α) :
    k < l.length ∧ l.drop k = x :: l.drop (k + 1) ∧ (l.set k y).drop (k + 1) = l.drop (k + 1) ∧
      (l.set k y).take (k + 1) = l.take k ++ [y] := by
  obtain ⟨hlt, hget⟩ := List.getElem?_eq_some_iff.mp h
  refine ⟨hlt, ?_, List.drop_set_of_lt (Nat.lt_succ_self k), ?_⟩
  · rw [List.drop_eq_getElem_cons hlt, hget]
  · have hlt' : k < (l.set k y).length := by rwa [List.length_set]
    rw [List.take_succ_eq_append_getElem hlt', List.take_set_of_le (le_refl k),
      List.getElem_set_self]

/-- From here on the task does what the loop does with the rules that are not done yet, and
then sends the alerts. -/
def FinishesAs (S : AlertStore σ) (s s' : EngineState σ τ) (w : Work τ)
    (outs : List (Option (Emission τ))) : Prop :=
  ∃ turns : List (Turn σ), turns.length = (s.rules.drop w.done).length ∧ ∀ stored,
    (emissions outs).map Emission.alert =
      (evaluateRules S w.event ((s.rules.drop w.done).zip turns) stored
        (w.alerts.map Emission.alert)).sent ∧
    s'.rules = s.rules.take w.done ++
      (evaluateRules S w.event ((s.rules.drop w.done).zip turns) stored
        (w.alerts.map Emission.alert)).rules

theorem FinishesAs.cons {s s₁ s' : EngineState σ τ} {w w₁ : Work τ} {rule rule' : Rule}
    {outs : List (Option (Emission τ))} (turn : Turn σ) (next : s.rules[w.done]? = some rule)
    (hrules : s₁.rules = s.rules.set w.done rule') (hdone : w₁.done = w.done + 1)
    (h : FinishesAs S s₁ s' w₁ outs)
    (hloop : ∀ stored rest, ∃ stored',
      evaluateRules S w.event ((rule, turn) :: rest) stored (w.alerts.map Emission.alert) =
        (evaluateRules S w₁.event rest stored' (w₁.alerts.map Emission.alert)).cons rule') :
    FinishesAs S s s' w outs := by
  obtain ⟨hlt, hdrop, hdropset, htakeset⟩ := set_spec next rule'
  obtain ⟨turns, hlen, hrest⟩ := h
  rw [hrules, hdone, hdropset] at hlen
  refine ⟨turn :: turns, ?_, fun stored => ?_⟩
  · rw [hdrop, List.length_cons, List.length_cons, hlen]
  · obtain ⟨stored', he⟩ := hloop stored ((s.rules.drop (w.done + 1)).zip turns)
    obtain ⟨hsent, hrules'⟩ := hrest stored'
    rw [hrules, hdone, hdropset] at hsent hrules'
    rw [hdrop, List.zip_cons_cons, he, Evaluated.sent_cons, Evaluated.rules_cons]
    refine ⟨hsent, hrules'.trans ?_⟩
    rw [htakeset, List.append_assoc, List.singleton_append]

theorem engine_finishesAs (acts : List (Action τ)) :
    ∀ {s s' : EngineState σ τ} {w : Work τ} {outs : List (Option (Emission τ))},
      s.work = some w → w.done ≤ s.rules.length →
      (∀ event label, .receive event label ∉ acts) →
      (engine S).run s acts = some (s', outs) → s'.work = none → FinishesAs S s s' w outs := by
  induction acts with
  | nil =>
    intro s s' w outs hwork _ _ hrun hdone
    cases hrun
    rw [hwork] at hdone
    cases hdone
  | cons a acts ih =>
    intro s s' w outs hwork hle hnone hrun hdone
    obtain ⟨s₁, o, outs', hstep, hrest, rfl⟩ := (engine S).run_cons.mp hrun
    have hmore : ∀ event label, .receive event label ∉ acts :=
      fun event label h => hnone event label (List.mem_cons_of_mem a h)
    cases engineStep_of_step S hstep with
    | advance elapsed =>
      have hkept : ({ s with clock := s.clock + elapsed } : EngineState σ τ).work = some w := hwork
      have h := ih hkept hle hmore hrest hdone
      exact h
    | call c =>
      have hkept : ({ s with store := S.call s.store c } : EngineState σ τ).work = some w := hwork
      have h := ih hkept hle hmore hrest hdone
      exact h
    | receive event label _ => exact absurd List.mem_cons_self (hnone event label)
    | evaluate inputs w' rule working next enabled =>
      cases Option.some.inj (hwork.symm.trans working)
      have heval := fun stored =>
        @evaluateRule_logged_eq _ S rule w.event s.store stored s.clock inputs
      generalize evaluateRule S rule w.event s.store s.clock inputs = result at hrest heval
      obtain ⟨r, rule', store'⟩ := result
      obtain ⟨hlt, hdrop, -, -⟩ := set_spec next rule'
      have hlt' : w.done + 1 ≤ (s.rules.set w.done rule').length := by rwa [List.length_set]
      cases r with
      | error e =>
        -- the rest of the rules is not reached, and any turns will do
        have hidle : (s.conclude w (.error e, rule', store')).work = none := rfl
        obtain ⟨hempty, hrules⟩ := engine_idle acts hidle hmore hrest
        refine ⟨(s.rules.drop w.done).map fun _ => ⟨s.clock, s.store, inputs⟩, List.length_map _,
          fun stored => ?_⟩
        obtain ⟨store'', stored', he⟩ := heval stored
        rw [hdrop, List.map_cons, List.zip_cons_cons, evaluateRules, if_pos enabled, he]
        refine ⟨congrArg (List.map Emission.alert) hempty, hrules.trans ?_⟩
        have hfst : ((s.rules.drop (w.done + 1)).zip ((s.rules.drop (w.done + 1)).map
            fun _ => (⟨s.clock, s.store, inputs⟩ : Turn σ))).map Prod.fst =
              s.rules.drop (w.done + 1) :=
          List.map_fst_zip (le_of_eq (List.length_map _).symm)
        show s.rules.set w.done rule' = s.rules.take w.done ++ (rule' :: _)
        rw [hfst, List.set_eq_take_append_cons_drop, if_pos hlt]
      | ok r =>
        cases r with
        | none =>
          have hkept : (s.conclude w (.ok none, rule', store')).work = some w.skip := rfl
          refine (ih hkept hlt' hmore hrest hdone).cons ⟨s.clock, s.store, inputs⟩ next rfl rfl
            fun stored rest => ?_
          obtain ⟨store'', stored', he⟩ := heval stored
          rw [evaluateRules, if_pos enabled, he]
          exact ⟨stored', rfl⟩
        | some alert =>
          have hkept : (s.conclude w (.ok (some alert), rule', store')).work =
            some (w.push s.clock alert) := rfl
          refine (ih hkept hlt' hmore hrest hdone).cons ⟨s.clock, s.store, inputs⟩ next rfl rfl
            fun stored rest => ?_
          obtain ⟨store'', stored', he⟩ := heval stored
          rw [evaluateRules, if_pos enabled, he, Work.push, List.map_append]
          exact ⟨stored', rfl⟩
    | skip inputs w' rule working next disabled =>
      cases Option.some.inj (hwork.symm.trans working)
      obtain ⟨hlt, hget⟩ := List.getElem?_eq_some_iff.mp next
      have hkept : ({ s with work := some w.skip } : EngineState σ τ).work = some w.skip := rfl
      have hself : s.rules = s.rules.set w.done rule := by rw [← hget, List.set_getElem_self]
      refine (ih hkept hlt hmore hrest hdone).cons ⟨s.clock, s.store, inputs⟩ next hself rfl
        fun stored rest => ?_
      rw [evaluateRules, if_neg disabled]
      exact ⟨stored, rfl⟩
    | fire w' e rest working halerts hall =>
      cases Option.some.inj (hwork.symm.trans working)
      have hkept : ({ s with work := some w.pop } : EngineState σ τ).work = some w.pop := rfl
      obtain ⟨turns, hlen, h⟩ := ih hkept hle hmore hrest hdone
      have hdrop : s.rules.drop w.done = [] := by rw [hall, List.drop_length]
      have hdrop' : ({ s with work := some w.pop } : EngineState σ τ).rules.drop w.pop.done = [] :=
        hdrop
      refine ⟨turns, hlen, fun stored => ?_⟩
      obtain ⟨hsent, hrules⟩ := h stored
      rw [hdrop', List.zip_nil_left] at hsent hrules
      rw [hdrop, List.zip_nil_left, halerts]
      refine ⟨?_, hrules⟩
      show e.alert :: (emissions outs').map Emission.alert = _
      rw [hsent]
      show e.alert :: (w.alerts.tail.map Emission.alert) = _
      rw [halerts]
      rfl
    | finish w' working halerts hall =>
      cases Option.some.inj (hwork.symm.trans working)
      have hidle : ({ s with work := none } : EngineState σ τ).work = none := rfl
      obtain ⟨hempty, hrules⟩ := engine_idle acts hidle hmore hrest
      have hdrop : s.rules.drop w.done = [] := by rw [hall, List.drop_length]
      refine ⟨[], by rw [hdrop]; rfl, fun stored => ?_⟩
      rw [hdrop, List.zip_nil_left, evaluateRules, halerts, hall, List.take_length,
        List.append_nil]
      exact ⟨congrArg (List.map Emission.alert) hempty, hrules⟩

/-- **The engine task handles an event as `process_event` does**: whatever happens between
its steps, it sends what `process_event` sends for some turns of the rules, and leaves the
same rules. -/
theorem engine_processEvent {s s' : EngineState σ τ} {event : DiscoveryEvent} {label : τ}
    {acts : List (Action τ)} {outs : List (Option (Emission τ))}
    (hrun : (engine S).run s (.receive event label :: acts) = some (s', outs))
    (hone : ∀ event label, .receive event label ∉ acts) (hdone : s'.work = none) :
    ∃ turns : List (Turn σ), turns.length = s.rules.length ∧
      (emissions outs).map Emission.alert = (processEvent S event (s.rules.zip turns)).sent ∧
      s'.rules = (processEvent S event (s.rules.zip turns)).rules := by
  obtain ⟨s₁, o, outs', hstep, hrest, rfl⟩ := (engine S).run_cons.mp hrun
  cases engineStep_of_step S hstep with
  | receive _ _ waiting =>
    have hwork : ({ s with work := some (.start event label) } : EngineState σ τ).work =
      some (.start event label) := rfl
    obtain ⟨turns, hlen, h⟩ := engine_finishesAs acts hwork (Nat.zero_le _) hone hrest hdone
    obtain ⟨hsent, hrules⟩ := h []
    obtain ⟨hsent', hrules'⟩ := @processEvent_eq _ S event (s.rules.zip turns)
    exact ⟨turns, hlen, hsent.trans hsent'.symm, hrules.trans hrules'.symm⟩

end Machine

end EdgeShield.Rules
