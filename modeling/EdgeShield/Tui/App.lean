import EdgeShield.Lib.Machine
import EdgeShield.Common.Alert

/-!
# The terminal dashboard and its one mutation

`crates/tui/src/app.rs`: the event loop draws a frame from the shared snapshot, waits for a
key and handles it, while a poller task replaces the snapshot.  `tui` is the machine of the
single steps: the two tasks share the lock of the snapshot, and `draw` finds it free or not.
An `await` of the loop ends a step, and so the poller can come between the key `a` and the
look at the snapshot that it leads to.

A frame is what it was rendered from (`RenderedFrame`), and what it highlights follows from
that.  The selection is a row number: a key acts on the row of the snapshot at hand, and the
user sees the row of the snapshot that was drawn.  `acked_highlighted` says what keeps the
two together, and `meets_of_undisturbed` that it is enough to store no snapshot in between.
-/

namespace EdgeShield.Tui

open EdgeShield.Lib EdgeShield.Common

/-! ### Views and selections -/

inductive View where
  | devices
  | alerts
  | metrics
  | health
  deriving DecidableEq, Repr

namespace View

def all : List View := [devices, alerts, metrics, health]

/-- `position(|v| *v == self).unwrap_or(0)`. -/
def position (v : View) : Nat := (all.findIdx? (· = v)).getD 0

def next (v : View) : View := all.getD ((v.position + 1) % all.length) devices

def prev (v : View) : View := all.getD ((v.position + all.length - 1) % all.length) devices

end View

/-- One row up, clamped to the list; an empty list selects the first row. -/
def selectUp (selected len : Nat) : Nat := if len = 0 then 0 else min (selected - 1) (len - 1)

def selectDown (selected len : Nat) : Nat := if len = 0 then 0 else min (selected + 1) (len - 1)

/-- State of the devices view; the sort order is not read. -/
structure DevicesState where
  selected : Nat
  deriving DecidableEq

def DevicesState.up (s : DevicesState) (len : Nat) : DevicesState := ⟨selectUp s.selected len⟩

def DevicesState.down (s : DevicesState) (len : Nat) : DevicesState := ⟨selectDown s.selected len⟩

structure AlertsState where
  selected : Nat
  deriving DecidableEq

def AlertsState.up (s : AlertsState) (len : Nat) : AlertsState := ⟨selectUp s.selected len⟩

def AlertsState.down (s : AlertsState) (len : Nat) : AlertsState := ⟨selectDown s.selected len⟩

def AlertsState.selectedAlertId (s : AlertsState) (alerts : List Alert) : Option AlertId :=
  alerts[s.selected]?.map Alert.id

/-- The aggregated state that a poll fetches: the two lists; `none` is a fetch that failed. -/
structure Snapshot where
  devices : Option (List Device)
  alerts : Option (List Alert)
  deriving DecidableEq

namespace Snapshot

def empty : Snapshot := ⟨none, none⟩

def deviceCount (s : Snapshot) : Nat := (s.devices.map List.length).getD 0

def alertCount (s : Snapshot) : Nat := (s.alerts.map List.length).getD 0

end Snapshot

/-! ### The application -/

/-- The open overlay: the device that it is about, and its record. -/
structure DeviceDetailState where
  mac : String
  device : Option Device
  deriving DecidableEq

structure App where
  view : View
  devices : DevicesState
  alerts : AlertsState
  detail : Option DeviceDetailState
  flash : Option String
  quit : Bool
  deriving DecidableEq

namespace App

def new : App where
  view := .devices
  devices := ⟨0⟩
  alerts := ⟨0⟩
  detail := none
  flash := none
  quit := false

/-- The number of rows of the current view; zero when the lock is busy. -/
def currentListLen (app : App) (snapshot : Snapshot) (busy : Bool) : Nat :=
  if busy then 0
  else
    match app.view with
    | .devices => snapshot.deviceCount
    | .alerts => snapshot.alertCount
    | _ => 0

def up (app : App) (len : Nat) : App :=
  match app.view with
  | .devices => { app with devices := app.devices.up len }
  | .alerts => { app with alerts := app.alerts.up len }
  | _ => app

def down (app : App) (len : Nat) : App :=
  match app.view with
  | .devices => { app with devices := app.devices.down len }
  | .alerts => { app with alerts := app.alerts.down len }
  | _ => app

end App

inductive KeyCode where
  | char (c : Char)
  | tab
  | backTab
  | up
  | down
  | enter
  | esc
  | backspace
  | other
  deriving DecidableEq

structure KeyEvent where
  code : KeyCode
  ctrl : Bool
  deriving DecidableEq

inductive Phase where
  | drawing
  | waiting
  | openReading
  | openFetching (mac : String)
  | ackReading
  | ackPosting
  | ackRefreshing
  | stopped
  deriving DecidableEq

/-- `handle_event` up to its first `await`: the application, and where the loop goes on. -/
def handleEvent (app : App) (len : Nat) (key : KeyEvent) : App × Phase :=
  if app.detail.isSome then
    -- the overlay captures navigation
    match key.code, key.ctrl with
    | .esc, _ => ({ app with detail := none }, .drawing)
    | .backspace, _ => ({ app with detail := none }, .drawing)
    | .char 'q', false => ({ app with quit := true }, .drawing)
    | .char 'c', true => ({ app with quit := true }, .drawing)
    | _, _ => (app, .drawing)
  else
    match key.code, key.ctrl with
    | .char 'q', false => ({ app with quit := true }, .drawing)
    | .char 'c', true => ({ app with quit := true }, .drawing)
    | .tab, false => ({ app with view := app.view.next }, .drawing)
    | .backTab, false => ({ app with view := app.view.prev }, .drawing)
    | .char '1', false => ({ app with view := .devices }, .drawing)
    | .char '2', false => ({ app with view := .alerts }, .drawing)
    | .char '3', false => ({ app with view := .metrics }, .drawing)
    | .char '4', false => ({ app with view := .health }, .drawing)
    | .up, _ => (app.up len, .drawing)
    | .down, _ => (app.down len, .drawing)
    | .enter, _ => (app, .openReading)
    -- in every view
    | .char 'a', false => (app, .ackReading)
    | _, _ => (app, .drawing)

/-- A key starts an acknowledgment and changes nothing, without an overlay, or it does not
start one. -/
theorem handleEvent_cases (app : App) (len : Nat) (key : KeyEvent) :
    (handleEvent app len key = (app, .ackReading) ∧ app.detail = none) ∨
      (handleEvent app len key).2 = .drawing ∨ (handleEvent app len key).2 = .openReading := by
  unfold handleEvent
  split
  · right
    split <;> exact .inl rfl
  · next hopen =>
    split
    all_goals first
      | exact .inr (.inl rfl)
      | exact .inr (.inr rfl)
      | exact .inl ⟨rfl, Option.not_isSome_iff_eq_none.mp hopen⟩

/-! ### Frames -/

/-- The list widget, as far as it says which row is highlighted for a selection and a number
of rows. -/
structure ListWidget where
  highlighted : Nat → Nat → Option Nat
  highlighted_of_lt : ∀ {selected len : Nat}, selected < len →
    highlighted selected len = some selected

/-- The widget that takes the last row for a selection behind it. -/
def ListWidget.clamping : ListWidget where
  highlighted selected len := if len = 0 then none else some (min selected (len - 1))
  highlighted_of_lt {selected len} h := by
    rw [if_neg (by omega), Nat.min_eq_left (by omega)]

/-- A frame on the screen: what it was rendered from. -/
structure RenderedFrame where
  view : View
  overlay : Bool
  selected : Nat
  snapshot : Snapshot
  deriving DecidableEq

def App.render (app : App) (snapshot : Snapshot) : RenderedFrame where
  view := app.view
  overlay := app.detail.isSome
  selected := app.alerts.selected
  snapshot := snapshot

/-- The alert that a frame highlights: the overlay covers it, and an API that cannot be
reached has no rows. -/
def RenderedFrame.highlightedAlert (w : ListWidget) (f : RenderedFrame) : Option AlertId :=
  if f.view = .alerts ∧ f.overlay = false then
    f.snapshot.alerts.bind fun alerts =>
      (w.highlighted f.selected alerts.length).bind fun row => alerts[row]?.map Alert.id
  else none

/-! ### The event loop and the poller -/

/-- The two tasks; `locked` is the poller in the middle of a write, and `frame` is `none`
while the screen is blank. -/
structure TuiState where
  app : App
  snapshot : Snapshot
  locked : Bool
  phase : Phase
  frame : Option RenderedFrame
  deriving DecidableEq

namespace TuiState

def start : TuiState where
  app := .new
  snapshot := .empty
  locked := false
  phase := .drawing
  frame := none

def rowId (s : TuiState) (snapshot : Snapshot) : Option AlertId :=
  snapshot.alerts.bind s.app.alerts.selectedAlertId

def rowMac (s : TuiState) : Option String :=
  (s.snapshot.devices.bind fun devices => devices[s.app.devices.selected]?).map
    fun d => d.mac.toString

end TuiState

inductive TuiAction where
  | lock
  | store (snapshot : Snapshot)
  | draw
  | idle
  | key (key : KeyEvent)
  | openRead
  | openFetch
  | ackRead
  | ackRespond (result : Except String Unit)
  | ackRefresh (snapshot : Snapshot)

/-- One step.  The output is the alert that is sent to `POST /alerts/{id}/acknowledge`. -/
def tuiStep (s : TuiState) : TuiAction → Option (TuiState × Option AlertId)
  | .lock => if s.locked then none else some ({ s with locked := true }, none)
  | .store snapshot =>
    if s.locked then some ({ s with snapshot := snapshot, locked := false }, none) else none
  | .draw =>
    if s.phase = .drawing then
      -- the poller is mid-write, and nothing is rendered into the empty frame
      let frame := if s.locked then none else some (s.app.render s.snapshot)
      some ({ s with
        frame := frame
        phase := if s.app.quit then .stopped else .waiting }, none)
    else none
  | .idle => if s.phase = .waiting then some ({ s with phase := .drawing }, none) else none
  | .key key =>
    if s.phase = .waiting then
      let (app, phase) := handleEvent s.app (s.app.currentListLen s.snapshot s.locked) key
      some ({ s with app := app, phase := phase }, none)
    else none
  | .openRead =>
    if s.phase = .openReading ∧ s.locked = false then
      match s.rowMac with
      | none =>
        some ({ s with
          app := { s.app with flash := some "no device selected" }
          phase := .drawing }, none)
      | some mac => some ({ s with phase := .openFetching mac }, none)
    else none
  | .openFetch =>
    match s.phase with
    | .openFetching mac =>
      if s.locked then none
      else
        let device := s.snapshot.devices.bind fun ds => ds.find? fun d => d.mac.toString = mac
        some ({ s with
          app := { s.app with detail := some ⟨mac, device⟩ }
          phase := .drawing }, none)
    | _ => none
  | .ackRead =>
    if s.phase = .ackReading ∧ s.locked = false then
      match s.rowId s.snapshot with
      | some id => some ({ s with phase := .ackPosting }, some id)
      | none =>
        some ({ s with
          app := { s.app with flash := some "no alert selected" }
          phase := .drawing }, none)
    else none
  | .ackRespond result =>
    if s.phase = .ackPosting then
      match result with
      | .ok () =>
        some ({ s with app := { s.app with flash := none }, phase := .ackRefreshing }, none)
      | .error e =>
        some ({ s with
          app := { s.app with flash := some ("ack failed: " ++ e) }
          phase := .drawing }, none)
    else none
  | .ackRefresh snapshot =>
    if s.phase = .ackRefreshing ∧ s.locked = false then
      some ({ s with snapshot := snapshot, phase := .drawing }, none)
    else none

def tui : Machine TuiState TuiAction (Option AlertId) where
  step := tuiStep

/-- **What a step does to the screen.**  The poller leaves the loop and the frame alone; a
draw renders the application as it is; the key `a` leads to the look at the snapshot; and
any other step has a draw before the next key. -/
theorem tuiStep_cases {s s' : TuiState} {a : TuiAction} {o : Option AlertId}
    (h : tui.step s a = some (s', o)) :
    (s'.app = s.app ∧ s'.phase = s.phase ∧ s'.frame = s.frame) ∨
    (s'.app = s.app ∧ s'.phase ≠ .ackReading ∧
      ∀ f, s'.frame = some f → f = s.app.render s.snapshot) ∨
    (s.phase = .waiting ∧ s'.phase = .ackReading ∧ s'.app = s.app ∧ s'.frame = s.frame ∧
      s.app.detail = none) ∨
    (s'.phase ≠ .waiting ∧ s'.phase ≠ .ackReading) := by
  cases a with
  | lock =>
    simp only [tui, tuiStep] at h
    split at h
    · cases h
    · cases h
      exact .inl ⟨rfl, rfl, rfl⟩
  | store snapshot =>
    simp only [tui, tuiStep] at h
    split at h
    · cases h
      exact .inl ⟨rfl, rfl, rfl⟩
    · cases h
  | draw =>
    simp only [tui, tuiStep] at h
    split at h
    · cases h
      refine .inr (.inl ⟨rfl, ?_, fun f hf => ?_⟩)
      · cases s.app.quit with
        | true => exact fun h => by cases h
        | false => exact fun h => by cases h
      · cases hlocked : s.locked with
        | true =>
          simp only [hlocked, if_true] at hf
          cases hf
        | false =>
          simp only [hlocked, Bool.false_eq_true, if_false] at hf
          exact (Option.some.inj hf).symm
    · cases h
  | idle =>
    simp only [tui, tuiStep] at h
    split at h
    · cases h
      exact .inr (.inr (.inr ⟨nofun, nofun⟩))
    · cases h
  | key key =>
    simp only [tui, tuiStep] at h
    split at h
    · next hwaiting =>
      rcases handleEvent_cases s.app (s.app.currentListLen s.snapshot s.locked) key with
        ⟨he, hdetail⟩ | hdrawing | hopening
      · rw [he] at h
        cases h
        exact .inr (.inr (.inl ⟨hwaiting, rfl, rfl, rfl, hdetail⟩))
      · cases h
        refine .inr (.inr (.inr ?_))
        show (handleEvent _ _ _).2 ≠ _ ∧ (handleEvent _ _ _).2 ≠ _
        rw [hdrawing]
        exact ⟨nofun, nofun⟩
      · cases h
        refine .inr (.inr (.inr ?_))
        show (handleEvent _ _ _).2 ≠ _ ∧ (handleEvent _ _ _).2 ≠ _
        rw [hopening]
        exact ⟨nofun, nofun⟩
    · cases h
  | openRead =>
    simp only [tui, tuiStep] at h
    split at h
    · split at h
      · cases h
        exact .inr (.inr (.inr ⟨nofun, nofun⟩))
      · cases h
        exact .inr (.inr (.inr ⟨nofun, nofun⟩))
    · cases h
  | openFetch =>
    simp only [tui, tuiStep] at h
    split at h
    · split at h
      · cases h
      · cases h
        exact .inr (.inr (.inr ⟨nofun, nofun⟩))
    · cases h
  | ackRead =>
    simp only [tui, tuiStep] at h
    split at h
    · split at h
      · cases h
        exact .inr (.inr (.inr ⟨nofun, nofun⟩))
      · cases h
        exact .inr (.inr (.inr ⟨nofun, nofun⟩))
    · cases h
  | ackRespond result =>
    simp only [tui, tuiStep] at h
    split at h
    · split at h
      · cases h
        exact .inr (.inr (.inr ⟨nofun, nofun⟩))
      · cases h
        exact .inr (.inr (.inr ⟨nofun, nofun⟩))
    · cases h
  | ackRefresh snapshot =>
    simp only [tui, tuiStep] at h
    split at h
    · cases h
      exact .inr (.inr (.inr ⟨nofun, nofun⟩))
    · cases h

/-! ### What the user sees -/

/-- While the loop waits for a key, or for the snapshot that an acknowledgment reads, the
frame shows the application as it is; and no overlay is open in the second case. -/
structure Fresh (s : TuiState) : Prop where
  shown : s.phase = .waiting ∨ s.phase = .ackReading →
    ∀ f, s.frame = some f → f = s.app.render f.snapshot
  closed : s.phase = .ackReading → s.app.detail = none

theorem fresh_start : Fresh .start where
  shown := nofun
  closed := nofun

theorem fresh_step {s s' : TuiState} {a : TuiAction} {o : Option AlertId} (hs : Fresh s)
    (h : tui.step s a = some (s', o)) : Fresh s' := by
  rcases tuiStep_cases h with ⟨happ, hphase, hframe⟩ | ⟨happ, hphase, hdrawn⟩ |
    ⟨hwaiting, hphase, happ, hframe, hdetail⟩ | ⟨hwaiting, hreading⟩
  · constructor
    · rw [happ, hphase, hframe]
      exact hs.shown
    · rw [happ, hphase]
      exact hs.closed
  · refine ⟨fun _ f hf => ?_, fun hreading => absurd hreading hphase⟩
    rw [happ, hdrawn f hf]
    rfl
  · constructor
    · rw [happ, hframe]
      exact fun _ => hs.shown (.inl hwaiting)
    · rw [happ]
      exact fun _ => hdetail
  · exact ⟨fun h => (h.elim hwaiting hreading).elim, fun h => absurd h hreading⟩

theorem fresh_run {s : TuiState} {acts : List TuiAction} {outs : List (Option AlertId)}
    (h : tui.run .start acts = some (s, outs)) : Fresh s :=
  tui.run_induction (P := fun _ _ s => Fresh s) fresh_start
    (fun _ _ _ _ _ _ _ hs hstep => fresh_step hs hstep) h

theorem rowId_of_ackRead {s s' : TuiState} {id : AlertId}
    (h : tui.step s .ackRead = some (s', some id)) :
    s.phase = .ackReading ∧ s.rowId s.snapshot = some id := by
  simp only [tui, tuiStep] at h
  split at h
  · next hphase =>
    split at h
    · next hrow =>
      cases h
      exact ⟨hphase.1, hrow⟩
    · cases h
  · cases h

/-- **What is highlighted** in a frame of the alerts view is the row of the selection, where
the list has that row. -/
theorem highlightedAlert_of_row (w : ListWidget) {s : TuiState} {f : RenderedFrame}
    {id : AlertId} (hf : f = s.app.render f.snapshot) (hview : s.app.view = .alerts)
    (hdetail : s.app.detail = none) (hrow : s.rowId f.snapshot = some id) :
    f.highlightedAlert w = some id := by
  obtain ⟨alerts, halerts, hselected⟩ := Option.bind_eq_some_iff.mp hrow
  rw [AlertsState.selectedAlertId, Option.map_eq_some_iff] at hselected
  obtain ⟨alert, hget, hid⟩ := hselected
  have hlt := (List.getElem?_eq_some_iff.mp hget).1
  have hoverlay : s.app.detail.isSome = false := by
    rw [hdetail]
    rfl
  rw [hf, RenderedFrame.highlightedAlert, if_pos ⟨hview, hoverlay⟩]
  show f.snapshot.alerts.bind _ = _
  rw [halerts, Option.bind_some]
  show (w.highlighted s.app.alerts.selected alerts.length).bind _ = _
  rw [w.highlighted_of_lt hlt, Option.bind_some, hget, ← hid]
  rfl

def TuiAction.isAckRead : TuiAction → Bool
  | ackRead => true
  | _ => false

/-- **The row is kept**: when an acknowledgment in the alerts view looks at the snapshot, the
last draw was rendered, and the selected row has the same alert as in the snapshot that it
was rendered from. -/
def RowKept (s : TuiState) (a : TuiAction) : Prop :=
  a.isAckRead = true → s.app.view = .alerts → s.rowId s.snapshot ≠ none →
    (s.frame.bind fun f => s.rowId f.snapshot) = s.rowId s.snapshot

instance (s : TuiState) (a : TuiAction) : Decidable (RowKept s a) :=
  inferInstanceAs (Decidable (_ → _ → _ → _))

/-- Every acknowledgment in the alerts view is sent for the alert that the last frame
highlights. -/
def AcksHighlighted (w : ListWidget) (acts : List TuiAction) : Prop :=
  ∀ before after s s' id outs, acts = before ++ .ackRead :: after →
    tui.run .start before = some (s, outs) → tui.step s .ackRead = some (s', some id) →
    s.app.view = .alerts → (s.frame.bind fun f => f.highlightedAlert w) = some id

/-- **The user acknowledges the alert that is highlighted**, in every run in which no
snapshot comes between the last draw and the look at it that has another alert in the
selected row. -/
theorem acked_highlighted (w : ListWidget) {acts : List TuiAction}
    (hkept : tui.Meets RowKept .start acts) : AcksHighlighted w acts := by
  intro before after s₁ s₂ id outs₁ hacts hbefore hstep hview
  obtain ⟨hphase, hrow⟩ := rowId_of_ackRead hstep
  have hfresh := fresh_run hbefore
  have hsame := tui.meets_iff.mp hkept before .ackRead after s₁ outs₁ hacts hbefore rfl hview
    (hrow.symm ▸ Option.some_ne_none id)
  rw [hrow] at hsame
  obtain ⟨f, hf, hdrawn⟩ := Option.bind_eq_some_iff.mp hsame
  rw [hf, Option.bind_some]
  exact highlightedAlert_of_row w (hfresh.shown (.inr hphase) f hf) hview (hfresh.closed hphase)
    hdrawn

/-! #### No snapshot between the draw and the look -/

def TuiAction.stores : TuiAction → Bool
  | store _ => true
  | ackRefresh _ => true
  | _ => false

/-- No snapshot is stored between the last draw and a look of an acknowledgment. -/
def Undisturbed (acts : List TuiAction) : Prop :=
  ∀ before shown after, acts = before ++ .draw :: (shown ++ .ackRead :: after) →
    .draw ∉ shown → ∀ a ∈ shown, a.stores = false

/-- Only a draw makes a frame and ends the time to draw, and only a store replaces the snapshot
and gives the lock back. -/
theorem kept_of_ne_draw {s s' : TuiState} {a : TuiAction} {o : Option AlertId}
    (h : tui.step s a = some (s', o)) (hdraw : a ≠ .draw) :
    s'.frame = s.frame ∧ (s.phase = .drawing → s'.phase = .drawing) ∧
      (a.stores = false → s'.snapshot = s.snapshot ∧ (s'.locked = false → s.locked = false)) := by
  cases a with
  | draw => exact absurd rfl hdraw
  | lock =>
    simp only [tui, tuiStep] at h
    split at h
    · cases h
    · cases h
      exact ⟨rfl, id, fun _ => ⟨rfl, nofun⟩⟩
  | store snapshot =>
    simp only [tui, tuiStep] at h
    split at h
    · cases h
      exact ⟨rfl, id, nofun⟩
    · cases h
  | ackRefresh snapshot =>
    simp only [tui, tuiStep] at h
    split at h
    · cases h
      exact ⟨rfl, fun _ => rfl, nofun⟩
    · cases h
  | key key =>
    simp only [tui, tuiStep] at h
    split at h
    · next hwaiting =>
      cases h
      exact ⟨rfl, fun hdrawing => (by cases hwaiting.symm.trans hdrawing), fun _ => ⟨rfl, id⟩⟩
    · cases h
  | idle =>
    simp only [tui, tuiStep] at h
    split at h
    · cases h
      exact ⟨rfl, fun _ => rfl, fun _ => ⟨rfl, id⟩⟩
    · cases h
  | openRead =>
    simp only [tui, tuiStep] at h
    split at h
    · next hphase =>
      split at h
      all_goals
        cases h
        exact ⟨rfl, fun hdrawing => (by cases hphase.1.symm.trans hdrawing), fun _ => ⟨rfl, id⟩⟩
    · cases h
  | openFetch =>
    simp only [tui, tuiStep] at h
    split at h
    · split at h
      · cases h
      · cases h
        exact ⟨rfl, fun _ => rfl, fun _ => ⟨rfl, id⟩⟩
    · cases h
  | ackRead =>
    simp only [tui, tuiStep] at h
    split at h
    · next hphase =>
      split at h
      all_goals
        cases h
        exact ⟨rfl, fun hdrawing => (by cases hphase.1.symm.trans hdrawing), fun _ => ⟨rfl, id⟩⟩
    · cases h
  | ackRespond result =>
    simp only [tui, tuiStep] at h
    split at h
    · next hphase =>
      split at h
      all_goals
        cases h
        exact ⟨rfl, fun hdrawing => (by cases hphase.symm.trans hdrawing), fun _ => ⟨rfl, id⟩⟩
    · cases h

/-- **Since the last draw**: the loop is still to draw its first frame, or the frame was rendered
from the snapshot at hand, if none was stored since and the lock is free. -/
theorem lastDraw_run {s : TuiState} {acts : List TuiAction} {outs : List (Option AlertId)}
    (h : tui.run .start acts = some (s, outs)) :
    s.phase = .drawing ∨ ∃ before shown, acts = before ++ .draw :: shown ∧ .draw ∉ shown ∧
      ((∀ a ∈ shown, a.stores = false) → s.locked = false →
        s.frame.map RenderedFrame.snapshot = some s.snapshot) := by
  refine tui.run_induction (P := fun acts _ s => s.phase = .drawing ∨ ∃ before shown,
    acts = before ++ .draw :: shown ∧ .draw ∉ shown ∧
      ((∀ a ∈ shown, a.stores = false) → s.locked = false →
        s.frame.map RenderedFrame.snapshot = some s.snapshot)) (.inl rfl) ?_ h
  intro acts outs s a s' o _ ih hstep
  by_cases hdraw : a = .draw
  · subst hdraw
    refine .inr ⟨acts, [], rfl, List.not_mem_nil, fun _ hfree => ?_⟩
    simp only [tui, tuiStep] at hstep
    split at hstep
    · cases hstep
      -- the lock was free when the frame was drawn
      have hfree' : s.locked = false := hfree
      simp only [hfree', Bool.false_eq_true, if_false, Option.map_some]
      rfl
    · cases hstep
  · obtain ⟨hframe, hphase, hkept⟩ := kept_of_ne_draw hstep hdraw
    rcases ih with hdrawing | ⟨before, shown, rfl, hlast, hshown⟩
    · exact .inl (hphase hdrawing)
    · refine .inr ⟨before, shown ++ [a], by simp, ?_, fun hquiet hfree => ?_⟩
      · rw [List.mem_append, List.mem_singleton]
        exact fun h => h.elim hlast fun h => hdraw h.symm
      · obtain ⟨hsnapshot, hlocked⟩ :=
          hkept (hquiet a (List.mem_append_right _ List.mem_cons_self))
        rw [hframe, hsnapshot]
        exact hshown (fun b hb => hquiet b (List.mem_append_left _ hb)) (hlocked hfree)

/-- **Undisturbed looks keep the row.**  A draw is skipped only in the middle of a write, and then
a snapshot is stored before the lock is free for the look. -/
theorem meets_of_undisturbed {s : TuiState} {acts : List TuiAction} {outs : List (Option AlertId)}
    (hrun : tui.run .start acts = some (s, outs)) (h : Undisturbed acts) :
    tui.Meets RowKept .start acts := by
  refine tui.meets_iff.mpr fun before a after s₁ outs₁ hacts hbefore hread _ _ => ?_
  have ha : a = .ackRead := by
    cases a with
    | ackRead => rfl
    | _ => cases hread
  subst ha
  rw [hacts] at hrun
  obtain ⟨s₂, _, _, hbefore', hrest, -⟩ := tui.run_append.mp hrun
  obtain ⟨rfl, -⟩ := Prod.mk.inj (Option.some.inj (hbefore.symm.trans hbefore'))
  obtain ⟨_, _, _, hstep, -, -⟩ := tui.run_cons.mp hrest
  have henabled : s₁.phase = .ackReading ∧ s₁.locked = false := by
    simp only [tui, tuiStep] at hstep
    split at hstep
    · assumption
    · cases hstep
  rcases lastDraw_run hbefore with hdrawing | ⟨earlier, shown, hsplit, hlast, hshown⟩
  · cases henabled.1.symm.trans hdrawing
  · have hquiet := h earlier shown after (by rw [hacts, hsplit]; simp) hlast
    obtain ⟨f, hf, hsnapshot⟩ := Option.map_eq_some_iff.mp (hshown hquiet henabled.2)
    rw [hf, Option.bind_some, hsnapshot]

/-! ### A snapshot between the draw and the key -/

def listed (id : AlertId) : Alert :=
  { Alert.new "new" .info .newDevice (.new (.ofBytes 0x00 0x11 0x22 0x33 0x44 0x77) ⟨0⟩)
      "New device discovered" ⟨0⟩ with id := id }

def alertsShown : List TuiAction :=
  [.lock, .store ⟨some [], some [listed 1]⟩, .draw, .key ⟨.char '2', false⟩, .draw]

theorem acked_highlighted_quiet :
    AcksHighlighted .clamping (alertsShown ++ [.key ⟨.char 'a', false⟩, .ackRead]) :=
  acked_highlighted .clamping (by decide +kernel)

/-- The alert 2 comes in on top of the list, between the draw and the key. -/
def raced : List TuiAction :=
  alertsShown ++ [.lock, .store ⟨some [], some [listed 2, listed 1]⟩, .key ⟨.char 'a', false⟩]

/-- **The new alert is acknowledged in place of the one on the screen.** -/
theorem acked_not_highlighted :
    (∃ s s' outs, tui.run .start raced = some (s, outs) ∧
      tui.step s .ackRead = some (s', some 2) ∧ s.app.view = .alerts ∧
      (s.frame.bind fun f => f.highlightedAlert .clamping) = some 1) ∧
    ¬∀ acts, AcksHighlighted .clamping acts := by
  have hrun : ((tui.run .start raced).bind fun r => (tui.step r.1 .ackRead).map fun t =>
      (t.2, r.1.app.view, r.1.frame.bind fun f => f.highlightedAlert .clamping)) =
        some (some 2, .alerts, some 1) := by
    decide +kernel
  obtain ⟨⟨s, outs⟩, hs, hrest⟩ := Option.bind_eq_some_iff.mp hrun
  obtain ⟨⟨s', o⟩, hstep, he⟩ := Option.map_eq_some_iff.mp hrest
  simp only [Prod.mk.injEq] at he
  obtain ⟨rfl, hview, hframe⟩ := he
  refine ⟨⟨s, s', outs, hs, hstep, hview, hframe⟩, fun hall => ?_⟩
  have hsame := hall (raced ++ [.ackRead]) raced [] s s' 2 outs rfl hs hstep hview
  rw [hframe] at hsame
  exact absurd hsame (by decide)

end EdgeShield.Tui
