import EdgeShield.Lib.Machine
import EdgeShield.Packet.Capture

/-!
# The capture thread

`capture_loop` of `crates/packet/src/capture.rs`: an outer loop that opens the interface and
an inner loop that reads packets.  Each round of either loop is one step of `captureLoop`;
what pcap answers and whether there is a signal to stop are the inputs.

A failure to open is counted, and after the tenth in a row the thread gives up.  It is
followed by a wait.  A failure to read is neither: the loop breaks, opens the interface
again at once, and the success of that sets the count back.  So the count is one of failures
to open only (`consecutiveErrors_run`), and an interface that opens and cannot be read is
opened for ever (`run_flapping`).
-/

namespace EdgeShield.Packet

open EdgeShield.Lib

def maxCaptureErrors : Nat := 10

theorem maxCaptureErrors_pos : 0 < maxCaptureErrors := by decide

def reconnectDelayMs : Nat := 2000

/-- Where the thread is; `reading` has the length of the link header. -/
inductive CapturePhase where
  | opening
  | reading (linkHeaderLen : Nat)
  | returned
  deriving DecidableEq, Repr

structure CaptureState where
  phase : CapturePhase
  consecutiveErrors : Nat
  deriving DecidableEq, Repr

def CaptureState.start : CaptureState := ⟨.opening, 0⟩

/-- What one round of a loop meets: the signal to stop, or what `open_capture` or
`next_packet` gives.  `room` is whether `try_send` finds room for the packet. -/
inductive Outcome where
  | stop
  | opened (linktype : Int)
  | openFailed
  | packet (data : List UInt8) (room : Bool)
  | timeout
  | readFailed
  deriving DecidableEq, Repr

inductive Effect where
  | stopped
  | ready
  | slept (millis : Nat)
  | gaveUp
  | sent (buf : PacketBuf)
  | dropped
  | waitedForPacket
  | broke

def captureStep (s : CaptureState) : Outcome → Option (CaptureState × Effect)
  | .stop =>
    match s.phase with
    | .returned => none
    | _ => some ({ s with phase := .returned }, .stopped)
  | .opened linktype =>
    match s.phase with
    | .opening => some (⟨.reading (linktypeToHeaderLen linktype), 0⟩, .ready)
    | _ => none
  | .openFailed =>
    match s.phase with
    | .opening =>
      let consecutiveErrors := s.consecutiveErrors + 1
      if maxCaptureErrors ≤ consecutiveErrors then
        some (⟨.returned, consecutiveErrors⟩, .gaveUp)
      else some (⟨.opening, consecutiveErrors⟩, .slept reconnectDelayMs)
    | _ => none
  | .packet data room =>
    match s.phase with
    | .reading linkHeaderLen =>
      some (⟨.reading linkHeaderLen, 0⟩, if room then .sent ⟨data, linkHeaderLen⟩ else .dropped)
    | _ => none
  | .timeout =>
    match s.phase with
    | .reading _ => some (s, .waitedForPacket)
    | _ => none
  -- no count and no wait
  | .readFailed =>
    match s.phase with
    | .reading _ => some ({ s with phase := .opening }, .broke)
    | _ => none

def captureLoop : Machine CaptureState Outcome Effect where
  step := captureStep

inductive CaptureStep (s : CaptureState) : Outcome → CaptureState → Effect → Prop where
  | stop (running : s.phase ≠ .returned) :
      CaptureStep s .stop { s with phase := .returned } .stopped
  | opened (linktype : Int) (opening : s.phase = .opening) :
      CaptureStep s (.opened linktype) ⟨.reading (linktypeToHeaderLen linktype), 0⟩ .ready
  | gaveUp (opening : s.phase = .opening) (last : maxCaptureErrors ≤ s.consecutiveErrors + 1) :
      CaptureStep s .openFailed ⟨.returned, s.consecutiveErrors + 1⟩ .gaveUp
  | retry (opening : s.phase = .opening) (more : s.consecutiveErrors + 1 < maxCaptureErrors) :
      CaptureStep s .openFailed ⟨.opening, s.consecutiveErrors + 1⟩ (.slept reconnectDelayMs)
  | packet (data : List UInt8) (room : Bool) (linkHeaderLen : Nat)
      (reading : s.phase = .reading linkHeaderLen) :
      CaptureStep s (.packet data room) ⟨.reading linkHeaderLen, 0⟩
        (if room then .sent ⟨data, linkHeaderLen⟩ else .dropped)
  | timeout (linkHeaderLen : Nat) (reading : s.phase = .reading linkHeaderLen) :
      CaptureStep s .timeout s .waitedForPacket
  | readFailed (linkHeaderLen : Nat) (reading : s.phase = .reading linkHeaderLen) :
      CaptureStep s .readFailed { s with phase := .opening } .broke

theorem captureStep_of_step {s s' : CaptureState} {i : Outcome} {o : Effect}
    (h : captureLoop.step s i = some (s', o)) : CaptureStep s i s' o := by
  cases i with
  | stop =>
    simp only [captureLoop, captureStep] at h
    split at h
    · cases h
    · next hp =>
      cases h
      exact .stop hp
  | opened linktype =>
    simp only [captureLoop, captureStep] at h
    split at h
    · next hp =>
      cases h
      exact .opened linktype hp
    · cases h
  | openFailed =>
    simp only [captureLoop, captureStep] at h
    split at h
    · next hp =>
      split at h
      · next hlast =>
        cases h
        exact .gaveUp hp hlast
      · next hmore =>
        cases h
        exact .retry hp (Nat.lt_of_not_le hmore)
    · cases h
  | packet data room =>
    simp only [captureLoop, captureStep] at h
    split at h
    · next len hp =>
      cases h
      exact .packet data room len hp
    · cases h
  | timeout =>
    simp only [captureLoop, captureStep] at h
    split at h
    · next len hp =>
      cases h
      exact .timeout len hp
    · cases h
  | readFailed =>
    simp only [captureLoop, captureStep] at h
    split at h
    · next len hp =>
      cases h
      exact .readFailed len hp
    · cases h

/-! ### What is counted -/

/-- Failures to open since the interface was last opened or read. -/
def countOpenFailed (n : Nat) : Outcome → Nat
  | .opened _ => 0
  | .packet _ _ => 0
  | .openFailed => n + 1
  | _ => n

/-- **The counter** is the number of failures to open in a row, and never goes past the
limit. -/
theorem consecutiveErrors_run {is : List Outcome} {s : CaptureState} {os : List Effect}
    (h : captureLoop.run .start is = some (s, os)) :
    s.consecutiveErrors = is.foldl countOpenFailed 0 ∧ s.consecutiveErrors ≤ maxCaptureErrors ∧
      (s.phase ≠ .returned → s.consecutiveErrors < maxCaptureErrors) := by
  refine captureLoop.run_induction (P := fun is _ s => s.consecutiveErrors =
    is.foldl countOpenFailed 0 ∧ s.consecutiveErrors ≤ maxCaptureErrors ∧
      (s.phase ≠ .returned → s.consecutiveErrors < maxCaptureErrors)) ?_ ?_ h
  · exact ⟨rfl, Nat.zero_le _, fun _ => maxCaptureErrors_pos⟩
  · intro is os s i s' o _ ih hstep
    obtain ⟨hcount, hle, hlt⟩ := ih
    rw [List.foldl_append, ← hcount]
    cases captureStep_of_step hstep with
    | stop running => exact ⟨rfl, hle, fun h => absurd rfl h⟩
    | opened linktype opening => exact ⟨rfl, Nat.zero_le _, fun _ => maxCaptureErrors_pos⟩
    | gaveUp opening last =>
      have hbefore : s.consecutiveErrors < maxCaptureErrors := hlt (by rw [opening]; decide)
      exact ⟨rfl, hbefore, fun h => absurd rfl h⟩
    | retry opening more => exact ⟨rfl, more.le, fun _ => more⟩
    | packet data room len reading => exact ⟨rfl, Nat.zero_le _, fun _ => maxCaptureErrors_pos⟩
    | timeout len reading => exact ⟨rfl, hle, hlt⟩
    | readFailed len reading =>
      exact ⟨rfl, hle, fun _ => hlt (by rw [reading]; intro h; cases h)⟩

/-! ### When the thread gives up -/

def Outcome.isError : Outcome → Bool
  | .openFailed => true
  | .readFailed => true
  | _ => false

def countError (n : Nat) : Outcome → Nat
  | .packet _ _ => 0
  | .openFailed => n + 1
  | .readFailed => n + 1
  | _ => n

def errorsSincePacket (is : List Outcome) : Nat := is.foldl countError 0

/-- The thread runs only while there are fewer failures than the limit since the last packet,
and waits after each failure that does not end it. -/
structure GivesUp (is : List Outcome) : Prop where
  bounded : ∀ is₁ is₂ s os, is = is₁ ++ is₂ → captureLoop.run .start is₁ = some (s, os) →
    s.phase ≠ .returned → errorsSincePacket is₁ < maxCaptureErrors
  waits : ∀ is₁ i is₂ s os s' o, is = is₁ ++ i :: is₂ →
    captureLoop.run .start is₁ = some (s, os) → captureLoop.step s i = some (s', o) →
    i.isError = true → s'.phase ≠ .returned → o = .slept reconnectDelayMs

/-- Before the interface is opened the counter has all the failures, and once it is open
there are no more, unless a read fails. -/
theorem errorsSincePacket_run {is : List Outcome} {s : CaptureState} {os : List Effect}
    (h : captureLoop.run .start is = some (s, os)) (hread : .readFailed ∉ is) :
    (s.phase = .opening → errorsSincePacket is = s.consecutiveErrors) ∧
      (s.phase ≠ .returned → errorsSincePacket is < maxCaptureErrors) := by
  refine captureLoop.run_induction (P := fun is _ s => .readFailed ∉ is →
    (s.phase = .opening → errorsSincePacket is = s.consecutiveErrors) ∧
      (s.phase ≠ .returned → errorsSincePacket is < maxCaptureErrors)) ?_ ?_ h hread
  · intro _
    exact ⟨fun _ => rfl, fun _ => maxCaptureErrors_pos⟩
  · intro is os s i s' o hrun ih hstep hread
    have hread' : .readFailed ∉ is := fun hmem => hread (List.mem_append_left _ hmem)
    obtain ⟨hopening, hbounded⟩ := ih hread'
    have hcount : errorsSincePacket (is ++ [i]) = countError (errorsSincePacket is) i :=
      List.foldl_append
    rw [hcount]
    cases captureStep_of_step hstep with
    | stop running => exact ⟨fun h => (by cases h), fun h => absurd rfl h⟩
    | opened linktype opening =>
      refine ⟨fun h => (by cases h), fun _ => hbounded ?_⟩
      rw [opening]
      decide
    | gaveUp opening last => exact ⟨fun h => (by cases h), fun h => absurd rfl h⟩
    | retry opening more =>
      rw [hopening opening]
      exact ⟨fun _ => rfl, fun _ => more⟩
    | packet data room len reading =>
      exact ⟨fun h => (by cases h), fun _ => maxCaptureErrors_pos⟩
    | timeout len reading => exact ⟨hopening, hbounded⟩
    | readFailed len reading =>
      exact absurd (List.mem_append_right is List.mem_cons_self) hread

/-- **The thread gives up and waits** as documented exactly when no read fails. -/
theorem givesUp_iff {is : List Outcome} {s : CaptureState} {os : List Effect}
    (h : captureLoop.run .start is = some (s, os)) : GivesUp is ↔ .readFailed ∉ is := by
  refine ⟨fun hall hmem => ?_, fun hread => ⟨?_, ?_⟩⟩
  · obtain ⟨is₁, is₂, rfl⟩ := List.append_of_mem hmem
    obtain ⟨s₁, os₁, os₂, h₁, h₂, -⟩ := captureLoop.run_append.mp h
    obtain ⟨s₂, o, os', hstep, -, -⟩ := captureLoop.run_cons.mp h₂
    have hwait := hall.waits is₁ .readFailed is₂ s₁ os₁ s₂ o rfl h₁ hstep rfl
    cases captureStep_of_step hstep with
    | readFailed len reading => cases hwait fun h => (by cases h)
  · intro is₁ is₂ s₁ os₁ he h₁ hrunning
    refine (errorsSincePacket_run h₁ fun hmem => hread ?_).2 hrunning
    rw [he]
    exact List.mem_append_left _ hmem
  · intro is₁ i is₂ s₁ os₁ s₂ o he h₁ hstep herror hrunning
    cases captureStep_of_step hstep with
    | gaveUp opening last => exact absurd rfl hrunning
    | retry opening more => rfl
    | readFailed len reading =>
      refine absurd ?_ hread
      rw [he]
      exact List.mem_append_right is₁ List.mem_cons_self
    | stop running => cases herror
    | opened linktype opening => cases herror
    | packet data room len reading => cases herror
    | timeout len reading => cases herror

theorem givesUp_of_openFailed :
    GivesUp (List.replicate 9 .openFailed ++ [.opened 1, .packet [] true, .timeout]) := by
  have hrun : (captureLoop.run .start
      (List.replicate 9 .openFailed ++ [.opened 1, .packet [] true, .timeout])).isSome = true := by
    decide +kernel
  obtain ⟨⟨s, os⟩, h⟩ := Option.isSome_iff_exists.mp hrun
  exact (givesUp_iff h).mpr (by decide)

/-! ### An interface that flaps -/

def flapping (linktype : Int) (n : Nat) : List Outcome :=
  (List.replicate n [.opened linktype, .readFailed]).flatten

theorem flapping_succ (linktype : Int) (n : Nat) :
    flapping linktype (n + 1) = .opened linktype :: .readFailed :: flapping linktype n := by
  rw [flapping, List.replicate_succ, List.flatten_cons]
  rfl

/-- **A flapping interface is opened for ever**, without a wait and without a count. -/
theorem run_flapping (linktype : Int) (n : Nat) :
    captureLoop.run .start (flapping linktype n) =
      some (.start, (List.replicate n [.ready, .broke]).flatten) := by
  induction n with
  | zero => rfl
  | succ n ih =>
    rw [flapping_succ, List.replicate_succ, List.flatten_cons]
    exact captureLoop.run_cons.mpr ⟨⟨.reading (linktypeToHeaderLen linktype), 0⟩, .ready, _, rfl,
      captureLoop.run_cons.mpr ⟨.start, .broke, _, rfl, ih, rfl⟩, rfl⟩

theorem foldl_flapping (linktype : Int) (n : Nat) :
    ∀ m, (flapping linktype n).foldl countError m = m + n := by
  induction n with
  | zero =>
    intro m
    rfl
  | succ n ih =>
    intro m
    rw [flapping_succ]
    show (flapping linktype n).foldl countError (m + 1) = m + (n + 1)
    rw [ih]
    omega

/-- **Ten failures, and the thread goes on**: it is at the top of the outer loop and has not
slept. -/
theorem flapping_not_givesUp :
    (captureLoop.run .start (flapping 1 10)).map Prod.fst = some .start ∧
      errorsSincePacket (flapping 1 10) = 10 ∧ .stop ∉ flapping 1 10 ∧
      ¬GivesUp (flapping 1 10) := by
  have hrun := run_flapping 1 10
  have herrors : errorsSincePacket (flapping 1 10) = 10 := foldl_flapping 1 10 0
  refine ⟨by rw [hrun]; rfl, herrors, by decide +kernel, fun hall => ?_⟩
  have hbound := hall.bounded _ [] _ _ (List.append_nil _).symm hrun (by decide)
  rw [herrors] at hbound
  exact absurd hbound (by decide)

end EdgeShield.Packet
