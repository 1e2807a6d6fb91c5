import Mathlib.Algebra.GroupWithZero.Nat
import Mathlib.Algebra.Ring.Int.Defs
import Mathlib.Logic.Function.Basic
import EdgeShield.Lib.Machine
import EdgeShield.Lib.Text

/-!
# The guard against a second daemon

`acquire_pid_file`, `release_pid_file` and the command `run` of `crates/cli/src/cli.rs`.  A process
that is told to run looks for a PID in a file, asks the kernel whether a process with this PID is
there, and if not, writes its own PID into the file.  At the end it removes the file.

Any number of processes do so at once, step by step, and any of them can die between two steps.
Writing the file is two steps, as the file is empty in between.  PIDs are given out again after a
process has ended, to another daemon or to a program that has nothing to do with it.

The kernel is asked by a signal, and the answer is no as well when the asking process may not signal
the other (`Kernel.permitted`): an unprivileged start does not see a daemon of `root`.  What follows
is about processes that may all signal each other, such as those that all run as `root`.

Two processes that look at the same time both find nobody.  In the runs where no process looks
while another is between its look and the end of its writing (`Alone`), at most one process is past
its look, whatever dies and whatever the file had in it (`one_engaged`).  If furthermore no process
leaves the file behind (`Orderly`), a start is refused exactly when a daemon is there
(`refused_iff`).
-/

namespace EdgeShield.Cli

open EdgeShield.Lib

abbrev Pid := {n : Nat // 0 < n ∧ n < 2 ^ 31}

inductive Phase where
  /-- Before its look at the file. -/
  | started
  /-- It has found nobody. -/
  | cleared
  /-- It has created the file. -/
  | opened
  /-- It has written its PID. -/
  | acquired
  /-- In `daemon::run`. -/
  | running
  /-- After `daemon::run`. -/
  | done
  deriving DecidableEq, Repr

/-- The machine: the file, the processes in the command `run`, and all other processes. -/
structure System where
  pidFile : Option String
  phases : Pid → Option Phase
  others : Pid → Bool

/-- What the kernel decides: who may send a signal to whom, and what `kill` says of an id that is
not positive and stands for a group of processes. -/
structure Kernel where
  permitted : Pid → Pid → Bool
  group : (Pid → Bool) → Pid → Int → Bool

inductive Action where
  | spawn (p : Pid)
  | look (p : Pid)
  | create (p : Pid) (ok : Bool)
  | fill (p : Pid) (failsAfter : Option Nat)
  | loadConfig (p : Pid) (ok : Bool)
  | finish (p : Pid)
  | release (p : Pid) (ok : Bool)
  | crash (p : Pid)
  | otherStarts (p : Pid)
  | otherEnds (p : Pid)
  deriving DecidableEq

def u32Max : Nat := 2 ^ 32 - 1

def asI32 (n : Nat) : Int := if n < 2 ^ 31 then n else n - 2 ^ 32

def pidFilePath : String := "/run/edgeshield.pid"

def alreadyRunning (pid : Nat) : String :=
  "EdgeShield is already running (PID " ++ Nat.repr pid ++ "). If this is incorrect, remove " ++
    pidFilePath ++ " and try again."

def pidText (p : Pid) : String := Nat.repr p.val ++ "\n"

namespace System

variable (K : Kernel) (s : System)

def alive (p : Pid) : Bool := (s.phases p).isSome || s.others p

/-- `libc::kill(pid as i32, 0) == 0`, called by `p`. -/
def kill (p : Pid) (pid : Nat) : Bool :=
  if h : 0 < pid ∧ pid < 2 ^ 31 then s.alive ⟨pid, h⟩ && K.permitted p ⟨pid, h⟩
  else K.group s.alive p (asI32 pid)

/-- The PID because of which `acquire_pid_file` gives up. -/
def blocking (p : Pid) : Option Nat :=
  s.pidFile.bind fun content => (parseUnsigned u32Max (trim content)).filter (s.kill K p)

def setPhase (p : Pid) (phase : Option Phase) : System :=
  { s with phases := Function.update s.phases p phase }

def setFile (content : Option String) : System := { s with pidFile := content }

def inPhase (p : Pid) (phase : Phase) (next : System × Option String) :
    Option (System × Option String) :=
  if s.phases p = some phase then some next else none

/-- One step; the output is the error that a process ends with when it is refused. -/
def step (s : System) : Action → Option (System × Option String)
  | .spawn p => if s.alive p then none else some (s.setPhase p (some .started), none)
  | .look p => s.inPhase p .started <|
      match s.blocking K p with
      | some pid => (s.setPhase p none, some (alreadyRunning pid))
      | none => (s.setPhase p (some .cleared), none)
  | .create p ok => s.inPhase p .cleared <|
      if ok then ((s.setPhase p (some .opened)).setFile (some ""), none) else (s.setPhase p none, none)
  | .fill p failsAfter => s.inPhase p .opened <|
      match failsAfter with
      | none => ((s.setPhase p (some .acquired)).setFile (some (pidText p)), none)
      | some n =>
        ((s.setPhase p none).setFile (some (String.ofList ((pidText p).toList.take n))), none)
  -- an error of `load_config` returns past `release_pid_file`
  | .loadConfig p ok => s.inPhase p .acquired
      (s.setPhase p (if ok then some .running else none), none)
  | .finish p => s.inPhase p .running (s.setPhase p (some .done), none)
  | .release p ok => s.inPhase p .done <|
      if ok then ((s.setPhase p none).setFile none, none) else (s.setPhase p none, none)
  | .crash p => if (s.phases p).isSome then some (s.setPhase p none, none) else none
  | .otherStarts p =>
    if s.alive p then none else some ({ s with others := Function.update s.others p true }, none)
  | .otherEnds p =>
    if s.others p then some ({ s with others := Function.update s.others p false }, none) else none

end System

def processes (K : Kernel) : Machine System Action (Option String) where
  step := System.step K

inductive ProcessStep (K : Kernel) (s : System) : Action → System → Option String → Prop where
  | spawn (p : Pid) (free : s.alive p = false) :
      ProcessStep K s (.spawn p) (s.setPhase p (some .started)) none
  | refused (p : Pid) (pid : Nat) (phase : s.phases p = some .started)
      (blocked : s.blocking K p = some pid) :
      ProcessStep K s (.look p) (s.setPhase p none) (some (alreadyRunning pid))
  | cleared (p : Pid) (phase : s.phases p = some .started) (free : s.blocking K p = none) :
      ProcessStep K s (.look p) (s.setPhase p (some .cleared)) none
  | opened (p : Pid) (phase : s.phases p = some .cleared) :
      ProcessStep K s (.create p true) ((s.setPhase p (some .opened)).setFile (some "")) none
  | notOpened (p : Pid) (phase : s.phases p = some .cleared) :
      ProcessStep K s (.create p false) (s.setPhase p none) none
  | filled (p : Pid) (phase : s.phases p = some .opened) :
      ProcessStep K s (.fill p none)
        ((s.setPhase p (some .acquired)).setFile (some (pidText p))) none
  | notFilled (p : Pid) (n : Nat) (phase : s.phases p = some .opened) :
      ProcessStep K s (.fill p (some n))
        ((s.setPhase p none).setFile (some (String.ofList ((pidText p).toList.take n)))) none
  | loaded (p : Pid) (phase : s.phases p = some .acquired) :
      ProcessStep K s (.loadConfig p true) (s.setPhase p (some .running)) none
  | notLoaded (p : Pid) (phase : s.phases p = some .acquired) :
      ProcessStep K s (.loadConfig p false) (s.setPhase p none) none
  | finish (p : Pid) (phase : s.phases p = some .running) :
      ProcessStep K s (.finish p) (s.setPhase p (some .done)) none
  | released (p : Pid) (phase : s.phases p = some .done) :
      ProcessStep K s (.release p true) ((s.setPhase p none).setFile none) none
  | notReleased (p : Pid) (phase : s.phases p = some .done) :
      ProcessStep K s (.release p false) (s.setPhase p none) none
  | crash (p : Pid) : ProcessStep K s (.crash p) (s.setPhase p none) none
  | otherStarts (p : Pid) :
      ProcessStep K s (.otherStarts p) { s with others := Function.update s.others p true } none
  | otherEnds (p : Pid) :
      ProcessStep K s (.otherEnds p) { s with others := Function.update s.others p false } none

theorem System.inPhase_eq_some {s : System} {p : Pid} {phase : Phase}
    {next r : System × Option String} :
    s.inPhase p phase next = some r ↔ s.phases p = some phase ∧ next = r := by
  rw [inPhase]
  split
  · next h => exact ⟨fun hr => ⟨h, Option.some.inj hr⟩, fun hr => congrArg some hr.2⟩
  · next h => exact ⟨fun hr => (by cases hr), fun hr => absurd hr.1 h⟩

theorem processStep_of_step {K : Kernel} {s s' : System} {a : Action} {o : Option String}
    (h : (processes K).step s a = some (s', o)) : ProcessStep K s a s' o := by
  simp only [processes] at h
  cases a with
  | spawn p =>
    rw [System.step] at h
    split at h
    · cases h
    · next hfree => cases h; exact .spawn p ((Bool.not_eq_true _).mp hfree)
  | look p =>
    obtain ⟨hphase, h⟩ := System.inPhase_eq_some.mp h
    split at h
    · next pid hblocked => cases h; exact .refused p pid hphase hblocked
    · next hfree => cases h; exact .cleared p hphase hfree
  | create p ok =>
    obtain ⟨hphase, h⟩ := System.inPhase_eq_some.mp h
    cases ok with
    | true => cases h; exact .opened p hphase
    | false => cases h; exact .notOpened p hphase
  | fill p failsAfter =>
    obtain ⟨hphase, h⟩ := System.inPhase_eq_some.mp h
    cases failsAfter with
    | none => cases h; exact .filled p hphase
    | some n => cases h; exact .notFilled p n hphase
  | loadConfig p ok =>
    obtain ⟨hphase, h⟩ := System.inPhase_eq_some.mp h
    cases ok with
    | true => cases h; exact .loaded p hphase
    | false => cases h; exact .notLoaded p hphase
  | finish p =>
    obtain ⟨hphase, h⟩ := System.inPhase_eq_some.mp h
    cases h
    exact .finish p hphase
  | release p ok =>
    obtain ⟨hphase, h⟩ := System.inPhase_eq_some.mp h
    cases ok with
    | true => cases h; exact .released p hphase
    | false => cases h; exact .notReleased p hphase
  | crash p =>
    rw [System.step] at h
    split at h
    · cases h; exact .crash p
    · cases h
  | otherStarts p =>
    rw [System.step] at h
    split at h
    · cases h
    · cases h; exact .otherStarts p
  | otherEnds p =>
    rw [System.step] at h
    split at h
    · cases h; exact .otherEnds p
    · cases h

/-! ### Phases -/

/-- Past the look. -/
def Phase.engaged : Phase → Bool
  | .started => false
  | _ => true

/-- The file is there because of this process. -/
def Phase.opens : Phase → Bool
  | .started => false
  | .cleared => false
  | _ => true

/-- With its PID in the file. -/
def Phase.holds : Phase → Bool
  | .acquired => true
  | .running => true
  | .done => true
  | _ => false

namespace System

variable {s : System}

def Is (s : System) (kind : Phase → Bool) (p : Pid) : Prop :=
  ∃ phase, s.phases p = some phase ∧ kind phase = true

@[simp] theorem phases_setPhase (p q : Pid) (phase : Option Phase) :
    (s.setPhase p phase).phases q = if q = p then phase else s.phases q := by
  show Function.update s.phases p phase q = _
  rw [Function.update_apply]

@[simp] theorem pidFile_setPhase (p : Pid) (phase : Option Phase) :
    (s.setPhase p phase).pidFile = s.pidFile := rfl

theorem is_setPhase {kind : Phase → Bool} {p q : Pid} {phase : Option Phase} :
    (s.setPhase p phase).Is kind q ↔
      if q = p then (∃ ph, phase = some ph ∧ kind ph = true) else s.Is kind q := by
  rw [Is, phases_setPhase]
  split
  · exact Iff.rfl
  · exact Iff.rfl

theorem is_setFile {kind : Phase → Bool} {p : Pid} {content : Option String} :
    (s.setFile content).Is kind p ↔ s.Is kind p := Iff.rfl

theorem Is.mono {kind kind' : Phase → Bool} {p : Pid} (h : s.Is kind p)
    (hkind : ∀ phase, kind phase = true → kind' phase = true) : s.Is kind' p := by
  obtain ⟨phase, hp, hk⟩ := h
  exact ⟨phase, hp, hkind phase hk⟩

theorem Is.alive {kind : Phase → Bool} {p : Pid} (h : s.Is kind p) : s.alive p = true := by
  obtain ⟨phase, hp, _⟩ := h
  rw [System.alive, hp]
  rfl

theorem engaged_of_holds {p : Pid} (h : s.Is Phase.holds p) : s.Is Phase.engaged p :=
  h.mono fun phase hk => by cases phase <;> first | rfl | cases hk

end System

/-! ### The PID in the file -/

theorem not_isWhitespace_of_isDigit {c : Char} (h : c.isDigit = true) : isWhitespace c = false := by
  have hrange : 0x30 ≤ c.toNat ∧ c.toNat ≤ 0x39 := by
    rw [Char.isDigit, Bool.and_eq_true, decide_eq_true_eq, decide_eq_true_eq] at h
    exact h
  simp only [isWhitespace, Bool.or_eq_false_iff, Bool.and_eq_false_iff, decide_eq_false_iff_not,
    beq_eq_false_iff_ne]
  omega

theorem trim_pidText (p : Pid) : trim (pidText p) = Nat.repr p.val := by
  have hdigit : ∀ c ∈ Nat.toDigits 10 p.val, isWhitespace c = false := fun c hc =>
    not_isWhitespace_of_isDigit (Nat.isDigit_of_mem_toDigits (by omega) (by omega) hc)
  have htext : pidText p = String.ofList (Nat.toDigits 10 p.val ++ ['\n']) := by
    apply String.toList_injective
    rw [pidText, String.toList_append, Nat.toList_repr]
    exact String.toList_ofList.symm
  have hend : ∀ c ∈ ['\n'], isWhitespace c = true := by
    intro c hc
    rw [List.mem_singleton.mp hc]
    rfl
  rw [htext, trim_ofList_append hdigit hend]
  rfl

theorem Pid.le_u32Max (p : Pid) : p.val ≤ u32Max := by
  have := p.property
  rw [u32Max]
  omega

/-- The PID of a process that is there blocks all others. -/
theorem blocking_of_named {K : Kernel} (hroot : ∀ p q, K.permitted p q = true) {s : System}
    {p q : Pid} (hfile : s.pidFile = some (pidText q)) (halive : s.alive q = true) :
    s.blocking K p = some q.val := by
  have hkill : s.kill K p q.val = true := by
    rw [System.kill, dif_pos q.property, hroot, Bool.and_true]
    exact halive
  rw [System.blocking, hfile, Option.bind_some, trim_pidText, parseUnsigned_repr q.le_u32Max,
    Option.filter_some_pos hkill]

/-! ### At most one -/

/-- No other process is between its look and the end of its writing. -/
def Alone (s : System) : Action → Prop
  | .look _ => ∀ q, s.phases q ≠ some .cleared ∧ s.phases q ≠ some .opened
  | _ => True

/-- At most one process is past its look, and when it has written its PID, the file has it. -/
structure Guarded (s : System) : Prop where
  one : ∀ p q, s.Is Phase.engaged p → s.Is Phase.engaged q → p = q
  named : ∀ p, s.Is Phase.holds p → s.pidFile = some (pidText p)

theorem Guarded.setPhase {s : System} (h : Guarded s) (p : Pid) {phase : Option Phase}
    (hphase : ∀ ph, phase = some ph → ph = .started) : Guarded (s.setPhase p phase) := by
  have hold : ∀ {kind : Phase → Bool}, kind .started = false → ∀ q,
      (s.setPhase p phase).Is kind q → s.Is kind q := by
    intro kind hkind q hq
    rw [System.is_setPhase] at hq
    split at hq
    · obtain ⟨ph, hph, hk⟩ := hq
      rw [hphase ph hph, hkind] at hk
      cases hk
    · exact hq
  exact ⟨fun q r hq hr => h.one q r (hold rfl q hq) (hold rfl r hr),
    fun q hq => h.named q (hold rfl q hq)⟩

theorem guarded_advance {s : System} {p : Pid} (honly : ∀ q, s.Is Phase.engaged q → q = p)
    (phase : Option Phase) (content : Option String)
    (hfile : ∀ ph, phase = some ph → ph.holds = true → content = some (pidText p)) :
    Guarded ((s.setPhase p phase).setFile content) := by
  have hone : ∀ q, ((s.setPhase p phase).setFile content).Is Phase.engaged q → q = p := by
    intro q hq
    rw [System.is_setFile, System.is_setPhase] at hq
    split at hq
    · next hqp => exact hqp
    · exact honly q hq
  refine ⟨fun q r hq hr => (hone q hq).trans (hone r hr).symm, fun q hq => ?_⟩
  have hqp := hone q (System.engaged_of_holds hq)
  subst hqp
  rw [System.is_setFile, System.is_setPhase, if_pos rfl] at hq
  obtain ⟨ph, hph, hk⟩ := hq
  exact hfile ph hph hk

theorem guarded_step {K : Kernel} (hroot : ∀ p q, K.permitted p q = true) {s s' : System}
    {a : Action} {o : Option String} (h : Guarded s) (halone : Alone s a)
    (hs : (processes K).step s a = some (s', o)) : Guarded s' := by
  have hgone : ∀ p, Guarded (s.setPhase p none) := fun p => h.setPhase p fun ph hph => by cases hph
  have honly : ∀ {p : Pid} {phase : Phase}, s.phases p = some phase → phase.engaged = true →
      ∀ q, s.Is Phase.engaged q → q = p := fun hp hk q hq => h.one q _ hq ⟨_, hp, hk⟩
  have hnamed : ∀ {p : Pid} {phase : Phase}, s.phases p = some phase → phase.holds = true →
      s.pidFile = some (pidText p) := fun hp hk => h.named _ ⟨_, hp, hk⟩
  cases processStep_of_step hs with
  | spawn p free => exact h.setPhase p fun ph hph => (Option.some.inj hph).symm
  | refused p pid phase blocked => exact hgone p
  | cleared p phase free =>
    -- a process that holds the guard would have been found, and no other one is past its look
    refine guarded_advance (fun q hq => ?_) _ s.pidFile fun ph hph hk => ?_
    · obtain ⟨ph, hq, hk⟩ := hq
      obtain ⟨hcleared, hopened⟩ := halone q
      have hholds : s.Is Phase.holds q := by
        refine ⟨ph, hq, ?_⟩
        cases ph with
        | started => cases hk
        | cleared => exact absurd hq hcleared
        | opened => exact absurd hq hopened
        | acquired => rfl
        | running => rfl
        | done => rfl
      rw [blocking_of_named hroot (h.named q hholds) hholds.alive] at free
      cases free
    · cases hph
      cases hk
  | opened p phase =>
    refine guarded_advance (honly phase rfl) _ _ fun ph hph hk => ?_
    cases hph
    cases hk
  | notOpened p phase => exact hgone p
  | filled p phase => exact guarded_advance (honly phase rfl) _ _ fun _ _ _ => rfl
  | notFilled p n phase =>
    exact guarded_advance (honly phase rfl) _ _ fun ph hph _ => by cases hph
  | loaded p phase =>
    exact guarded_advance (honly phase rfl) _ s.pidFile fun _ _ _ => hnamed phase rfl
  | notLoaded p phase => exact hgone p
  | finish p phase =>
    exact guarded_advance (honly phase rfl) _ s.pidFile fun _ _ _ => hnamed phase rfl
  | released p phase =>
    exact guarded_advance (honly phase rfl) _ _ fun ph hph _ => by cases hph
  | notReleased p phase => exact hgone p
  | crash p => exact hgone p
  | otherStarts p => exact ⟨h.one, h.named⟩
  | otherEnds p => exact ⟨h.one, h.named⟩

def System.Quiet (s : System) : Prop := ∀ p, s.phases p = none

theorem guarded_of_quiet {s : System} (h : s.Quiet) : Guarded s := by
  have hnone : ∀ {kind : Phase → Bool} p, ¬s.Is kind p := by
    rintro kind p ⟨phase, hp, _⟩
    rw [h p] at hp
    cases hp
  exact ⟨fun p q hp => absurd hp (hnone p), fun p hp => absurd hp (hnone p)⟩

/-- **At most one daemon.**  In every run without overlapping looks that begins with no process in
the command, whatever the file had in it, whatever dies or fails and whichever PIDs are used again,
at most one process is past its look, and when it has written its PID the file names it. -/
theorem one_engaged {K : Kernel} (hroot : ∀ p q, K.permitted p q = true) {s₀ s : System}
    (hquiet : s₀.Quiet) {acts : List Action} {outs : List (Option String)}
    (halone : (processes K).Meets Alone s₀ acts) (h : (processes K).run s₀ acts = some (s, outs)) :
    (∀ p q, s.Is Phase.engaged p → s.Is Phase.engaged q → p = q) ∧
      ∀ p, s.Is Phase.holds p → s.pidFile = some (pidText p) := by
  have hguarded : Guarded s := by
    refine (processes K).run_induction_of_meets (P := fun _ _ s => Guarded s)
      (guarded_of_quiet hquiet) ?_ h halone
    intro _ _ s a s' o _ ih ha hs
    exact guarded_step hroot ih ha hs
  exact ⟨hguarded.one, hguarded.named⟩

/-! ### Refused starts -/

/-- No process leaves the file behind. -/
def Orderly (s : System) : Action → Prop
  | .fill _ failsAfter => failsAfter = none
  | .loadConfig _ ok => ok = true
  | .release _ ok => ok = true
  | .crash p => ¬s.Is Phase.opens p
  | _ => True

/-- The file is there only while a process has it open or holds it. -/
def Clean (s : System) : Prop := s.pidFile ≠ none → ∃ p, s.Is Phase.opens p

theorem Clean.setPhase {s : System} (h : Clean s) {p : Pid} (hp : ¬s.Is Phase.opens p)
    (phase : Option Phase) : Clean (s.setPhase p phase) := by
  intro hfile
  obtain ⟨q, hq⟩ := h hfile
  have hne : q ≠ p := fun he => hp (he ▸ hq)
  exact ⟨q, by rw [System.is_setPhase, if_neg hne]; exact hq⟩

theorem clean_of_opens {s : System} (p : Pid) {phase : Phase} (hphase : phase.opens = true)
    (content : Option String) : Clean ((s.setPhase p (some phase)).setFile content) :=
  fun _ => ⟨p, by rw [System.is_setFile, System.is_setPhase, if_pos rfl]; exact ⟨phase, rfl, hphase⟩⟩

theorem clean_step {K : Kernel} {s s' : System} {a : Action} {o : Option String} (h : Clean s)
    (ho : Orderly s a) (hs : (processes K).step s a = some (s', o)) : Clean s' := by
  have hclosed : ∀ {p : Pid} {phase : Phase}, s.phases p = some phase → phase.opens = false →
      ¬s.Is Phase.opens p := by
    rintro p phase hp hk ⟨ph, hph, hkind⟩
    rw [hp] at hph
    cases hph
    rw [hk] at hkind
    cases hkind
  cases processStep_of_step hs with
  | spawn p free =>
    refine h.setPhase (fun hp => ?_) _
    rw [hp.alive] at free
    cases free
  | refused p pid phase blocked => exact h.setPhase (hclosed phase rfl) _
  | cleared p phase free => exact h.setPhase (hclosed phase rfl) _
  | opened p phase => exact clean_of_opens p rfl _
  | notOpened p phase => exact h.setPhase (hclosed phase rfl) _
  | filled p phase => exact clean_of_opens p rfl _
  | notFilled p n phase => cases ho
  | loaded p phase => exact clean_of_opens p rfl s.pidFile
  | notLoaded p phase => cases ho
  | finish p phase => exact clean_of_opens p rfl s.pidFile
  | released p phase => exact fun hfile => absurd rfl hfile
  | notReleased p phase => cases ho
  | crash p => exact h.setPhase ho _
  | otherStarts p => exact h
  | otherEnds p => exact h

theorem alreadyRunning_injective {p q : Pid} (h : alreadyRunning p.val = alreadyRunning q.val) :
    p = q := by
  unfold alreadyRunning at h
  have hrepr := (String.append_right_inj _).mp ((String.append_left_inj _).mp
    ((String.append_left_inj _).mp ((String.append_left_inj _).mp h)))
  have hread := parseUnsigned_repr p.le_u32Max
  rw [hrepr, parseUnsigned_repr q.le_u32Max] at hread
  exact Subtype.ext (Option.some.inj hread).symm

/-- **Refused exactly for a daemon.**  In every run without overlapping looks that begins without
file and process and in which no process leaves the file behind, a start is refused exactly when a
process holds the file, with the PID of that process, and goes on exactly when none does. -/
theorem refused_iff {K : Kernel} (hroot : ∀ p q, K.permitted p q = true) {s₀ s s' : System}
    (hquiet : s₀.Quiet) (hfile : s₀.pidFile = none) {acts : List Action}
    {outs : List (Option String)} {p : Pid} {o : Option String}
    (hmeets : (processes K).Meets (fun s a => Alone s a ∧ Orderly s a) s₀ (acts ++ [.look p]))
    (h : (processes K).run s₀ acts = some (s, outs))
    (hs : (processes K).step s (.look p) = some (s', o)) :
    (∀ q, o = some (alreadyRunning q.val) ↔ s.Is Phase.holds q) ∧
      (o = none ↔ ∀ q, ¬s.Is Phase.holds q) := by
  obtain ⟨hmeets, ⟨halone, _⟩, _⟩ := ((processes K).meets_append h).mp hmeets
  have hinv : Guarded s ∧ Clean s := by
    refine (processes K).run_induction_of_meets (P := fun _ _ s => Guarded s ∧ Clean s)
      ⟨guarded_of_quiet hquiet, fun hne => absurd hfile hne⟩ ?_ h hmeets
    intro _ _ s a s' o _ ih ha hs
    exact ⟨guarded_step hroot ih.1 ha.1 hs, clean_step ih.2 ha.2 hs⟩
  obtain ⟨hguarded, hclean⟩ := hinv
  have hblocking : ∀ q, s.Is Phase.holds q → s.blocking K p = some q.val := fun q hq =>
    blocking_of_named hroot (hguarded.named q hq) hq.alive
  cases processStep_of_step hs with
  | refused _ pid phase blocked =>
    have hne : s.pidFile ≠ none := by
      intro hnone
      rw [System.blocking, hnone] at blocked
      cases blocked
    -- the file is that of a process past its look, which is not on its way to writing
    obtain ⟨r, ph, hr, hk⟩ := hclean hne
    have hholds : s.Is Phase.holds r := by
      refine ⟨ph, hr, ?_⟩
      cases ph with
      | started => cases hk
      | cleared => cases hk
      | opened => exact absurd hr (halone r).2
      | acquired => rfl
      | running => rfl
      | done => rfl
    have hpid : pid = r.val := Option.some.inj (blocked.symm.trans (hblocking r hholds))
    subst hpid
    refine ⟨fun q => ⟨fun hq => ?_, fun hq => ?_⟩, ?_⟩
    · rw [← alreadyRunning_injective (Option.some.inj hq)]
      exact hholds
    · rw [hguarded.one q r (System.engaged_of_holds hq) (System.engaged_of_holds hholds)]
    · exact iff_of_false (fun hq => (by cases hq)) fun hnone => hnone r hholds
  | cleared _ phase free =>
    have hnone : ∀ q, ¬s.Is Phase.holds q := by
      intro q hq
      rw [hblocking q hq] at free
      cases free
    exact ⟨fun q => iff_of_false (fun hq => (by cases hq)) (hnone q), iff_of_true rfl hnone⟩

/-! ### A second start -/

def seven : Pid := ⟨7, by decide⟩

def eight : Pid := ⟨8, by decide⟩

/-- All processes belong to root. -/
def rootKernel : Kernel := ⟨fun _ _ => true, fun _ _ _ => true⟩

def booted : System := ⟨none, fun _ => none, fun _ => false⟩

def startedTwice : List Action :=
  [.spawn seven, .look seven, .create seven true, .fill seven none, .loadConfig seven true,
    .spawn eight]

theorem startedTwice_meets : (processes rootKernel).Meets (fun s a => Alone s a ∧ Orderly s a)
    booted (startedTwice ++ [.look eight]) := by
  refine ((processes rootKernel).meets_cons_of_step rfl).mpr ⟨⟨trivial, trivial⟩, ?_⟩
  refine ((processes rootKernel).meets_cons_of_step rfl).mpr ⟨⟨fun q => ?_, trivial⟩, ?_⟩
  · simp [booted, System.setPhase, Function.update_apply]
  refine ((processes rootKernel).meets_cons_of_step rfl).mpr ⟨⟨trivial, trivial⟩, ?_⟩
  refine ((processes rootKernel).meets_cons_of_step rfl).mpr ⟨⟨trivial, rfl⟩, ?_⟩
  refine ((processes rootKernel).meets_cons_of_step rfl).mpr ⟨⟨trivial, rfl⟩, ?_⟩
  refine ((processes rootKernel).meets_cons_of_step rfl).mpr ⟨⟨trivial, trivial⟩, ?_⟩
  refine ((processes rootKernel).meets_cons_of_step rfl).mpr ⟨⟨fun q => ?_, trivial⟩, trivial⟩
  by_cases height : q = eight
  · simp [System.setPhase, System.setFile, height]
  · by_cases hseven : q = seven
    · have hne : seven ≠ eight := by decide
      simp [booted, System.setPhase, System.setFile, hseven, hne]
    · simp [booted, System.setPhase, System.setFile, height, hseven]

theorem one_engaged_startedTwice : ∃ s outs,
    (processes rootKernel).run booted (startedTwice ++ [.look eight]) = some (s, outs) ∧
      s.Is Phase.holds seven ∧ ∀ p, s.Is Phase.engaged p → p = seven := by
  have hrun : ((processes rootKernel).run booted (startedTwice ++ [.look eight])).map
      (fun r => r.1.phases seven) = some (some .running) := by decide +kernel
  obtain ⟨⟨s, outs⟩, h, hphase⟩ := Option.map_eq_some_iff.mp hrun
  have halone : (processes rootKernel).Meets Alone booted (startedTwice ++ [.look eight]) :=
    (processes rootKernel).meets_iff.mpr fun _ _ _ _ _ he hr =>
      ((processes rootKernel).meets_iff.mp startedTwice_meets _ _ _ _ _ he hr).1
  obtain ⟨hone, _⟩ := one_engaged (fun _ _ => rfl) (fun _ => rfl) halone h
  have hholds : s.Is Phase.holds seven := ⟨.running, hphase, rfl⟩
  exact ⟨s, outs, h, hholds, fun p hp => hone p seven hp (System.engaged_of_holds hholds)⟩

theorem refused_startedTwice : ∃ s outs s', (processes rootKernel).run booted startedTwice =
    some (s, outs) ∧ (processes rootKernel).step s (.look eight) =
      some (s', some (alreadyRunning 7)) := by
  have hrun : ((processes rootKernel).run booted startedTwice).map
      (fun r => (r.1.phases seven, ((processes rootKernel).step r.1 (.look eight)).isSome)) =
      some (some .running, true) := by decide +kernel
  obtain ⟨⟨s, outs⟩, h, hview⟩ := Option.map_eq_some_iff.mp hrun
  obtain ⟨hphase, hsome⟩ := Prod.mk.inj hview
  obtain ⟨⟨s', o⟩, hs⟩ := Option.isSome_iff_exists.mp hsome
  obtain ⟨hrefused, _⟩ := refused_iff (fun _ _ => rfl) (fun _ => rfl) rfl startedTwice_meets h hs
  rw [(hrefused seven).mpr ⟨.running, hphase, rfl⟩] at hs
  exact ⟨s, outs, s', h, hs⟩

/-- Two processes that look at the same time both become daemons. -/
example : ((processes rootKernel).run booted [.spawn seven, .spawn eight, .look seven, .look eight,
    .create seven true, .fill seven none, .create eight true, .fill eight none,
    .loadConfig seven true, .loadConfig eight true]).map
      (fun r => (r.1.phases seven, r.1.phases eight)) = some (some .running, some .running) := by
  decide +kernel

/-- A file that a crash has left refuses the next start under the same PID, because of itself. -/
example : ((processes rootKernel).run booted [.spawn seven, .look seven, .create seven true,
    .fill seven none, .crash seven, .spawn seven, .look seven]).map (fun r => r.2.getLast?) =
      some (some (some (alreadyRunning 7))) := by
  decide +kernel

end EdgeShield.Cli
