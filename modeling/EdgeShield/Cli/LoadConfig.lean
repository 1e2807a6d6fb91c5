import Mathlib.Data.List.Basic
import EdgeShield.Config.Toml

/-!
# Where the configuration comes from

`load_config` of `crates/cli/src/cli.rs`: the file that the user names, and where that does
not do, the first of four other paths that does.  The disk is a parameter, the same for every
read of one call.

Any error of the first file sends the call on to the others, not only that there is no such
file: `keepsExplicit_iff`.
-/

namespace EdgeShield.Cli

def fallbacks : List String :=
  ["/etc/edgeshield/config.toml", "/usr/local/etc/edgeshield/config.toml", "edgeshield.toml",
    "config.toml"]

section Load

variable (tomlFromStr : String → Except String Config) (files : Files) (path : String)

def tryFallback (fb : String) : Option (String × Config) :=
  if fb ≠ path then
    match Config.fromFile tomlFromStr files fb with
    | .ok cfg => some (fb, cfg)
    | .error _ => none
  else none

/-- `load_config`, with the lines that go to the standard error. -/
def loadConfig : Except FileError Config × List String :=
  match Config.fromFile tomlFromStr files path with
  | .ok cfg => (.ok cfg, [])
  | .error _ =>
    match fallbacks.findSome? (tryFallback tomlFromStr files path) with
    | some (fb, cfg) => (.ok cfg, ["info: loaded config from fallback path: " ++ fb])
    | none => (Config.fromFile tomlFromStr files path, [])

/-! ### The fallbacks -/

def Accepted (fb : String) : Prop := ∃ config, Config.fromFile tomlFromStr files fb = .ok config

/-- The first fallback other than `path` that is accepted, and its configuration. -/
def FirstAccepted (fb : String) (config : Config) : Prop :=
  Config.fromFile tomlFromStr files fb = .ok config ∧ fb ≠ path ∧
    ∃ before after, fallbacks = before ++ fb :: after ∧
      ∀ other ∈ before, other ≠ path → ¬Accepted tomlFromStr files other

variable {tomlFromStr files path}

theorem tryFallback_eq_some {fb fb' : String} {config : Config} :
    tryFallback tomlFromStr files path fb = some (fb', config) ↔
      fb' = fb ∧ fb ≠ path ∧ Config.fromFile tomlFromStr files fb = .ok config := by
  by_cases hne : fb = path
  · rw [tryFallback, if_neg (not_not.mpr hne)]
    refine ⟨fun h => ?_, fun h => absurd hne h.2.1⟩
    cases h
  · rw [tryFallback, if_pos hne]
    cases hfile : Config.fromFile tomlFromStr files fb with
    | error e =>
      refine ⟨fun h => ?_, fun h => ?_⟩
      · cases h
      · cases h.2.2
    | ok cfg =>
      refine ⟨fun h => ?_, fun ⟨hfb, _, hcfg⟩ => ?_⟩
      · cases h
        exact ⟨rfl, hne, rfl⟩
      · cases hcfg
        rw [hfb]

theorem tryFallback_eq_none {fb : String} :
    tryFallback tomlFromStr files path fb = none ↔
      (fb ≠ path → ¬Accepted tomlFromStr files fb) := by
  rw [Option.eq_none_iff_forall_ne_some]
  refine ⟨fun h hne haccepted => ?_, fun h found hfound => ?_⟩
  · obtain ⟨config, hconfig⟩ := haccepted
    exact h (fb, config) (tryFallback_eq_some.mpr ⟨rfl, hne, hconfig⟩)
  · obtain ⟨_, hne, hconfig⟩ := tryFallback_eq_some.mp hfound
    exact h hne ⟨_, hconfig⟩

/-- **The loop finds the first fallback that is accepted.** -/
theorem findSome?_fallbacks {fb : String} {config : Config} :
    fallbacks.findSome? (tryFallback tomlFromStr files path) = some (fb, config) ↔
      FirstAccepted tomlFromStr files path fb config := by
  rw [List.findSome?_eq_some_iff]
  refine ⟨fun ⟨before, a, after, hsplit, hfound, hbefore⟩ => ?_, fun h => ?_⟩
  · obtain ⟨rfl, hne, hconfig⟩ := tryFallback_eq_some.mp hfound
    refine ⟨hconfig, hne, before, after, hsplit, fun other hother => ?_⟩
    exact tryFallback_eq_none.mp (hbefore other hother)
  · obtain ⟨hconfig, hne, before, after, hsplit, hbefore⟩ := h
    refine ⟨before, fb, after, hsplit, tryFallback_eq_some.mpr ⟨rfl, hne, hconfig⟩, ?_⟩
    intro other hother
    exact tryFallback_eq_none.mpr (hbefore other hother)

theorem findSome?_fallbacks_eq_none :
    fallbacks.findSome? (tryFallback tomlFromStr files path) = none ↔
      ∀ fb ∈ fallbacks, fb ≠ path → ¬Accepted tomlFromStr files fb := by
  rw [List.findSome?_eq_none_iff]
  exact forall₂_congr fun fb _ => tryFallback_eq_none

/-! ### The result -/

theorem loadConfig_of_ok {config : Config}
    (h : Config.fromFile tomlFromStr files path = .ok config) :
    loadConfig tomlFromStr files path = (.ok config, []) := by
  rw [loadConfig, h]

theorem loadConfig_of_firstAccepted {e : FileError} {fb : String} {config : Config}
    (h : Config.fromFile tomlFromStr files path = .error e)
    (hfirst : FirstAccepted tomlFromStr files path fb config) :
    loadConfig tomlFromStr files path =
      (.ok config, ["info: loaded config from fallback path: " ++ fb]) := by
  rw [loadConfig, h, findSome?_fallbacks.mpr hfirst]

theorem loadConfig_of_none {e : FileError}
    (h : Config.fromFile tomlFromStr files path = .error e)
    (hnone : ∀ fb ∈ fallbacks, fb ≠ path → ¬Accepted tomlFromStr files fb) :
    loadConfig tomlFromStr files path = (.error e, []) := by
  rw [loadConfig, h, findSome?_fallbacks_eq_none.mpr hnone]

theorem firstAccepted_or (tomlFromStr : String → Except String Config) (files : Files)
    (path : String) : (∃ fb config, FirstAccepted tomlFromStr files path fb config) ∨
      ∀ fb ∈ fallbacks, fb ≠ path → ¬Accepted tomlFromStr files fb := by
  cases hfind : fallbacks.findSome? (tryFallback tomlFromStr files path) with
  | none => exact .inr (findSome?_fallbacks_eq_none.mp hfind)
  | some found => exact .inl ⟨found.1, found.2, findSome?_fallbacks.mp hfind⟩

theorem fromFile_of_ok {content : String} (h : files path = .ok content) :
    Config.fromFile tomlFromStr files path =
      (Config.fromStr tomlFromStr content).mapError .invalid := by
  unfold Config.fromFile
  rw [h]
  rfl

theorem fromFile_of_error {e : String} (h : files path = .error e) :
    Config.fromFile tomlFromStr files path = .error (.read path e) := by
  unfold Config.fromFile
  rw [h]
  rfl

variable (tomlFromStr files path)

/-- A file that can be read is the configuration, for good or ill.  For one that cannot, it is
the first fallback that is accepted, and without one the error. -/
structure KeepsExplicit : Prop where
  readable : ∀ content, files path = .ok content →
    (loadConfig tomlFromStr files path).1 = Config.fromFile tomlFromStr files path
  unreadable : ∀ e, files path = .error e →
    (∃ fb config, FirstAccepted tomlFromStr files path fb config ∧
      (loadConfig tomlFromStr files path).1 = .ok config) ∨
    (∀ fb ∈ fallbacks, fb ≠ path → ¬Accepted tomlFromStr files fb) ∧
      (loadConfig tomlFromStr files path).1 = .error (.read path e)

/-- The file can be read and is rejected, and a fallback is accepted. -/
structure Masked : Prop where
  rejected : ∃ content e, files path = .ok content ∧
    Config.fromStr tomlFromStr content = .error e
  accepted : ∃ fb ∈ fallbacks, fb ≠ path ∧ Accepted tomlFromStr files fb

/-- **The file of the user stands exactly when it is not masked.** -/
theorem keepsExplicit_iff :
    KeepsExplicit tomlFromStr files path ↔ ¬Masked tomlFromStr files path := by
  refine ⟨fun h hmasked => ?_, fun h => ⟨fun content hcontent => ?_, fun e he => ?_⟩⟩
  · obtain ⟨⟨content, e, hcontent, hrejected⟩, fb, hfb, hne, haccepted⟩ := hmasked
    have hfile : Config.fromFile tomlFromStr files path = .error (.invalid e) := by
      rw [fromFile_of_ok hcontent, hrejected]
      rfl
    have hkept := h.readable content hcontent
    rcases firstAccepted_or tomlFromStr files path with ⟨fb', config, hfirst⟩ | hnone
    · rw [loadConfig_of_firstAccepted hfile hfirst, hfile] at hkept
      cases hkept
    · exact hnone fb hfb hne haccepted
  · cases hfile : Config.fromFile tomlFromStr files path with
    | ok config => rw [loadConfig_of_ok hfile]
    | error e =>
      have hnone : ∀ fb ∈ fallbacks, fb ≠ path → ¬Accepted tomlFromStr files fb := by
        intro fb hfb hne haccepted
        refine h ⟨⟨content, ?_⟩, fb, hfb, hne, haccepted⟩
        rw [fromFile_of_ok hcontent] at hfile
        cases hstr : Config.fromStr tomlFromStr content with
        | ok config =>
          rw [hstr] at hfile
          cases hfile
        | error e' => exact ⟨e', hcontent, rfl⟩
      rw [loadConfig_of_none hfile hnone]
  · have hfile := @fromFile_of_error tomlFromStr files path e he
    rcases firstAccepted_or tomlFromStr files path with ⟨fb, config, hfirst⟩ | hnone
    · refine .inl ⟨fb, config, hfirst, ?_⟩
      rw [loadConfig_of_firstAccepted hfile hfirst]
    · refine .inr ⟨hnone, ?_⟩
      rw [loadConfig_of_none hfile hnone]

end Load

/-- A configuration with a key whose interface was left empty, and one without a key in a
place where the daemon looks. -/
def guardedFiles : Files := fun path =>
  if path = "guarded.toml" then
    .ok ("interface = \"\"\n[api.auth]\n" ++
      "read_key_hash = \"60e05bd1b195af2f94112fa7197a5c88289058840ce7c6df9693756bc6250f55\"\n")
  else if path = "config.toml" then .ok "interface = \"eth0\"\n"
  else .error "No such file or directory (os error 2)"

/-- The file is rejected, and the daemon starts without a key. -/
theorem guardedFiles_masked :
    (Config.fromFile plainToml guardedFiles "guarded.toml").map Config.interface =
      .error (.invalid (.emptyInterface "")) ∧
    (loadConfig plainToml guardedFiles "guarded.toml").1.map
      (fun config => (config.interface, config.api.auth.isSome)) = .ok ("eth0", false) ∧
    ¬KeepsExplicit plainToml guardedFiles "guarded.toml" := by
  have hfile : (Config.fromFile plainToml guardedFiles "guarded.toml").map Config.interface =
      .error (.invalid (.emptyInterface "")) := by decide +kernel
  have hload : (loadConfig plainToml guardedFiles "guarded.toml").1.map
      (fun config => (config.interface, config.api.auth.isSome)) = .ok ("eth0", false) := by
    decide +kernel
  refine ⟨hfile, hload, fun h => ?_⟩
  rw [h.readable _ rfl] at hload
  cases hresult : Config.fromFile plainToml guardedFiles "guarded.toml" with
  | ok config =>
    rw [hresult] at hfile
    cases hfile
  | error e =>
    rw [hresult] at hload
    cases hload

end EdgeShield.Cli
