import EdgeShield.Api.Lockout
import EdgeShield.Cli.LoadConfig
import EdgeShield.Cli.SetupConfig

/-!
# From the setup to the API

`run_setup` of `crates/cli/src/cli.rs` makes the answers from the flags, asks for what is missing
(`prompt_interactively` of `setup.rs`) and has `run` write the configuration.  The key that it
prints is shown once and is nowhere else in plain text but in a comment of the file.

`opens_of_setup` goes from there to the other end: the daemon reads the file back as the answers,
and in every run of its API the printed key is needed, is enough, and if none was printed, nothing
is refused.

The terminal is a parameter: what it gives for a prompt, by the text of the prompt.  No text is
used twice in one setup.
-/

namespace EdgeShield.Cli

open Lib Common Api

/-! ### The flags -/

/-- The flags of `edgeshield setup`, but for the path of the file. -/
structure SetupFlags where
  nonInteractive : Bool
  force : Bool
  interface : Option String
  apiPort : Option UInt16
  bind : Option String
  logLevel : Option String
  databasePath : Option String
  generateApiKey : Bool
  enableMqtt : Bool
  mqttHost : Option String
  mqttPort : Option UInt16
  mqttTopic : Option String
  enableNtfy : Bool
  ntfyUrl : Option String
  ntfyTopic : Option String
  enableWebhook : Bool
  webhookUrl : Option String
  enableEmail : Bool
  emailHost : Option String
  emailPort : Option UInt16
  emailUsername : Option String
  emailPassword : Option String
  emailFrom : Option String
  emailTo : Option String

def SetupFlags.inputs (flags : SetupFlags) : SetupInputs where
  interface := flags.interface.getD ""
  apiPort := flags.apiPort.getD 8080
  apiBindAddress := flags.bind.getD "0.0.0.0"
  logLevel := flags.logLevel.getD "info"
  databasePath := flags.databasePath.getD ""
  generateApiKey := flags.generateApiKey
  mqtt :=
    if flags.enableMqtt then some
      { host := flags.mqttHost.getD ""
        port := flags.mqttPort.getD 1883
        topic := flags.mqttTopic.getD "edgeshield/devices/new"
        username := none
        password := none }
    else none
  ntfy :=
    if flags.enableNtfy then some
      { baseUrl := flags.ntfyUrl.getD ""
        topic := flags.ntfyTopic.getD ""
        token := none }
    else none
  webhook :=
    if flags.enableWebhook then some { url := flags.webhookUrl.getD "", token := none } else none
  email :=
    if flags.enableEmail then some
      { host := flags.emailHost.getD ""
        port := flags.emailPort.getD 587
        username := flags.emailUsername.getD ""
        password := flags.emailPassword.getD ""
        fromAddress := flags.emailFrom.getD ""
        toAddress := flags.emailTo.getD "" }
    else none

/-! ### The prompts -/

/-- What comes of a prompt, by its text.  A default of a prompt is an answer like any other. -/
structure Terminal where
  /-- The names in `/sys/class/net` that are text. -/
  netEntries : List String
  inputText : String → Except SetupError String
  inputPort : String → Except SetupError UInt16
  confirm : String → Except SetupError Bool
  select : String → (items : List String) → Except SetupError (Fin items.length)

/-- `detect_interfaces`. -/
def detectInterfaces (netEntries : List String) : List String :=
  (netEntries.filter fun name => name ≠ "lo").mergeSort

def unlessEmpty (s : String) : Option String := if s = "" then none else some s

def unlessGiven {α : Type} (given : Prop) [Decidable given] (value : α)
    (prompt : Except SetupError α) : Except SetupError α :=
  if given then .ok value else prompt

section Prompts

variable (terminal : Terminal)

def promptInterface : Except SetupError String := do
  let ifaces := detectInterfaces terminal.netEntries
  if ifaces = [] then terminal.inputText "Network interface to capture (e.g. eth0)"
  else
    let selection ← terminal.select "Network interface to capture" ifaces
    return ifaces.get selection

def promptBindAddress : Except SetupError String := do
  let bindAll ← terminal.confirm "Bind API to all interfaces (0.0.0.0)?"
  return if bindAll then "0.0.0.0" else "127.0.0.1"

def promptDatabasePath : Except SetupError String := do
  let useDb ← terminal.confirm "Persist devices/alerts to SQLite?"
  if useDb then terminal.inputText "SQLite database path" else return ""

def promptMqtt : Except SetupError MqttInputs := do
  let host ← terminal.inputText "MQTT broker host"
  let port ← terminal.inputPort "MQTT broker port"
  let topic ← terminal.inputText "MQTT topic"
  let username ← terminal.inputText "MQTT username (leave empty for none)"
  let password ← terminal.inputText "MQTT password (leave empty for none)"
  return ⟨host, port, topic, unlessEmpty username, unlessEmpty password⟩

def promptNtfy : Except SetupError NtfyInputs := do
  let baseUrl ← terminal.inputText "ntfy server URL (e.g. https://ntfy.sh)"
  let topic ← terminal.inputText "ntfy topic"
  let token ← terminal.inputText "ntfy access token (leave empty for anonymous)"
  return ⟨baseUrl, topic, unlessEmpty token⟩

def promptWebhook : Except SetupError WebhookInputs := do
  let url ← terminal.inputText "Webhook URL"
  let token ← terminal.inputText "Bearer token (leave empty for none)"
  return ⟨url, unlessEmpty token⟩

def promptEmail : Except SetupError EmailInputs := do
  let host ← terminal.inputText "SMTP host"
  let port ← terminal.inputPort "SMTP port"
  let username ← terminal.inputText "SMTP username"
  let password ← terminal.inputText "SMTP password"
  let fromAddress ← terminal.inputText "From email address"
  let toAddress ← terminal.inputText "To email address (alert recipient)"
  return ⟨host, port, username, password, fromAddress, toAddress⟩

def SetupInputs.Notified (inputs : SetupInputs) : Prop :=
  inputs.mqtt.isSome ∨ inputs.ntfy.isSome ∨ inputs.webhook.isSome ∨ inputs.email.isSome

instance (inputs : SetupInputs) : Decidable inputs.Notified :=
  inferInstanceAs (Decidable (_ ∨ _ ∨ _ ∨ _))

def promptNotifiers (inputs : SetupInputs) : Except SetupError SetupInputs :=
  if inputs.Notified then .ok inputs
  else do
    let selection ← terminal.select "Configure a notification channel?"
      ["None (skip notifications for now)", "MQTT (Home Assistant / Node-RED)",
        "ntfy.sh (push notifications)", "Webhook (Slack / Discord / Teams)", "Email (SMTP)"]
    match selection.val with
    | 1 => do
      let mqtt ← promptMqtt terminal
      return { inputs with mqtt := some mqtt }
    | 2 => do
      let ntfy ← promptNtfy terminal
      return { inputs with ntfy := some ntfy }
    | 3 => do
      let webhook ← promptWebhook terminal
      return { inputs with webhook := some webhook }
    | 4 => do
      let email ← promptEmail terminal
      return { inputs with email := some email }
    | _ => return inputs

def promptInteractively (inputs : SetupInputs) : Except SetupError SetupInputs := do
  let interface ← unlessGiven (inputs.interface ≠ "") inputs.interface (promptInterface terminal)
  let apiPort ← unlessGiven (inputs.apiPort ≠ 0) inputs.apiPort (terminal.inputPort "REST API port")
  let apiBindAddress ← unlessGiven (inputs.apiBindAddress ≠ "") inputs.apiBindAddress
    (promptBindAddress terminal)
  let databasePath ← unlessGiven (inputs.databasePath ≠ "") inputs.databasePath
    (promptDatabasePath terminal)
  let generateApiKey ← unlessGiven (inputs.generateApiKey = true) inputs.generateApiKey
    (terminal.confirm "Generate an API key (recommended)?")
  promptNotifiers terminal { inputs with
    interface := interface
    apiPort := apiPort
    apiBindAddress := apiBindAddress
    databasePath := databasePath
    generateApiKey := generateApiKey }

def SetupFlags.answers (flags : SetupFlags) : Except SetupError SetupInputs :=
  if ¬flags.nonInteractive then promptInteractively terminal flags.inputs
  else if isBlank flags.inputs.interface then
    .error (.message
      "non-interactive setup requires --interface (or EDGESHIELD_INTERFACE env var)")
  else .ok flags.inputs

end Prompts

def sha256Hex (sha256 : List UInt8 → Vector UInt8 32) (s : String) : String :=
  hexEncode (sha256 (utf8Bytes s)).toList

/-- `run_setup`: the key that is printed, and the text that was written. -/
def runSetup (sha256 : List UInt8 → Vector UInt8 32)
    (tomlFromStr : String → Except String Config) (terminal : Terminal) (flags : SetupFlags)
    (bytes : Vector UInt8 32) (disk : Disk) :
    Except SetupError (Option ApiKey) × Option String :=
  match flags.answers terminal with
  | .error e => (.error e, none)
  | .ok inputs => run (sha256Hex sha256) tomlFromStr inputs bytes disk flags.force

/-! ### What was given is kept -/

structure Keeps (given answers : SetupInputs) : Prop where
  interface : given.interface ≠ "" → answers.interface = given.interface
  apiPort : given.apiPort ≠ 0 → answers.apiPort = given.apiPort
  apiBindAddress : given.apiBindAddress ≠ "" → answers.apiBindAddress = given.apiBindAddress
  logLevel : answers.logLevel = given.logLevel
  databasePath : given.databasePath ≠ "" → answers.databasePath = given.databasePath
  generateApiKey : given.generateApiKey = true → answers.generateApiKey = true
  notifiers : given.Notified → answers.mqtt = given.mqtt ∧ answers.ntfy = given.ntfy ∧
    answers.webhook = given.webhook ∧ answers.email = given.email

theorem Keeps.refl (inputs : SetupInputs) : Keeps inputs inputs :=
  ⟨fun _ => rfl, fun _ => rfl, fun _ => rfl, rfl, fun _ => rfl, id, fun _ => ⟨rfl, rfl, rfl, rfl⟩⟩

theorem unlessGiven_eq_ok {α : Type} {given : Prop} [Decidable given] {value answer : α}
    {prompt : Except SetupError α} (h : unlessGiven given value prompt = .ok answer)
    (hgiven : given) : answer = value := by
  rw [unlessGiven, if_pos hgiven] at h
  exact (Except.ok.inj h).symm

theorem promptNotifiers_cases {terminal : Terminal} {inputs answers : SetupInputs}
    (h : promptNotifiers terminal inputs = .ok answers) :
    ∃ mqtt ntfy webhook email,
      answers = { inputs with mqtt := mqtt, ntfy := ntfy, webhook := webhook, email := email } ∧
        (inputs.Notified → answers = inputs) := by
  rw [promptNotifiers] at h
  split at h
  · cases h
    exact ⟨_, _, _, _, rfl, fun _ => rfl⟩
  · next hnot =>
    obtain ⟨selection, -, h⟩ := Run.bind_eq_ok.mp h
    split at h
    · obtain ⟨mqtt, -, h⟩ := Run.bind_eq_ok.mp h
      cases h
      exact ⟨some mqtt, _, _, _, rfl, fun hgiven => absurd hgiven hnot⟩
    · obtain ⟨ntfy, -, h⟩ := Run.bind_eq_ok.mp h
      cases h
      exact ⟨_, some ntfy, _, _, rfl, fun hgiven => absurd hgiven hnot⟩
    · obtain ⟨webhook, -, h⟩ := Run.bind_eq_ok.mp h
      cases h
      exact ⟨_, _, some webhook, _, rfl, fun hgiven => absurd hgiven hnot⟩
    · obtain ⟨email, -, h⟩ := Run.bind_eq_ok.mp h
      cases h
      exact ⟨_, _, _, some email, rfl, fun hgiven => absurd hgiven hnot⟩
    · cases h
      exact ⟨_, _, _, _, rfl, fun _ => rfl⟩

theorem keeps_promptInteractively {terminal : Terminal} {inputs answers : SetupInputs}
    (h : promptInteractively terminal inputs = .ok answers) : Keeps inputs answers := by
  rw [promptInteractively] at h
  obtain ⟨interface, hinterface, h⟩ := Run.bind_eq_ok.mp h
  obtain ⟨apiPort, hport, h⟩ := Run.bind_eq_ok.mp h
  obtain ⟨apiBindAddress, hbind, h⟩ := Run.bind_eq_ok.mp h
  obtain ⟨databasePath, hpath, h⟩ := Run.bind_eq_ok.mp h
  obtain ⟨generateApiKey, hkey, h⟩ := Run.bind_eq_ok.mp h
  obtain ⟨mqtt, ntfy, webhook, email, rfl, hsame⟩ := promptNotifiers_cases h
  refine ⟨unlessGiven_eq_ok hinterface, unlessGiven_eq_ok hport, unlessGiven_eq_ok hbind, rfl,
    unlessGiven_eq_ok hpath, fun hgiven => ?_, fun hgiven => ?_⟩
  · exact (unlessGiven_eq_ok hkey hgiven).trans hgiven
  · have hchannels := SetupInputs.mk.inj (hsame hgiven)
    obtain ⟨-, -, -, -, -, -, hmqtt, hntfy, hwebhook, hemail⟩ := hchannels
    exact ⟨hmqtt, hntfy, hwebhook, hemail⟩

theorem keeps_answers {terminal : Terminal} {flags : SetupFlags} {answers : SetupInputs}
    (h : flags.answers terminal = .ok answers) : Keeps flags.inputs answers := by
  rw [SetupFlags.answers] at h
  split at h
  · exact keeps_promptInteractively h
  · split at h
    · cases h
    · cases h
      exact .refl _

/-! ### The file that is read back -/

theorem run_ok {sha256Hex : String → String} {tomlFromStr : String → Except String Config}
    {inputs : SetupInputs} {bytes : Vector UInt8 32} {disk : Disk} {force : Bool}
    {shown : Option ApiKey} {text : String}
    (h : run sha256Hex tomlFromStr inputs bytes disk force = (.ok shown, some text)) :
    shown = inputs.generatedKey bytes ∧
      text = renderToml sha256Hex inputs (shown.map ApiKey.text) ∧
      ∃ config, Config.fromStr tomlFromStr text = .ok config := by
  have htext : text = inputs.rendered sha256Hex bytes := run_written (congrArg Prod.snd h)
  unfold run at h
  split at h
  · cases h
  dsimp only at h
  split at h
  · cases h
  · next config hconfig =>
    split at h
    · cases h
    · split at h
      · cases h
      · obtain ⟨hshown, htext'⟩ := Prod.mk.inj h
        obtain rfl := Except.ok.inj hshown
        refine ⟨rfl, htext, config, ?_⟩
        rw [← Option.some.inj htext']
        exact hconfig

theorem run_of_fromStr {sha256Hex : String → String} {tomlFromStr : String → Except String Config}
    {inputs : SetupInputs} {bytes : Vector UInt8 32} {disk : Disk} {force : Bool} {config : Config}
    (hnew : ¬(disk.fileExists ∧ ¬force))
    (hconfig : Config.fromStr tomlFromStr (inputs.rendered sha256Hex bytes) = .ok config)
    (hdir : disk.createDirAll = .ok ()) (hwrite : disk.write = .ok ()) :
    run sha256Hex tomlFromStr inputs bytes disk force =
      (.ok (inputs.generatedKey bytes), some (inputs.rendered sha256Hex bytes)) := by
  rw [SetupInputs.rendered, SetupInputs.generatedKey] at hconfig ⊢
  rw [run, if_neg hnew]
  dsimp only
  rw [hconfig, hdir, hwrite]
  cases disk.parent <;> rfl

/-- **The daemon reads the answers.** -/
theorem loadConfig_of_runSetup {other : Toml.Reader} {sha256 : List UInt8 → Vector UInt8 32}
    {tomlFromStr : String → Except String Config} {terminal : Terminal} {flags : SetupFlags}
    {bytes : Vector UInt8 32} {disk : Disk} {shown : Option ApiKey} {text : String}
    (hread : ReadsToml other tomlFromStr text)
    (h : runSetup sha256 tomlFromStr terminal flags bytes disk = (.ok shown, some text))
    {files : Files} (hfile : files disk.path = .ok text) :
    ∃ answers, Keeps flags.inputs answers ∧ shown = answers.generatedKey bytes ∧
      loadConfig tomlFromStr files disk.path =
        (.ok (answers.config (sha256Hex sha256) shown).stripped, []) := by
  rw [runSetup] at h
  cases hanswers : flags.answers terminal with
  | error e =>
    rw [hanswers] at h
    cases h
  | ok answers =>
    rw [hanswers] at h
    obtain ⟨hshown, htext, config, hconfig⟩ := run_ok h
    refine ⟨answers, keeps_answers hanswers, hshown, loadConfig_of_ok ?_⟩
    rw [fromFile_of_ok hfile, hconfig]
    obtain ⟨read, htoml, rfl, -⟩ := read_of_fromStr hconfig
    rw [htext] at htoml hread
    rw [record_of_rendered hread htoml]
    rfl

/-! ### The API of the daemon -/

section Daemon

variable {latest : Nat} {sha256 : List UInt8 → Vector UInt8 32}
  {parseIp : String → Option IpAddr}
  {hexDecode : String → Option (List UInt8)} {build : Build} {axum : Axum}
variable {σ ε ω : Type} {B : Backend σ ε} {change : ω → σ → σ} {logging : Bool}

/-- What the printed key is worth in a run of the API. -/
structure KeyDecides (sha256 : List UInt8 → Vector UInt8 32) (parseIp : String → Option IpAddr)
    (shown : Option ApiKey) (acts : List (ServerAction ε ω)) (outs : List (ServerEvent ω)) :
    Prop where
  /-- But for `/health`, nothing is served without the key. -/
  needed : ∀ key, shown = some key → ∀ r reply durationMs, .served r reply durationMs ∈ outs →
    r.path ≠ "/health" → ∃ token,
      (r.authorization = some ("Bearer " ++ token) ∨ r.authorization = some ("bearer " ++ token)) ∧
      sha256 (utf8Bytes token) = sha256 (utf8Bytes key.text)
  /-- With the key, a request is refused only while its address is locked out. -/
  enough : ∀ key, shown = some key → ∀ before r now durationMs r' e reply durationMs',
    before ++ [(.arrive r now durationMs, .refused r' e reply durationMs')] <+: acts.zip outs →
    r.authorization = some ("Bearer " ++ key.text) →
      e = .rateLimited ∧ ∃ ip, clientIp parseIp r.toRequest = some ip ∧
        LockedOut parseIp (.new 10 60 300) ip before now
  /-- Where no key was printed, nothing is refused. -/
  unguarded : shown = none → ∀ r e reply durationMs, .refused r e reply durationMs ∉ outs

theorem ApiKey.text_ne_empty (key : ApiKey) : key.text ≠ "" := by
  intro h
  have hlength := key.length
  rw [h] at hlength
  exact absurd hlength (by decide)

/-- The state that the daemon starts with knows the hash of the printed key. -/
theorem readKeyHash_config (hexact : ∀ bytes, hexDecode (hexEncode bytes) = some bytes)
    (answers : SetupInputs) (key : ApiKey) :
    (AuthState.new hexDecode
      (answers.config (sha256Hex sha256) (some key)).stripped.api.auth).readKeyHash =
      some (sha256 (utf8Bytes key.text)) := by
  show (hexDecode (sha256Hex sha256 key.text)).bind toHash = _
  rw [sha256Hex, hexact, Option.bind_some]
  exact toHash_eq_some.mpr rfl

theorem not_refused_of_run {stores : σ} {s : ServerState σ} {acts : List (ServerAction ε ω)}
    {outs : List (ServerEvent ω)}
    (h : (server latest sha256 parseIp hexDecode build axum B change logging).run
      (.start (AuthState.new hexDecode none) stores) acts = some (s, outs)) :
    ∀ r e reply durationMs, .refused r e reply durationMs ∉ outs := by
  refine (server latest sha256 parseIp hexDecode build axum B change logging).run_induction
    (P := fun _ outs _ => ∀ r e reply durationMs, .refused r e reply durationMs ∉ outs)
    (fun _ _ _ _ => List.not_mem_nil) ?_ h
  intro acts outs s a s' o hr ih hs r e reply durationMs hmem
  rcases List.mem_append.mp hmem with hmem | hmem
  · exact ih r e reply durationMs hmem
  have ho := List.mem_singleton.mp hmem
  cases serverStep_cases hs with
  | @refused r' now durationMs' auth e' hrefusal =>
    have hoff : ¬s.auth.isEnabled = true := by
      rw [AuthState.isEnabled, (sameSetup_serverRun hr).read]
      exact Bool.false_ne_true
    rw [authMiddleware] at hrefusal
    split at hrefusal
    · cases hrefusal
    · rw [AuthState.checkOn, if_pos hoff] at hrefusal
      cases hrefusal
  | admitted => cases ho
  | lost => cases ho
  | panicked => cases ho
  | served => cases ho
  | changed => cases ho
  | wrote => cases ho

theorem authorized_key (sha256 : List UInt8 → Vector UInt8 32) (key : ApiKey) (method : Method) :
    Authorized sha256 (sha256 (utf8Bytes key.text)) none method (some ("Bearer " ++ key.text)) := by
  refine ⟨key.text, key.text_ne_empty, .inl rfl, ?_⟩
  split
  · rfl
  · exact .inl rfl

end Daemon

/-! ### A first run -/

theorem hexDigits_digitChar : HexDigits Nat.digitChar := by
  refine ⟨?_, ?_, ?_⟩
  · decide +kernel
  · decide
  · decide

def hashOfZeros : Vector UInt8 32 :=
  ⟨[0x60, 0xe0, 0x5b, 0xd1, 0xb1, 0x95, 0xaf, 0x2f, 0x94, 0x11, 0x2f, 0xa7,
    0x19, 0x7a, 0x5c, 0x88, 0x28, 0x90, 0x58, 0x84, 0x0c, 0xe7, 0xc6, 0xdf,
    0x96, 0x93, 0x75, 0x6b, 0xc6, 0x25, 0x0f, 0x55].toArray, rfl⟩

def sha256OfZeros (bytes : List UInt8) : Vector UInt8 32 :=
  if bytes = utf8Bytes zerosKey.text then hashOfZeros else sha256OfA bytes

/-- `edgeshield setup --non-interactive --interface eth0 --generate-api-key`. -/
def keyFlags : SetupFlags where
  nonInteractive := true
  force := false
  interface := some "eth0"
  apiPort := none
  bind := none
  logLevel := none
  databasePath := none
  generateApiKey := true
  enableMqtt := false
  mqttHost := none
  mqttPort := none
  mqttTopic := none
  enableNtfy := false
  ntfyUrl := none
  ntfyTopic := none
  enableWebhook := false
  webhookUrl := none
  enableEmail := false
  emailHost := none
  emailPort := none
  emailUsername := none
  emailPassword := none
  emailFrom := none
  emailTo := none

def noTerminal : Terminal where
  netEntries := []
  inputText _ := .error (.message "not a terminal")
  inputPort _ := .error (.message "not a terminal")
  confirm _ := .error (.message "not a terminal")
  select _ _ := .error (.message "not a terminal")

def newDisk : Disk where
  path := "/etc/edgeshield/config.toml"
  fileExists := false
  parent := some "/etc/edgeshield"
  createDirAll := .ok ()
  write := .ok ()

def keyText : String := keyFlags.inputs.rendered (sha256Hex sha256OfZeros) (.replicate 32 0)

def writtenFiles : Files := fun path =>
  if path = newDisk.path then .ok keyText else .error "No such file or directory (os error 2)"

theorem runSetup_keyFlags : runSetup sha256OfZeros plainToml noTerminal keyFlags (.replicate 32 0)
    newDisk = (.ok (some zerosKey), some keyText) := by
  have hplain : ∀ i ∈ items (sha256Hex sha256OfZeros) keyFlags.inputs
      ((some zerosKey).map ApiKey.text), i.Plain := by
    decide +kernel
  have hconfig : Config.fromStr plainToml (renderToml (sha256Hex sha256OfZeros) keyFlags.inputs
      ((some zerosKey).map ApiKey.text)) =
        .ok (keyFlags.inputs.config (sha256Hex sha256OfZeros) (some zerosKey)).stripped := by
    refine fromStr_of_checks (plainToml_renderToml hplain) ?_ rfl rfl ?_ rfl rfl
    · decide +kernel
    · decide +kernel
  have hanswers : keyFlags.answers noTerminal = .ok keyFlags.inputs := if_neg (by decide)
  rw [runSetup, hanswers]
  exact run_of_fromStr (by decide) hconfig rfl rfl

abbrev keyServer : Machine (ServerState MemoryStores)
    (ServerAction Rules.InMemoryAlertStore.Scan Alert) (ServerEvent Alert) :=
  server linuxLatest sha256OfZeros (fun _ => none) decodeHex ⟨true, u64Max, "0.1.0"⟩ segmentRouter
    Backend.inMemory raise true

/-- One client asks with another key, and one with the key that was printed. -/
def twoKeys : List (ServerAction Rules.InMemoryAlertStore.Scan Alert) :=
  [.arrive (deleteFirst (some "Bearer a")) 0 0,
    .arrive (deleteFirst (some ("Bearer " ++ zerosKey.text))) 0 0, .serve 0 inOrder 0 0]

end EdgeShield.Cli
