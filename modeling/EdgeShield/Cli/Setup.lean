import EdgeShield.Config.Config

/-!
# The setup wizard

`crates/cli/src/setup.rs`: `renderToml` writes a configuration from the answers of the user,
line by line, and `run` checks it with `Config.fromStr` before it goes to the disk.  The
random bytes of the key, SHA-256 and the disk are outside.
-/

namespace EdgeShield.Cli

open Lib

/-! ### What the user answers -/

structure MqttInputs where
  host : String
  port : UInt16
  topic : String
  username : Option String
  password : Option String

structure NtfyInputs where
  baseUrl : String
  topic : String
  token : Option String

structure WebhookInputs where
  url : String
  token : Option String

structure EmailInputs where
  host : String
  port : UInt16
  username : String
  password : String
  fromAddress : String
  toAddress : String

structure SetupInputs where
  interface : String
  apiPort : UInt16
  apiBindAddress : String
  logLevel : String
  databasePath : String
  generateApiKey : Bool
  mqtt : Option MqttInputs
  ntfy : Option NtfyInputs
  webhook : Option WebhookInputs
  email : Option EmailInputs

def SetupInputs.default : SetupInputs where
  interface := ""
  apiPort := 8080
  apiBindAddress := "0.0.0.0"
  logLevel := "info"
  databasePath := ""
  generateApiKey := false
  mqtt := none
  ntfy := none
  webhook := none
  email := none

/-! ### The key -/

structure ApiKey where
  text : String
  length : text.toList.length = 64
  hex : text.toList.all isAsciiHexdigit = true

def hexEncode (bytes : List UInt8) : String :=
  String.ofList (bytes.flatMap fun b =>
    [Nat.digitChar (b.toNat / 16), Nat.digitChar (b.toNat % 16)])

theorem length_hexEncode (bytes : List UInt8) :
    (hexEncode bytes).toList.length = 2 * bytes.length := by
  rw [hexEncode, String.toList_ofList]
  induction bytes with
  | nil => rfl
  | cons b bytes ih =>
    rw [List.flatMap_cons, List.length_append, ih, List.length_cons, List.length_cons,
      List.length_cons, List.length_nil]
    omega

theorem isAsciiHexdigit_digitChar : ∀ n < 16, isAsciiHexdigit (Nat.digitChar n) = true := by decide

theorem all_hexEncode (bytes : List UInt8) :
    (hexEncode bytes).toList.all isAsciiHexdigit = true := by
  rw [hexEncode, String.toList_ofList, List.all_flatMap, List.all_eq_true]
  intro b _
  have hb := b.toNat_lt
  have hhigh := isAsciiHexdigit_digitChar (b.toNat / 16) (by omega)
  have hlow := isAsciiHexdigit_digitChar (b.toNat % 16) (by omega)
  rw [List.all_cons, List.all_cons, List.all_nil, hhigh, hlow]
  rfl

/-- `generate_api_key_plaintext`, with the random bytes. -/
def generateApiKeyPlaintext (bytes : Vector UInt8 32) : ApiKey where
  text := hexEncode bytes.toList
  length := by rw [length_hexEncode, Vector.length_toList]
  hex := all_hexEncode bytes.toList

/-! ### The text -/

def tomlString (s : String) : String :=
  let escaped := replaceChar '"' "\\\"" (replaceChar '\\' "\\\\" s)
  "\"" ++ escaped ++ "\""

def keyLine (name text : String) : String := name ++ " = " ++ text ++ "\n"

def optionalLine (name : String) (o : Option String) : List String :=
  (o.map fun s => keyLine name (tomlString s)).toList

def renderComments : List String :=
  ["# EdgeShield configuration — generated by `edgeshield setup`\n",
    "# See https://github.com/edgeshield/edgeshield for the full reference.\n\n"]

def renderTop (inputs : SetupInputs) : List String :=
  renderComments ++
  [keyLine "interface" (tomlString inputs.interface),
    keyLine "api_port" (Nat.repr inputs.apiPort.toNat),
    keyLine "api_bind_address" (tomlString inputs.apiBindAddress),
    keyLine "log_level" (tomlString inputs.logLevel),
    "capture_buffer = 4096\n",
    keyLine "database_path" (tomlString inputs.databasePath)]

def renderAuth (sha256Hex : String → String) (plaintext : String) : List String :=
  let hash := sha256Hex plaintext
  ["\n[api.auth]\n",
    "# read_key (plaintext, shown once by setup): " ++ plaintext ++ "\n",
    keyLine "read_key_hash" (tomlString hash)]

def renderMqtt (m : MqttInputs) : List String :=
  ["\n[mqtt]\n",
    keyLine "host" (tomlString m.host),
    keyLine "port" (Nat.repr m.port.toNat),
    keyLine "topic" (tomlString m.topic)] ++
  (optionalLine "username" m.username ++ (optionalLine "password" m.password ++ ["qos = 1\n"]))

def renderNtfy (n : NtfyInputs) : List String :=
  ["\n[ntfy]\n",
    keyLine "base_url" (tomlString n.baseUrl),
    keyLine "topic" (tomlString n.topic)] ++
  optionalLine "token" n.token

def renderWebhook (w : WebhookInputs) : List String :=
  ["\n[webhook]\n",
    keyLine "url" (tomlString w.url)] ++
  (optionalLine "token" w.token ++ ["timeout_seconds = 10\n"])

def renderEmail (e : EmailInputs) : List String :=
  ["\n[email]\n",
    keyLine "host" (tomlString e.host),
    keyLine "port" (Nat.repr e.port.toNat),
    keyLine "username" (tomlString e.username),
    keyLine "password" (tomlString e.password),
    keyLine "from" (tomlString e.fromAddress),
    keyLine "to" (tomlString e.toAddress),
    "starttls = true\n",
    "subject_prefix = \"[EdgeShield]\"\n"]

def renderRules : List String :=
  ["\n[[rules]]\n",
    "name = \"new_device\"\n",
    "condition = \"new_device\"\n",
    "severity = \"info\"\n",
    "cooldown_seconds = 0\n"]

/-- `render_toml`: the pieces in the order in which they are pushed. -/
def renderToml (sha256Hex : String → String) (inputs : SetupInputs) (plaintext : Option String) :
    String :=
  String.join (renderTop inputs ++
    (plaintext.elim [] (renderAuth sha256Hex) ++
      (inputs.mqtt.elim [] renderMqtt ++
        (inputs.ntfy.elim [] renderNtfy ++
          (inputs.webhook.elim [] renderWebhook ++
            (inputs.email.elim [] renderEmail ++ renderRules))))))

/-! ### The run -/

/-- What the disk says: whether the file is there, the directory it goes to if that has a
name, and what comes of making the directory and of writing. -/
structure Disk where
  path : String
  fileExists : Bool
  parent : Option String
  createDirAll : Except String Unit
  write : Except String Unit

inductive SetupError where
  | message (text : String)
  | config (text : String) (cause : ConfigError)
  | disk (text cause : String)

section Run

variable (sha256Hex : String → String) (tomlFromStr : String → Except String Config)

/-- `run`: the result, and the text that was written. -/
def run (inputs : SetupInputs) (bytes : Vector UInt8 32) (disk : Disk) (force : Bool) :
    Except SetupError (Option ApiKey) × Option String :=
  if disk.fileExists ∧ ¬force then
    (.error (.message ("config file already exists at " ++ disk.path ++
      ". Re-run with --force to overwrite.")), none)
  else
    let apiKeyPlaintext :=
      if inputs.generateApiKey then some (generateApiKeyPlaintext bytes) else none
    let toml := renderToml sha256Hex inputs (apiKeyPlaintext.map ApiKey.text)
    match Config.fromStr tomlFromStr toml with
    | .error e =>
      (.error (.config "generated config failed validation (this is a bug)" e), none)
    | .ok _ =>
      match disk.parent, disk.createDirAll with
      | some parent, .error e =>
        (.error (.disk ("failed to create config directory " ++ parent) e), none)
      | _, _ =>
        match disk.write with
        | .error e => (.error (.disk ("failed to write config to " ++ disk.path) e), none)
        | .ok () => (.ok apiKeyPlaintext, some toml)

end Run

/-! ### What is written -/

def SetupInputs.generatedKey (inputs : SetupInputs) (bytes : Vector UInt8 32) : Option ApiKey :=
  if inputs.generateApiKey then some (generateApiKeyPlaintext bytes) else none

def SetupInputs.rendered (sha256Hex : String → String) (inputs : SetupInputs)
    (bytes : Vector UInt8 32) : String :=
  renderToml sha256Hex inputs ((inputs.generatedKey bytes).map ApiKey.text)

theorem run_written {sha256Hex : String → String} {tomlFromStr : String → Except String Config}
    {inputs : SetupInputs} {bytes : Vector UInt8 32} {disk : Disk} {force : Bool} {text : String}
    (h : (run sha256Hex tomlFromStr inputs bytes disk force).2 = some text) :
    text = inputs.rendered sha256Hex bytes := by
  unfold run at h
  split at h
  · cases h
  · dsimp only at h
    split at h
    · cases h
    · split at h
      · cases h
      · split at h
        · cases h
        · cases h
          rfl

end EdgeShield.Cli
