import EdgeShield.Config.Toml
import EdgeShield.Cli.SetupText

/-!
# What the setup wizard's text is read as

`parse_renderToml` is what the TOML reader makes of the text: nothing, when there is a control
character in one of the strings, and otherwise the table of the answers.  No answer gets out
of its string.  `setup_not_injected` takes this through `Config.fromStr`.
-/

namespace EdgeShield.Cli

open Lib Lib.Toml

/-! ### The table -/

def topEntries (inputs : SetupInputs) : Table :=
  [("interface", .string inputs.interface), ("api_port", .integer inputs.apiPort.toNat),
    ("api_bind_address", .string inputs.apiBindAddress), ("log_level", .string inputs.logLevel),
    ("capture_buffer", .integer 4096), ("database_path", .string inputs.databasePath)]

def authEntries (sha256Hex : String → String) (key : ApiKey) : List (String × Option Value) :=
  [("read_key_hash", some (.string (sha256Hex key.text)))]

def mqttEntries (m : MqttInputs) : List (String × Option Value) :=
  [("host", some (.string m.host)), ("port", some (.integer m.port.toNat)),
    ("topic", some (.string m.topic)), ("username", m.username.map .string),
    ("password", m.password.map .string), ("qos", some (.integer 1))]

def ntfyEntries (n : NtfyInputs) : List (String × Option Value) :=
  [("base_url", some (.string n.baseUrl)), ("topic", some (.string n.topic)),
    ("token", n.token.map .string)]

def webhookEntries (w : WebhookInputs) : List (String × Option Value) :=
  [("url", some (.string w.url)), ("token", w.token.map .string),
    ("timeout_seconds", some (.integer 10))]

def emailEntries (e : EmailInputs) : List (String × Option Value) :=
  [("host", some (.string e.host)), ("port", some (.integer e.port.toNat)),
    ("username", some (.string e.username)), ("password", some (.string e.password)),
    ("from", some (.string e.fromAddress)), ("to", some (.string e.toAddress)),
    ("starttls", some (.boolean true)), ("subject_prefix", some (.string "[EdgeShield]"))]

def ruleEntries : List (String × Option Value) :=
  [("name", some (.string "new_device")), ("condition", some (.string "new_device")),
    ("severity", some (.string "info")), ("cooldown_seconds", some (.integer 0))]

def authBlock (sha256Hex : String → String) (key : ApiKey) : Block :=
  ⟨.table, "api", ["auth"], present (authEntries sha256Hex key)⟩

def mqttBlock (m : MqttInputs) : Block := ⟨.table, "mqtt", [], present (mqttEntries m)⟩

def ntfyBlock (n : NtfyInputs) : Block := ⟨.table, "ntfy", [], present (ntfyEntries n)⟩

def webhookBlock (w : WebhookInputs) : Block := ⟨.table, "webhook", [], present (webhookEntries w)⟩

def emailBlock (e : EmailInputs) : Block := ⟨.table, "email", [], present (emailEntries e)⟩

def rulesBlock : Block := ⟨.element, "rules", [], present ruleEntries⟩

theorem nodup_mqttEntries (m : MqttInputs) : ((mqttEntries m).map Prod.fst).Nodup := by
  show ["host", "port", "topic", "username", "password", "qos"].Nodup
  decide

theorem nodup_ntfyEntries (n : NtfyInputs) : ((ntfyEntries n).map Prod.fst).Nodup := by
  show ["base_url", "topic", "token"].Nodup
  decide

theorem nodup_webhookEntries (w : WebhookInputs) : ((webhookEntries w).map Prod.fst).Nodup := by
  show ["url", "token", "timeout_seconds"].Nodup
  decide

theorem nodup_emailEntries (e : EmailInputs) : ((emailEntries e).map Prod.fst).Nodup := by
  show ["host", "port", "username", "password", "from", "to", "starttls", "subject_prefix"].Nodup
  decide

theorem nodup_ruleEntries : (ruleEntries.map Prod.fst).Nodup := by decide

def blocks (sha256Hex : String → String) (inputs : SetupInputs) (key : Option ApiKey) :
    List Block :=
  (key.map (authBlock sha256Hex)).toList ++ ((inputs.mqtt.map mqttBlock).toList ++
    ((inputs.ntfy.map ntfyBlock).toList ++ ((inputs.webhook.map webhookBlock).toList ++
      ((inputs.email.map emailBlock).toList ++ [rulesBlock]))))

theorem nodup_present {entries : List (String × Option Value)}
    (h : (entries.map Prod.fst).Nodup) : ((present entries).map Prod.fst).Nodup :=
  (keys_present_sublist entries).nodup h

theorem spells_singleton {is : List Item} {b : Block}
    (h : is.all Item.wellFormed = true ∧ is.flatMap Item.expressions = b.expressions)
    (hnames : (b.entries.map Prod.fst).Nodup) : Spells is [b] := by
  refine ⟨h.1, ?_, fun c hc => ?_⟩
  · rw [h.2, List.flatMap_cons, List.flatMap_nil, List.append_nil]
  · rw [List.mem_singleton.mp hc]
    exact hnames

theorem isPlain_of_isAsciiHexdigit {c : Char} (h : isAsciiHexdigit c = true) :
    isPlain c = true := by
  rw [isAsciiHexdigit, Bool.or_eq_true, Bool.or_eq_true, Bool.and_eq_true, Bool.and_eq_true,
    Bool.and_eq_true] at h
  simp only [decide_eq_true_eq, Char.le_def, UInt32.le_iff_toNat_le] at h
  rw [isPlain, Bool.or_eq_true, Bool.and_eq_true, decide_eq_true_eq, bne_iff_ne]
  refine .inr ?_
  have h0 : '0'.val.toNat = 48 := rfl
  have h9 : '9'.val.toNat = 57 := rfl
  have ha : 'a'.val.toNat = 97 := rfl
  have hf : 'f'.val.toNat = 102 := rfl
  have hA : 'A'.val.toNat = 65 := rfl
  have hF : 'F'.val.toNat = 70 := rfl
  show 32 ≤ c.val.toNat ∧ c.val.toNat ≠ 127
  omega

theorem spells_auth (sha256Hex : String → String) (key : ApiKey) :
    Spells (authItems sha256Hex key.text) [authBlock sha256Hex key] := by
  have hplain : key.text.toList.all isPlain = true := by
    rw [List.all_eq_true]
    intro c hc
    exact isPlain_of_isAsciiHexdigit (List.all_eq_true.mp key.hex c hc)
  have hcomment : (" read_key (plaintext, shown once by setup): ".toList ++
      key.text.toList).all isPlain = true := by
    rw [List.all_append, hplain]
    rfl
  refine spells_singleton ⟨?_, rfl⟩ (List.nodup_singleton _)
  show (true && (true && ((_ : List Char).all isPlain && _))) = true
  rw [hcomment]
  rfl

theorem spells_mqtt (m : MqttInputs) : Spells (mqttItems m) [mqttBlock m] := by
  refine spells_singleton ?_ (nodup_present (nodup_mqttEntries m))
  obtain ⟨host, port, topic, username, password⟩ := m
  cases username <;> cases password <;> exact ⟨rfl, rfl⟩

theorem spells_ntfy (n : NtfyInputs) : Spells (ntfyItems n) [ntfyBlock n] := by
  refine spells_singleton ?_ (nodup_present (nodup_ntfyEntries n))
  obtain ⟨baseUrl, topic, token⟩ := n
  cases token <;> exact ⟨rfl, rfl⟩

theorem spells_webhook (w : WebhookInputs) : Spells (webhookItems w) [webhookBlock w] := by
  refine spells_singleton ?_ (nodup_present (nodup_webhookEntries w))
  obtain ⟨url, token⟩ := w
  cases token <;> exact ⟨rfl, rfl⟩

theorem spells_email (e : EmailInputs) : Spells (emailItems e) [emailBlock e] := by
  exact spells_singleton ⟨rfl, rfl⟩ (nodup_present (nodup_emailEntries e))

theorem spells_rules : Spells ruleItems [rulesBlock] := by
  exact spells_singleton ⟨rfl, rfl⟩ (nodup_present nodup_ruleEntries)

def entries (sha256Hex : String → String) (inputs : SetupInputs) (key : Option ApiKey) :
    List (String × Option Value) :=
  [("interface", some (.string inputs.interface)),
    ("api_port", some (.integer inputs.apiPort.toNat)),
    ("api_bind_address", some (.string inputs.apiBindAddress)),
    ("log_level", some (.string inputs.logLevel)), ("capture_buffer", some (.integer 4096)),
    ("database_path", some (.string inputs.databasePath)),
    ("api", key.map fun k => (authBlock sha256Hex k).value),
    ("mqtt", inputs.mqtt.map fun m => (mqttBlock m).value),
    ("ntfy", inputs.ntfy.map fun n => (ntfyBlock n).value),
    ("webhook", inputs.webhook.map fun w => (webhookBlock w).value),
    ("email", inputs.email.map fun e => (emailBlock e).value),
    ("rules", some rulesBlock.value)]

theorem nodup_entries (sha256Hex : String → String) (inputs : SetupInputs) (key : Option ApiKey) :
    ((entries sha256Hex inputs key).map Prod.fst).Nodup := by
  show ["interface", "api_port", "api_bind_address", "log_level", "capture_buffer",
    "database_path", "api", "mqtt", "ntfy", "webhook", "email", "rules"].Nodup
  decide

theorem present_cons_map {α : Type} {name : String} {block : α → Block}
    (h : ∀ a, (block a).name = name) (o : Option α) (rest : List (String × Option Value)) :
    (o.map block).toList.map (fun b => (b.name, b.value)) ++ present rest =
      present ((name, o.map fun a => (block a).value) :: rest) := by
  cases o with
  | none => rfl
  | some a =>
    show [((block a).name, (block a).value)] ++ present rest = _
    rw [h a]
    rfl

theorem present_entries (sha256Hex : String → String) (inputs : SetupInputs)
    (key : Option ApiKey) :
    topEntries inputs ++ (blocks sha256Hex inputs key).map (fun b => (b.name, b.value)) =
      present (entries sha256Hex inputs key) := by
  have hrules : [rulesBlock].map (fun b => (b.name, b.value)) =
      present [("rules", some rulesBlock.value)] := rfl
  simp only [blocks, List.map_append]
  rw [hrules, @present_cons_map _ "email" emailBlock (fun _ => rfl),
    @present_cons_map _ "webhook" webhookBlock (fun _ => rfl),
    @present_cons_map _ "ntfy" ntfyBlock (fun _ => rfl),
    @present_cons_map _ "mqtt" mqttBlock (fun _ => rfl),
    @present_cons_map _ "api" (authBlock sha256Hex) (fun _ => rfl)]
  rfl

/-- **What the TOML reader makes of the text**: the table of the answers, exactly when no
string in it has a control character other than a tab. -/
theorem parse_renderToml (other : Reader) (sha256Hex : String → String) (inputs : SetupInputs)
    (key : Option ApiKey) {t : Table} :
    Toml.parse other (renderToml sha256Hex inputs (key.map ApiKey.text)) = some t ↔
      (∀ i ∈ items sha256Hex inputs (key.map ApiKey.text), i.Plain) ∧
        t = present (entries sha256Hex inputs key) := by
  have hkey : (key.map ApiKey.text).elim [] (authItems sha256Hex) =
      key.elim [] fun k => authItems sha256Hex k.text := by
    cases key with
    | none => rfl
    | some k => rfl
  have hspells := (Spells.elim (spells_auth sha256Hex) key).append
    ((Spells.elim spells_mqtt inputs.mqtt).append ((Spells.elim spells_ntfy inputs.ntfy).append
      ((Spells.elim spells_webhook inputs.webhook).append
        ((Spells.elim spells_email inputs.email).append spells_rules))))
  have hnames : ((topEntries inputs).map Prod.fst ++
      (blocks sha256Hex inputs key).map Block.name).Nodup := by
    have h := nodup_present (nodup_entries sha256Hex inputs key)
    rw [← present_entries, List.map_append, List.map_map] at h
    exact h
  have htext := toList_renderToml sha256Hex inputs (key.map ApiKey.text)
  rw [items, hkey] at htext ⊢
  rw [← present_entries]
  exact parse_eq_some_iff htext rfl rfl hspells hnames

/-! ### The configuration -/

def ApiKey.config (sha256Hex : String → String) (key : ApiKey) : ApiAuthConfig :=
  ⟨sha256Hex key.text, none, 10, 60, 300⟩

def MqttInputs.config (m : MqttInputs) : MqttConfig :=
  ⟨m.host, m.port, m.topic, "edgeshield", m.username, m.password, 1⟩

def NtfyInputs.config (n : NtfyInputs) : NtfyConfig :=
  ⟨n.baseUrl, n.topic, n.token, none, none⟩

def WebhookInputs.config (w : WebhookInputs) : WebhookConfig :=
  ⟨w.url, w.token, ∅, 10⟩

def EmailInputs.config (e : EmailInputs) : EmailConfig :=
  ⟨e.host, e.port, e.username, e.password, e.fromAddress, e.toAddress, true, "[EdgeShield]"⟩

/-- The configuration of the answers, before a slash at the end of the ntfy address goes. -/
def SetupInputs.config (sha256Hex : String → String) (inputs : SetupInputs)
    (key : Option ApiKey) : Config where
  interface := inputs.interface
  apiPort := inputs.apiPort
  apiBindAddress := inputs.apiBindAddress
  api := ⟨key.map (ApiKey.config sha256Hex), none, none⟩
  logLevel := inputs.logLevel
  captureBuffer := 4096
  databasePath := inputs.databasePath
  mqtt := inputs.mqtt.map MqttInputs.config
  ntfy := inputs.ntfy.map NtfyInputs.config
  webhook := inputs.webhook.map WebhookInputs.config
  email := inputs.email.map EmailInputs.config
  rules := [⟨"new_device", true, .simple "new_device", "info", 0⟩]
  scanner := .default
  storage := .default

theorem ofToml_authBlock (sha256Hex : String → String) (key : ApiKey) :
    ApiConfig.ofToml (authBlock sha256Hex key).value =
      some ⟨some (key.config sha256Hex), none, none⟩ := rfl

theorem ofToml_mqttBlock (m : MqttInputs) :
    MqttConfig.ofToml (mqttBlock m).value = some m.config := by
  have hnames := nodup_mqttEntries m
  have hhost : required (present (mqttEntries m)) "host" asString = some m.host :=
    required_present hnames rfl rfl
  have hport : withDefault (present (mqttEntries m)) "port" asU16 1883 = some m.port :=
    withDefault_present hnames rfl (asU16_toNat m.port)
  have htopic : withDefault (present (mqttEntries m)) "topic" asString "edgeshield/devices/new" =
      some m.topic := withDefault_present hnames rfl rfl
  have hclient : withDefault (present (mqttEntries m)) "client_id" asString "edgeshield" =
      some "edgeshield" := withDefault_missing hnames rfl
  have husername : optional (present (mqttEntries m)) "username" asString =
      some (m.username.map id) := optional_present hnames rfl fun _ => rfl
  have hpassword : optional (present (mqttEntries m)) "password" asString =
      some (m.password.map id) := optional_present hnames rfl fun _ => rfl
  have hqos : withDefault (present (mqttEntries m)) "qos" asU8 1 = some 1 :=
    withDefault_present hnames rfl rfl
  rw [Option.map_id] at husername hpassword
  show MqttConfig.ofToml (.table (present (mqttEntries m))) = _
  simp only [MqttConfig.ofToml, asTable, Option.bind_eq_bind, Option.bind_some, hhost, hport,
    htopic, hclient, husername, hpassword, hqos]
  rfl

theorem ofToml_ntfyBlock (n : NtfyInputs) :
    NtfyConfig.ofToml (ntfyBlock n).value = some n.config := by
  obtain ⟨baseUrl, topic, token⟩ := n
  cases token with
  | none => rfl
  | some t => rfl

theorem ofToml_webhookBlock (w : WebhookInputs) :
    WebhookConfig.ofToml (webhookBlock w).value = some w.config := by
  obtain ⟨url, token⟩ := w
  cases token with
  | none => rfl
  | some t => rfl

theorem ofToml_emailBlock (e : EmailInputs) :
    EmailConfig.ofToml (emailBlock e).value = some e.config := by
  have hnames := nodup_emailEntries e
  have hhost : required (present (emailEntries e)) "host" asString = some e.host :=
    required_present hnames rfl rfl
  have hport : withDefault (present (emailEntries e)) "port" asU16 587 = some e.port :=
    withDefault_present hnames rfl (asU16_toNat e.port)
  have husername : required (present (emailEntries e)) "username" asString = some e.username :=
    required_present hnames rfl rfl
  have hpassword : required (present (emailEntries e)) "password" asString = some e.password :=
    required_present hnames rfl rfl
  have hfrom : required (present (emailEntries e)) "from" asString = some e.fromAddress :=
    required_present hnames rfl rfl
  have hto : required (present (emailEntries e)) "to" asString = some e.toAddress :=
    required_present hnames rfl rfl
  have hstarttls : withDefault (present (emailEntries e)) "starttls" asBool true = some true :=
    withDefault_present hnames rfl rfl
  have hsubject : withDefault (present (emailEntries e)) "subject_prefix" asString
      "[EdgeShield]" = some "[EdgeShield]" := withDefault_present hnames rfl rfl
  show EmailConfig.ofToml (.table (present (emailEntries e))) = _
  simp only [EmailConfig.ofToml, asTable, Option.bind_eq_bind, Option.bind_some, hhost, hport,
    husername, hpassword, hfrom, hto, hstarttls, hsubject]
  rfl

theorem rulesOfToml_rulesBlock :
    rulesOfToml rulesBlock.value = some [⟨"new_device", true, .simple "new_device", "info", 0⟩] :=
  rfl

/-- **The table of the answers is read as their configuration.** -/
theorem ofToml_entries (sha256Hex : String → String) (inputs : SetupInputs)
    (key : Option ApiKey) :
    Config.ofToml (present (entries sha256Hex inputs key)) =
      some (inputs.config sha256Hex key) := by
  have hnames := nodup_entries sha256Hex inputs key
  generalize ht : present (entries sha256Hex inputs key) = t
  have hinterface : required t "interface" asString = some inputs.interface := by
    rw [← ht]
    exact required_present hnames rfl rfl
  have hport : withDefault t "api_port" asU16 8080 = some inputs.apiPort := by
    rw [← ht]
    exact withDefault_present hnames rfl (asU16_toNat inputs.apiPort)
  have hbind : withDefault t "api_bind_address" asString "0.0.0.0" =
      some inputs.apiBindAddress := by
    rw [← ht]
    exact withDefault_present hnames rfl rfl
  have hapi : withDefault t "api" ApiConfig.ofToml .default =
      some ⟨key.map (ApiKey.config sha256Hex), none, none⟩ := by
    rw [← ht, withDefault_elim hnames rfl (ofToml_authBlock sha256Hex)]
    cases key with
    | none => rfl
    | some k => rfl
  have hlevel : withDefault t "log_level" asString "info" = some inputs.logLevel := by
    rw [← ht]
    exact withDefault_present hnames rfl rfl
  have hbuffer : withDefault t "capture_buffer" asU64 4096 = some 4096 := by
    rw [← ht]
    exact withDefault_present hnames rfl rfl
  have hpath : withDefault t "database_path" asString "" = some inputs.databasePath := by
    rw [← ht]
    exact withDefault_present hnames rfl rfl
  have hmqtt : optional t "mqtt" MqttConfig.ofToml = some (inputs.mqtt.map MqttInputs.config) := by
    rw [← ht]
    exact optional_present hnames rfl ofToml_mqttBlock
  have hntfy : optional t "ntfy" NtfyConfig.ofToml = some (inputs.ntfy.map NtfyInputs.config) := by
    rw [← ht]
    exact optional_present hnames rfl ofToml_ntfyBlock
  have hwebhook : optional t "webhook" WebhookConfig.ofToml =
      some (inputs.webhook.map WebhookInputs.config) := by
    rw [← ht]
    exact optional_present hnames rfl ofToml_webhookBlock
  have hemail : optional t "email" EmailConfig.ofToml =
      some (inputs.email.map EmailInputs.config) := by
    rw [← ht]
    exact optional_present hnames rfl ofToml_emailBlock
  have hrules : withDefault t "rules" rulesOfToml [] =
      some [⟨"new_device", true, .simple "new_device", "info", 0⟩] := by
    rw [← ht]
    exact withDefault_present hnames rfl rulesOfToml_rulesBlock
  have hscanner : withDefault t "scanner" ScannerConfig.ofToml .default = some .default := by
    rw [← ht]
    exact withDefault_missing hnames rfl
  have hstorage : withDefault t "storage" StorageConfig.ofToml .default = some .default := by
    rw [← ht]
    exact withDefault_missing hnames rfl
  simp only [Config.ofToml, Option.bind_eq_bind, Option.bind_some, hinterface, hport, hbind, hapi,
    hlevel, hbuffer, hpath, hmqtt, hntfy, hwebhook, hemail, hrules, hscanner, hstorage]
  rfl

theorem record_of_rendered {other : Reader} {tomlFromStr : String → Except String Config}
    {sha256Hex : String → String} {inputs : SetupInputs} {key : Option ApiKey}
    (hread : ReadsToml other tomlFromStr (renderToml sha256Hex inputs (key.map ApiKey.text)))
    {read : Config} (h : tomlFromStr (renderToml sha256Hex inputs (key.map ApiKey.text)) =
      .ok read) : read = inputs.config sha256Hex key := by
  obtain ⟨t, hparse, hrecord⟩ := hread _ h
  obtain ⟨-, rfl⟩ := (parse_renderToml other sha256Hex inputs key).mp hparse
  rw [ofToml_entries] at hrecord
  exact (Option.some.inj hrecord).symm

/-- **The answers come through.**  Whatever the strings are, a text that `Config.fromStr`
accepts is read as the configuration of the answers, the ntfy address without one slash at its
end. -/
theorem setup_not_injected {other : Reader} {tomlFromStr : String → Except String Config}
    (sha256Hex : String → String) (inputs : SetupInputs) (key : Option ApiKey)
    (hread : ReadsToml other tomlFromStr (renderToml sha256Hex inputs (key.map ApiKey.text)))
    {config : Config}
    (h : Config.fromStr tomlFromStr (renderToml sha256Hex inputs (key.map ApiKey.text)) =
      .ok config) :
    config = (inputs.config sha256Hex key).stripped := by
  obtain ⟨read, htoml, rfl, -⟩ := read_of_fromStr h
  rw [record_of_rendered hread htoml]

theorem plainToml_renderToml {sha256Hex : String → String} {inputs : SetupInputs}
    {key : Option ApiKey} (h : ∀ i ∈ items sha256Hex inputs (key.map ApiKey.text), i.Plain) :
    plainToml (renderToml sha256Hex inputs (key.map ApiKey.text)) =
      .ok (inputs.config sha256Hex key) := by
  have hparse := (parse_renderToml (fun _ => none) sha256Hex inputs key).mpr ⟨h, rfl⟩
  rw [plainToml, hparse, Option.bind_some, ofToml_entries]

/-- Answers with a quote, a backslash and a line of TOML in them. -/
def hostileInputs : SetupInputs where
  interface := "eth0\" \\"
  apiPort := 8080
  apiBindAddress := "0.0.0.0"
  logLevel := "info"
  databasePath := "\" read_key_hash = \""
  generateApiKey := true
  mqtt := some ⟨"broker", 1883, "devices", some "admin\\", none⟩
  ntfy := some ⟨"https://ntfy.sh/", "[api.auth] # é", none⟩
  webhook := none
  email := none

theorem setup_not_injected_hostile : ∃ config,
    Config.fromStr plainToml (renderToml (fun _ => zerosHash) hostileInputs
      ((some zerosKey).map ApiKey.text)) = .ok config ∧
    config = (hostileInputs.config (fun _ => zerosHash) (some zerosKey)).stripped := by
  have hplain : ∀ i ∈ items (fun _ => zerosHash) hostileInputs
      ((some zerosKey).map ApiKey.text), i.Plain := by
    decide +kernel
  have hok : Config.fromStr plainToml (renderToml (fun _ => zerosHash) hostileInputs
      ((some zerosKey).map ApiKey.text)) =
        .ok (hostileInputs.config (fun _ => zerosHash) (some zerosKey)).stripped := by
    refine fromStr_of_checks (plainToml_renderToml hplain) ?_ ?_ ?_ ?_ ?_ rfl
    · decide +kernel
    · decide +kernel
    · decide +kernel
    · decide +kernel
    · decide +kernel
  exact ⟨_, hok, setup_not_injected _ _ (some zerosKey) (readsToml_plainToml _) hok⟩

end EdgeShield.Cli
