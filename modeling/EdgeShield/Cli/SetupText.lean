import EdgeShield.Lib.TomlText
import EdgeShield.Cli.Setup

/-!
# What the setup wizard writes

`items` says what the text of `renderToml` consists of, line by line: `toList_renderToml`.

The comment of the `[api.auth]` section holds the key itself, whatever the hash is
(`rendered_key`), so that the key is hidden only when there is none: `keyHidden_iff`.
-/

namespace EdgeShield.Cli

open Lib Lib.Toml

/-! ### What the text consists of -/

theorem toList_tomlString (s : String) :
    (tomlString s).toList = '"' :: (escape s.toList ++ ['"']) := by
  have hescape : (replaceChar '"' "\\\"" (replaceChar '\\' "\\\\" s)).toList = escape s.toList := by
    rw [toList_replaceChar, toList_replaceChar, List.flatMap_assoc, escape]
    refine List.flatMap_congr fun c _ => ?_
    by_cases hb : c = '\\'
    · subst hb
      rfl
    · rw [if_neg hb, List.flatMap_cons, List.flatMap_nil, List.append_nil]
      by_cases hq : c = '"'
      · subst hq
        rfl
      · rw [if_neg hq, if_neg (not_or.mpr ⟨hq, hb⟩)]
  rw [tomlString, String.toList_append, String.toList_append, hescape]
  rfl

theorem toList_keyLine (name text : String) :
    (keyLine name text).toList = pairText name text.toList := by
  rw [keyLine, String.toList_append, String.toList_append, String.toList_append]
  rfl

theorem keyLine_string (name s : String) :
    (keyLine name (tomlString s)).toList = (Item.string name s).text := by
  rw [toList_keyLine, toList_tomlString]
  rfl

theorem keyLine_nat (name : String) (n : Nat) :
    (keyLine name (Nat.repr n)).toList = (Item.nat name n).text := toList_keyLine name _

def commentItems : List Item :=
  [.comment " EdgeShield configuration — generated by `edgeshield setup`".toList,
    .comment " See https://github.com/edgeshield/edgeshield for the full reference.".toList,
    .newline]

def topItems (inputs : SetupInputs) : List Item :=
  commentItems ++
  [.string "interface" inputs.interface, .nat "api_port" inputs.apiPort.toNat,
    .string "api_bind_address" inputs.apiBindAddress, .string "log_level" inputs.logLevel,
    .nat "capture_buffer" 4096, .string "database_path" inputs.databasePath]

def authItems (sha256Hex : String → String) (plaintext : String) : List Item :=
  [.newline, .header .table ["api", "auth"],
    .comment (" read_key (plaintext, shown once by setup): ".toList ++ plaintext.toList),
    .string "read_key_hash" (sha256Hex plaintext)]

def optionalItem (name : String) (o : Option String) : List Item :=
  (o.map (Item.string name)).toList

def mqttItems (m : MqttInputs) : List Item :=
  [.newline, .header .table ["mqtt"], .string "host" m.host, .nat "port" m.port.toNat,
    .string "topic" m.topic] ++
  (optionalItem "username" m.username ++ (optionalItem "password" m.password ++ [.nat "qos" 1]))

def ntfyItems (n : NtfyInputs) : List Item :=
  [.newline, .header .table ["ntfy"], .string "base_url" n.baseUrl, .string "topic" n.topic] ++
  optionalItem "token" n.token

def webhookItems (w : WebhookInputs) : List Item :=
  [.newline, .header .table ["webhook"], .string "url" w.url] ++
  (optionalItem "token" w.token ++ [.nat "timeout_seconds" 10])

def emailItems (e : EmailInputs) : List Item :=
  [.newline, .header .table ["email"], .string "host" e.host, .nat "port" e.port.toNat,
    .string "username" e.username, .string "password" e.password, .string "from" e.fromAddress,
    .string "to" e.toAddress, .flag "starttls", .string "subject_prefix" "[EdgeShield]"]

def ruleItems : List Item :=
  [.newline, .header .element ["rules"], .string "name" "new_device",
    .string "condition" "new_device", .string "severity" "info", .nat "cooldown_seconds" 0]

def items (sha256Hex : String → String) (inputs : SetupInputs) (plaintext : Option String) :
    List Item :=
  topItems inputs ++ (plaintext.elim [] (authItems sha256Hex) ++
    (inputs.mqtt.elim [] mqttItems ++ (inputs.ntfy.elim [] ntfyItems ++
      (inputs.webhook.elim [] webhookItems ++ (inputs.email.elim [] emailItems ++ ruleItems)))))

/-- The characters of a piece are those of its items. -/
def Consists (pieces : List String) (is : List Item) : Prop :=
  pieces.flatMap String.toList = is.flatMap Item.text

theorem Consists.append {pieces pieces' : List String} {is is' : List Item}
    (h : Consists pieces is) (h' : Consists pieces' is') :
    Consists (pieces ++ pieces') (is ++ is') := by
  rw [Consists, List.flatMap_append, List.flatMap_append, h, h']

theorem Consists.elim {α : Type} {pieces : α → List String} {is : α → List Item}
    (h : ∀ a, Consists (pieces a) (is a)) (o : Option α) :
    Consists (o.elim [] pieces) (o.elim [] is) := by
  cases o with
  | none => rfl
  | some a => exact h a

theorem consists_nil : Consists [] [] := rfl

theorem Consists.cons {piece : String} {is is' : List Item} {pieces : List String}
    (hpiece : piece.toList = is.flatMap Item.text) (h : Consists pieces is') :
    Consists (piece :: pieces) (is ++ is') := by
  rw [Consists, List.flatMap_cons, List.flatMap_append, hpiece, h]

theorem Consists.string {pieces : List String} {is : List Item} (name s : String)
    (h : Consists pieces is) :
    Consists (keyLine name (tomlString s) :: pieces) (.string name s :: is) := by
  rw [Consists, List.flatMap_cons, List.flatMap_cons, keyLine_string, h]

theorem Consists.nat {pieces : List String} {is : List Item} (name : String) (n : Nat)
    (h : Consists pieces is) :
    Consists (keyLine name (Nat.repr n) :: pieces) (.nat name n :: is) := by
  rw [Consists, List.flatMap_cons, List.flatMap_cons, keyLine_nat, h]

theorem consists_optional (name : String) (o : Option String) :
    Consists (optionalLine name o) (optionalItem name o) := by
  cases o with
  | none => exact consists_nil
  | some s => exact consists_nil.string name s

theorem consists_comments : Consists renderComments commentItems := by
  simp [Consists, renderComments, commentItems, Item.text]

theorem consists_top (inputs : SetupInputs) : Consists (renderTop inputs) (topItems inputs) := by
  have hbuffer : "capture_buffer = 4096\n".toList =
      [Item.nat "capture_buffer" 4096].flatMap Item.text := rfl
  refine consists_comments.append ?_
  apply Consists.string
  apply Consists.nat
  apply Consists.string
  apply Consists.string
  apply Consists.cons hbuffer
  exact consists_nil.string "database_path" inputs.databasePath

theorem consists_auth (sha256Hex : String → String) (plaintext : String) :
    Consists (renderAuth sha256Hex plaintext) (authItems sha256Hex plaintext) := by
  have hheader : "\n[api.auth]\n".toList =
      [Item.newline, .header .table ["api", "auth"]].flatMap Item.text := rfl
  have hstart : "# read_key (plaintext, shown once by setup): ".toList =
      '#' :: " read_key (plaintext, shown once by setup): ".toList := by simp
  have hcomment : ("# read_key (plaintext, shown once by setup): " ++ plaintext ++ "\n").toList =
      [Item.comment (" read_key (plaintext, shown once by setup): ".toList ++
        plaintext.toList)].flatMap Item.text := by
    refine (String.toList_append.trans (congrArg (· ++ _) (String.toList_append.trans
      (congrArg (· ++ _) hstart)))).trans ?_
    exact (List.append_nil _).symm
  apply Consists.cons hheader
  apply Consists.cons hcomment
  exact consists_nil.string "read_key_hash" (sha256Hex plaintext)

theorem consists_mqtt (m : MqttInputs) : Consists (renderMqtt m) (mqttItems m) := by
  have hheader : "\n[mqtt]\n".toList =
      [Item.newline, .header .table ["mqtt"]].flatMap Item.text := rfl
  have hqos : "qos = 1\n".toList = [Item.nat "qos" 1].flatMap Item.text := rfl
  refine Consists.append ?_ ((consists_optional "username" m.username).append
    ((consists_optional "password" m.password).append (consists_nil.cons hqos)))
  apply Consists.cons hheader
  apply Consists.string
  apply Consists.nat
  exact consists_nil.string "topic" m.topic

theorem consists_ntfy (n : NtfyInputs) : Consists (renderNtfy n) (ntfyItems n) := by
  have hheader : "\n[ntfy]\n".toList =
      [Item.newline, .header .table ["ntfy"]].flatMap Item.text := rfl
  refine Consists.append ?_ (consists_optional "token" n.token)
  apply Consists.cons hheader
  apply Consists.string
  exact consists_nil.string "topic" n.topic

theorem consists_webhook (w : WebhookInputs) : Consists (renderWebhook w) (webhookItems w) := by
  have hheader : "\n[webhook]\n".toList =
      [Item.newline, .header .table ["webhook"]].flatMap Item.text := rfl
  have htimeout : "timeout_seconds = 10\n".toList =
      [Item.nat "timeout_seconds" 10].flatMap Item.text := rfl
  refine Consists.append ?_ ((consists_optional "token" w.token).append
    (consists_nil.cons htimeout))
  apply Consists.cons hheader
  exact consists_nil.string "url" w.url

theorem consists_email (e : EmailInputs) : Consists (renderEmail e) (emailItems e) := by
  have hheader : "\n[email]\n".toList =
      [Item.newline, .header .table ["email"]].flatMap Item.text := rfl
  have hstarttls : "starttls = true\n".toList = [Item.flag "starttls"].flatMap Item.text := rfl
  have hsubject : "subject_prefix = \"[EdgeShield]\"\n".toList =
      [Item.string "subject_prefix" "[EdgeShield]"].flatMap Item.text := rfl
  apply Consists.cons hheader
  apply Consists.string
  apply Consists.nat
  apply Consists.string
  apply Consists.string
  apply Consists.string
  apply Consists.string
  apply Consists.cons hstarttls
  exact consists_nil.cons hsubject

theorem consists_rules : Consists renderRules ruleItems := by
  simp [Consists, renderRules, ruleItems, Item.text, pairText, headerText, dotted, Kind.brackets,
    escape]

/-- **The text consists of the items.** -/
theorem toList_renderToml (sha256Hex : String → String) (inputs : SetupInputs)
    (plaintext : Option String) :
    (renderToml sha256Hex inputs plaintext).toList =
      (items sha256Hex inputs plaintext).flatMap Item.text := by
  have h := (consists_top inputs).append ((Consists.elim (consists_auth sha256Hex) plaintext).append
    ((Consists.elim consists_mqtt inputs.mqtt).append
      ((Consists.elim consists_ntfy inputs.ntfy).append
        ((Consists.elim consists_webhook inputs.webhook).append
          ((Consists.elim consists_email inputs.email).append consists_rules)))))
  rw [renderToml, String.toList_join]
  exact h

/-! ### The key in the text -/

/-- The text depends on the key through its hash only, and the key is not in it. -/
structure KeyHidden (sha256Hex : String → String) (inputs : SetupInputs) : Prop where
  hashOnly : ∀ bytes bytes', sha256Hex (generateApiKeyPlaintext bytes).text =
    sha256Hex (generateApiKeyPlaintext bytes').text →
      inputs.rendered sha256Hex bytes = inputs.rendered sha256Hex bytes'
  absent : ∀ bytes key, inputs.generatedKey bytes = some key →
    ¬key.text.toList <:+: (inputs.rendered sha256Hex bytes).toList

/-- The text before the key: everything up to the end of the words of the comment. -/
def beforeKey (inputs : SetupInputs) : List Char :=
  (topItems inputs ++ [Item.newline, .header .table ["api", "auth"]]).flatMap Item.text ++
    '#' :: " read_key (plaintext, shown once by setup): ".toList

/-- **The comment holds the key.** -/
theorem rendered_key (sha256Hex : String → String) {inputs : SetupInputs}
    (hgenerate : inputs.generateApiKey = true) (bytes : Vector UInt8 32) :
    ∃ rest, (inputs.rendered sha256Hex bytes).toList =
      beforeKey inputs ++ ((generateApiKeyPlaintext bytes).text.toList ++ rest) := by
  have hkey : inputs.generatedKey bytes = some (generateApiKeyPlaintext bytes) := by
    rw [SetupInputs.generatedKey, if_pos hgenerate]
  rw [SetupInputs.rendered, hkey, Option.map_some, toList_renderToml, items, Option.elim_some,
    authItems, beforeKey]
  generalize inputs.mqtt.elim [] mqttItems ++ _ = rest
  generalize (generateApiKeyPlaintext bytes).text = text
  refine ⟨'\n' :: ((Item.string "read_key_hash" (sha256Hex text)).text ++
    rest.flatMap Item.text), ?_⟩
  simp only [List.flatMap_append, List.flatMap_cons, List.flatMap_nil, List.append_assoc,
    List.cons_append, List.nil_append, Item.text, List.append_nil]

/-- Two keys of the same text are the same key, whatever the hash. -/
theorem key_eq_of_rendered_eq {sha256Hex : String → String} {inputs : SetupInputs}
    (hgenerate : inputs.generateApiKey = true) {bytes bytes' : Vector UInt8 32}
    (h : inputs.rendered sha256Hex bytes = inputs.rendered sha256Hex bytes') :
    (generateApiKeyPlaintext bytes).text = (generateApiKeyPlaintext bytes').text := by
  obtain ⟨rest, hrest⟩ := rendered_key sha256Hex hgenerate bytes
  obtain ⟨rest', hrest'⟩ := rendered_key sha256Hex hgenerate bytes'
  have hlists : beforeKey inputs ++ ((generateApiKeyPlaintext bytes).text.toList ++ rest) =
      beforeKey inputs ++ ((generateApiKeyPlaintext bytes').text.toList ++ rest') := by
    rw [← hrest, ← hrest', h]
  have hlength : (generateApiKeyPlaintext bytes).text.toList.length =
      (generateApiKeyPlaintext bytes').text.toList.length := by
    rw [ApiKey.length, ApiKey.length]
  exact String.toList_injective
    (List.append_inj_left (List.append_cancel_left hlists) hlength)

/-- **The key is hidden exactly when there is none.** -/
theorem keyHidden_iff (sha256Hex : String → String) (inputs : SetupInputs) :
    KeyHidden sha256Hex inputs ↔ inputs.generateApiKey = false := by
  refine ⟨fun h => ?_, fun h => ⟨fun bytes bytes' _ => ?_, fun bytes key hkey => ?_⟩⟩
  · by_contra hgenerate
    rw [Bool.not_eq_false] at hgenerate
    obtain ⟨rest, hrest⟩ := rendered_key sha256Hex hgenerate (.replicate 32 0)
    refine h.absent (.replicate 32 0) _ (if_pos hgenerate) ⟨beforeKey inputs, rest, ?_⟩
    rw [hrest, List.append_assoc]
  · have hnone : ∀ bytes, inputs.generatedKey bytes = none := by
      intro bytes
      rw [SetupInputs.generatedKey, if_neg (by rw [h]; decide)]
    rw [SetupInputs.rendered, SetupInputs.rendered, hnone bytes, hnone bytes']
  · rw [SetupInputs.generatedKey, if_neg (by rw [h]; decide)] at hkey
    cases hkey

def zerosKey : ApiKey := generateApiKeyPlaintext (.replicate 32 0)

def zerosHash : String := "60e05bd1b195af2f94112fa7197a5c88289058840ce7c6df9693756bc6250f55"

def keyedInputs : SetupInputs :=
  { SetupInputs.default with interface := "eth0", generateApiKey := true }

/-- A hash that takes all keys to one: two keys, two texts, and the key in its own. -/
theorem keyed_not_keyHidden :
    keyedInputs.rendered (fun _ => zerosHash) (.replicate 32 0) ≠
      keyedInputs.rendered (fun _ => zerosHash) (.replicate 32 1) ∧
    zerosKey.text.toList <:+: (keyedInputs.rendered (fun _ => zerosHash) (.replicate 32 0)).toList ∧
    ¬KeyHidden (fun _ => zerosHash) keyedInputs := by
  have hne : keyedInputs.rendered (fun _ => zerosHash) (.replicate 32 0) ≠
      keyedInputs.rendered (fun _ => zerosHash) (.replicate 32 1) := by
    intro h
    have hkeys := key_eq_of_rendered_eq rfl h
    revert hkeys
    decide +kernel
  obtain ⟨rest, hrest⟩ := @rendered_key (fun _ => zerosHash) keyedInputs rfl (.replicate 32 0)
  refine ⟨hne, ⟨beforeKey keyedInputs, rest, (List.append_assoc ..).trans hrest.symm⟩, fun h => ?_⟩
  exact hne (h.hashOnly (.replicate 32 0) (.replicate 32 1) rfl)

end EdgeShield.Cli
