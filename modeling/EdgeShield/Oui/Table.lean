import EdgeShield.Lib.Lines
import EdgeShield.Discovery.Engine

/-!
# The vendor table

`crates/oui/build.rs` and `lookup` of `crates/oui/src/lib.rs`.  The build script reads the
registrations of the IEEE, line by line, and writes a table in Rust; each name goes into the source
text as a string literal, without its invisible characters, and comes out of it when the compiler
reads the literal.  A name that the table has is looked up by the first three bytes of an address.

How wide a character is comes from a crate and is a parameter.

A registration in the file is a line with the three bytes in hexadecimal, a marker and a name
(`Registration`).  `lookup_ouiMap` says that for every file of such lines, in between any others
without the marker, a look-up gives the name of the last registration of the three bytes.
`vendor_of_run` is the same for the devices of the discovery engine.
-/

namespace EdgeShield.Oui

open EdgeShield.Lib EdgeShield.Common EdgeShield.Discovery EdgeShield.Storage

/-! ### String literals -/

def escapeValue (c : Char) : Option Char :=
  if c = 'n' then some '\n'
  else if c = 'r' then some '\r'
  else if c = 't' then some '\t'
  else if c = '\\' ∨ c = '"' then some c
  else none

/-- The rest of a string literal in Rust, as far as the escapes above go. -/
def literalRest : List Char → Option (List Char)
  | [] => none
  | c :: cs =>
    if c = '"' then if cs = [] then some [] else none
    else if c = '\\' then
      match cs with
      | [] => none
      | e :: cs => (escapeValue e).bind fun v => (literalRest cs).map fun value => v :: value
    else if c = '\r' then none
    else (literalRest cs).map fun value => c :: value

def literalValue (source : List Char) : Option (List Char) :=
  if source.head? = some '"' then literalRest source.tail else none

def isControl (c : Char) : Bool := c.toNat < 0x20 || (0x7F ≤ c.toNat && c.toNat ≤ 0x9F)

section Table

variable (width : Char → Option Nat)

/-- What `escape_rust_str` passes over. -/
def invisible (c : Char) : Bool := isControl c || width c = some 0

/-- What `escape_rust_str` writes for a character. -/
def escapeChar (c : Char) : List Char :=
  if c = '\\' then ['\\', '\\']
  else if c = '"' then ['\\', '"']
  else if c = '\n' then ['\\', 'n']
  else if c = '\r' then ['\\', 'r']
  else if c = '\t' then ['\\', 't']
  else [c]

def escapeRustStr (s : String) : String :=
  String.ofList ('"' ::
    (s.toList.flatMap fun c => if invisible width c then [] else escapeChar c) ++ ['"'])

def visible (s : String) : String := String.ofList (s.toList.filter fun c => !invisible width c)

end Table

/-! ### The file -/

def marker : List Char := "(base 16)".toList

/-- What one line gives, in the loop of `parse_oui_file`. -/
def parseLine (line : String) : Option (Nat × String) :=
  if marker <:+: line.toList then
    match getTo 6 line.toList with
    | none => none
    | some start =>
      let ouiHex := trim (String.ofList start)
      match secondField marker line.toList with
      | none => none
      | some field =>
        let name := trim (String.ofList field)
        if name = "" then none
        else (fromStrRadix16 (2 ^ 32 - 1) ouiHex.toList).map fun oui => (oui, name)
  else none

abbrev Entries := AList fun _ : Nat => String

def parseStep (entries : Entries) (bytes : List UInt8) : Entries :=
  match (fromUtf8 bytes).bind parseLine with
  | some entry => entries.insert entry.1 entry.2
  | none => entries

def parseOuiFile (file : List UInt8) : Entries := (lines file).foldl parseStep ∅

/-- `OUI_MAP`, compiled from what `generate_phf_map` writes. -/
def ouiMap (width : Char → Option Nat) (file : List UInt8) (oui : Nat) : Option String :=
  ((parseOuiFile file).lookup oui).bind fun name =>
    (literalValue (escapeRustStr width name).toList).map String.ofList

/-! ### A literal is read back -/

theorem literalRest_escapeChar (c : Char) (rest : List Char) :
    literalRest (escapeChar c ++ rest) = (literalRest rest).map fun value => c :: value := by
  by_cases hbackslash : c = '\\'
  · subst hbackslash
    rfl
  by_cases hquote : c = '"'
  · subst hquote
    rfl
  by_cases hnewline : c = '\n'
  · subst hnewline
    rfl
  by_cases hreturn : c = '\r'
  · subst hreturn
    rfl
  by_cases htab : c = '\t'
  · subst htab
    rfl
  · rw [escapeChar, if_neg hbackslash, if_neg hquote, if_neg hnewline, if_neg hreturn, if_neg htab,
      List.singleton_append, literalRest.eq_def]
    simp only [if_neg hquote, if_neg hbackslash, if_neg hreturn]

theorem literalRest_flatMap (cs : List Char) :
    literalRest (cs.flatMap escapeChar ++ ['"']) = some cs := by
  induction cs with
  | nil => rfl
  | cons c cs ih =>
    rw [List.flatMap_cons, List.append_assoc, literalRest_escapeChar, ih, Option.map_some]

/-- **A name comes out of the table** without its invisible characters, and otherwise as it was. -/
theorem literalValue_escapeRustStr (width : Char → Option Nat) (s : String) :
    literalValue (escapeRustStr width s).toList = some (visible width s).toList := by
  have hfilter : ∀ l : List Char,
      (l.flatMap fun c => if invisible width c then [] else escapeChar c) =
        (l.filter fun c => !invisible width c).flatMap escapeChar := by
    intro l
    induction l with
    | nil => rfl
    | cons c l ih =>
      rw [List.flatMap_cons, ih, List.filter_cons]
      cases invisible width c with
      | true => rfl
      | false => rfl
  rw [escapeRustStr, visible, String.toList_ofList, String.toList_ofList, hfilter]
  exact literalRest_flatMap _

/-! ### Lines of the file -/

/-- A line that registers three bytes, and what stands around the marker. -/
structure Registration where
  a : UInt8
  b : UInt8
  c : UInt8
  before : List Char
  after : List Char
  name : List Char
  blank_before : before.all isWhitespace = true
  blank_after : after.all isWhitespace = true
  no_marker : ¬marker <:+: name

namespace Registration

/-- The three bytes as `lookup` and the script compute them. -/
def oui (r : Registration) : Nat := r.a.toNat * 65536 + r.b.toNat * 256 + r.c.toNat

def digits (r : Registration) : List Char := hexByte r.a ++ hexByte r.b ++ hexByte r.c

def title (r : Registration) : String := trim (String.ofList r.name)

def text (r : Registration) : String :=
  String.ofList (r.digits ++ r.before ++ marker ++ r.after ++ r.name)

end Registration

theorem trim_blank_append {blank : List Char} (hblank : blank.all isWhitespace = true)
    (s : List Char) : trim (String.ofList (blank ++ s)) = trim (String.ofList s) := by
  rw [trim, trim, String.toList_ofList, String.toList_ofList,
    List.dropWhile_append_of_pos (List.all_eq_true.mp hblank)]

/-- The digits are six characters, and not blank. -/
theorem hexDigit_spec : ∀ n : Fin 16, hexValue (hexDigit n) = some n.val ∧
    (hexDigit n).utf8Size = 1 ∧ isWhitespace (hexDigit n) = false ∧ hexDigit n ≠ '(' ∧
      hexDigit n ≠ '+' := by decide

theorem exists_hexDigit {r : Registration} {c : Char} (hc : c ∈ r.digits) :
    ∃ n : Fin 16, c = hexDigit n := by
  have hhigh : ∀ b : UInt8, b.toNat / 16 < 16 := fun b => by
    have := b.toNat_lt
    omega
  have hlow : ∀ b : UInt8, b.toNat % 16 < 16 := fun b => by omega
  have hbyte : ∀ b, c ∈ hexByte b → ∃ n : Fin 16, c = hexDigit n := by
    intro b hb
    rcases List.mem_cons.mp hb with h | h
    · exact ⟨⟨_, hhigh b⟩, h⟩
    · exact ⟨⟨_, hlow b⟩, List.mem_singleton.mp h⟩
  simp only [Registration.digits, List.mem_append] at hc
  rcases hc with (h | h) | h
  · exact hbyte _ h
  · exact hbyte _ h
  · exact hbyte _ h

theorem foldlM_hexByte (b : UInt8) (rest : List Char) {max n : Nat}
    (h : n * 256 + b.toNat ≤ max) :
    (hexByte b ++ rest).foldlM (pushHex max) n = rest.foldlM (pushHex max) (n * 256 + b.toNat) := by
  have hb := b.toNat_lt
  have hhigh : hexValue (hexDigit (b.toNat / 16)) = some (b.toNat / 16) :=
    (hexDigit_spec ⟨b.toNat / 16, by omega⟩).1
  have hlow : hexValue (hexDigit (b.toNat % 16)) = some (b.toNat % 16) :=
    (hexDigit_spec ⟨b.toNat % 16, by omega⟩).1
  have hsum : (n * 16 + b.toNat / 16) * 16 + b.toNat % 16 = n * 256 + b.toNat := by omega
  have hfirst : pushHex max n (hexDigit (b.toNat / 16)) = some (n * 16 + b.toNat / 16) := by
    rw [pushHex, hhigh, Option.bind_some, if_pos (by omega)]
  have hsecond : pushHex max (n * 16 + b.toNat / 16) (hexDigit (b.toNat % 16)) =
      some (n * 256 + b.toNat) := by
    rw [pushHex, hlow, Option.bind_some, hsum, if_pos h]
  rw [hexByte, List.cons_append, List.cons_append, List.nil_append, List.foldlM_cons, hfirst]
  show (List.foldlM (pushHex max) _ _ : Option Nat) = _
  rw [List.foldlM_cons, hsecond]
  rfl

theorem fromStrRadix16_digits (r : Registration) :
    fromStrRadix16 (2 ^ 32 - 1) r.digits = some r.oui := by
  have ha := r.a.toNat_lt
  have hb := r.b.toNat_lt
  have hc := r.c.toNat_lt
  have hplus : r.digits.head? ≠ some '+' := by
    intro hhead
    obtain ⟨n, hn⟩ := exists_hexDigit (List.mem_of_mem_head? hhead)
    exact (hexDigit_spec n).2.2.2.2 hn.symm
  have hne : r.digits ≠ [] := List.cons_ne_nil _ _
  rw [fromStrRadix16, if_neg hplus, if_neg hne, Registration.digits, List.append_assoc,
    foldlM_hexByte _ _ (by omega), foldlM_hexByte _ _ (by omega)]
  rw [← List.append_nil (hexByte r.c), foldlM_hexByte _ _ (by omega)]
  have hsum : ((0 * 256 + r.a.toNat) * 256 + r.b.toNat) * 256 + r.c.toNat = r.oui := by
    rw [Registration.oui]
    omega
  rw [hsum]
  rfl

theorem marker_eq : marker = '(' :: ['b', 'a', 's', 'e', ' ', '1', '6', ')'] := by decide

theorem not_mem_of_blank {blank : List Char} (h : blank.all isWhitespace = true) : '(' ∉ blank := by
  intro hc
  have hblank := List.all_eq_true.mp h _ hc
  exact absurd hblank (by decide)

theorem marker_infix_of_append {blank : List Char} (hblank : '(' ∉ blank) {s : List Char}
    (h : marker <:+: blank ++ s) : marker <:+: s := by
  induction blank with
  | nil => exact h
  | cons c blank ih =>
    obtain ⟨hc, hblank⟩ := not_or.mp (fun hm => hblank (List.mem_cons.mpr hm))
    rcases List.infix_cons_iff.mp h with hp | hi
    · rw [marker_eq] at hp
      exact absurd (List.cons_prefix_cons.mp hp).1 hc
    · exact ih hblank hi

theorem toList_text (r : Registration) :
    r.text.toList = (r.digits ++ r.before) ++ marker ++ (r.after ++ r.name) := by
  rw [Registration.text, String.toList_ofList, List.append_assoc]

/-- **What a registration gives**: nothing where the name is blank. -/
theorem parseLine_text (r : Registration) :
    parseLine r.text = if r.title = "" then none else some (r.oui, r.title) := by
  have hmarker : marker <:+: r.text.toList := by
    rw [toList_text]
    exact ⟨_, _, rfl⟩
  have hstart : getTo 6 r.text.toList = some r.digits := by
    rw [toList_text, List.append_assoc, List.append_assoc]
    have hascii : ∀ c ∈ r.digits, c.utf8Size = 1 := by
      intro c hc
      obtain ⟨n, rfl⟩ := exists_hexDigit hc
      exact (hexDigit_spec n).2.1
    exact getTo_append hascii _
  have htrim : trim (String.ofList r.digits) = String.ofList r.digits := by
    have hdigits : ∀ c ∈ r.digits, isWhitespace c = false := by
      intro c hc
      obtain ⟨n, rfl⟩ := exists_hexDigit hc
      exact (hexDigit_spec n).2.2.1
    rw [← List.append_nil r.digits, trim_ofList_append hdigits (by simp), List.append_nil]
  have hfield : secondField marker r.text.toList = some (r.after ++ r.name) := by
    have hbefore : '(' ∉ r.digits ++ r.before := by
      intro hc
      rcases List.mem_append.mp hc with hc | hc
      · obtain ⟨n, hn⟩ := exists_hexDigit hc
        exact (hexDigit_spec n).2.2.2.1 hn.symm
      · exact not_mem_of_blank r.blank_before hc
    have hafter : ¬marker <:+: r.after ++ r.name := fun h =>
      r.no_marker (marker_infix_of_append (not_mem_of_blank r.blank_after) h)
    rw [toList_text, marker_eq]
    rw [marker_eq] at hafter
    exact secondField_append hbefore hafter
  simp only [parseLine, if_pos hmarker, hstart, htrim, hfield, trim_blank_append r.blank_after,
    String.toList_ofList, fromStrRadix16_digits, Option.map_some, Registration.title]
  rfl

/-- What a line of the file is: a registration, or a line that does not have the marker or is no
text. -/
inductive Content where
  | registration (r : Registration)
  | other (bytes : List UInt8)
      (no_marker : ∀ text, fromUtf8 bytes = some text → ¬marker <:+: text.toList)

def Content.body : Content → List UInt8
  | .registration r => utf8Bytes r.text
  | .other bytes _ => bytes

def Content.registered : Content → Option Registration
  | .registration r => if r.title = "" then none else some r
  | .other _ _ => none

structure FileLine where
  content : Content
  line : EndedLine
  body : line.body = content.body

def render (file : List FileLine) : List UInt8 := file.flatMap fun l => l.line.bytes

def Registration.IsFor (r : Registration) (mac : MacAddress) : Prop :=
  r.a = mac.bytes[0] ∧ r.b = mac.bytes[1] ∧ r.c = mac.bytes[2]

instance (r : Registration) (mac : MacAddress) : Decidable (r.IsFor mac) :=
  inferInstanceAs (Decidable (_ ∧ _ ∧ _))

def registrations (file : List FileLine) (mac : MacAddress) : List Registration :=
  (file.filterMap fun l => l.content.registered).filter fun r => r.IsFor mac

def ouiOf (mac : MacAddress) : Nat :=
  mac.bytes[0].toNat * 65536 + mac.bytes[1].toNat * 256 + mac.bytes[2].toNat

theorem oui_eq_ouiOf {r : Registration} {mac : MacAddress} : r.oui = ouiOf mac ↔ r.IsFor mac := by
  have ha := r.a.toNat_lt
  have hb := r.b.toNat_lt
  have hc := r.c.toNat_lt
  have h0 := mac.bytes[0].toNat_lt
  have h1 := mac.bytes[1].toNat_lt
  have h2 := mac.bytes[2].toNat_lt
  rw [Registration.IsFor, Registration.oui, ouiOf, ← UInt8.toNat_inj, ← UInt8.toNat_inj,
    ← UInt8.toNat_inj]
  omega

theorem parse_content (l : FileLine) : (fromUtf8 l.line.body).bind parseLine =
    l.content.registered.map fun r => (r.oui, r.title) := by
  rw [l.body]
  cases l.content with
  | registration r =>
    rw [Content.body, fromUtf8_eq_some.mpr rfl, Option.bind_some, parseLine_text, Content.registered]
    split
    · rfl
    · rfl
  | other bytes no_marker =>
    rw [Content.body, Content.registered, Option.map_none]
    cases htext : fromUtf8 bytes with
    | none => rfl
    | some text => rw [Option.bind_some, parseLine, if_neg (no_marker text htext)]

theorem lookup_foldl_insert (l : List (Nat × String)) (k : Nat) :
    (l.foldl (fun entries e => entries.insert e.1 e.2) (∅ : Entries)).lookup k =
      (l.filter fun e => e.1 = k).getLast?.map Prod.snd := by
  induction l using List.reverseRecOn with
  | nil => rfl
  | append_singleton l e ih =>
    rw [List.foldl_append, List.foldl_cons, List.foldl_nil, List.filter_append, List.filter_singleton]
    by_cases hk : e.1 = k
    · rw [← hk, AList.lookup_insert]
      simp
    · rw [AList.lookup_insert_ne (Ne.symm hk), ih]
      simp [hk]

theorem foldl_parseStep (ls : List (List UInt8)) : ∀ entries, ls.foldl parseStep entries =
    (ls.filterMap fun bytes => (fromUtf8 bytes).bind parseLine).foldl
      (fun entries e => entries.insert e.1 e.2) entries := by
  induction ls with
  | nil => intro entries; rfl
  | cons bytes ls ih =>
    intro entries
    rw [List.foldl_cons, ih, parseStep, List.filterMap_cons]
    cases (fromUtf8 bytes).bind parseLine with
    | none => rfl
    | some entry => rfl

theorem parseOuiFile_render (file : List FileLine) (mac : MacAddress) :
    (parseOuiFile (render file)).lookup (ouiOf mac) =
      (registrations file mac).getLast?.map Registration.title := by
  have hlines : lines (render file) = file.map fun l => l.line.body := by
    rw [render, ← List.flatMap_map, lines_flatMap, List.map_map]
    rfl
  have hentries : ((file.map fun l => l.line.body).filterMap fun bytes =>
      (fromUtf8 bytes).bind parseLine) =
      (file.filterMap fun l => l.content.registered).map fun r => (r.oui, r.title) := by
    rw [List.filterMap_map, List.map_filterMap]
    exact List.filterMap_congr fun l _ => parse_content l
  have hfilter : ((file.filterMap fun l => l.content.registered).map fun r =>
      (r.oui, r.title)).filter (fun e => e.1 = ouiOf mac) =
      (registrations file mac).map fun r => (r.oui, r.title) := by
    rw [List.filter_map, registrations]
    refine congrArg (List.map _) (List.filter_congr fun r _ => ?_)
    exact decide_eq_decide.mpr oui_eq_ouiOf
  rw [parseOuiFile, foldl_parseStep, hlines, hentries, lookup_foldl_insert, hfilter, List.getLast?_map,
    Option.map_map]
  rfl

/-- **The table of a file**: a look-up gives the last name that the file has for the first three
bytes of the address, without its invisible characters, and nothing if it has none. -/
theorem lookup_ouiMap (width : Char → Option Nat) (file : List FileLine) (mac : MacAddress) :
    lookup (ouiMap width (render file)) mac =
      (registrations file mac).getLast?.map fun r => visible width r.title := by
  have hvalue : ∀ name : String,
      (literalValue (escapeRustStr width name).toList).map String.ofList =
        some (visible width name) := by
    intro name
    rw [literalValue_escapeRustStr, Option.map_some, String.ofList_toList]
  have hmap : lookup (ouiMap width (render file)) mac =
      ((parseOuiFile (render file)).lookup (ouiOf mac)).map (visible width) := by
    show ouiMap width (render file) (ouiOf mac) = _
    rw [ouiMap]
    cases (parseOuiFile (render file)).lookup (ouiOf mac) with
    | none => rfl
    | some name => rw [Option.bind_some, hvalue, Option.map_some]
  rw [hmap, parseOuiFile_render, Option.map_map]
  rfl

/-! ### The vendors of the discovery engine -/

def Vendored (map : Nat → Option String) (d : Device) : Prop := d.vendor = lookup map d.mac

theorem vendored_newDevice (map : Nat → Option String) (mac : MacAddress) (now : Timestamp) :
    Vendored map (newDevice map mac now) := rfl

theorem vendored_endpointEvents {map : Nat → Option String} {prev : Option Device}
    {fresh : Device} {record : Device → Device} {changed : Device → Device → Bool}
    (hfresh : Vendored map fresh) (hprev : ∀ d, prev = some d → Vendored map d)
    (hrecord : ∀ d, Vendored map d → Vendored map (record d)) :
    ∀ e ∈ endpointEvents prev fresh record changed, Vendored map e.device := by
  intro e he
  cases prev with
  | none =>
    rw [endpointEvents, List.mem_singleton] at he
    rw [he]
    exact hrecord fresh hfresh
  | some d =>
    rw [endpointEvents] at he
    split at he
    · rw [List.mem_singleton.mp he]
      exact hrecord d (hprev d rfl)
    · cases he

theorem vendored_step {map : Nat → Option String} {store store' : MemoryStore} {frame : Frame}
    {evs : List DiscoveryEvent} (hstore : ∀ m d, store.get m = some d → Vendored map d)
    (h : (discovery map).step store frame = some (store', evs)) :
    (∀ m d, store'.get m = some d → Vendored map d) ∧ ∀ e ∈ evs, Vendored map e.device := by
  have hsource : ∀ x now d, Vendored map d → Vendored map (sourceRecord x now d) := by
    intro x now d hd
    rw [sourceRecord_eq]
    exact hd
  have hdestination : ∀ x now d, Vendored map d → Vendored map (destinationRecord x now d) := by
    intro x now d hd
    rw [destinationRecord_eq]
    exact hd
  have hold : ∀ m now, Vendored map ((store.get m).getD (newDevice map m now)) := by
    intro m now
    cases hget : store.get m with
    | none => exact vendored_newDevice map m now
    | some d => exact hstore m d hget
  constructor
  · intro m d hd
    cases macStep_of_step map h m with
    | absent _ record _ => exact hstore m d (record ▸ hd)
    | source x _ _ record _ =>
      rw [record] at hd
      cases hd
      exact hsource _ _ _ (hold _ _)
    | destination x _ _ _ record _ =>
      rw [record] at hd
      cases hd
      exact hdestination _ _ _ (hold _ _)
  · intro e he
    have hmem : e ∈ eventsFor e.device.mac evs :=
      List.mem_filter.mpr ⟨he, decide_eq_true rfl⟩
    cases macStep_of_step map h e.device.mac with
    | absent _ _ events =>
      rw [events] at hmem
      cases hmem
    | source x _ _ _ events =>
      rw [events] at hmem
      exact vendored_endpointEvents (vendored_newDevice map _ _) (fun d hd => hstore _ d hd)
        (hsource _ _) e hmem
    | destination x _ _ _ _ events =>
      rw [events] at hmem
      exact vendored_endpointEvents (vendored_newDevice map _ _) (fun d hd => hstore _ d hd)
        (hdestination _ _) e hmem

/-- **The vendor of a device** is the last name that the file has for it, in the table and in every
event, over any run of the discovery engine. -/
theorem vendor_of_run (width : Char → Option Nat) (file : List FileLine) {store : MemoryStore}
    {frames : List Frame} {outs : List (List DiscoveryEvent)}
    (h : (discovery (ouiMap width (render file))).run .new frames = some (store, outs)) :
    (∀ mac d, store.get mac = some d →
      d.vendor = (registrations file mac).getLast?.map fun r => visible width r.title) ∧
    ∀ e ∈ outs.flatten, e.device.vendor =
      (registrations file e.device.mac).getLast?.map fun r => visible width r.title := by
  have hrun : (∀ m d, store.get m = some d → Vendored (ouiMap width (render file)) d) ∧
      ∀ e ∈ outs.flatten, Vendored (ouiMap width (render file)) e.device := by
    refine (discovery (ouiMap width (render file))).run_induction
      (P := fun _ outs store =>
        (∀ m d, store.get m = some d → Vendored (ouiMap width (render file)) d) ∧
          ∀ e ∈ outs.flatten, Vendored (ouiMap width (render file)) e.device) ?_ ?_ h
    · exact ⟨fun m d hd => (by cases hd), fun e he => absurd he List.not_mem_nil⟩
    · intro frames outs store frame store' evs _ ih hs
      obtain ⟨hstore, hevents⟩ := vendored_step ih.1 hs
      refine ⟨hstore, fun e he => ?_⟩
      rw [List.flatten_append, List.flatten_singleton] at he
      rcases List.mem_append.mp he with he | he
      · exact ih.2 e he
      · exact hevents e he
  refine ⟨fun mac d hd => ?_, fun e he => ?_⟩
  · rw [← lookup_ouiMap, hrun.1 mac d hd, MemoryStore.mac_of_get hd]
  · rw [← lookup_ouiMap, hrun.2 e he]

/-! ### A file with one vendor -/

def raspberry : Registration where
  a := 0xB8
  b := 0x27
  c := 0xEB
  before := List.replicate 5 ' '
  after := ['\t', '\t']
  name := "Raspberry Pi Foundation".toList
  blank_before := by decide
  blank_after := by decide
  no_marker := by decide

theorem newline_not_mem_raspberry : 10 ∉ utf8Bytes raspberry.text := by decide +kernel

def raspberryFile : List FileLine :=
  [⟨.registration raspberry, ⟨utf8Bytes raspberry.text, true, newline_not_mem_raspberry,
    fun h => (by cases h)⟩, rfl⟩]

def raspberryFrame : Frame where
  buf := ⟨[0x66, 0x77, 0x88, 0x99, 0xaa, 0xbb, 0xb8, 0x27, 0xeb, 0x00, 0x00, 0x01, 0x08, 0x06], 14⟩
  clock := ⟨⟨0⟩, ⟨1⟩, ⟨2⟩⟩

theorem vendor_of_run_raspberry : ∃ store outs d,
    (discovery (ouiMap (fun _ => some 1) (render raspberryFile))).run .new [raspberryFrame] =
      some (store, outs) ∧
    store.get (.ofBytes 0xb8 0x27 0xeb 0x00 0x00 0x01) = some d ∧
    d.vendor = some "Raspberry Pi Foundation" := by
  have hrun : ((discovery (ouiMap (fun _ => some 1) (render raspberryFile))).run .new
      [raspberryFrame]).map (fun r => (r.1.get (.ofBytes 0xb8 0x27 0xeb 0x00 0x00 0x01)).isSome) =
      some true := by decide +kernel
  obtain ⟨⟨store, outs⟩, h, hsome⟩ := Option.map_eq_some_iff.mp hrun
  obtain ⟨d, hd⟩ := Option.isSome_iff_exists.mp hsome
  have hname : ((registrations raspberryFile (.ofBytes 0xb8 0x27 0xeb 0x00 0x00 0x01)).getLast?.map
      fun r => visible (fun _ => some 1) r.title) = some "Raspberry Pi Foundation" := by
    decide +kernel
  exact ⟨store, outs, d, h, hd, ((vendor_of_run (fun _ => some 1) raspberryFile h).1 _ d hd).trans
    hname⟩

end EdgeShield.Oui
