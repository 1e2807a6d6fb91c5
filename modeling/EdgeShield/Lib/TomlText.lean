import EdgeShield.Lib.Toml

/-!
# TOML that is written

What the reader of `Lib/Toml.lean` makes of a text that is put together from lines: comments,
headers, and pairs whose values are strings in quotes, numbers or `true`.

`stringBody_escape` is the heart of it.  Quotes and backslashes are escaped and nothing else
is, and the reader gives the string back, or, when there is a control character in it, gives
up; there is no string that it reads as something else.  `emits_items` is this for a whole
text, with any text behind it.
-/

namespace EdgeShield.Lib.Toml

/-! ### Strings -/

theorem skipBlank_of_not_isBlank {c : Char} (h : isBlank c = false) (cs : List Char) :
    skipBlank (c :: cs) = c :: cs := by
  rw [skipBlank, List.dropWhile_cons, if_neg (by rw [h]; decide)]

theorem strip_append (start cs : List Char) : strip start (start ++ cs) = some cs := by
  rw [strip, if_pos (List.prefix_append _ _), List.drop_left]

theorem strip_singleton (c : Char) (cs : List Char) : strip [c] (c :: cs) = some cs :=
  strip_append [c] cs

theorem strip_of_ne {c d : Char} (h : c ≠ d) (start cs : List Char) :
    strip (c :: start) (d :: cs) = none := by
  rw [strip, if_neg]
  intro hp
  exact h (List.cons_prefix_cons.mp hp).1

def escape (cs : List Char) : List Char :=
  cs.flatMap fun c => if c = '"' ∨ c = '\\' then ['\\', c] else [c]

/-- **A quoted string is read back**, when it has no control characters, and nothing of it is
read as anything else. -/
theorem stringBody_escape (rest : List Char) : ∀ cs : List Char,
    stringBody .text (escape cs ++ '"' :: rest) =
      if cs.all isPlain then some (cs, rest) else none := by
  intro cs
  induction cs with
  | nil => rfl
  | cons c cs ih =>
    rw [escape, List.flatMap_cons, ← escape, List.append_assoc, List.all_cons]
    by_cases hc : c = '"' ∨ c = '\\'
    · have hplain : isPlain c = true := by
        rcases hc with rfl | rfl
        · rfl
        · rfl
      have hescape : escapeOf c = some c := by
        rcases hc with rfl | rfl
        · rfl
        · rfl
      have hcode : c ≠ 'u' ∧ c ≠ 'U' := by
        rcases hc with rfl | rfl
        · decide
        · decide
      rw [if_pos hc, List.cons_append, List.cons_append, List.nil_append, stringBody,
        if_neg (by decide), if_pos rfl, stringBody, if_neg hcode.1, if_neg hcode.2, hescape]
      simp only [ih, hplain, Bool.true_and]
      split
      · rfl
      · rfl
    · rw [not_or] at hc
      rw [if_neg (not_or.mpr hc), List.cons_append, List.nil_append, stringBody, if_neg hc.1,
        if_neg hc.2, ih]
      cases hplain : isPlain c with
      | false => rfl
      | true =>
        rw [if_pos rfl, Bool.true_and]
        split
        · rfl
        · rfl

theorem value_quoted (other : Reader) (cs : List Char) {rest : List Char}
    (hrest : rest.head? ≠ some '"') :
    value other ('"' :: (escape cs ++ '"' :: rest)) =
      if cs.all isPlain then some (.string (String.ofList cs), rest) else none := by
  have hquotes : ¬['"', '"', '"'] <+: '"' :: (escape cs ++ '"' :: rest) := by
    intro h
    have htwo := (List.cons_prefix_cons.mp h).2
    cases cs with
    | nil =>
      obtain ⟨tail, htail⟩ := (List.cons_prefix_cons.mp htwo).2
      rw [← htail] at hrest
      exact hrest rfl
    | cons c cs =>
      rw [escape, List.flatMap_cons, ← escape] at htwo
      by_cases hc : c = '"' ∨ c = '\\'
      · rw [if_pos hc] at htwo
        exact absurd (List.cons_prefix_cons.mp htwo).1 (by decide)
      · rw [if_neg hc] at htwo
        exact hc (.inl (List.cons_prefix_cons.mp htwo).1.symm)
  rw [value, if_neg hquotes, strip_singleton]
  simp only [stringBody_escape]
  split
  · rfl
  · rfl

/-! ### Keys -/

/-- The rest begins with no character of the kind. -/
def Stops (p : Char → Bool) (rest : List Char) : Prop := ∀ c ∈ rest.head?, p c = false

theorem takeWhile_append_stops {p : Char → Bool} {cs rest : List Char} (hcs : ∀ c ∈ cs, p c = true)
    (hrest : Stops p rest) :
    (cs ++ rest).takeWhile p = cs ∧ (cs ++ rest).dropWhile p = rest := by
  have hstop : rest.takeWhile p = [] ∧ rest.dropWhile p = rest := by
    cases rest with
    | nil => exact ⟨rfl, rfl⟩
    | cons c rest =>
      have hc : ¬p c = true := by
        rw [hrest c rfl]
        decide
      exact ⟨List.takeWhile_cons_of_neg hc, List.dropWhile_cons_of_neg hc⟩
  rw [List.takeWhile_append_of_pos hcs, List.dropWhile_append_of_pos hcs, hstop.1, hstop.2,
    List.append_nil]
  exact ⟨rfl, rfl⟩

def BareKey (name : String) : Prop := name.toList ≠ [] ∧ name.toList.all isBare = true

instance (name : String) : Decidable (BareKey name) := by unfold BareKey; infer_instance

theorem simpleKey_bare {name : String} (h : BareKey name) {rest : List Char}
    (hrest : Stops isBare rest) : simpleKey (name.toList ++ rest) = some (name, rest) := by
  obtain ⟨hne, hall⟩ := h
  obtain ⟨htake, hdrop⟩ := takeWhile_append_stops (List.all_eq_true.mp hall) hrest
  obtain ⟨c, cs, hcs⟩ := List.exists_cons_of_ne_nil hne
  have hc : isBare c = true := List.all_eq_true.mp hall c (by rw [hcs]; exact List.mem_cons_self)
  have hquote : c ≠ '"' := by
    rintro rfl
    exact absurd hc (by decide)
  have happ : c ≠ '\u0027' := by
    rintro rfl
    exact absurd hc (by decide)
  have hcons : name.toList ++ rest = c :: (cs ++ rest) := by rw [hcs, List.cons_append]
  rw [hcons] at htake hdrop ⊢
  simp only [simpleKey, if_neg hquote, if_neg happ, htake, hdrop, if_neg hne, String.ofList_toList]

def dotted : List String → List Char
  | [] => []
  | [name] => name.toList
  | name :: path => name.toList ++ '.' :: dotted path

theorem dotted_cons (name : String) {path : List String} (h : path ≠ []) :
    dotted (name :: path) = name.toList ++ '.' :: dotted path := by
  obtain ⟨name', path', rfl⟩ := List.exists_cons_of_ne_nil h
  rfl

theorem exists_dotted_eq_cons {path : List String} (hne : path ≠ [])
    (hall : ∀ name ∈ path, BareKey name) :
    ∃ c cs, dotted path = c :: cs ∧ isBare c = true := by
  obtain ⟨name, path, rfl⟩ := List.exists_cons_of_ne_nil hne
  obtain ⟨hname, hbare⟩ := hall name List.mem_cons_self
  obtain ⟨c, cs, hcs⟩ := List.exists_cons_of_ne_nil hname
  have hc : isBare c = true := List.all_eq_true.mp hbare c (by rw [hcs]; exact List.mem_cons_self)
  cases path with
  | nil => exact ⟨c, cs, hcs, hc⟩
  | cons name' path =>
    refine ⟨c, cs ++ '.' :: dotted (name' :: path), ?_, hc⟩
    rw [dotted_cons name (List.cons_ne_nil _ _), hcs, List.cons_append]

theorem isBlank_of_isBare {c : Char} (h : isBare c = true) : isBlank c = false := by
  rw [isBlank, Bool.or_eq_false_iff, beq_eq_false_iff_ne, beq_eq_false_iff_ne]
  refine ⟨?_, ?_⟩
  · rintro rfl
    exact absurd h (by decide)
  · rintro rfl
    exact absurd h (by decide)

/-- What ends a key: no character of one, and no dot behind the blanks. -/
structure EndsKey (rest : List Char) : Prop where
  bare : Stops isBare rest
  dot : strip ['.'] (skipBlank rest) = none

theorem keyPath_dotted {rest : List Char} (hrest : EndsKey rest) :
    ∀ {path : List String}, path ≠ [] → (∀ name ∈ path, BareKey name) →
      keyPath (dotted path ++ rest) = some (path, skipBlank rest) := by
  intro path
  induction path with
  | nil =>
    intro hne _
    exact absurd rfl hne
  | cons name path ih =>
    intro _ hall
    have hname := hall name List.mem_cons_self
    have hpath : ∀ name ∈ path, BareKey name := fun n hn => hall n (List.mem_cons_of_mem name hn)
    by_cases hnil : path = []
    · subst hnil
      show keyPath (name.toList ++ rest) = _
      rw [keyPath, simpleKey_bare hname hrest.bare]
      simp only [hrest.dot]
    · obtain ⟨c, cs, hcs, hc⟩ := exists_dotted_eq_cons hnil hpath
      have hdot : Stops isBare ('.' :: (dotted path ++ rest)) := by
        intro d hd
        cases hd
        decide
      have hskip : skipBlank (dotted path ++ rest) = dotted path ++ rest := by
        rw [hcs, List.cons_append, skipBlank_of_not_isBlank (isBlank_of_isBare hc)]
      have hskip' : skipBlank ('.' :: (dotted path ++ rest)) = '.' :: (dotted path ++ rest) :=
        skipBlank_of_not_isBlank (by decide) _
      have hlt : (dotted path ++ rest).length <
          (name.toList ++ '.' :: (dotted path ++ rest)).length := by
        simp only [List.length_append, List.length_cons]
        omega
      rw [dotted_cons name hnil, List.append_assoc, List.cons_append, keyPath,
        simpleKey_bare hname hdot]
      simp only [hskip', strip_singleton, hskip]
      rw [dif_pos hlt, ih hnil hpath]
      rfl

/-! ### Numbers and booleans -/

theorem head?_toDigits (n : Nat) (hn : 0 < n) : (Nat.toDigits 10 n).head? ≠ some '0' := by
  induction n using Nat.strong_induction_on with
  | _ n ih =>
    rcases Nat.lt_or_ge n 10 with hlt | hge
    · rw [Nat.toDigits_of_lt_base hlt]
      have hdigits : ∀ m < 10, 0 < m → [Nat.digitChar m].head? ≠ some '0' := by decide
      exact hdigits n hlt hn
    · rw [Nat.toDigits_of_base_le (by omega) hge, List.head?_append_of_ne_nil _ Nat.toDigits_ne_nil]
      exact ih (n / 10) (by omega) (by omega)

theorem decimal_toDigits (n : Nat) : decimal (Nat.toDigits 10 n) = some n := by
  rw [decimal, if_pos, Nat.ofDigitChars_ten_toDigits]
  refine ⟨Nat.toDigits_ne_nil, List.all_eq_true.mpr fun c hc => ?_, ?_⟩
  · exact Nat.isDigit_of_mem_toDigits (by omega) (by omega) hc
  · rcases Nat.eq_zero_or_pos n with rfl | hn
    · exact .inl rfl
    · exact .inr (head?_toDigits n hn)

theorem isWord_of_isDigit {c : Char} (h : c.isDigit = true) : isWord c = true := by
  have hbare : ('0' ≤ c && c ≤ '9') = true := by
    rw [Char.isDigit, Bool.and_eq_true, decide_eq_true_eq, decide_eq_true_eq] at h
    rw [Bool.and_eq_true, decide_eq_true_eq, decide_eq_true_eq]
    exact h
  rw [isWord, isBare, hbare]
  simp

theorem value_toDigits (other : Reader) (n : Nat) {rest : List Char} (hrest : Stops isWord rest) :
    value other (Nat.toDigits 10 n ++ rest) = some (.integer n, rest) := by
  have hdigit : ∀ c ∈ Nat.toDigits 10 n, c.isDigit = true :=
    fun c hc => Nat.isDigit_of_mem_toDigits (by omega) (by omega) hc
  obtain ⟨htake, hdrop⟩ := takeWhile_append_stops (p := isWord)
    (fun c hc => isWord_of_isDigit (hdigit c hc)) hrest
  obtain ⟨c, cs, hcs⟩ := List.exists_cons_of_ne_nil (Nat.toDigits_ne_nil (n := n) (b := 10))
  have hc : c.isDigit = true := hdigit c (by rw [hcs]; exact List.mem_cons_self)
  have hne : ∀ d, d.isDigit = false → d ≠ c := by
    rintro d hd rfl
    rw [hc] at hd
    cases hd
  have hword : ∀ d ds, d.isDigit = false → ¬Nat.toDigits 10 n = d :: ds := by
    intro d ds hd h
    rw [hcs] at h
    exact hne d hd (List.cons.inj h).1.symm
  have hquotes : ¬['"', '"', '"'] <+: Nat.toDigits 10 n ++ rest := by
    intro h
    rw [hcs] at h
    exact hne '"' (by decide) (List.cons_prefix_cons.mp h).1
  have hstrip : strip ['"'] (Nat.toDigits 10 n ++ rest) = none := by
    rw [hcs]
    exact strip_of_ne (hne '"' (by decide)) [] _
  rw [value, if_neg hquotes, hstrip]
  simp only [htake, hdrop, if_neg (hword 't' _ (by decide)), if_neg (hword 'f' _ (by decide)),
    decimal_toDigits]

theorem value_true (other : Reader) {rest : List Char} (hrest : Stops isWord rest) :
    value other (['t', 'r', 'u', 'e'] ++ rest) = some (.boolean true, rest) := by
  have hword : ∀ c ∈ ['t', 'r', 'u', 'e'], isWord c = true := List.all_eq_true.mp rfl
  obtain ⟨htake, hdrop⟩ := takeWhile_append_stops hword hrest
  have hquotes : ¬['"', '"', '"'] <+: ['t', 'r', 'u', 'e'] ++ rest := by
    intro h
    exact absurd (List.cons_prefix_cons.mp h).1 (by decide)
  have hstrip : strip ['"'] (['t', 'r', 'u', 'e'] ++ rest) = none :=
    strip_of_ne (by decide) [] _
  rw [value, if_neg hquotes, hstrip]
  simp only [htake, hdrop, if_true]

/-! ### Lines -/

theorem lineEnd_newline (rest : List Char) : lineEnd ('\n' :: rest) = some rest := by
  have hskip : skipBlank ('\n' :: rest) = '\n' :: rest :=
    skipBlank_of_not_isBlank (by decide) rest
  have hcomment : ¬['#'] <+: '\n' :: rest :=
    fun h => absurd (List.cons_prefix_cons.mp h).1 (by decide)
  simp only [lineEnd, hskip, if_neg hcomment, if_neg (List.cons_ne_nil _ _), strip_singleton,
    Option.some_or]

theorem lineEnd_comment {cs : List Char} (h : cs.all isPlain = true) (rest : List Char) :
    lineEnd ('#' :: (cs ++ '\n' :: rest)) = some rest := by
  have hskip : skipBlank ('#' :: (cs ++ '\n' :: rest)) = '#' :: (cs ++ '\n' :: rest) :=
    skipBlank_of_not_isBlank (by decide) _
  have hcomment : ['#'] <+: '#' :: (cs ++ '\n' :: rest) := List.prefix_append ['#'] _
  have hstop : Stops isPlain ('\n' :: rest) := by
    intro d hd
    cases hd
    decide
  have hdrop : ('#' :: (cs ++ '\n' :: rest)).dropWhile isPlain = '\n' :: rest := by
    rw [List.dropWhile_cons_of_pos (by decide)]
    exact (takeWhile_append_stops (List.all_eq_true.mp h) hstop).2
  simp only [lineEnd, hskip, if_pos hcomment, hdrop, if_neg (List.cons_ne_nil _ _),
    strip_singleton, Option.some_or]

theorem lineEnd_eq_none {c : Char} (cs : List Char) (h : isBare c = true ∨ c = '[') :
    lineEnd (c :: cs) = none := by
  have hne : ∀ d, isBare d = false → d ≠ '[' → d ≠ c := by
    rintro d hbare hbracket rfl
    rcases h with h | h
    · rw [h] at hbare
      cases hbare
    · exact hbracket h
  have hblank : isBlank c = false := by
    rcases h with h | rfl
    · exact isBlank_of_isBare h
    · decide
  have hcomment : ¬['#'] <+: c :: cs :=
    fun hp => hne '#' (by decide) (by decide) (List.cons_prefix_cons.mp hp).1
  simp only [lineEnd, skipBlank_of_not_isBlank hblank, if_neg hcomment,
    if_neg (List.cons_ne_nil c cs), strip_of_ne (hne '\n' (by decide) (by decide)),
    strip_of_ne (hne '\r' (by decide) (by decide)), Option.none_or]

def Kind.brackets : Kind → List Char × List Char
  | .table => (['['], [']'])
  | .element => (['[', '['], [']', ']'])

def headerText (kind : Kind) (path : List String) : List Char :=
  kind.brackets.1 ++ dotted path ++ kind.brackets.2 ++ ['\n']

theorem line_headerText (other : Reader) (kind : Kind) {path : List String} (hne : path ≠ [])
    (hall : ∀ name ∈ path, BareKey name) (rest : List Char) :
    line other (headerText kind path ++ rest) = some (some (.header kind path), rest) := by
  obtain ⟨c, cs, hcs, hc⟩ := exists_dotted_eq_cons hne hall
  have hblank := isBlank_of_isBare hc
  have hbracket : '[' ≠ c := by
    rintro rfl
    exact absurd hc (by decide)
  have hclose : ∀ tail, EndsKey (']' :: tail) := by
    refine fun tail => ⟨?_, ?_⟩
    · intro d hd
      cases hd
      decide
    · rw [skipBlank_of_not_isBlank (by decide)]
      exact strip_of_ne (by decide) [] tail
  have hpath : ∀ tail, keyPath (skipBlank (dotted path ++ ']' :: tail)) =
      some (path, ']' :: tail) := by
    intro tail
    rw [hcs, List.cons_append, skipBlank_of_not_isBlank hblank, ← List.cons_append, ← hcs,
      keyPath_dotted (hclose tail) hne hall, skipBlank_of_not_isBlank (by decide)]
  cases kind with
  | table =>
    have htext : headerText .table path ++ rest = '[' :: (dotted path ++ ']' :: '\n' :: rest) := by
      simp [headerText, Kind.brackets]
    have htwo : strip ['[', '['] ('[' :: (dotted path ++ ']' :: '\n' :: rest)) = none := by
      rw [strip, if_neg]
      intro h
      have hsecond := (List.cons_prefix_cons.mp h).2
      rw [hcs] at hsecond
      exact hbracket (List.cons_prefix_cons.mp hsecond).1
    rw [htext, line, lineEnd_eq_none _ (.inr rfl)]
    simp only [skipBlank_of_not_isBlank (show isBlank '[' = false by decide), htwo,
      strip_singleton, header, hpath]
    simp only [Option.bind_eq_bind, Option.bind_some, strip_singleton, lineEnd_newline]
    rfl
  | element =>
    have htext : headerText .element path ++ rest =
        '[' :: '[' :: (dotted path ++ ']' :: ']' :: '\n' :: rest) := by
      simp [headerText, Kind.brackets]
    have htwo : strip ['[', '['] ('[' :: '[' :: (dotted path ++ ']' :: ']' :: '\n' :: rest)) =
        some (dotted path ++ ']' :: ']' :: '\n' :: rest) := strip_append ['[', '['] _
    have hend : strip [']', ']'] (']' :: ']' :: '\n' :: rest) = some ('\n' :: rest) :=
      strip_append [']', ']'] _
    rw [htext, line, lineEnd_eq_none _ (.inr rfl)]
    simp only [skipBlank_of_not_isBlank (show isBlank '[' = false by decide), htwo, header, hpath]
    simp only [Option.bind_eq_bind, Option.bind_some, hend, lineEnd_newline]
    rfl

def pairText (name : String) (text : List Char) : List Char :=
  name.toList ++ [' ', '=', ' '] ++ text ++ ['\n']

/-- A pair is read when its value is; `p` is the condition for that. -/
theorem line_pairText {other : Reader} {name : String} (hname : BareKey name) {text : List Char}
    {v : Value} {p : Bool} (hblank : Stops isBlank text) (hne : text ≠ [])
    (hvalue : ∀ rest, value other (text ++ '\n' :: rest) =
      if p then some (v, '\n' :: rest) else none) (rest : List Char) :
    line other (pairText name text ++ rest) =
      if p then some (some (.pair [name] v), rest) else none := by
  obtain ⟨c, cs, hcs⟩ := List.exists_cons_of_ne_nil hname.1
  have hc : isBare c = true :=
    List.all_eq_true.mp hname.2 c (by rw [hcs]; exact List.mem_cons_self)
  have hbracket : '[' ≠ c := by
    rintro rfl
    exact absurd hc (by decide)
  have htail : EndsKey (' ' :: '=' :: ' ' :: (text ++ '\n' :: rest)) := by
    refine ⟨?_, ?_⟩
    · intro d hd
      cases hd
      decide
    · show strip ['.'] ('=' :: ' ' :: (text ++ '\n' :: rest)) = none
      exact strip_of_ne (by decide) [] _
  have hkey : keyPath (name.toList ++ ' ' :: '=' :: ' ' :: (text ++ '\n' :: rest)) =
      some ([name], '=' :: ' ' :: (text ++ '\n' :: rest)) :=
    keyPath_dotted htail (List.cons_ne_nil name []) (by
      intro k hk
      rw [List.mem_singleton.mp hk]
      exact hname)
  have hskip : skipBlank (' ' :: (text ++ '\n' :: rest)) = text ++ '\n' :: rest := by
    obtain ⟨d, ds, hds⟩ := List.exists_cons_of_ne_nil hne
    show skipBlank (text ++ '\n' :: rest) = _
    rw [hds, List.cons_append, skipBlank_of_not_isBlank (hblank d (by rw [hds]; rfl))]
  have htext : pairText name text ++ rest =
      name.toList ++ ' ' :: '=' :: ' ' :: (text ++ '\n' :: rest) := by
    simp [pairText]
  have hline : line other (name.toList ++ ' ' :: '=' :: ' ' :: (text ++ '\n' :: rest)) =
      pair other (name.toList ++ ' ' :: '=' :: ' ' :: (text ++ '\n' :: rest)) := by
    rw [hcs, List.cons_append, line, lineEnd_eq_none _ (.inl hc)]
    simp only [skipBlank_of_not_isBlank (isBlank_of_isBare hc), strip_of_ne hbracket]
  rw [htext, hline, pair, hkey]
  simp only [Option.bind_eq_bind, Option.bind_some, strip_singleton, hskip, hvalue]
  cases p with
  | false => rfl
  | true =>
    simp only [if_true, Option.bind_some, lineEnd_newline]
    rfl

/-! ### Texts made of lines -/

/-- The text is read as these expressions, whatever follows it, if `p` holds, and is not
read otherwise. -/
def Emits (other : Reader) (text : List Char) (p : Prop) (es : List Expression) : Prop :=
  ∀ rest all, document other (text ++ rest) = some all ↔
    p ∧ ∃ more, document other rest = some more ∧ all = es ++ more

variable {other : Reader}

theorem document_nil : document other [] = some [] := by rw [document, if_pos rfl]

theorem emits_nil : Emits other [] True [] := by
  intro rest all
  refine ⟨fun h => ⟨trivial, all, h, rfl⟩, ?_⟩
  rintro ⟨-, more, h, rfl⟩
  exact h

theorem Emits.append {text text' : List Char} {p p' : Prop} {es es' : List Expression}
    (h : Emits other text p es) (h' : Emits other text' p' es') :
    Emits other (text ++ text') (p ∧ p') (es ++ es') := by
  intro rest all
  rw [List.append_assoc, h]
  refine ⟨?_, ?_⟩
  · rintro ⟨hp, more, hmore, rfl⟩
    obtain ⟨hp', more', hmore', rfl⟩ := (h' rest more).mp hmore
    exact ⟨⟨hp, hp'⟩, more', hmore', (List.append_assoc _ _ _).symm⟩
  · rintro ⟨⟨hp, hp'⟩, more, hmore, rfl⟩
    exact ⟨hp, es' ++ more, (h' rest _).mpr ⟨hp', more, hmore, rfl⟩, List.append_assoc _ _ _⟩

theorem Emits.congr {text : List Char} {p q : Prop} {es : List Expression} (hpq : p ↔ q)
    (h : Emits other text p es) : Emits other text q es := by
  intro rest all
  rw [h rest all, hpq]

theorem emits_of_line {text : List Char} {e : Option Expression} {p : Bool} (hne : text ≠ [])
    (h : ∀ rest, line other (text ++ rest) = if p then some (e, rest) else none) :
    Emits other text (p = true) e.toList := by
  intro rest all
  have hnil : ¬text ++ rest = [] := fun hnil => hne (List.append_eq_nil_iff.mp hnil).1
  have hlt : rest.length < (text ++ rest).length := by
    have hpos := List.length_pos_iff.mpr hne
    rw [List.length_append]
    omega
  rw [document, if_neg hnil, h]
  cases p with
  | false => exact ⟨fun hall => (by cases hall), fun hall => absurd hall.1 (by decide)⟩
  | true =>
    simp only [if_true]
    rw [dif_pos hlt, Option.map_eq_some_iff, true_and]
    refine ⟨?_, ?_⟩
    · rintro ⟨more, hmore, rfl⟩
      exact ⟨more, hmore, rfl⟩
    · rintro ⟨more, hmore, rfl⟩
      exact ⟨more, hmore, rfl⟩

theorem emits_of_line_eq_some {text : List Char} {e : Option Expression} (hne : text ≠ [])
    (h : ∀ rest, line other (text ++ rest) = some (e, rest)) : Emits other text True e.toList :=
  (@emits_of_line other text e true hne h).congr (iff_of_true rfl trivial)

theorem emits_newline : Emits other ['\n'] True [] := by
  refine emits_of_line_eq_some (e := none) (List.cons_ne_nil _ _) fun rest => ?_
  show line other ('\n' :: rest) = _
  rw [line, lineEnd_newline]

theorem emits_comment {cs : List Char} (h : cs.all isPlain = true) :
    Emits other ('#' :: (cs ++ ['\n'])) True [] := by
  refine emits_of_line_eq_some (e := none) (List.cons_ne_nil _ _) fun rest => ?_
  have htext : '#' :: (cs ++ ['\n']) ++ rest = '#' :: (cs ++ '\n' :: rest) := by simp
  rw [htext, line, lineEnd_comment h]

theorem emits_header (kind : Kind) {path : List String} (hne : path ≠ [])
    (hall : ∀ name ∈ path, BareKey name) :
    Emits other (headerText kind path) True [.header kind path] := by
  have htext : headerText kind path ≠ [] := List.append_ne_nil_of_right_ne_nil _ (by decide)
  exact emits_of_line_eq_some htext fun rest => line_headerText other kind hne hall rest

theorem pairText_ne_nil (name : String) (text : List Char) : pairText name text ≠ [] :=
  List.append_ne_nil_of_right_ne_nil _ (by decide)

/-- **A string in quotes** is read as the string, and not at all if it has a control character
other than a tab. -/
theorem emits_string {name : String} (hname : BareKey name) (s : String) :
    Emits other (pairText name ('"' :: (escape s.toList ++ ['"']))) (s.toList.all isPlain = true)
      [.pair [name] (.string s)] := by
  refine emits_of_line (e := some (.pair [name] (.string s))) (pairText_ne_nil _ _)
    (line_pairText hname ?_ (List.cons_ne_nil _ _) fun rest => ?_)
  · intro c hc
    cases hc
    decide
  · have hcons : '"' :: (escape s.toList ++ ['"']) ++ '\n' :: rest =
        '"' :: (escape s.toList ++ '"' :: '\n' :: rest) := by simp
    rw [hcons, value_quoted other s.toList (by rintro ⟨⟩), String.ofList_toList]

theorem stops_newline {p : Char → Bool} (h : p '\n' = false) (rest : List Char) :
    Stops p ('\n' :: rest) := by
  intro c hc
  cases hc
  exact h

theorem emits_nat {name : String} (hname : BareKey name) (n : Nat) :
    Emits other (pairText name n.repr.toList) True [.pair [name] (.integer n)] := by
  rw [Nat.toList_repr]
  refine emits_of_line_eq_some (e := some (.pair [name] (.integer n))) (pairText_ne_nil _ _)
    (@line_pairText other name hname _ (.integer n) true ?_ Nat.toDigits_ne_nil fun rest => ?_)
  · obtain ⟨c, cs, hcs⟩ := List.exists_cons_of_ne_nil (Nat.toDigits_ne_nil (n := n) (b := 10))
    intro d hd
    rw [hcs] at hd
    cases hd
    have hdigit : c.isDigit = true := by
      refine Nat.isDigit_of_mem_toDigits (b := 10) (n := n) (by omega) (by omega) ?_
      rw [hcs]
      exact List.mem_cons_self
    rw [isBlank, Bool.or_eq_false_iff, beq_eq_false_iff_ne, beq_eq_false_iff_ne]
    refine ⟨?_, ?_⟩
    · rintro rfl
      exact absurd hdigit (by decide)
    · rintro rfl
      exact absurd hdigit (by decide)
  · exact value_toDigits other n (stops_newline (by decide) rest)

theorem emits_true {name : String} (hname : BareKey name) :
    Emits other (pairText name ['t', 'r', 'u', 'e']) True [.pair [name] (.boolean true)] := by
  refine emits_of_line_eq_some (e := some (.pair [name] (.boolean true))) (pairText_ne_nil _ _)
    (@line_pairText other name hname _ (.boolean true) true ?_ (List.cons_ne_nil _ _) fun rest => ?_)
  · intro c hc
    cases hc
    decide
  · exact value_true other (stops_newline (by decide) rest)

/-! ### Items -/

inductive Item where
  | newline
  | comment (cs : List Char)
  | header (kind : Kind) (path : List String)
  | string (name s : String)
  | nat (name : String) (n : Nat)
  | flag (name : String)

namespace Item

def text : Item → List Char
  | newline => ['\n']
  | comment cs => '#' :: (cs ++ ['\n'])
  | header kind path => headerText kind path
  | string name s => pairText name ('"' :: (escape s.toList ++ ['"']))
  | nat name n => pairText name n.repr.toList
  | flag name => pairText name ['t', 'r', 'u', 'e']

def expressions : Item → List Expression
  | newline => []
  | comment _ => []
  | header kind path => [.header kind path]
  | string name s => [.pair [name] (.string s)]
  | nat name n => [.pair [name] (.integer n)]
  | flag name => [.pair [name] (.boolean true)]

def wellFormed : Item → Bool
  | newline => true
  | comment cs => cs.all isPlain
  | header _ path => !path.isEmpty && path.all fun name => decide (BareKey name)
  | string name _ => decide (BareKey name)
  | nat name _ => decide (BareKey name)
  | flag name => decide (BareKey name)

def Plain : Item → Prop
  | string _ s => s.toList.all isPlain = true
  | _ => True

instance (i : Item) : Decidable i.Plain :=
  match i with
  | string _ s => inferInstanceAs (Decidable (s.toList.all isPlain = true))
  | newline | comment _ | header _ _ | nat _ _ | flag _ => inferInstanceAs (Decidable True)

theorem emits {i : Item} (h : i.wellFormed = true) : Emits other i.text i.Plain i.expressions := by
  cases i with
  | newline => exact emits_newline
  | comment cs => exact emits_comment h
  | header kind path =>
    rw [wellFormed, Bool.and_eq_true, List.all_eq_true] at h
    refine emits_header kind ?_ fun name hname => of_decide_eq_true (h.2 name hname)
    rintro rfl
    exact absurd h.1 (by decide)
  | string name s => exact emits_string (of_decide_eq_true h) s
  | nat name n => exact emits_nat (of_decide_eq_true h) n
  | flag name => exact emits_true (of_decide_eq_true h)

end Item

/-- **A text made of items** is read as their expressions, exactly when its strings have no
control characters. -/
theorem emits_items {items : List Item} (h : items.all Item.wellFormed = true) :
    Emits other (items.flatMap Item.text) (∀ i ∈ items, i.Plain)
      (items.flatMap Item.expressions) := by
  induction items with
  | nil => exact emits_nil.congr (iff_of_true trivial fun i hi => absurd hi List.not_mem_nil)
  | cons i items ih =>
    rw [List.all_cons, Bool.and_eq_true] at h
    rw [List.flatMap_cons, List.flatMap_cons]
    refine ((Item.emits h.1).append (ih h.2)).congr ?_
    rw [List.forall_mem_cons]

theorem document_items {items : List Item} (h : items.all Item.wellFormed = true)
    {es : List Expression} :
    document other (items.flatMap Item.text) = some es ↔
      (∀ i ∈ items, i.Plain) ∧ es = items.flatMap Item.expressions := by
  have hdoc := @emits_items other items h [] es
  rw [List.append_nil, document_nil] at hdoc
  rw [hdoc]
  refine and_congr_right fun _ => ⟨?_, ?_⟩
  · rintro ⟨more, hmore, rfl⟩
    cases hmore
    exact List.append_nil _
  · rintro rfl
    exact ⟨[], rfl, (List.append_nil _).symm⟩

/-! ### Sections that are written -/

structure Spells (is : List Item) (bs : List Block) : Prop where
  wellFormed : is.all Item.wellFormed = true
  expressions : is.flatMap Item.expressions = bs.flatMap Block.expressions
  names : ∀ b ∈ bs, (b.entries.map Prod.fst).Nodup

theorem spells_nil : Spells [] [] :=
  ⟨rfl, rfl, fun _ hb => absurd hb List.not_mem_nil⟩

theorem Spells.append {is is' : List Item} {bs bs' : List Block} (h : Spells is bs)
    (h' : Spells is' bs') : Spells (is ++ is') (bs ++ bs') := by
  refine ⟨?_, ?_, fun b hb => ?_⟩
  · rw [List.all_append, h.wellFormed, h'.wellFormed]
    rfl
  · rw [List.flatMap_append, List.flatMap_append, h.expressions, h'.expressions]
  · rcases List.mem_append.mp hb with hb | hb
    · exact h.names b hb
    · exact h'.names b hb

theorem Spells.elim {α : Type*} {is : α → List Item} {b : α → Block} (h : ∀ a, Spells (is a) [b a])
    (o : Option α) : Spells (o.elim [] is) (o.map b).toList := by
  cases o with
  | none => exact spells_nil
  | some a => exact h a

/-- **A text made of pairs and sections** is read as their table, exactly when its strings have
no control characters. -/
theorem parse_eq_some_iff {text : String} {top is : List Item} {root : Table} {bs : List Block}
    (htext : text.toList = (top ++ is).flatMap Item.text)
    (htop : top.all Item.wellFormed = true)
    (hroot : top.flatMap Item.expressions = root.map pairOf) (h : Spells is bs)
    (hnames : (root.map Prod.fst ++ bs.map Block.name).Nodup) {t : Table} :
    parse other text = some t ↔
      (∀ i ∈ top ++ is, i.Plain) ∧ t = root ++ bs.map fun b => (b.name, b.value) := by
  have hall : (top ++ is).all Item.wellFormed = true := by
    rw [List.all_append, htop, h.wellFormed]
    rfl
  have htable := tableOf_blocks hnames h.names
  rw [parse, htext, Option.bind_eq_bind, Option.bind_eq_some_iff]
  refine ⟨?_, ?_⟩
  · rintro ⟨es, hes, ht⟩
    obtain ⟨hplain, rfl⟩ := (document_items hall).mp hes
    rw [List.flatMap_append, hroot, h.expressions, htable] at ht
    exact ⟨hplain, (Option.some.inj ht).symm⟩
  · rintro ⟨hplain, rfl⟩
    refine ⟨_, (document_items hall).mpr ⟨hplain, rfl⟩, ?_⟩
    rw [List.flatMap_append, hroot, h.expressions, htable]

end EdgeShield.Lib.Toml
