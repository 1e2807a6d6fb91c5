import EdgeShield.Lib.Text

/-!
# TOML

A reader for TOML 1.0 documents.  `document` splits a text into its key/value pairs and
headers, and `tableOf` makes the table that they describe.  Basic strings with all their
escapes, decimal integers, booleans, bare and quoted keys, comments and headers are read
here; a value of another kind (a multi-line or literal string, an array, an inline table, a
float, a time) is left to a reader of the caller's.  A name that is defined twice is an
error, but a table may be opened more than once: what is read is all of TOML and a little
more.

`tableOf_blocks` is the table of a document whose names are all different, and `present` a
table with entries that need not be there.
-/

namespace EdgeShield.Lib.Toml

inductive Value where
  | string (s : String)
  | integer (n : Int)
  | boolean (b : Bool)
  /-- A float or a time, as it is written. -/
  | other (text : String)
  | array (items : List Value)
  | table (entries : List (String × Value))

abbrev Table := List (String × Value)

/-! ### Characters -/

def isBlank (c : Char) : Bool := c == ' ' || c == '\t'

/-- A character that is no control character, or a tab. -/
def isPlain (c : Char) : Bool := c == '\t' || (0x20 ≤ c.toNat && c.toNat != 0x7F)

def isBare (c : Char) : Bool :=
  ('a' ≤ c && c ≤ 'z') || ('A' ≤ c && c ≤ 'Z') || ('0' ≤ c && c ≤ '9') || c == '_' || c == '-'

/-- A character of a number, a time or a boolean. -/
def isWord (c : Char) : Bool := isBare c || c == '+' || c == '.' || c == ':'

def skipBlank (cs : List Char) : List Char := cs.dropWhile isBlank

def strip (start cs : List Char) : Option (List Char) :=
  if start <+: cs then some (cs.drop start.length) else none

/-! ### Strings and keys -/

/-- What stands for itself after a backslash, or for a control character. -/
def escapeOf (c : Char) : Option Char :=
  if c = 'b' then some '\x08'
  else if c = 't' then some '\t'
  else if c = 'n' then some '\n'
  else if c = 'f' then some '\x0c'
  else if c = 'r' then some '\r'
  else if c = '"' ∨ c = '\\' then some c
  else none

def hexValue (c : Char) : Option Nat :=
  if '0' ≤ c ∧ c ≤ '9' then some (c.toNat - 48)
  else if 'a' ≤ c ∧ c ≤ 'f' then some (c.toNat - 87)
  else if 'A' ≤ c ∧ c ≤ 'F' then some (c.toNat - 55)
  else none

/-- Where in a basic string: in the text, after a backslash, or in the digits of a code. -/
inductive StringState where
  | text
  | escaped
  | code (more n : Nat)

def push (c : Char) (r : List Char × List Char) : List Char × List Char := (c :: r.1, r.2)

/-- A basic string, after its first quote: it ends at the first quote that is not escaped. -/
def stringBody : StringState → List Char → Option (List Char × List Char)
  | _, [] => none
  | .text, c :: cs =>
    if c = '"' then some ([], cs)
    else if c = '\\' then stringBody .escaped cs
    else if isPlain c then (stringBody .text cs).map (push c)
    else none
  | .escaped, c :: cs =>
    if c = 'u' then stringBody (.code 4 0) cs
    else if c = 'U' then stringBody (.code 8 0) cs
    else
      match escapeOf c with
      | some d => (stringBody .text cs).map (push d)
      | none => none
  | .code more n, c :: cs =>
    match hexValue c with
    | none => none
    | some d =>
      if 1 < more then stringBody (.code (more - 1) (16 * n + d)) cs
      else if (16 * n + d).isValidChar then
        (stringBody .text cs).map (push (Char.ofNat (16 * n + d)))
      else none

def literalBody : List Char → Option (List Char × List Char)
  | [] => none
  | c :: cs =>
    if c = '\u0027' then some ([], cs)
    else if isPlain c then (literalBody cs).map (push c)
    else none

def simpleKey (cs : List Char) : Option (String × List Char) :=
  match cs with
  | [] => none
  | c :: rest =>
    if c = '"' then (stringBody .text rest).map fun r => (String.ofList r.1, r.2)
    else if c = '\u0027' then (literalBody rest).map fun r => (String.ofList r.1, r.2)
    else
      let name := cs.takeWhile isBare
      if name = [] then none else some (String.ofList name, cs.dropWhile isBare)

/-- A key, in its parts, and what follows it and the blanks behind it. -/
def keyPath (cs : List Char) : Option (List String × List Char) :=
  match simpleKey cs with
  | none => none
  | some (name, rest) =>
    match strip ['.'] (skipBlank rest) with
    | none => some ([name], skipBlank rest)
    | some rest =>
      if _h : (skipBlank rest).length < cs.length then
        (keyPath (skipBlank rest)).map fun r => (name :: r.1, r.2)
      else none
termination_by cs.length

/-! ### Values -/

/-- A reader for the values that are not read here. -/
abbrev Reader := List Char → Option (Value × List Char)

def decimal (word : List Char) : Option Nat :=
  if word ≠ [] ∧ word.all Char.isDigit ∧ (word.length = 1 ∨ word.head? ≠ some '0') then
    some (Nat.ofDigitChars 10 word 0)
  else none

def value (other : Reader) (cs : List Char) : Option (Value × List Char) :=
  -- a multi-line string begins with three quotes
  if ['"', '"', '"'] <+: cs then other cs
  else
    match strip ['"'] cs with
    | some rest => (stringBody .text rest).map fun r => (.string (String.ofList r.1), r.2)
    | none =>
      let word := cs.takeWhile isWord
      let rest := cs.dropWhile isWord
      if word = ['t', 'r', 'u', 'e'] then some (.boolean true, rest)
      else if word = ['f', 'a', 'l', 's', 'e'] then some (.boolean false, rest)
      else
        match decimal word with
        | some n => some (.integer n, rest)
        | none => other cs

/-! ### Lines -/

/-- The end of a line: blanks, a comment, and a line break or the end of the text. -/
def lineEnd (cs : List Char) : Option (List Char) :=
  let cs := skipBlank cs
  let cs := if ['#'] <+: cs then cs.dropWhile isPlain else cs
  if cs = [] then some []
  else (strip ['\n'] cs).or (strip ['\r', '\n'] cs)

/-- What a header opens: a table, or one more element of an array of tables. -/
inductive Kind where
  | table
  | element
  deriving DecidableEq, Repr

inductive Expression where
  | pair (path : List String) (v : Value)
  | header (kind : Kind) (path : List String)

def header (kind : Kind) (close cs : List Char) : Option (Option Expression × List Char) := do
  let (path, rest) ← keyPath (skipBlank cs)
  let rest ← strip close rest
  let rest ← lineEnd rest
  return (some (.header kind path), rest)

def pair (other : Reader) (cs : List Char) : Option (Option Expression × List Char) := do
  let (path, rest) ← keyPath cs
  let rest ← strip ['='] rest
  let (v, rest) ← value other (skipBlank rest)
  let rest ← lineEnd rest
  return (some (.pair path v), rest)

/-- A line, or the lines of a value that goes on over several, and what follows. -/
def line (other : Reader) (cs : List Char) : Option (Option Expression × List Char) :=
  match lineEnd cs with
  | some rest => some (none, rest)
  | none =>
    let cs := skipBlank cs
    match strip ['[', '['] cs with
    | some rest => header .element [']', ']'] rest
    | none =>
      match strip ['['] cs with
      | some rest => header .table [']'] rest
      | none => pair other cs

def document (other : Reader) (cs : List Char) : Option (List Expression) :=
  if cs = [] then some []
  else
    match line other cs with
    | none => none
    | some (e, rest) =>
      if _h : rest.length < cs.length then (document other rest).map (e.toList ++ ·) else none
termination_by cs.length

/-! ### Tables -/

def set : Table → String → Value → Table
  | [], k, v => [(k, v)]
  | (k', v') :: t, k, v => if k' = k then (k, v) :: t else (k', v') :: set t k v

/-- Changes the value at a path.  On the way a table that is missing is made, and an array
stands for its last element. -/
def update (f : Option Value → Option Value) : List String → Table → Option Table
  | [], _ => none
  | [k], t => (f (t.lookup k)).map (set t k)
  | k :: k' :: path, t =>
    match t.lookup k with
    | none => (update f (k' :: path) []).map fun sub => set t k (.table sub)
    | some (.table sub) => (update f (k' :: path) sub).map fun sub => set t k (.table sub)
    | some (.array items) =>
      match items.getLast? with
      | some (.table sub) =>
        (update f (k' :: path) sub).map fun sub => set t k (.array (items.dropLast ++ [.table sub]))
      | _ => none
    | some _ => none

def define (t : Table) (path : List String) (v : Value) : Option Table :=
  update (fun old => if old.isSome then none else some v) path t

def defineAll (t : Table) (entries : List (List String × Value)) : Option Table :=
  entries.foldlM (fun t e => define t e.1 e.2) t

structure Section where
  kind : Kind
  path : List String
  entries : List (List String × Value)

def sections : List Expression → List (List String × Value) × List Section
  | [] => ([], [])
  | .pair path v :: es => ((path, v) :: (sections es).1, (sections es).2)
  | .header kind path :: es => ([], ⟨kind, path, (sections es).1⟩ :: (sections es).2)

def Section.valueAfter (s : Section) (old : Option Value) : Option Value :=
  match s.kind, old with
  | .table, none => (defineAll [] s.entries).map .table
  | .table, some (.table t) => (defineAll t s.entries).map .table
  | .element, none => (defineAll [] s.entries).map fun t => .array [.table t]
  | .element, some (.array items) =>
    (defineAll [] s.entries).map fun t => .array (items ++ [.table t])
  | _, _ => none

def tableOf (es : List Expression) : Option Table := do
  let root ← defineAll [] (sections es).1
  (sections es).2.foldlM (fun t s => update s.valueAfter s.path t) root

def parse (other : Reader) (text : String) : Option Table :=
  document other text.toList >>= tableOf

/-! ### Tables with free names -/

theorem set_of_notMem {t : Table} {k : String} (v : Value) (h : k ∉ t.map Prod.fst) :
    set t k v = t ++ [(k, v)] := by
  induction t with
  | nil => rfl
  | cons e t ih =>
    rw [List.map_cons, List.mem_cons, not_or] at h
    obtain ⟨k', v'⟩ := e
    rw [set, if_neg (Ne.symm h.1), ih h.2, List.cons_append]

theorem lookup_of_notMem {t : Table} {k : String} (h : k ∉ t.map Prod.fst) : t.lookup k = none := by
  rw [List.lookup_eq_none_iff]
  intro e he
  rw [bne_iff_ne]
  rintro rfl
  exact h (List.mem_map_of_mem he)

/-- A value with tables around it. -/
def nest : List String → Value → Value
  | [], v => v
  | k :: path, v => .table [(k, nest path v)]

theorem update_of_notMem {f : Option Value → Option Value} {v : Value} (hf : f none = some v)
    (path : List String) : ∀ {k : String} {t : Table}, k ∉ t.map Prod.fst →
      update f (k :: path) t = some (t ++ [(k, nest path v)]) := by
  induction path with
  | nil =>
    intro k t h
    rw [update, lookup_of_notMem h, hf, Option.map_some, set_of_notMem v h]
    rfl
  | cons k' path ih =>
    intro k t h
    have hsub : update f (k' :: path) [] = some [(k', nest path v)] := ih List.not_mem_nil
    rw [update, lookup_of_notMem h]
    simp only [hsub, Option.map_some]
    rw [set_of_notMem _ h]
    rfl

def pairOf (e : String × Value) : Expression := .pair [e.1] e.2

theorem defineAll_of_nodup (entries : Table) :
    ∀ t : Table, ((t ++ entries).map Prod.fst).Nodup →
      defineAll t (entries.map fun e => ([e.1], e.2)) = some (t ++ entries) := by
  induction entries with
  | nil =>
    intro t _
    rw [List.append_nil]
    rfl
  | cons e entries ih =>
    intro t h
    have hcons : t ++ e :: entries = (t ++ [e]) ++ entries := by simp
    have hfresh : e.1 ∉ t.map Prod.fst := by
      rw [List.map_append, List.nodup_append] at h
      intro hmem
      exact h.2.2 e.1 hmem e.1 List.mem_cons_self rfl
    have hdefine : define t [e.1] e.2 = some (t ++ [e]) :=
      update_of_notMem (v := e.2) rfl [] hfresh
    rw [hcons] at h ⊢
    rw [List.map_cons, defineAll, List.foldlM_cons, hdefine]
    exact ih (t ++ [e]) h

/-- A section whose names have one part. -/
structure Block where
  kind : Kind
  name : String
  path : List String
  entries : Table

namespace Block

def expressions (b : Block) : List Expression :=
  .header b.kind (b.name :: b.path) :: b.entries.map pairOf

def toSection (b : Block) : Section :=
  ⟨b.kind, b.name :: b.path, b.entries.map fun e => ([e.1], e.2)⟩

def value (b : Block) : Value :=
  nest b.path (if b.kind = .table then .table b.entries else .array [.table b.entries])

end Block

theorem sections_pairs (entries : Table) (es : List Expression) :
    sections (entries.map pairOf ++ es) =
      ((entries.map fun e => ([e.1], e.2)) ++ (sections es).1, (sections es).2) := by
  induction entries with
  | nil => rfl
  | cons e entries ih =>
    rw [List.map_cons, List.cons_append, pairOf, sections, ih]
    rfl

theorem sections_blocks (blocks : List Block) :
    sections (blocks.flatMap Block.expressions) = ([], blocks.map Block.toSection) := by
  induction blocks with
  | nil => rfl
  | cons b blocks ih =>
    rw [List.flatMap_cons, Block.expressions, List.cons_append, sections, sections_pairs, ih,
      List.append_nil]
    rfl

theorem update_block {b : Block} {t : Table} (hname : b.name ∉ t.map Prod.fst)
    (hentries : (b.entries.map Prod.fst).Nodup) :
    update b.toSection.valueAfter b.toSection.path t = some (t ++ [(b.name, b.value)]) := by
  have hall := defineAll_of_nodup b.entries [] hentries
  refine update_of_notMem ?_ b.path hname
  obtain ⟨kind, name, path, entries⟩ := b
  cases kind with
  | table =>
    simp only [Section.valueAfter, Block.toSection, hall]
    rfl
  | element =>
    simp only [Section.valueAfter, Block.toSection, hall]
    rfl

theorem foldlM_blocks (blocks : List Block) :
    ∀ t : Table, (t.map Prod.fst ++ blocks.map Block.name).Nodup →
      (∀ b ∈ blocks, (b.entries.map Prod.fst).Nodup) →
      (blocks.map Block.toSection).foldlM (fun t s => update s.valueAfter s.path t) t =
        some (t ++ blocks.map fun b => (b.name, b.value)) := by
  induction blocks with
  | nil =>
    intro t _ _
    exact congrArg some (List.append_nil t).symm
  | cons b blocks ih =>
    intro t hnames hentries
    have hname : b.name ∉ t.map Prod.fst := by
      intro hmem
      rw [List.nodup_append] at hnames
      exact hnames.2.2 b.name hmem b.name List.mem_cons_self rfl
    have hstep := update_block hname (hentries b List.mem_cons_self)
    have hrest : ((t ++ [(b.name, b.value)]).map Prod.fst ++ blocks.map Block.name).Nodup := by
      simpa using hnames
    rw [List.map_cons, List.foldlM_cons]
    simp only [hstep, Option.bind_eq_bind, Option.bind_some]
    rw [ih _ hrest fun c hc => hentries c (List.mem_cons_of_mem b hc), List.append_assoc]
    rfl

/-- **The table of a document** whose names are all different. -/
theorem tableOf_blocks {root : Table} {blocks : List Block}
    (hnames : (root.map Prod.fst ++ blocks.map Block.name).Nodup)
    (hentries : ∀ b ∈ blocks, (b.entries.map Prod.fst).Nodup) :
    tableOf (root.map pairOf ++ blocks.flatMap Block.expressions) =
      some (root ++ blocks.map fun b => (b.name, b.value)) := by
  have hroot := defineAll_of_nodup root [] (List.nodup_append.mp hnames).1
  rw [tableOf, sections_pairs, sections_blocks]
  simp only [List.append_nil, hroot, Option.bind_eq_bind, Option.bind_some]
  exact foldlM_blocks blocks root hnames hentries

/-! #### Entries that need not be there -/

def present (entries : List (String × Option Value)) : Table :=
  entries.filterMap fun e => e.2.map fun v => (e.1, v)

theorem keys_present_sublist (entries : List (String × Option Value)) :
    ((present entries).map Prod.fst).Sublist (entries.map Prod.fst) := by
  induction entries with
  | nil => exact List.Sublist.refl _
  | cons e entries ih =>
    obtain ⟨k, o⟩ := e
    cases o with
    | none => exact ih.cons k
    | some v => exact ih.cons_cons k

theorem lookup_present {entries : List (String × Option Value)} (h : (entries.map Prod.fst).Nodup)
    (k : String) : (present entries).lookup k = (entries.lookup k).join := by
  induction entries with
  | nil => rfl
  | cons e entries ih =>
    obtain ⟨k', o⟩ := e
    rw [List.map_cons, List.nodup_cons] at h
    by_cases hk : k = k'
    · subst hk
      rw [List.lookup_cons_self, Option.join_some]
      cases o with
      | some v => exact List.lookup_cons_self
      | none => exact lookup_of_notMem fun hk => h.1 ((keys_present_sublist entries).subset hk)
    · rw [List.lookup_cons, beq_eq_false_iff_ne.mpr hk]
      cases o with
      | none => exact ih h.2
      | some v =>
        show List.lookup k ((k', v) :: present entries) = _
        rw [List.lookup_cons, beq_eq_false_iff_ne.mpr hk]
        exact ih h.2

end EdgeShield.Lib.Toml
