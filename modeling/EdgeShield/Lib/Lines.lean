import EdgeShield.Lib.Bytes
import EdgeShield.Lib.Text

/-!
# Lines and fields

How the standard library of the source takes a text file apart: `BufRead::lines` on bytes, and on
one line `str::get(..n)`, `str::split` and `u32::from_str_radix`.  For each there is the rule that
reads back what has been put together: a line from its bytes and its ending, the two sides of a
marker, the start of a line from its characters, and a number from its digits.
-/

namespace EdgeShield.Lib

/-! ### Lines -/

def withoutCr (line : List UInt8) : List UInt8 :=
  if line.getLast? = some 13 then line.dropLast else line

/-- `lines`, when `line` has been read of the first one. -/
def linesFrom (line : List UInt8) : List UInt8 → List (List UInt8)
  | [] => if line = [] then [] else [line]
  | b :: rest => if b = 10 then withoutCr line :: linesFrom [] rest else linesFrom (line ++ [b]) rest

/-- `BufRead::lines`, before the bytes of a line are read as a text. -/
def lines (bytes : List UInt8) : List (List UInt8) := linesFrom [] bytes

theorem linesFrom_append {body : List UInt8} (hbody : 10 ∉ body) :
    ∀ (line rest : List UInt8), linesFrom line (body ++ 10 :: rest) =
      withoutCr (line ++ body) :: linesFrom [] rest := by
  induction body with
  | nil =>
    intro line rest
    rw [List.nil_append, linesFrom, if_pos rfl, List.append_nil]
  | cons b body ih =>
    intro line rest
    obtain ⟨hb, hbody⟩ := not_or.mp (fun h => hbody (List.mem_cons.mpr h))
    rw [List.cons_append, linesFrom, if_neg (Ne.symm hb), ih hbody, List.append_assoc,
      List.singleton_append]

structure EndedLine where
  body : List UInt8
  crlf : Bool
  no_newline : 10 ∉ body
  no_cr : crlf = false → body.getLast? ≠ some 13

def EndedLine.bytes (l : EndedLine) : List UInt8 :=
  l.body ++ if l.crlf then [13, 10] else [10]

/-- **The lines of a file** whose lines all end are these lines. -/
theorem lines_flatMap (ls : List EndedLine) :
    lines (ls.flatMap EndedLine.bytes) = ls.map EndedLine.body := by
  rw [lines]
  induction ls with
  | nil => rfl
  | cons l ls ih =>
    rw [List.flatMap_cons, List.map_cons, ← ih, EndedLine.bytes]
    cases hcrlf : l.crlf with
    | true =>
      have hbody : 10 ∉ l.body ++ [13] := by
        simpa using l.no_newline
      have hsplit : (l.body ++ [13, 10]) ++ ls.flatMap EndedLine.bytes =
          (l.body ++ [13]) ++ 10 :: ls.flatMap EndedLine.bytes := by simp
      rw [if_pos rfl, hsplit, linesFrom_append hbody, List.nil_append, withoutCr,
        List.getLast?_concat, if_pos rfl, List.dropLast_concat]
    | false =>
      have hsplit : (l.body ++ [10]) ++ ls.flatMap EndedLine.bytes =
          l.body ++ 10 :: ls.flatMap EndedLine.bytes := by simp
      rw [if_neg Bool.false_ne_true, hsplit, linesFrom_append l.no_newline, List.nil_append,
        withoutCr, if_neg (l.no_cr hcrlf)]

/-! ### Fields -/

/-- `s.get(..n)`: nothing where the text is shorter, or a character goes across. -/
def getTo : Nat → List Char → Option (List Char)
  | 0, _ => some []
  | _ + 1, [] => none
  | n + 1, c :: cs =>
    if c.utf8Size ≤ n + 1 then (getTo (n + 1 - c.utf8Size) cs).map fun start => c :: start else none

theorem getTo_append {start : List Char} (hascii : ∀ c ∈ start, c.utf8Size = 1)
    (rest : List Char) : getTo start.length (start ++ rest) = some start := by
  induction start with
  | nil => cases rest <;> rfl
  | cons c start ih =>
    obtain ⟨hc, hascii⟩ := List.forall_mem_cons.mp hascii
    rw [List.length_cons, List.cons_append, getTo, hc, if_pos (Nat.le_add_left 1 _),
      Nat.add_sub_cancel, ih hascii, Option.map_some]

/-- What stands before and after the first occurrence of a text. -/
def splitOnce (pat : List Char) : List Char → Option (List Char × List Char)
  | [] => if pat = [] then some ([], []) else none
  | c :: cs =>
    if pat <+: c :: cs then some ([], (c :: cs).drop pat.length)
    else (splitOnce pat cs).map fun r => (c :: r.1, r.2)

/-- `s.split(pat).nth(1)`. -/
def secondField (pat s : List Char) : Option (List Char) :=
  (splitOnce pat s).map fun r => ((splitOnce pat r.2).map Prod.fst).getD r.2

theorem splitOnce_append {c : Char} {pat before : List Char} (hbefore : c ∉ before)
    (after : List Char) :
    splitOnce (c :: pat) (before ++ (c :: pat) ++ after) = some (before, after) := by
  induction before with
  | nil =>
    rw [List.nil_append, List.cons_append, splitOnce, ← List.cons_append,
      if_pos (List.prefix_append _ _), List.drop_left]
  | cons d before ih =>
    obtain ⟨hd, hbefore⟩ := not_or.mp (fun h => hbefore (List.mem_cons.mpr h))
    have hnot : ¬c :: pat <+: d :: (before ++ (c :: pat) ++ after) :=
      fun h => hd (List.cons_prefix_cons.mp h).1
    rw [List.cons_append, List.cons_append, splitOnce, if_neg hnot, ih hbefore, Option.map_some]

theorem splitOnce_eq_none {pat : List Char} (hpat : pat ≠ []) {s : List Char}
    (h : ¬pat <:+: s) : splitOnce pat s = none := by
  induction s with
  | nil => rw [splitOnce, if_neg hpat]
  | cons c cs ih =>
    have hrest : ¬pat <:+: cs := fun hi => h (hi.trans (List.suffix_cons c cs).isInfix)
    rw [splitOnce, if_neg fun hp => h hp.isInfix, ih hrest, Option.map_none]

theorem secondField_append {c : Char} {pat before after : List Char} (hbefore : c ∉ before)
    (hafter : ¬c :: pat <:+: after) :
    secondField (c :: pat) (before ++ (c :: pat) ++ after) = some after := by
  rw [secondField, splitOnce_append hbefore, Option.map_some,
    splitOnce_eq_none (List.cons_ne_nil c pat) hafter]
  rfl

/-! ### Numbers -/

/-- `char::to_digit(16)`. -/
def hexValue (c : Char) : Option Nat :=
  if '0' ≤ c ∧ c ≤ '9' then some (c.toNat - 48)
  else if 'a' ≤ c ∧ c ≤ 'f' then some (c.toNat - 87)
  else if 'A' ≤ c ∧ c ≤ 'F' then some (c.toNat - 55)
  else none

def pushHex (max n : Nat) (c : Char) : Option Nat :=
  (hexValue c).bind fun d => if n * 16 + d ≤ max then some (n * 16 + d) else none

/-- `from_str_radix(s, 16)` for an unsigned integer type whose largest value is `max`. -/
def fromStrRadix16 (max : Nat) (s : List Char) : Option Nat :=
  let digits := if s.head? = some '+' then s.tail else s
  if digits = [] then none else digits.foldlM (pushHex max) 0

end EdgeShield.Lib
