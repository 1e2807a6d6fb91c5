import Mathlib.Data.List.DropRight
import Mathlib.Tactic.Common

/-!
# Texts

The functions on strings that the standard library of the source offers and Lean's has in
another form: trimming by the Unicode property `White_Space`, cutting off a prefix or a
suffix that is really there, replacing a character, and reading an unsigned number.
-/

namespace EdgeShield.Lib

/-- `char::is_whitespace`: the Unicode property `White_Space`. -/
def isWhitespace (c : Char) : Bool :=
  let n := c.toNat
  (0x09 ≤ n && n ≤ 0x0D) || n == 0x20 || n == 0x85 || n == 0xA0 || n == 0x1680 ||
    (0x2000 ≤ n && n ≤ 0x200A) || n == 0x2028 || n == 0x2029 || n == 0x202F || n == 0x205F ||
    n == 0x3000

def trim (s : String) : String :=
  String.ofList ((s.toList.dropWhile isWhitespace).rdropWhile isWhitespace)

/-- `s.trim().is_empty()`. -/
def isBlank (s : String) : Bool := trim s == ""

theorem trim_ofList_append {l blank : List Char} (hl : ∀ c ∈ l, isWhitespace c = false)
    (hblank : ∀ c ∈ blank, isWhitespace c = true) :
    trim (String.ofList (l ++ blank)) = String.ofList l := by
  have hend : l.rdropWhile isWhitespace = l := by
    refine List.rdropWhile_eq_self_iff.mpr fun hne => ?_
    rw [hl _ (List.getLast_mem hne)]
    exact Bool.false_ne_true
  have hcut : (l ++ blank).rdropWhile isWhitespace = l := by
    rw [List.rdropWhile, List.reverse_append,
      List.dropWhile_append_of_pos fun c hc => hblank c (List.mem_reverse.mp hc)]
    exact hend
  rw [trim, String.toList_ofList]
  cases l with
  | nil =>
    rw [List.nil_append, List.dropWhile_eq_nil_iff.mpr hblank]
    rfl
  | cons c l =>
    have hc : ¬isWhitespace c = true := by
      rw [hl c List.mem_cons_self]
      exact Bool.false_ne_true
    rw [List.cons_append, List.dropWhile_cons_of_neg hc, ← List.cons_append, hcut]

def stripPrefix (start s : String) : Option String :=
  if start.toList <+: s.toList then some (String.ofList (s.toList.drop start.length)) else none

def stripSuffix (ending s : String) : Option String :=
  if ending.toList <:+ s.toList then
    some (String.ofList (s.toList.take (s.length - ending.length)))
  else none

def replaceChar (c : Char) (new s : String) : String :=
  String.ofList (s.toList.flatMap fun d => if d = c then new.toList else [d])

theorem toList_replaceChar (c : Char) (new s : String) : (replaceChar c new s).toList =
    s.toList.flatMap fun d => if d = c then new.toList else [d] := String.toList_ofList

theorem stripPrefix_eq_some {start s t : String} :
    stripPrefix start s = some t ↔ s = start ++ t := by
  unfold stripPrefix
  constructor
  · intro h
    split at h
    · next hp =>
      cases h
      obtain ⟨rest, hrest⟩ := hp
      apply String.toList_injective
      rw [String.toList_append, String.toList_ofList, ← hrest, ← String.length_toList,
        List.drop_left]
    · cases h
  · rintro rfl
    rw [String.toList_append, if_pos (List.prefix_append _ _), ← String.length_toList,
      List.drop_left, String.ofList_toList]

/-- `str::parse` for an unsigned integer type whose largest value is `max`: digits after an
optional `+`. -/
def parseUnsigned (max : Nat) (s : String) : Option Nat :=
  let digits := if s.toList.head? = some '+' then s.toList.tail else s.toList
  if digits ≠ [] ∧ digits.all Char.isDigit then
    let n := Nat.ofDigitChars 10 digits 0
    if n ≤ max then some n else none
  else none

theorem parseUnsigned_repr {max n : Nat} (h : n ≤ max) : parseUnsigned max (Nat.repr n) = some n := by
  have hdigit : ∀ c ∈ Nat.toDigits 10 n, c.isDigit = true :=
    fun c hc => Nat.isDigit_of_mem_toDigits (by omega) (by omega) hc
  have hplus : (Nat.toDigits 10 n).head? ≠ some '+' := by
    intro hhead
    have hc := hdigit _ (List.mem_of_mem_head? hhead)
    exact absurd hc (by decide)
  simp only [parseUnsigned, Nat.toList_repr, if_neg hplus, Nat.ofDigitChars_ten_toDigits]
  rw [if_pos ⟨Nat.toDigits_ne_nil, List.all_eq_true.mpr hdigit⟩, if_pos h]

end EdgeShield.Lib
