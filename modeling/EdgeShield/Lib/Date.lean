import Mathlib.Data.List.Lex
import Mathlib.Order.Lattice.Nat
import Mathlib.Tactic.Common
import EdgeShield.Lib.Sql

/-!
# Calendar dates and their texts

Dates of the Gregorian calendar in the years 0000 to 9999, in the order in which their days
follow each other: `dayNumber` counts the days since the first of January of the year 0.
`text` is the form `YYYY-MM-DD`.

`textBytes_lt_iff` says that the texts, compared byte by byte, are in the order of the
calendar.  It rests on two facts: numbers below `10 ^ w` are in the order of their `w` digits
(`codes_lt_iff`), and a date is before another exactly when its year is, or its month in the
same year, or its day in the same month (`lt_iff_lex`).
-/

namespace EdgeShield.Lib

/-! ### Digits -/

def codes : Nat → Nat → List Nat
  | 0, _ => []
  | w + 1, n => (48 + n / 10 ^ w) :: codes w (n % 10 ^ w)

/-- `{:0w}`, for a number of at most `w` digits. -/
def padded (w n : Nat) : List Char := (codes w n).map Char.ofNat

@[simp] theorem length_codes : ∀ w n, (codes w n).length = w := by
  intro w
  induction w with
  | zero => intro n; rfl
  | succ w ih => intro n; rw [codes, List.length_cons, ih]

theorem codes_lt : ∀ w n, n < 10 ^ w → ∀ c ∈ codes w n, c < 128 := by
  intro w
  induction w with
  | zero => intro n _ c hc; exact absurd hc List.not_mem_nil
  | succ w ih =>
    intro n hn c hc
    rcases List.mem_cons.mp hc with rfl | hc
    · have hdigit : n / 10 ^ w < 10 := Nat.div_lt_of_lt_mul (by rwa [← Nat.pow_succ])
      omega
    · exact ih _ (Nat.mod_lt _ (Nat.pow_pos (Nat.succ_pos 9))) c hc

theorem lt_iff_div_mod (p a b : Nat) :
    a < b ↔ a / p < b / p ∨ a / p = b / p ∧ a % p < b % p := by
  have ha := Nat.div_add_mod a p
  have hb := Nat.div_add_mod b p
  constructor
  · intro h
    rcases Nat.lt_or_eq_of_le (Nat.div_le_div_right (c := p) (Nat.le_of_lt h)) with hlt | heq
    · exact .inl hlt
    · refine .inr ⟨heq, ?_⟩
      rw [heq] at ha
      omega
  · intro h
    rcases h with hlt | ⟨heq, hlt⟩
    · exact Nat.lt_of_not_le fun hle => absurd (Nat.div_le_div_right (c := p) hle) (by omega)
    · rw [heq] at ha
      omega

/-- **Numbers are in the order of their digits.** -/
theorem codes_lt_iff : ∀ w a b, a < 10 ^ w → b < 10 ^ w → (codes w a < codes w b ↔ a < b) := by
  intro w
  induction w with
  | zero =>
    intro a b ha hb
    have h : a = b := by omega
    subst h
    exact iff_of_false (lt_irrefl _) (lt_irrefl _)
  | succ w ih =>
    intro a b ha hb
    have hpos : 0 < 10 ^ w := Nat.pow_pos (Nat.succ_pos 9)
    rw [codes, codes, List.cons_lt_cons_iff, lt_iff_div_mod (10 ^ w) a b,
      ih _ _ (Nat.mod_lt _ hpos) (Nat.mod_lt _ hpos)]
    omega

theorem codes_inj {w a b : Nat} (ha : a < 10 ^ w) (hb : b < 10 ^ w) : codes w a = codes w b ↔ a = b := by
  constructor
  · intro h
    rcases lt_trichotomy a b with hlt | heq | hlt
    · exact absurd ((codes_lt_iff w a b ha hb).mpr hlt) (by rw [h]; exact lt_irrefl _)
    · exact heq
    · exact absurd ((codes_lt_iff w b a hb ha).mpr hlt) (by rw [h]; exact lt_irrefl _)
  · intro h
    rw [h]

theorem append_lt_append_iff {x y : List Nat} (h : x.length = y.length) (a b : List Nat) :
    x ++ a < y ++ b ↔ x < y ∨ x = y ∧ a < b := by
  induction x generalizing y with
  | nil =>
    rw [List.eq_nil_of_length_eq_zero h.symm]
    simp
  | cons c x ih =>
    cases y with
    | nil => cases h
    | cons d y =>
      rw [List.cons_append, List.cons_append, List.cons_lt_cons_iff, List.cons_lt_cons_iff,
        ih (Nat.succ.inj h), List.cons.injEq]
      tauto

/-! ### Bytes of ASCII texts -/

theorem utf8EncodeChar_ofNat : ∀ c : Fin 128,
    (String.utf8EncodeChar (Char.ofNat c)).map UInt8.toNat = [c.val] := by
  decide +kernel

theorem textBytes_ofNat {l : List Nat} (h : ∀ c ∈ l, c < 128) :
    textBytes (String.ofList (l.map Char.ofNat)) = l := by
  rw [textBytes, String.toList_ofList]
  induction l with
  | nil => rfl
  | cons c l ih =>
    rw [List.map_cons, List.flatMap_cons, List.map_append,
      ih fun c' hc' => h c' (List.mem_cons_of_mem _ hc'),
      utf8EncodeChar_ofNat ⟨c, h c List.mem_cons_self⟩]
    rfl

/-! ### Dates -/

def isLeap (year : Nat) : Bool := year % 4 = 0 && (year % 100 ≠ 0 || year % 400 = 0)

/-- The days of a month, numbered from one. -/
def daysIn (year month : Nat) : Nat :=
  if month = 0 ∨ 12 < month then 0
  else if month = 2 then if isLeap year then 29 else 28
  else if month = 4 ∨ month = 6 ∨ month = 9 ∨ month = 11 then 30
  else 31

structure Date where
  year : Nat
  month : Nat
  day : Nat
  year_le : year ≤ 9999
  month_pos : 1 ≤ month
  month_le : month ≤ 12
  day_pos : 1 ≤ day
  day_le : day ≤ daysIn year month
  deriving DecidableEq

def monthStart (year : Nat) : Nat → Nat
  | 0 => 0
  | m + 1 => monthStart year m + daysIn year m

def yearStart : Nat → Nat
  | 0 => 0
  | y + 1 => yearStart y + monthStart y 13

theorem monthStart_add_le {year m m' : Nat} (h : m < m') :
    monthStart year m + daysIn year m ≤ monthStart year m' := by
  induction m' with
  | zero => cases h
  | succ k ih =>
    rw [monthStart]
    rcases Nat.lt_succ_iff_lt_or_eq.mp h with hlt | rfl
    · have hle := ih hlt
      omega
    · exact le_refl _

theorem yearStart_add_le {y y' : Nat} (h : y < y') : yearStart y + monthStart y 13 ≤ yearStart y' := by
  induction y' with
  | zero => cases h
  | succ k ih =>
    rw [yearStart]
    rcases Nat.lt_succ_iff_lt_or_eq.mp h with hlt | rfl
    · have hle := ih hlt
      omega
    · exact le_refl _

theorem exists_step {f : Nat → Nat} {n k : Nat} (h₀ : f 0 ≤ n) (hk : n < f k) :
    ∃ i < k, f i ≤ n ∧ n < f (i + 1) := by
  induction k with
  | zero => omega
  | succ k ih =>
    by_cases hle : f k ≤ n
    · exact ⟨k, Nat.lt_succ_self k, hle, hk⟩
    · obtain ⟨i, hi, hstep⟩ := ih (Nat.lt_of_not_le hle)
      exact ⟨i, Nat.lt_succ_of_lt hi, hstep⟩

namespace Date

/-- The number of days before this one. -/
def dayNumber (d : Date) : Nat := yearStart d.year + monthStart d.year d.month + (d.day - 1)

def Lex (d d' : Date) : Prop :=
  d.year < d'.year ∨ d.year = d'.year ∧ (d.month < d'.month ∨ d.month = d'.month ∧ d.day < d'.day)

theorem Lex.dayNumber_lt {d d' : Date} (h : Lex d d') : d.dayNumber < d'.dayNumber := by
  have hday := d.day_le
  have hpos := d.day_pos
  unfold dayNumber
  rcases h with hyear | ⟨hyear, hmonth | ⟨hmonth, hday'⟩⟩
  · have hmonth := @monthStart_add_le d.year d.month 13 (Nat.lt_succ_of_le d.month_le)
    have hstart := yearStart_add_le hyear
    omega
  · have hstart := @monthStart_add_le d.year d.month d'.month hmonth
    rw [← hyear]
    omega
  · rw [← hyear, ← hmonth]
    omega

theorem lex_trichotomy (d d' : Date) : Lex d d' ∨ d = d' ∨ Lex d' d := by
  rcases lt_trichotomy d.year d'.year with hy | hy | hy
  · exact .inl (.inl hy)
  · rcases lt_trichotomy d.month d'.month with hm | hm | hm
    · exact .inl (.inr ⟨hy, .inl hm⟩)
    · rcases lt_trichotomy d.day d'.day with hd | hd | hd
      · exact .inl (.inr ⟨hy, .inr ⟨hm, hd⟩⟩)
      · cases d
        cases d'
        cases hy
        cases hm
        cases hd
        exact .inr (.inl rfl)
      · exact .inr (.inr (.inr ⟨hy.symm, .inr ⟨hm.symm, hd⟩⟩))
    · exact .inr (.inr (.inr ⟨hy.symm, .inl hm⟩))
  · exact .inr (.inr (.inl hy))

theorem dayNumber_injective : Function.Injective dayNumber := by
  intro d d' h
  rcases lex_trichotomy d d' with hlt | heq | hlt
  · exact absurd hlt.dayNumber_lt (by omega)
  · exact heq
  · exact absurd hlt.dayNumber_lt (by omega)

/-- **Every number below the last is that of a day.** -/
theorem exists_dayNumber_eq {n : Nat} (h : n < yearStart 10000) : ∃ d : Date, d.dayNumber = n := by
  obtain ⟨y, hy, hyear, hn⟩ := exists_step (Nat.zero_le n) h
  have hrest : n - yearStart y < monthStart y 13 := by
    rw [yearStart] at hn
    omega
  obtain ⟨m, hm, hmonth, hday⟩ := exists_step (Nat.zero_le (n - yearStart y)) hrest
  rw [monthStart] at hday
  have hpos : 1 ≤ m := by
    rcases Nat.eq_zero_or_pos m with rfl | hpos
    · exact absurd hday (Nat.not_lt_zero _)
    · exact hpos
  refine ⟨⟨y, m, n - yearStart y - monthStart y m + 1, by omega, hpos, by omega, by omega,
    by omega⟩, ?_⟩
  show yearStart y + monthStart y m + (n - yearStart y - monthStart y m + 1 - 1) = n
  omega

theorem dayNumber_lt (d : Date) : d.dayNumber < yearStart 10000 := by
  have hday := d.day_le
  have hpos := d.day_pos
  have hmonth := @monthStart_add_le d.year d.month 13 (Nat.lt_succ_of_le d.month_le)
  have hyear : d.year < 10000 := Nat.lt_succ_of_le d.year_le
  have hstart := yearStart_add_le hyear
  unfold dayNumber
  omega

theorem exists_before (d : Date) {n : Nat} (h : n ≤ d.dayNumber) :
    ∃ d' : Date, d'.dayNumber = n := exists_dayNumber_eq (lt_of_le_of_lt h d.dayNumber_lt)

instance : LinearOrder Date := LinearOrder.lift' dayNumber dayNumber_injective

theorem lt_iff_lex (d d' : Date) : d < d' ↔ Lex d d' := by
  constructor
  · intro h
    have hnumber : d.dayNumber < d'.dayNumber := h
    rcases lex_trichotomy d d' with hlt | heq | hlt
    · exact hlt
    · exact absurd h (by rw [heq]; exact lt_irrefl _)
    · exact absurd hlt.dayNumber_lt (by omega)
  · exact Lex.dayNumber_lt

/-! ### The text of a date -/

/-- `YYYY-MM-DD`. -/
def text (d : Date) : String :=
  String.ofList (padded 4 d.year ++ '-' :: (padded 2 d.month ++ '-' :: padded 2 d.day))

theorem day_lt (d : Date) : d.day < 10 ^ 2 := by
  have hle := d.day_le
  have hdays : daysIn d.year d.month ≤ 31 := by
    unfold daysIn
    split_ifs <;> omega
  omega

theorem month_lt (d : Date) : d.month < 10 ^ 2 := by
  have hle := d.month_le
  omega

theorem year_lt (d : Date) : d.year < 10 ^ 4 := by
  have hle := d.year_le
  omega

theorem textBytes_text (d : Date) :
    textBytes d.text = codes 4 d.year ++ 45 :: (codes 2 d.month ++ 45 :: codes 2 d.day) := by
  have hlist : padded 4 d.year ++ '-' :: (padded 2 d.month ++ '-' :: padded 2 d.day) =
      (codes 4 d.year ++ 45 :: (codes 2 d.month ++ 45 :: codes 2 d.day)).map Char.ofNat := by
    simp only [padded, List.map_append, List.map_cons]
  rw [text, hlist]
  refine textBytes_ofNat fun c hc => ?_
  simp only [List.mem_append, List.mem_cons] at hc
  rcases hc with hc | rfl | hc | rfl | hc
  · exact codes_lt 4 _ d.year_lt c hc
  · decide
  · exact codes_lt 2 _ d.month_lt c hc
  · decide
  · exact codes_lt 2 _ d.day_lt c hc

/-- **The texts of dates are in the order of the calendar.** -/
theorem textBytes_lt_iff (d d' : Date) : textBytes d.text < textBytes d'.text ↔ d < d' := by
  rw [textBytes_text, textBytes_text, append_lt_append_iff (by rw [length_codes, length_codes]),
    List.cons_lt_cons_iff, append_lt_append_iff (by rw [length_codes, length_codes]),
    List.cons_lt_cons_iff, codes_lt_iff 4 _ _ d.year_lt d'.year_lt,
    codes_inj d.year_lt d'.year_lt, codes_lt_iff 2 _ _ d.month_lt d'.month_lt,
    codes_inj d.month_lt d'.month_lt, codes_lt_iff 2 _ _ d.day_lt d'.day_lt, lt_iff_lex, Lex]
  simp only [lt_irrefl, false_or, true_and]

theorem textBytes_le_iff (d d' : Date) : textBytes d.text ≤ textBytes d'.text ↔ d ≤ d' := by
  rw [← not_lt, textBytes_lt_iff, not_lt]

theorem text_injective : Function.Injective text := by
  intro d d' h
  refine le_antisymm ?_ ?_
  · rw [← textBytes_le_iff, h]
  · rw [← textBytes_le_iff, h]

example : (⟨2024, 2, 29, by decide, by decide, by decide, by decide, by decide⟩ : Date).text =
    "2024-02-29" := by decide

end Date

end EdgeShield.Lib
