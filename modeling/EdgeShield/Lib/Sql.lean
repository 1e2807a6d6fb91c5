import Mathlib.Data.List.Lex
import Mathlib.Data.List.AList
import Mathlib.Order.Lattice
import Mathlib.Tactic.Common

/-!
# Queries with numbered parameters

The part of SQL that a store of rows uses when it builds a query at run time: a `WHERE`
clause is a conjunction of comparisons `column < ?n`, whose parameters are bound by their
number, then an order, then a `LIMIT`.

Texts are compared by their bytes in UTF-8.  A parameter that is bound after a comparison
was written does not disturb it as long as the comparison names one that is already there
(`Numbered`), and so a clause can be read off as it is put together: `selects_bind` says
that binding a value and comparing a column with its number adds this one comparison, and
`selects_bindSome` the same for a value that may be missing.

Rows sorted by a key come out in the order of a given list, whatever order they are read
in, exactly when the keys of that list lead (`takeLimit_sort_iff`).
-/

namespace EdgeShield.Lib

inductive SqlValue where
  | integer (n : Int)
  | text (s : String)
  deriving DecidableEq, Repr

def textBytes (s : String) : List Nat := (s.toList.flatMap String.utf8EncodeChar).map UInt8.toNat

/-- The order of values: integers before texts, integers by value and texts by bytes. -/
def SqlValue.le : SqlValue → SqlValue → Bool
  | integer a, integer b => a ≤ b
  | integer _, text _ => true
  | text _, integer _ => false
  | text a, text b => textBytes a ≤ textBytes b

inductive Comparison where
  | eq | lt | le | ge
  deriving DecidableEq, Repr

def Comparison.holds (c : Comparison) (a b : SqlValue) : Bool :=
  match c with
  | eq => a = b
  | lt => !b.le a
  | le => a.le b
  | ge => b.le a

/-- `column < ?param`; parameters are numbered from one. -/
structure Clause (κ : Type) where
  column : κ
  comparison : Comparison
  param : Nat

/-- A `WHERE` clause as it is put together, with the parameters bound so far. -/
structure Where (κ : Type) where
  clauses : List (Clause κ)
  params : List SqlValue

namespace Where

variable {κ ρ : Type}

def all : Where κ := ⟨[], []⟩

def bind (q : Where κ) (v : SqlValue) : Where κ := { q with params := q.params ++ [v] }

def compare (q : Where κ) (column : κ) (comparison : Comparison) (param : Nat) : Where κ :=
  { q with clauses := q.clauses ++ [⟨column, comparison, param⟩] }

/-- A value that is there is bound and compared with under its number. -/
def bindSome (q : Where κ) (column : κ) (comparison : Comparison) (v : Option SqlValue) : Where κ :=
  match v with
  | some v =>
    let q := q.bind v
    q.compare column comparison q.params.length
  | none => q

/-- Whether a row meets the clause; `value` reads a column.  A comparison with a parameter
that is not bound is one with `NULL`. -/
def selects (value : ρ → κ → SqlValue) (q : Where κ) (row : ρ) : Bool :=
  q.clauses.all fun c =>
    (q.params[c.param - 1]?).any fun v => c.comparison.holds (value row c.column) v

def Numbered (q : Where κ) : Prop := ∀ c ∈ q.clauses, 1 ≤ c.param ∧ c.param ≤ q.params.length

theorem numbered_all : (all : Where κ).Numbered := fun _ h => absurd h List.not_mem_nil

theorem Numbered.bind_compare {q : Where κ} (h : q.Numbered) (v : SqlValue) (column : κ)
    (comparison : Comparison) :
    ((q.bind v).compare column comparison (q.bind v).params.length).Numbered := by
  intro c hc
  have hlen : (q.bind v).params.length = q.params.length + 1 := by simp [bind]
  show 1 ≤ c.param ∧ c.param ≤ (q.bind v).params.length
  rcases List.mem_append.mp hc with hc | hc
  · have hold := h c hc
    omega
  · rw [List.mem_singleton.mp hc]
    simp only
    omega

theorem selects_all (value : ρ → κ → SqlValue) (row : ρ) : all.selects value row = true := rfl

theorem selects_bind_of_numbered {q : Where κ} (h : q.Numbered) (value : ρ → κ → SqlValue)
    (row : ρ) (v : SqlValue) : (q.bind v).selects value row = q.selects value row := by
  rw [Bool.eq_iff_iff, selects, selects, List.all_eq_true, List.all_eq_true]
  refine forall₂_congr fun c hc => ?_
  have hbound := h c hc
  have hsame : (q.bind v).params[c.param - 1]? = q.params[c.param - 1]? :=
    List.getElem?_append_left (by omega)
  rw [hsame]

/-- **Binding a value and comparing a column with it** adds this one comparison. -/
theorem selects_bind {q : Where κ} (h : q.Numbered) (value : ρ → κ → SqlValue) (row : ρ)
    (v : SqlValue) (column : κ) (comparison : Comparison) :
    ((q.bind v).compare column comparison (q.bind v).params.length).selects value row =
      (q.selects value row && comparison.holds (value row column) v) := by
  have hlast : (q.bind v).params[(q.bind v).params.length - 1]? = some v := by simp [bind]
  rw [← selects_bind_of_numbered h value row v]
  simp only [selects, compare, List.all_append, List.all_cons, List.all_nil, Bool.and_true, hlast,
    Option.any_some]

theorem Numbered.bindSome {q : Where κ} (h : q.Numbered) (column : κ) (comparison : Comparison)
    (v : Option SqlValue) : (q.bindSome column comparison v).Numbered := by
  cases v with
  | none => exact h
  | some v => exact h.bind_compare v column comparison

theorem selects_bindSome {q : Where κ} (h : q.Numbered) (value : ρ → κ → SqlValue) (row : ρ)
    (column : κ) (comparison : Comparison) (v : Option SqlValue) :
    (q.bindSome column comparison v).selects value row =
      (q.selects value row && v.all (comparison.holds (value row column))) := by
  cases v with
  | none => exact (Bool.and_true _).symm
  | some v => exact selects_bind h value row v column comparison

end Where

/-! ### Selecting rows -/

def maxInteger : Nat := 9223372036854775807

theorem toInt_toInt64 {n : UInt64} (h : n.toNat ≤ maxInteger) : n.toInt64.toInt = n.toNat := by
  have hmax : maxInteger < 2 ^ 63 := by decide
  rw [UInt64.toInt64, Int64.toInt, Int64.toBitVec, BitVec.toInt_eq_toNat_of_lt]
  · rfl
  · show 2 * n.toNat < 2 ^ 64
    omega

/-- `LIMIT n`; a literal that is no integer of SQLite is refused when the statement runs. -/
def limitRows {ρ : Type} (limit : Option Nat) (rows : List ρ) : Except String (List ρ) :=
  match limit with
  | none => .ok rows
  | some n => if n ≤ maxInteger then .ok (rows.take n) else .error "datatype mismatch"

def readRows {ρ β : Type} (read : ρ → Except String β) : List ρ → Except String (List β)
  | [] => .ok []
  | row :: rows =>
    match read row with
    | .error e => .error e
    | .ok b => (readRows read rows).map (b :: ·)

theorem readRows_eq_ok {ρ β : Type} {read : ρ → Except String β} {rows : List ρ}
    (h : ∀ row ∈ rows, ∃ b, read row = .ok b) :
    readRows read rows = .ok (rows.filterMap fun row => (read row).toOption) := by
  induction rows with
  | nil => rfl
  | cons row rows ih =>
    obtain ⟨b, hb⟩ := h row List.mem_cons_self
    rw [readRows, hb, ih fun r hr => h r (List.mem_cons_of_mem _ hr), List.filterMap_cons, hb]
    rfl

def fetchRows {ρ β : Type} (limit : Option Nat) (read : ρ → Except String β) (rows : List ρ) :
    Except String (List β) :=
  match limitRows limit rows with
  | .error e => .error e
  | .ok rows => readRows read rows

def takeLimit {β : Type} (limit : Option Nat) (l : List β) : List β := limit.elim l fun n => l.take n

theorem map_takeLimit {β γ : Type} (f : β → γ) (limit : Option Nat) (l : List β) :
    (takeLimit limit l).map f = takeLimit limit (l.map f) := by
  cases limit with
  | none => rfl
  | some n => exact List.map_take

theorem filterMap_take {ρ β : Type} {f : ρ → Option β} :
    ∀ {rows : List ρ} (n : Nat), (∀ row ∈ rows, ∃ b, f row = some b) →
      (rows.take n).filterMap f = (rows.filterMap f).take n := by
  intro rows
  induction rows with
  | nil => intro n _; simp
  | cons row rows ih =>
    intro n h
    obtain ⟨b, hb⟩ := h row List.mem_cons_self
    cases n with
    | zero => simp
    | succ n =>
      rw [List.take_succ_cons, List.filterMap_cons_some hb, List.filterMap_cons_some hb,
        List.take_succ_cons, ih n fun r hr => h r (List.mem_cons_of_mem _ hr)]

/-- **A `SELECT` whose rows can all be read**, with a limit that is an integer of SQLite. -/
theorem fetchRows_eq_ok {ρ β : Type} {limit : Option Nat} {read : ρ → Except String β}
    {rows : List ρ} (hlimit : ∀ n ∈ limit, n ≤ maxInteger)
    (hread : ∀ row ∈ rows, ∃ b, read row = .ok b) :
    fetchRows limit read rows =
      .ok (takeLimit limit (rows.filterMap fun row => (read row).toOption)) := by
  cases limit with
  | none => exact readRows_eq_ok hread
  | some n =>
    have htake : limitRows (some n) rows = .ok (rows.take n) := if_pos (hlimit n rfl)
    rw [fetchRows, htake]
    show readRows read (rows.take n) = .ok ((rows.filterMap fun row => (read row).toOption).take n)
    rw [readRows_eq_ok fun row hrow => hread row (List.mem_of_mem_take hrow), filterMap_take n]
    intro row hrow
    obtain ⟨b, hb⟩ := hread row hrow
    exact ⟨b, by rw [hb]; rfl⟩

/-! ### Sorted rows -/

section Order

variable {α κ : Type} [LinearOrder κ] {key : α → κ} {le : α → α → Bool}

/-- Each element within the limit has a larger key than all that stand behind it. -/
def Leads (key : α → κ) (limit : Option Nat) (l : List α) : Prop :=
  ∀ before a after, l = before ++ a :: after → (∀ n ∈ limit, before.length < n) →
    ∀ b ∈ after, key b < key a

theorem Leads.tail {n : Nat} {a : α} {l : List α} (h : Leads key (some (n + 1)) (a :: l)) :
    Leads key (some n) l := by
  intro before b after hl hlen c hc
  refine h (a :: before) b after (by rw [hl]; rfl) (fun k hk => ?_) c hc
  cases hk
  exact Nat.succ_lt_succ (hlen n rfl)

theorem leads_of_pairwise {l : List α} (h : l.Pairwise fun a b => key b < key a)
    (limit : Option Nat) : Leads key limit l := by
  rintro before a after rfl _ b hb
  exact (List.pairwise_cons.mp (List.pairwise_append.mp h).2.1).1 b hb

theorem take_eq_of_leads {l : List α} :
    ∀ {sorted : List α} {n : Nat}, sorted.Perm l → (sorted.Pairwise fun a b => key b ≤ key a) →
      Leads key (some n) l → sorted.take n = l.take n := by
  induction l with
  | nil =>
    intro sorted n hperm _ _
    rw [hperm.eq_nil]
  | cons a l ih =>
    intro sorted n hperm hsorted hleads
    cases n with
    | zero => rw [List.take_zero, List.take_zero]
    | succ n =>
      cases sorted with
      | nil => exact absurd hperm.length_eq (Nat.succ_ne_zero _).symm
      | cons s sorted =>
        have hs : s = a := by
          by_contra hne
          have hbehind : s ∈ l :=
            (List.mem_cons.mp (hperm.mem_iff.mp List.mem_cons_self)).resolve_left hne
          have hbefore : a ∈ sorted :=
            (List.mem_cons.mp (hperm.mem_iff.mpr List.mem_cons_self)).resolve_left (Ne.symm hne)
          have hlt : key s < key a :=
            hleads [] a l rfl (fun k hk => by cases hk; exact Nat.succ_pos n) s hbehind
          exact absurd ((List.pairwise_cons.mp hsorted).1 a hbefore) (not_le.mpr hlt)
        subst hs
        rw [List.take_succ_cons, List.take_succ_cons,
          ih (List.perm_cons s |>.mp hperm) (List.pairwise_cons.mp hsorted).2 hleads.tail]

theorem takeLimit_none_eq_take {l : List α} : takeLimit none l = l.take l.length :=
  List.take_length.symm

theorem takeLimit_eq_of_leads {limit : Option Nat} {sorted l : List α} (hperm : sorted.Perm l)
    (hsorted : sorted.Pairwise fun a b => key b ≤ key a) (h : Leads key limit l) :
    takeLimit limit sorted = takeLimit limit l := by
  cases limit with
  | some n => exact take_eq_of_leads hperm hsorted h
  | none =>
    rw [takeLimit_none_eq_take, takeLimit_none_eq_take, hperm.length_eq]
    exact take_eq_of_leads hperm hsorted fun before a after hl _ =>
      h before a after hl fun k hk => (by cases hk)

theorem mem_of_pair_sublist {x y : α} {before after : List α}
    (hnd : (before ++ y :: after).Nodup) (h : [x, y].Sublist (before ++ y :: after)) :
    x ∈ before := by
  have hy : y ∉ after := (List.nodup_cons.mp (List.nodup_append.mp hnd).2.1).1
  obtain ⟨l₁, l₂, hl, h₁, h₂⟩ := List.sublist_append_iff.mp h
  cases l₁ with
  | nil =>
    rw [List.nil_append] at hl
    subst hl
    cases h₂ with
    | cons _ h₂ => exact absurd (h₂.subset (List.mem_cons_of_mem x List.mem_cons_self)) hy
    | cons_cons _ h₂ => exact absurd (h₂.subset List.mem_cons_self) hy
  | cons z l₁ =>
    rw [(List.cons.inj hl).1]
    exact h₁.subset List.mem_cons_self

theorem prefix_of_takeLimit_eq {limit : Option Nat} {before after l : List α} {a : α}
    (hlen : ∀ n ∈ limit, before.length < n)
    (h : takeLimit limit l = takeLimit limit (before ++ a :: after)) :
    ∃ rest, l = before ++ a :: rest := by
  cases limit with
  | none => exact ⟨after, h⟩
  | some n =>
    have hn := hlen n rfl
    obtain ⟨k, rfl⟩ := Nat.exists_eq_add_of_lt hn
    have hcut : l.take (before.length + k + 1) = before ++ a :: after.take k := by
      refine h.trans ?_
      show (before ++ a :: after).take (before.length + k + 1) = _
      rw [Nat.add_assoc, List.take_length_add_append, List.take_succ_cons]
    refine ⟨after.take k ++ l.drop (before.length + k + 1), ?_⟩
    rw [← List.cons_append, ← List.append_assoc, ← hcut, List.take_append_drop]

/-- **Rows sorted by a key come in the order of `l`**, up to a limit and whatever order they
are read in, exactly when the keys of `l` lead.  The sort is stable. -/
theorem takeLimit_sort_iff (hle : ∀ a b, le a b = true ↔ key b ≤ key a) {l : List α}
    (hnd : l.Nodup) (limit : Option Nat) :
    (∀ l' : List α, l'.Perm l → takeLimit limit (l'.mergeSort le) = takeLimit limit l) ↔
      Leads key limit l := by
  have htrans : ∀ a b c, le a b = true → le b c = true → le a c = true := by
    intro a b c hab hbc
    exact (hle a c).mpr (((hle b c).mp hbc).trans ((hle a b).mp hab))
  have htotal : ∀ a b, (le a b || le b a) = true := by
    intro a b
    rw [Bool.or_eq_true, hle, hle]
    exact le_total _ _
  refine ⟨fun h before a after hl hlen b hb => ?_, fun h l' hperm => ?_⟩
  · by_contra hnot
    have hba : le b a = true := (hle b a).mpr (not_lt.mp hnot)
    obtain ⟨s, t, rfl⟩ := List.append_of_mem hb
    -- the rows are read with `b` right in front of `a`
    have hperm : (before ++ b :: a :: (s ++ t)).Perm l := by
      rw [hl]
      refine List.Perm.append_left before ((List.Perm.swap a b _).trans ?_)
      exact (List.perm_middle.symm).cons a
    have hread : [b, a].Sublist (before ++ b :: a :: (s ++ t)) :=
      (((List.nil_sublist (s ++ t)).cons_cons a).cons_cons b).trans
        (List.sublist_append_right before _)
    have hsorted := List.pair_sublist_mergeSort htrans htotal hba hread
    have hcut := h _ hperm
    rw [hl] at hcut
    obtain ⟨rest, hrest⟩ := prefix_of_takeLimit_eq hlen hcut
    have hndsorted := ((List.mergeSort_perm _ le).trans hperm).nodup_iff.mpr hnd
    rw [hrest] at hsorted hndsorted
    have hbefore := mem_of_pair_sublist hndsorted hsorted
    rw [hl] at hnd
    exact (List.nodup_append.mp hnd).2.2 b hbefore b
      (List.mem_cons_of_mem a (List.mem_append_right s List.mem_cons_self)) rfl
  · refine takeLimit_eq_of_leads ((List.mergeSort_perm l' le).trans hperm) ?_ h
    exact (List.pairwise_mergeSort htrans htotal l').imp fun hab => (hle _ _).mp hab

theorem greatest_mem_take_iff {κ : Type} [Preorder κ] {l : List κ} (h : l.Pairwise (· < ·)) {a : κ}
    (ha : a ∈ l) (hmax : ∀ x ∈ l, x ≤ a) (n : Nat) : a ∈ l.take n ↔ l.length ≤ n := by
  constructor
  · intro hmem
    by_contra hlong
    have hbehind : 0 < (l.drop n).length := by
      rw [List.length_drop]
      omega
    obtain ⟨b, hb⟩ := List.exists_mem_of_length_pos hbehind
    rw [← List.take_append_drop n l] at h
    have hlt := (List.pairwise_append.mp h).2.2 a hmem b hb
    exact absurd (hmax b (List.mem_of_mem_drop hb)) (not_le_of_gt hlt)
  · intro hle
    rwa [List.take_of_length_le hle]

end Order

end EdgeShield.Lib
