import Mathlib.Data.List.GetD
import Mathlib.Tactic.Common

/-!
# Reading byte slices, with the panics

A computation on a byte slice can end in three ways: with a value, with an error
that it returns, or with a panic.  `Run ε α` keeps the three apart, and so the
statement "never reads outside the slice" is that the result is not
`.error .panic`.  A function that returns an `Option` is a `Run Unit`, with
`Run.none` for `None`; `Run.toOption` is what its caller sees.

`index`, `slice` and `sliceFrom` are the three checked reads: each is its value
inside the bounds and a panic outside.  `View n` is a slice together with a proof
that it has at least `n` bytes, so its getters need no check at all.
-/

namespace EdgeShield.Lib

/-- How a computation fails: with an error that it returns, or with a panic. -/
inductive Fault (ε : Type*) where
  | err (e : ε)
  | panic
  deriving DecidableEq, Repr

/-- A computation that returns a value, returns an error, or panics. -/
abbrev Run (ε : Type*) (α : Type*) := Except (Fault ε) α

namespace Run

universe u v

variable {ε : Type u} {α β : Type v}

/-- `return None`. -/
def none : Run Unit α := .error (.err ())

def err (e : ε) : Run ε α := .error (.err e)

def panic : Run ε α := .error .panic

/-- The call that keeps the `Option`: `None` is a value here, a panic is not. -/
def toOption : Run Unit α → Run ε (Option α)
  | .ok a => .ok (some a)
  | .error (.err ()) => .ok Option.none
  | .error .panic => panic

theorem bind_eq_ok {x : Except ε α} {f : α → Except ε β} {b : β} :
    (x >>= f) = .ok b ↔ ∃ a, x = .ok a ∧ f a = .ok b := by
  cases x with
  | error e => simp [Bind.bind, Except.bind]
  | ok a => simp [Bind.bind, Except.bind]

@[simp] theorem ok_bind (a : α) (f : α → Run ε β) : (Except.ok a >>= f) = f a := rfl

@[simp] theorem error_bind (e : Fault ε) (f : α → Run ε β) :
    (Except.error e >>= f) = .error e := rfl

end Run

variable {ε α : Type*}

/-! ### Checked reads -/

/-- `xs[i]`. -/
def index (xs : List α) (i : Nat) : Run ε α :=
  match xs[i]? with
  | some x => .ok x
  | none => .panic

/-- `&xs[i..]`. -/
def sliceFrom (xs : List α) (i : Nat) : Run ε (List α) :=
  if i ≤ xs.length then .ok (xs.drop i) else .panic

/-- `&xs[i..j]`. -/
def slice (xs : List α) (i j : Nat) : Run ε (List α) :=
  if i ≤ j ∧ j ≤ xs.length then .ok ((xs.drop i).take (j - i)) else .panic

theorem index_eq_ok {xs : List α} {i : Nat} {x : α} :
    (index xs i : Run ε α) = .ok x ↔ xs[i]? = some x := by
  unfold index
  split
  · next y h => rw [h]; simp
  · next h => rw [h]; simp [Run.panic]

theorem sliceFrom_of_le {xs : List α} {i : Nat} (h : i ≤ xs.length) :
    (sliceFrom xs i : Run ε (List α)) = .ok (xs.drop i) := if_pos h

theorem sliceFrom_of_lt {xs : List α} {i : Nat} (h : xs.length < i) :
    (sliceFrom xs i : Run ε (List α)) = .panic := if_neg (by omega)

theorem sliceFrom_eq_ok {xs ys : List α} {i : Nat} :
    (sliceFrom xs i : Run ε (List α)) = .ok ys ↔ i ≤ xs.length ∧ ys = xs.drop i := by
  rcases Nat.lt_or_ge xs.length i with h | h
  · rw [sliceFrom_of_lt h]
    exact ⟨fun he => (by cases he), fun he => absurd he.1 (Nat.not_le_of_lt h)⟩
  · rw [sliceFrom_of_le h, Except.ok.injEq]
    exact ⟨fun he => ⟨h, he.symm⟩, fun he => he.2.symm⟩

theorem slice_of_le {xs : List α} {i j : Nat} (h : i ≤ j) (hj : j ≤ xs.length) :
    (slice xs i j : Run ε (List α)) = .ok ((xs.drop i).take (j - i)) := if_pos ⟨h, hj⟩

/-! ### Reads at a position where the rest is known -/

theorem getElem?_of_drop {xs rest : List α} {i : Nat} {x : α} (h : xs.drop i = x :: rest) :
    xs[i]? = some x := by
  rw [← List.head?_drop, h, List.head?_cons]

theorem index_of_drop {xs rest : List α} {i : Nat} {x : α} (h : xs.drop i = x :: rest) :
    (index xs i : Run ε α) = .ok x := index_eq_ok.mpr (getElem?_of_drop h)

theorem drop_of_drop {xs : List α} (ys : List α) {rest : List α} {i : Nat}
    (h : xs.drop i = ys ++ rest) :
    xs.drop (i + ys.length) = rest := by
  rw [← List.drop_drop, h, List.drop_left]

theorem drop_to_of_drop {xs ys rest : List α} {i : Nat} (j : Nat) (h : xs.drop i = ys ++ rest)
    (hj : i + ys.length = j) : xs.drop j = rest := hj ▸ drop_of_drop ys h

theorem drop_succ_of_drop {xs rest : List α} {i : Nat} {x : α} (h : xs.drop i = x :: rest) :
    xs.drop (i + 1) = rest := drop_of_drop [x] h

theorem length_of_drop {xs ys : List α} {i : Nat} (h : xs.drop i = ys) (hi : i ≤ xs.length) :
    xs.length = i + ys.length := by
  rw [← h, List.length_drop]
  omega

theorem slice_of_drop {xs ys rest : List α} {i : Nat} (h : xs.drop i = ys ++ rest)
    (hi : i ≤ xs.length) :
    (slice xs i (i + ys.length) : Run ε (List α)) = .ok ys := by
  have hlen := length_of_drop h hi
  rw [List.length_append] at hlen
  rw [slice_of_le (by omega) (by omega), h, Nat.add_sub_cancel_left, List.take_left]

/-- The two bytes of a 16-bit number, the high one first. -/
def beBytes (n : UInt16) : List UInt8 :=
  [UInt8.ofNat (n.toNat / 256), UInt8.ofNat (n.toNat % 256)]

theorem beBytes_toNat (n : UInt16) :
    (UInt8.ofNat (n.toNat / 256)).toNat * 256 + (UInt8.ofNat (n.toNat % 256)).toNat = n.toNat := by
  have hlt := n.toNat_lt
  rw [UInt8.toNat_ofNat', UInt8.toNat_ofNat']
  omega

/-! ### Texts -/

def fromUtf8 (bytes : List UInt8) : Option String := String.fromUTF8? ⟨bytes.toArray⟩

def utf8Bytes (s : String) : List UInt8 := s.toByteArray.data.toList

theorem utf8Bytes_ofList (l : List Char) :
    utf8Bytes (String.ofList l) = l.flatMap String.utf8EncodeChar := by
  rw [utf8Bytes, String.toByteArray_ofList, List.utf8Encode, List.data_toByteArray,
    List.toList_toArray]

theorem fromUtf8_eq_some {bytes : List UInt8} {s : String} :
    fromUtf8 bytes = some s ↔ utf8Bytes s = bytes := by
  rw [fromUtf8, String.fromUTF8?]
  constructor
  · intro h
    split at h
    · cases h
      rfl
    · cases h
  · rintro rfl
    have hbytes : (⟨(utf8Bytes s).toArray⟩ : ByteArray) = s.toByteArray := by
      rw [utf8Bytes, Array.toArray_toList]
    rw [dif_pos (by rw [hbytes]; exact s.isValidUTF8), Option.some.injEq, ← String.toByteArray_inj]
    exact hbytes

theorem mapM_fromUtf8_eq_some {parts : List (List UInt8)} {texts : List String} :
    parts.mapM fromUtf8 = some texts ↔ texts.map utf8Bytes = parts := by
  induction parts generalizing texts with
  | nil =>
    rw [List.mapM_nil, List.map_eq_nil_iff]
    exact ⟨fun h => (Option.some.inj h).symm, fun h => congrArg some h.symm⟩
  | cons bytes parts ih =>
    simp only [List.mapM_cons, Option.bind_eq_bind, Option.bind_eq_some_iff]
    constructor
    · rintro ⟨s, hs, rest, hrest, h⟩
      cases h
      rw [List.map_cons, fromUtf8_eq_some.mp hs, ih.mp hrest]
    · intro h
      obtain ⟨s, rest, rfl, hs, hrest⟩ := List.map_eq_cons_iff.mp h
      exact ⟨s, fromUtf8_eq_some.mpr hs, rest, ih.mpr hrest, rfl⟩

/-! ### Views with a minimum length -/

structure View (n : Nat) where
  bytes : List UInt8
  le : n ≤ bytes.length

namespace View

variable {n : Nat}

def new (n : Nat) (bytes : List UInt8) : Option (View n) :=
  if h : n ≤ bytes.length then some ⟨bytes, h⟩ else none

def byte (v : View n) (i : Nat) (h : i < n) : UInt8 :=
  v.bytes.get ⟨i, Nat.lt_of_lt_of_le h v.le⟩

def be16 (v : View n) (i : Nat) (h : i + 1 < n) : Nat :=
  (v.byte i (by omega)).toNat * 256 + (v.byte (i + 1) h).toNat

theorem new_of_le {bytes : List UInt8} (h : n ≤ bytes.length) :
    new n bytes = some ⟨bytes, h⟩ := dif_pos h

theorem exists_new {bytes : List UInt8} (h : n ≤ bytes.length) :
    ∃ v : View n, new n bytes = some v ∧ v.bytes = bytes := ⟨⟨bytes, h⟩, new_of_le h, rfl⟩

theorem new_of_lt {bytes : List UInt8} (h : bytes.length < n) : new n bytes = none :=
  dif_neg (by omega)

theorem byte_eq_getD (v : View n) (i : Nat) (h : i < n) : v.byte i h = v.bytes.getD i 0 := by
  rw [byte, List.getD_eq_getElem _ _ (Nat.lt_of_lt_of_le h v.le)]
  rfl

theorem byte_of_drop (v : View n) {rest : List UInt8} {i : Nat} (h : v.bytes.drop i = rest)
    (k : Nat) (hk : i + k < n) : v.byte (i + k) hk = rest.getD k 0 := by
  rw [byte_eq_getD, ← h, List.getD_eq_getElem?_getD, List.getD_eq_getElem?_getD,
    List.getElem?_drop]

theorem byte_of_vector (v : View n) {l : Nat} {bytes : Vector UInt8 l} {rest : List UInt8} {i : Nat}
    (h : v.bytes.drop i = bytes.toList ++ rest) (k : Nat) (hk : k < l) (hi : i + k < n) :
    v.byte (i + k) hi = bytes[k] := by
  have hlen : k < bytes.toList.length := by rwa [Vector.length_toList]
  rw [v.byte_of_drop h k hi, List.getD_append _ _ _ _ hlen, List.getD_eq_getElem _ _ hlen,
    Vector.getElem_toList]

theorem be16_of_drop (v : View n) {m : UInt16} {rest : List UInt8} {i : Nat}
    (h : v.bytes.drop i = beBytes m ++ rest) (hi : i + 1 < n) : v.be16 i hi = m.toNat := by
  have hlow : v.byte i (by omega) = (beBytes m ++ rest).getD 0 0 := v.byte_of_drop h 0 (by omega)
  rw [be16, hlow, v.byte_of_drop h 1]
  exact beBytes_toNat m

end View

end EdgeShield.Lib
