import EdgeShield.Protocol.MdnsName

/-!
# The grammar of names

Names as the head of `crates/protocol/src/mdns.rs` describes them, without the reader:
`NameAt payload offset pointers stop labels` says that the bytes from `offset` on form a name.
Its labels come in order, `pointers` are the pointers on its way, each with the place where
it stands, and `stop` is the place of its zero byte.  The grammar has no limits: any number
of pointers, to any place, and labels of any bytes.

The reader has limits, and `Allowed` has them.  `wireName_iff` says that a `WireName` is a
name of the grammar with pointers that lead below the limit, and so `readName_skipName_iff`
says for every payload and every offset what is read.
-/

namespace EdgeShield.Protocol

open EdgeShield.Lib

structure Pointer where
  position : Nat
  target : Nat
  deriving DecidableEq, Repr

/-- **The bytes from `offset` on form a name.**  A label is a length byte and so many bytes;
the name ends with a zero byte, or goes on where a pointer leads. -/
inductive NameAt (payload : List UInt8) : Nat → List Pointer → Nat → List (List UInt8) → Prop where
  | zero {offset : Nat} (zero : payload[offset]? = some 0) : NameAt payload offset [] offset []
  | label {offset stop : Nat} {len : UInt8} {pointers : List Pointer} {labels : List (List UInt8)}
      (length : payload[offset]? = some len) (plain : len &&& 0xC0 ≠ 0xC0) (nonzero : len ≠ 0)
      (fits : offset + 1 + len.toNat ≤ payload.length)
      (rest : NameAt payload (offset + 1 + len.toNat) pointers stop labels) :
      NameAt payload offset pointers stop (labelAt payload offset len :: labels)
  | pointer {offset stop : Nat} {len low : UInt8} {pointers : List Pointer}
      {labels : List (List UInt8)}
      (high : payload[offset]? = some len) (mark : len &&& 0xC0 = 0xC0)
      (second : payload[offset + 1]? = some low)
      (rest : NameAt payload (pointerTarget len low) pointers stop labels) :
      NameAt payload offset (⟨offset, pointerTarget len low⟩ :: pointers) stop labels

/-- Where a name ends in the packet: behind its first pointer, and without one behind its zero
byte. -/
def nameEnd (pointers : List Pointer) (stop : Nat) : Nat :=
  match pointers with
  | [] => stop + 1
  | first :: _ => first.position + 2

/-- What the reader asks of the pointers of a name that starts at `start`. -/
structure Allowed (start : Nat) (pointers : List Pointer) : Prop where
  few : pointers.length ≤ 10
  below : ∀ p ∈ pointers, p.target < start

section Grammar

variable {payload : List UInt8} {limit offset : Nat}

theorem WireName.nameAt {hops e : Nat} {labels : List (List UInt8)}
    (h : WireName payload limit offset hops e labels) :
    ∃ pointers stop, NameAt payload offset pointers stop labels ∧ pointers.length = hops ∧
      (∀ p ∈ pointers, p.target < limit) ∧ nameEnd pointers stop = e := by
  induction h with
  | @root offset hzero =>
    exact ⟨[], offset, .zero hzero, rfl, fun p hp => absurd hp List.not_mem_nil, rfl⟩
  | label hlen hplain hne hfits _ ih =>
    obtain ⟨pointers, stop, hname, hhops, hbelow, he⟩ := ih
    exact ⟨pointers, stop, .label hlen hplain hne hfits hname, hhops, hbelow, he⟩
  | @pointer offset hops e len low labels hlen hmark hlow hlt _ ih =>
    obtain ⟨pointers, stop, hname, hhops, hbelow, _⟩ := ih
    refine ⟨⟨offset, pointerTarget len low⟩ :: pointers, stop, .pointer hlen hmark hlow hname,
      ?_, ?_, rfl⟩
    · rw [List.length_cons, hhops]
    · intro p hp
      rcases List.mem_cons.mp hp with rfl | hp
      · exact hlt
      · exact hbelow p hp

/-- The converse, with the number of the pointers and the end of the name. -/
theorem NameAt.wireName {pointers : List Pointer} {stop : Nat} {labels : List (List UInt8)}
    (h : NameAt payload offset pointers stop labels) (hbelow : ∀ p ∈ pointers, p.target < limit) :
    WireName payload limit offset pointers.length (nameEnd pointers stop) labels := by
  induction h with
  | zero hzero => exact .root hzero
  | label hlen hplain hne hfits _ ih => exact .label hlen hplain hne hfits (ih hbelow)
  | pointer hlen hmark hlow _ ih =>
    have hrest := ih fun p hp => hbelow p (List.mem_cons_of_mem _ hp)
    exact .pointer hlen hmark hlow (hbelow _ List.mem_cons_self) hrest

/-- **Names below a limit**, in the grammar. -/
theorem wireName_iff {hops e : Nat} {labels : List (List UInt8)} :
    WireName payload limit offset hops e labels ↔
      ∃ pointers stop, NameAt payload offset pointers stop labels ∧ pointers.length = hops ∧
        (∀ p ∈ pointers, p.target < limit) ∧ nameEnd pointers stop = e := by
  constructor
  · exact WireName.nameAt
  · rintro ⟨pointers, stop, hname, rfl, hbelow, rfl⟩
    exact hname.wireName hbelow

/-- The reader in either mode: what it returns is a name of the grammar that it allows, with
what the mode makes of the labels. -/
theorem readNameInternal_iff {collect : Bool} {e : Nat} {name : Option String} :
    readNameInternal payload offset collect = .ok (e, name) ↔
      ∃ pointers stop labels, NameAt payload offset pointers stop labels ∧
        Allowed offset pointers ∧ nameText collect [] labels = some name ∧
        e = nameEnd pointers stop := by
  constructor
  · intro h
    rcases readNameInternal_cases payload offset collect with
      hnone | ⟨hops, e', labels, name', hwire, hhops, htext, hok⟩
    · rw [hnone] at h
      cases h
    · rw [hok] at h
      cases h
      obtain ⟨pointers, stop, hname, rfl, hbelow, he⟩ := wireName_iff.mp hwire
      exact ⟨pointers, stop, labels, hname, ⟨hhops, hbelow⟩, htext, he.symm⟩
  · rintro ⟨pointers, stop, labels, hname, hallowed, htext, rfl⟩
    have hwire := hname.wireName hallowed.below
    have hhops : 0 + pointers.length ≤ 10 := by
      rw [Nat.zero_add]
      exact hallowed.few
    exact hwire.readNameLoop_eq hhops htext none

/-- In neither mode does it do anything else than return a name or `None`. -/
theorem readNameInternal_eq_none_iff {collect : Bool} :
    readNameInternal payload offset collect = Run.none ↔
      ∀ pointers stop labels, NameAt payload offset pointers stop labels →
        Allowed offset pointers → nameText collect [] labels = none := by
  constructor
  · intro h pointers stop labels hname hallowed
    cases htext : nameText collect [] labels with
    | none => rfl
    | some name =>
      rw [readNameInternal_iff.mpr ⟨pointers, stop, labels, hname, hallowed, htext, rfl⟩] at h
      cases h
  · intro h
    rcases readNameInternal_cases payload offset collect with hnone | ⟨_, e, _, name, _, _, _, hok⟩
    · exact hnone
    · obtain ⟨pointers, stop, labels, hname, hallowed, htext, _⟩ := readNameInternal_iff.mp hok
      rw [h pointers stop labels hname hallowed] at htext
      cases htext

/-- **The grammar is unambiguous**: the bytes from an offset on form one name at most. -/
theorem NameAt.unique {pointers pointers' : List Pointer} {stop stop' : Nat}
    {labels labels' : List (List UInt8)} (h : NameAt payload offset pointers stop labels)
    (h' : NameAt payload offset pointers' stop' labels') :
    pointers = pointers' ∧ stop = stop' ∧ labels = labels' := by
  induction h generalizing pointers' stop' labels' with
  | zero hzero =>
    cases h' with
    | zero _ => exact ⟨rfl, rfl, rfl⟩
    | label hlen _ hne _ _ => exact absurd (Option.some.inj (hlen.symm.trans hzero)) hne
    | pointer hlen hmark _ _ =>
      rw [Option.some.inj (hlen.symm.trans hzero)] at hmark
      exact absurd hmark (by decide)
  | label hlen hplain hne _ _ ih =>
    cases h' with
    | zero hzero => exact absurd (Option.some.inj (hlen.symm.trans hzero)) hne
    | label hlen' _ _ _ hrest =>
      cases Option.some.inj (hlen.symm.trans hlen')
      obtain ⟨rfl, rfl, rfl⟩ := ih hrest
      exact ⟨rfl, rfl, rfl⟩
    | pointer hlen' hmark _ _ =>
      rw [Option.some.inj (hlen'.symm.trans hlen)] at hmark
      exact absurd hmark hplain
  | pointer hlen hmark hlow _ ih =>
    cases h' with
    | zero hzero =>
      rw [Option.some.inj (hlen.symm.trans hzero)] at hmark
      exact absurd hmark (by decide)
    | label hlen' hplain _ _ _ =>
      rw [Option.some.inj (hlen.symm.trans hlen')] at hmark
      exact absurd hmark hplain
    | pointer hlen' _ hlow' hrest =>
      cases Option.some.inj (hlen.symm.trans hlen')
      cases Option.some.inj (hlow.symm.trans hlow')
      obtain ⟨rfl, rfl, rfl⟩ := ih hrest
      exact ⟨rfl, rfl, rfl⟩

theorem nameText_eq_some_iff {labels : List (List UInt8)} {name : Option String} :
    nameText true [] labels = some name ↔
      ∃ texts : List String, texts.map utf8Bytes = labels ∧ name = joinLabels texts := by
  rw [nameText, if_pos rfl, Option.map_eq_some_iff]
  constructor
  · rintro ⟨texts, htexts, rfl⟩
    exact ⟨texts, mapM_fromUtf8_eq_some.mp htexts, rfl⟩
  · rintro ⟨texts, htexts, rfl⟩
    exact ⟨texts, mapM_fromUtf8_eq_some.mpr htexts, rfl⟩

end Grammar

/-- **What `read_name` and `skip_name` return**, for every payload and every offset: a name of
the grammar whose pointers are allowed, up to its end.  `read_name` wants a text for each label
and gives the texts with dots between them; `skip_name` takes labels of any bytes and gives no
text. -/
theorem readName_skipName_iff (payload : List UInt8) (o e : Nat) (n : Option String) :
    (readName payload o = .ok (e, n) ↔
      ∃ pointers stop labels texts, NameAt payload o pointers stop labels ∧ Allowed o pointers ∧
        texts.map utf8Bytes = labels ∧ n = joinLabels texts ∧ e = nameEnd pointers stop) ∧
    (skipName payload o = .ok (e, n) ↔
      n = none ∧ ∃ pointers stop labels, NameAt payload o pointers stop labels ∧
        Allowed o pointers ∧ e = nameEnd pointers stop) := by
  rw [readName, skipName, readNameInternal_iff, readNameInternal_iff]
  refine ⟨⟨?_, ?_⟩, ⟨?_, ?_⟩⟩
  · rintro ⟨pointers, stop, labels, hname, hallowed, htext, he⟩
    obtain ⟨texts, htexts, hn⟩ := nameText_eq_some_iff.mp htext
    exact ⟨pointers, stop, labels, texts, hname, hallowed, htexts, hn, he⟩
  · rintro ⟨pointers, stop, labels, texts, hname, hallowed, htexts, hn, he⟩
    have htext := nameText_eq_some_iff.mpr ⟨texts, htexts, hn⟩
    exact ⟨pointers, stop, labels, hname, hallowed, htext, he⟩
  · rintro ⟨pointers, stop, labels, hname, hallowed, htext, he⟩
    cases htext
    exact ⟨rfl, pointers, stop, labels, hname, hallowed, he⟩
  · rintro ⟨rfl, pointers, stop, labels, hname, hallowed, he⟩
    exact ⟨pointers, stop, labels, hname, hallowed, rfl, he⟩

end EdgeShield.Protocol
