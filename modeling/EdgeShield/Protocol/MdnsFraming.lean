import EdgeShield.Protocol.MdnsMessage

/-!
# Names in the data of a record

`parse_record` reads the name in a PTR or SRV record from the whole payload, because a
compression pointer can lead anywhere before it.  The length that the record announces for
its data bounds the record, but not the name: the end at which the name was read is thrown
away.

`holdsName` looks at the data alone: it starts with a whole name, up to its zero byte or its
first pointer.  A name on the wire ends inside a slice exactly when the slice holds it
(`holdsName_take_iff`), and so a record's name stays inside its data exactly when the data
holds a name (`framed_iff`).
-/

namespace EdgeShield.Protocol

open EdgeShield.Lib

/-- The bytes start with a whole name, up to its zero byte or its first pointer. -/
def holdsName : List UInt8 → Bool
  | [] => false
  | len :: rest =>
    if len &&& 0xC0 = 0xC0 then !rest.isEmpty
    else if len = 0 then true
    else len.toNat ≤ rest.length && holdsName (rest.drop len.toNat)
termination_by bytes => bytes.length

variable {payload : List UInt8}

theorem take_drop_succ {offset n : Nat} {b : UInt8} (h : payload[offset]? = some b) :
    (payload.drop offset).take (n + 1) = b :: (payload.drop (offset + 1)).take n := by
  obtain ⟨hlt, hget⟩ := List.getElem?_eq_some_iff.mp h
  rw [List.drop_eq_getElem_cons hlt, hget, List.take_succ_cons]

/-- **A name on the wire ends inside a slice** exactly when the slice holds it. -/
theorem holdsName_take_iff {limit offset hops e : Nat} {labels : List (List UInt8)}
    (h : WireName payload limit offset hops e labels) (n : Nat) :
    holdsName ((payload.drop offset).take n) = true ↔ e ≤ offset + n := by
  induction h generalizing n with
  | root hzero =>
    cases n with
    | zero => simp [holdsName]
    | succ n =>
      rw [take_drop_succ hzero, holdsName, if_neg (by decide), if_pos rfl]
      exact ⟨fun _ => by omega, fun _ => rfl⟩
  | @label offset hops e len labels hlen hplain hne hfits hrest ih =>
    have hend := hrest.lt_le
    cases n with
    | zero =>
      rw [List.take_zero, holdsName]
      exact ⟨fun hf => (by cases hf), fun hle => by omega⟩
    | succ n =>
      rw [take_drop_succ hlen, holdsName, if_neg hplain, if_neg hne, Bool.and_eq_true,
        decide_eq_true_eq, List.length_take, List.length_drop, List.drop_take, List.drop_drop]
      constructor
      · rintro ⟨hle, hholds⟩
        have := (ih (n - len.toNat)).mp hholds
        omega
      · intro hle
        exact ⟨by omega, (ih (n - len.toNat)).mpr (by omega)⟩
  | @pointer offset hops e len low labels hlen hmark hlow hbelow hrest ih =>
    cases n with
    | zero => simp [holdsName]
    | succ n =>
      rw [take_drop_succ hlen, holdsName, if_pos hmark]
      cases n with
      | zero => simp
      | succ n =>
        rw [take_drop_succ hlow]
        exact ⟨fun _ => by omega, fun _ => rfl⟩

/-! ### The name in a record -/

/-- Where the name in the data of a record starts: behind the fixed part, and in an SRV
record behind priority, weight and port. -/
def embeddedStart (payload : List UInt8) (offset : Nat) (record : ParsedRecord) : Run Unit Nat := do
  let (nameEnd, _) ← readName payload offset
  return nameEnd + 10 + if record.recordType = recordTypeSrv then 6 else 0

/-- **The framing is respected**: the bytes of the name, from its start to its zero byte or
its first pointer, lie inside the data of the record. -/
def Framed (payload : List UInt8) (offset : Nat) (record : ParsedRecord) : Prop :=
  ∃ start e name, embeddedStart payload offset record = .ok start ∧
    readName payload start = .ok (e, name) ∧ e ≤ record.nextOffset

/-- The data of the record, read alone, holds a name where the record type has one. -/
def DataHoldsName (payload : List UInt8) (offset : Nat) (record : ParsedRecord) : Prop :=
  ∃ start, embeddedStart payload offset record = .ok start ∧
    holdsName ((payload.drop start).take (record.nextOffset - start)) = true

theorem parseRecord_embedded {offset : Nat} {record : ParsedRecord}
    (h : parseRecord payload offset = .ok record)
    (hname : record.ptrRdata ≠ none ∨ record.srvTarget ≠ none) :
    ∃ start e name, embeddedStart payload offset record = .ok start ∧
      readName payload start = .ok (e, name) ∧ start ≤ record.nextOffset := by
  obtain ⟨nameEnd, owner, recordType, rdlength, howner, htype, hrdlength, hfits⟩ :=
    fixed_of_parseRecord h
  rw [parseRecord_of_fixed howner htype hrdlength hfits] at h
  split at h
  · next hptr =>
    obtain ⟨⟨e, name⟩, hread, h⟩ := Run.bind_eq_ok.mp h
    cases h
    refine ⟨nameEnd + 10, e, name, ?_, hread, Nat.le_add_right _ _⟩
    rw [embeddedStart, howner, Run.ok_bind, hptr]
    exact congrArg Except.ok (if_neg (by decide : recordTypePtr ≠ recordTypeSrv) ▸ rfl)
  · split at h
    · next hsrv =>
      obtain ⟨⟨e, name⟩, hread, h⟩ := Run.bind_eq_ok.mp h
      cases h
      refine ⟨nameEnd + 10 + 6, e, name, ?_, hread, ?_⟩
      · rw [embeddedStart, howner, Run.ok_bind, if_pos hsrv.1]
        rfl
      · have h7 := hsrv.2
        show nameEnd + 10 + 6 ≤ nameEnd + 10 + rdlength
        omega
    · cases h
      rcases hname with hname | hname
      · exact absurd rfl hname
      · exact absurd rfl hname

/-- **When the framing is respected**: for every payload, every offset and every record
with a name from its data, exactly when the data alone holds a name. -/
theorem framed_iff {offset : Nat} {record : ParsedRecord}
    (h : parseRecord payload offset = .ok record)
    (hname : record.ptrRdata ≠ none ∨ record.srvTarget ≠ none) :
    Framed payload offset record ↔ DataHoldsName payload offset record := by
  obtain ⟨start, e, name, hstart, hread, hle⟩ := parseRecord_embedded h hname
  obtain ⟨hops, hwire⟩ : ∃ hops labels, WireName payload start start hops e labels := by
    rcases readNameInternal_cases payload start true with
      hnone | ⟨hops, e', labels, name', hwire, -, -, hok⟩
    · rw [readName, hnone] at hread
      cases hread
    · rw [readName, hok] at hread
      cases hread
      exact ⟨hops, labels, hwire⟩
  obtain ⟨labels, hwire⟩ := hwire
  have hholds := holdsName_take_iff hwire (record.nextOffset - start)
  rw [Nat.add_sub_cancel' hle] at hholds
  constructor
  · rintro ⟨start', e', name', hstart', hread', hend⟩
    rw [hstart] at hstart'
    cases hstart'
    rw [hread] at hread'
    cases hread'
    exact ⟨start, hstart, hholds.mpr hend⟩
  · rintro ⟨start', hstart', hdata⟩
    rw [hstart] at hstart'
    cases hstart'
    exact ⟨start, e, name, hstart, hread, hholds.mp hdata⟩

/-! ### A record that announces too little -/

/-- A PTR record of `x` that announces so many bytes of data, and the name `a` behind its
fixed part. -/
def ptrPayload (rdlength : UInt8) : List UInt8 :=
  [1, 120, 0, 0, 12, 0, 1, 0, 0, 0, 0, 0, rdlength, 1, 97, 0]

theorem readName_ptrPayload (rdlength : UInt8) :
    readName (ptrPayload rdlength) 0 = .ok (3, some "x") ∧
      readName (ptrPayload rdlength) 13 = .ok (16, some "a") := by
  have h0 : (ptrPayload rdlength)[0]? = some 1 := rfl
  have h13 : (ptrPayload rdlength)[13]? = some 1 := rfl
  have hx : WireName (ptrPayload rdlength) 0 0 0 3 [[120]] :=
    .label h0 (by decide) (by decide) (by show 2 ≤ 16; decide) (.root rfl)
  have ha : WireName (ptrPayload rdlength) 13 13 0 16 [[97]] :=
    .label h13 (by decide) (by decide) (by show 15 ≤ 16; decide) (.root rfl)
  exact ⟨hx.readNameLoop_eq (by decide) (by decide +kernel) none,
    ha.readNameLoop_eq (by decide) (by decide +kernel) none⟩

theorem parseRecord_ptrPayload (rdlength : UInt8) (h : rdlength.toNat ≤ 3) :
    parseRecord (ptrPayload rdlength) 0 =
      .ok ⟨some "x", 12, 13 + rdlength.toNat, none, some "a"⟩ := by
  obtain ⟨howner, hread⟩ := readName_ptrPayload rdlength
  have htype : u16At (ptrPayload rdlength) 3 = .ok recordTypePtr := rfl
  have hlength : u16At (ptrPayload rdlength) (3 + 8) = .ok rdlength.toNat := by
    show Except.ok (0 * 256 + rdlength.toNat) = _
    rw [Nat.zero_mul, Nat.zero_add]
  have hfits : 3 + 10 + rdlength.toNat ≤ (ptrPayload rdlength).length := by
    show 13 + rdlength.toNat ≤ 16
    omega
  rw [parseRecord_of_fixed howner htype hlength hfits, if_pos rfl, hread]
  rfl

theorem framed_ptrPayload : Framed (ptrPayload 3) 0 ⟨some "x", 12, 16, none, some "a"⟩ := by
  obtain ⟨howner, -⟩ := readName_ptrPayload 3
  refine (framed_iff (parseRecord_ptrPayload 3 (by decide)) (.inl (Option.some_ne_none "a"))).mpr
    ⟨13, ?_, by decide +kernel⟩
  rw [embeddedStart, howner]
  rfl

/-- **Bytes behind a record become its instance name**: with no data at all, the name `a` is
read from behind the record. -/
theorem framing_broken_by_empty_data :
    parseRecord (ptrPayload 0) 0 = .ok ⟨some "x", 12, 13, none, some "a"⟩ ∧
      readName (ptrPayload 0) 13 = .ok (16, some "a") ∧
      ¬∀ payload offset record, parseRecord payload offset = .ok record →
        record.ptrRdata ≠ none ∨ record.srvTarget ≠ none → Framed payload offset record := by
  obtain ⟨howner, hread⟩ := readName_ptrPayload 0
  have hparse := parseRecord_ptrPayload 0 (by decide)
  refine ⟨hparse, hread, fun hall => ?_⟩
  obtain ⟨start, e, name, hstart, hread', hend⟩ :=
    hall _ 0 _ hparse (.inl (Option.some_ne_none "a"))
  have h13 : embeddedStart (ptrPayload 0) 0 ⟨some "x", 12, 13, none, some "a"⟩ = .ok 13 := by
    rw [embeddedStart, howner]
    rfl
  have hstart13 : 13 = start := Except.ok.inj (h13.symm.trans hstart)
  rw [← hstart13, hread] at hread'
  cases hread'
  exact absurd hend (by decide)

end EdgeShield.Protocol
