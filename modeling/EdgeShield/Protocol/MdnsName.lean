import EdgeShield.Protocol.Mdns

/-!
# Names in DNS messages

What `read_name_internal` accepts, without its loop.  `WireName payload limit offset hops e
labels` says that a name stands at `offset`: labels one after the other, and at the end
a zero byte or a pointer to where the name goes on.  `hops` counts the pointers, `e` is
where the bytes at `offset` end, and every pointer leads below `limit`.

`readNameLoop_cases` is the spec of the loop: it never panics, and where it returns a name
there is one on the wire.  `WireName.readNameLoop_eq` is the converse.  Everything else
about names (their ends, what they are read as) is taken from these two.
-/

namespace EdgeShield.Protocol

open EdgeShield.Lib

def labelAt (payload : List UInt8) (offset : Nat) (len : UInt8) : List UInt8 :=
  (payload.drop (offset + 1)).take len.toNat

/-- Where a pointer leads: fourteen bits of its two bytes. -/
def pointerTarget (len low : UInt8) : Nat := (len &&& 0x3F).toNat * 256 + low.toNat

inductive WireName (payload : List UInt8) (limit : Nat) :
    Nat → Nat → Nat → List (List UInt8) → Prop where
  | root {offset : Nat} (zero : payload[offset]? = some 0) :
      WireName payload limit offset 0 (offset + 1) []
  | label {offset hops e : Nat} {len : UInt8} {labels : List (List UInt8)}
      (length : payload[offset]? = some len) (plain : len &&& 0xC0 ≠ 0xC0) (nonzero : len ≠ 0)
      (fits : offset + 1 + len.toNat ≤ payload.length)
      (rest : WireName payload limit (offset + 1 + len.toNat) hops e labels) :
      WireName payload limit offset hops e (labelAt payload offset len :: labels)
  | pointer {offset hops e : Nat} {len low : UInt8} {labels : List (List UInt8)}
      (high : payload[offset]? = some len) (mark : len &&& 0xC0 = 0xC0)
      (second : payload[offset + 1]? = some low) (below : pointerTarget len low < limit)
      (rest : WireName payload limit (pointerTarget len low) hops e labels) :
      WireName payload limit offset (hops + 1) (offset + 2) labels

def joinLabels (labels : List String) : Option String :=
  if labels ≠ [] then some (".".intercalate labels) else none

/-- What the loop makes of the labels it has and of those still to come: with `collect`
a text, if all of them are UTF-8, and without it nothing. -/
def nameText (collect : Bool) (labels : List String) (rest : List (List UInt8)) :
    Option (Option String) :=
  if collect then (rest.mapM fromUtf8).map fun texts => joinLabels (labels ++ texts)
  else some none

theorem nameText_nil (collect : Bool) (labels : List String) :
    nameText collect labels [] = some (if collect then joinLabels labels else none) := by
  cases collect with
  | false => rfl
  | true => simp [nameText]

theorem nameText_cons_of_collect (labels : List String) (bytes : List UInt8)
    (rest : List (List UInt8)) :
    nameText true labels (bytes :: rest) =
      (fromUtf8 bytes).bind fun s => nameText true (labels ++ [s]) rest := by
  simp only [nameText, if_true, List.mapM_cons, Option.bind_eq_bind]
  cases fromUtf8 bytes with
  | none => rfl
  | some s =>
    rw [Option.bind_some, Option.bind_some]
    cases rest.mapM fromUtf8 with
    | none => rfl
    | some texts =>
      show some (joinLabels (labels ++ s :: texts)) = some (joinLabels (labels ++ [s] ++ texts))
      rw [List.append_assoc, List.singleton_append]

section Loop

variable {payload : List UInt8} {limit : Nat} {collect : Bool} {offset jumps : Nat}
  {endOffset : Option Nat} {labels : List String}

/-! ### The branches of the loop -/

theorem readNameLoop_of_le (h : payload.length ≤ offset) :
    readNameLoop payload limit collect offset jumps endOffset labels = Run.none := by
  rw [readNameLoop, dif_pos h]

theorem readNameLoop_of_zero (h : payload[offset]? = some 0) :
    readNameLoop payload limit collect offset jumps endOffset labels =
      .ok (endOffset.getD (offset + 1), if collect then joinLabels labels else none) := by
  have hlt : ¬payload.length ≤ offset := by
    have := (List.getElem?_eq_some_iff.mp h).1
    omega
  rw [readNameLoop, dif_neg hlt, index_eq_ok.mpr h, Run.ok_bind, if_neg (by decide),
    if_pos rfl]
  cases collect with
  | false => rfl
  | true => simp [joinLabels, pure, Except.pure]

theorem readNameLoop_of_pointer {len low : UInt8} (h : payload[offset]? = some len)
    (hmark : len &&& 0xC0 = 0xC0) (hlow : payload[offset + 1]? = some low) :
    readNameLoop payload limit collect offset jumps endOffset labels =
      if 10 < jumps + 1 ∨ limit ≤ pointerTarget len low then Run.none
      else readNameLoop payload limit collect (pointerTarget len low) (jumps + 1)
        (endOffset.or (some (offset + 2))) labels := by
  have hlt := (List.getElem?_eq_some_iff.mp hlow).1
  rw [readNameLoop, dif_neg (by omega), index_eq_ok.mpr h, Run.ok_bind, if_pos hmark,
    if_neg (by omega), index_eq_ok.mpr hlow, Run.ok_bind]
  rfl

theorem readNameLoop_of_cut_pointer {len : UInt8} (h : payload[offset]? = some len)
    (hmark : len &&& 0xC0 = 0xC0) (hcut : payload.length ≤ offset + 1) :
    readNameLoop payload limit collect offset jumps endOffset labels = Run.none := by
  have hlt := (List.getElem?_eq_some_iff.mp h).1
  rw [readNameLoop, dif_neg (by omega), index_eq_ok.mpr h, Run.ok_bind, if_pos hmark,
    if_pos hcut]

theorem readNameLoop_of_label {len : UInt8} (h : payload[offset]? = some len)
    (hplain : len &&& 0xC0 ≠ 0xC0) (hne : len ≠ 0)
    (hfits : offset + 1 + len.toNat ≤ payload.length) :
    readNameLoop payload limit collect offset jumps endOffset labels =
      if collect then
        (fromUtf8 (labelAt payload offset len)).elim Run.none fun s =>
          readNameLoop payload limit collect (offset + 1 + len.toNat) jumps endOffset
            (labels ++ [s])
      else readNameLoop payload limit collect (offset + 1 + len.toNat) jumps endOffset labels := by
  have hlt := (List.getElem?_eq_some_iff.mp h).1
  have hslice : (slice payload (offset + 1) (offset + 1 + len.toNat) : Run Unit _) =
      .ok (labelAt payload offset len) := by
    rw [slice_of_le (by omega) hfits, Nat.add_sub_cancel_left]
    rfl
  rw [readNameLoop, dif_neg (by omega), index_eq_ok.mpr h, Run.ok_bind, if_neg hplain, if_neg hne,
    if_neg (by omega), hslice, Run.ok_bind]
  cases fromUtf8 (labelAt payload offset len) with
  | none => rfl
  | some s => rfl

theorem readNameLoop_of_cut_label {len : UInt8} (h : payload[offset]? = some len)
    (hplain : len &&& 0xC0 ≠ 0xC0) (hne : len ≠ 0)
    (hcut : payload.length < offset + 1 + len.toNat) :
    readNameLoop payload limit collect offset jumps endOffset labels = Run.none := by
  have hlt := (List.getElem?_eq_some_iff.mp h).1
  rw [readNameLoop, dif_neg (by omega), index_eq_ok.mpr h, Run.ok_bind, if_neg hplain, if_neg hne,
    if_pos hcut]

end Loop

/-! ### The loop against the wire -/

section Spec

variable {payload : List UInt8} {limit : Nat}

/-- **What the loop returns.**  It returns `None`, or there is a name on the wire within
the jumps that are left, and the loop returns its end and its text. -/
theorem readNameLoop_cases (collect : Bool) (offset jumps : Nat) (endOffset : Option Nat)
    (labels : List String) (hjumps : jumps ≤ 10) :
    readNameLoop payload limit collect offset jumps endOffset labels = Run.none ∨
      ∃ hops e rest name, WireName payload limit offset hops e rest ∧ jumps + hops ≤ 10 ∧
        nameText collect labels rest = some name ∧
        readNameLoop payload limit collect offset jumps endOffset labels =
          .ok (endOffset.getD e, name) := by
  induction offset, jumps, endOffset, labels using readNameLoop.induct payload limit with
  | case1 offset jumps endOffset labels hle => exact .inl (readNameLoop_of_le hle)
  | case2 offset jumps endOffset labels hlt ihPointer ihCollect ihSkip =>
    obtain ⟨len, hlen⟩ : ∃ len, payload[offset]? = some len :=
      ⟨_, List.getElem?_eq_getElem (by omega)⟩
    by_cases hmark : len &&& 0xC0 = 0xC0
    · by_cases hcut : payload.length ≤ offset + 1
      · exact .inl (readNameLoop_of_cut_pointer hlen hmark hcut)
      obtain ⟨low, hlow⟩ : ∃ low, payload[offset + 1]? = some low :=
        ⟨_, List.getElem?_eq_getElem (by omega)⟩
      rw [readNameLoop_of_pointer hlen hmark hlow]
      by_cases hstop : 10 < jumps + 1 ∨ limit ≤ pointerTarget len low
      · exact .inl (if_pos hstop)
      rw [if_neg hstop]
      rw [not_or] at hstop
      rcases ihPointer len low (by rw [not_or]; exact hstop) (by omega) with
        hnone | ⟨hops, e, rest, name, hwire, hle, htext, hok⟩
      · exact .inl hnone
      · refine .inr ⟨hops + 1, offset + 2, rest, name, ?_, by omega, htext, ?_⟩
        · exact .pointer hlen hmark hlow (by omega) hwire
        · rw [pointerTarget, hok]
          cases endOffset with
          | none => rfl
          | some e₀ => rfl
    · by_cases hzero : len = 0
      · rw [hzero] at hlen
        exact .inr ⟨0, offset + 1, [], _, .root hlen, hjumps, nameText_nil collect labels,
          readNameLoop_of_zero hlen⟩
      by_cases hcut : payload.length < offset + 1 + len.toNat
      · exact .inl (readNameLoop_of_cut_label hlen hmark hzero hcut)
      rw [readNameLoop_of_label hlen hmark hzero (by omega)]
      cases collect with
      | false =>
        rw [if_neg Bool.false_ne_true]
        rcases ihSkip len hcut hjumps with hnone | ⟨hops, e, rest, name, hwire, hle, htext, hok⟩
        · exact .inl hnone
        · exact .inr ⟨hops, e, _, name, .label hlen hmark hzero (by omega) hwire, hle, htext, hok⟩
      | true =>
        rw [if_pos rfl]
        cases hs : fromUtf8 (labelAt payload offset len) with
        | none => exact .inl rfl
        | some s =>
          rcases ihCollect len hcut s hjumps with
            hnone | ⟨hops, e, rest, name, hwire, hle, htext, hok⟩
          · exact .inl hnone
          · refine .inr ⟨hops, e, _, name, .label hlen hmark hzero (by omega) hwire, hle, ?_, hok⟩
            rw [nameText_cons_of_collect, hs, Option.bind_some]
            exact htext

/-- **A name on the wire is read**, when its hops are within the jumps that are left and
its labels have a text. -/
theorem WireName.readNameLoop_eq {offset hops e : Nat} {rest : List (List UInt8)}
    (h : WireName payload limit offset hops e rest) {collect : Bool} {jumps : Nat}
    (hjumps : jumps + hops ≤ 10) {labels : List String} {name : Option String}
    (htext : nameText collect labels rest = some name) (endOffset : Option Nat) :
    readNameLoop payload limit collect offset jumps endOffset labels =
      .ok (endOffset.getD e, name) := by
  induction h generalizing jumps labels endOffset with
  | root hzero =>
    rw [nameText_nil] at htext
    cases htext
    exact readNameLoop_of_zero hzero
  | label hlen hplain hne hfits _ ih =>
    rw [readNameLoop_of_label hlen hplain hne hfits]
    cases collect with
    | false =>
      rw [if_neg Bool.false_ne_true]
      exact ih hjumps htext endOffset
    | true =>
      rw [nameText_cons_of_collect] at htext
      obtain ⟨s, hs, htext⟩ := Option.bind_eq_some_iff.mp htext
      rw [if_pos rfl, hs]
      exact ih hjumps htext endOffset
  | @pointer offset hops e _ _ _ hlen hmark hlow hbelow _ ih =>
    rw [readNameLoop_of_pointer hlen hmark hlow, if_neg (by omega), ih (by omega) htext]
    cases endOffset with
    | none => rfl
    | some e₀ => rfl

theorem WireName.lt_le {offset hops e : Nat} {labels : List (List UInt8)}
    (h : WireName payload limit offset hops e labels) : offset < e ∧ e ≤ payload.length := by
  induction h with
  | root hzero =>
    have := (List.getElem?_eq_some_iff.mp hzero).1
    omega
  | label _ _ _ _ _ ih => omega
  | pointer _ _ hlow _ _ _ =>
    have := (List.getElem?_eq_some_iff.mp hlow).1
    omega

theorem WireName.mono {limit' offset hops e : Nat} {labels : List (List UInt8)}
    (h : WireName payload limit offset hops e labels) (hle : limit ≤ limit') :
    WireName payload limit' offset hops e labels := by
  induction h with
  | root hzero => exact .root hzero
  | label hlen hplain hne hfits _ ih => exact .label hlen hplain hne hfits ih
  | pointer hlen hmark hlow hbelow _ ih => exact .pointer hlen hmark hlow (by omega) ih

theorem readNameInternal_cases (payload : List UInt8) (offset : Nat) (collect : Bool) :
    readNameInternal payload offset collect = Run.none ∨
      ∃ hops e rest name, WireName payload offset offset hops e rest ∧ hops ≤ 10 ∧
        nameText collect [] rest = some name ∧
        readNameInternal payload offset collect = .ok (e, name) := by
  rcases readNameLoop_cases collect offset 0 none [] (Nat.zero_le 10) with
    hnone | ⟨hops, e, rest, name, hwire, hle, htext, hok⟩
  · exact .inl hnone
  · exact .inr ⟨hops, e, rest, name, hwire, by omega, htext, hok⟩

end Spec

end EdgeShield.Protocol
