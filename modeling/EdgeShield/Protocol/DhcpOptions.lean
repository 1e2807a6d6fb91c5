import EdgeShield.Protocol.DhcpMessage

/-!
# The option walk on any payload

What `parse_dhcp` makes of the bytes behind the cookie, whatever they are.

The walk never leaves the payload, and it leaves the value of an option in one case only:
an option 53 without a value, whose first byte is asked for.  So the parser returns unless
the walk comes to such an option (`parseDhcp_returns_iff`).

On options without that case, the walk is a fold that keeps the last hostname, the last
vendor class and the last message type; pad bytes, and whatever stands behind the last
option that is read, do not matter (`parseDhcp_walk`).
-/

namespace EdgeShield.Protocol

open EdgeShield.Lib

/-! ### When the parser returns -/

/-- The walk over the options comes to an option 53 without a value. -/
def EmptyTypeReached (payload : List UInt8) : Prop :=
  ∃ rest items, payload.drop 240 = DhcpMessage.magicCookie ++ rest ∧ Reads rest items ∧
    Item.option 53 [] ∈ items

/-- **Exactly the payloads without an empty option 53 are parsed without a panic**, to
`Some` or `None`. -/
theorem parseDhcp_returns_iff (payload : List UInt8) :
    ((∃ info, parseDhcp payload = .ok info) ∨ parseDhcp payload = Run.none) ↔
      ¬EmptyTypeReached payload := by
  constructor
  · rintro hreturns ⟨rest, items, hdrop, hitems, hmem⟩
    have hpanic := parseDhcp_eq_foldlM hdrop hitems
    rw [foldlM_apply_of_mem hmem] at hpanic
    rw [hpanic] at hreturns
    rcases hreturns with ⟨info, h⟩ | h
    · cases h
    · cases h
  · intro hno
    rcases parseDhcp_cases payload with hnone | hdrop
    · exact .inr hnone
    obtain ⟨items, hitems⟩ := exists_items (payload.drop 244)
    have hne : ∀ i ∈ items, i ≠ .option 53 [] := fun i hi he =>
      hno ⟨_, items, hdrop, hitems, he ▸ hi⟩
    rw [parseDhcp_eq_foldlM hdrop hitems, foldlM_apply_of_ne hne]
    exact .inl ⟨_, rfl⟩

/-- A payload that ends with an option 53 of length zero. -/
def emptyTypePayload : List UInt8 :=
  List.replicate 240 0 ++ (DhcpMessage.magicCookie ++ [53, 0])

/-- The parser panics on `emptyTypePayload`. -/
theorem parseDhcp_panics_on_empty_type :
    parseDhcp emptyTypePayload = .panic ∧
      ¬∀ payload, (∃ info, parseDhcp payload = .ok info) ∨ parseDhcp payload = Run.none := by
  have hdrop : emptyTypePayload.drop 240 = DhcpMessage.magicCookie ++ [53, 0] :=
    List.drop_left' List.length_replicate
  have hitems : Reads [53, 0] [.option 53 []] := by
    refine ⟨fun i hi => ?_, [], rfl, trivial⟩
    rw [List.mem_singleton.mp hi]
    exact ⟨by decide, by decide, by decide⟩
  have hpanic : parseDhcp emptyTypePayload = .panic := by
    rw [parseDhcp_eq_foldlM hdrop hitems]
    exact foldlM_apply_of_mem (List.mem_singleton_self _) _
  refine ⟨hpanic, fun hall => ?_⟩
  have h := hall emptyTypePayload
  rw [hpanic] at h
  rcases h with ⟨info, h⟩ | h
  · cases h
  · cases h

/-! ### What the parser collects -/

/-- How the options of a payload end: with the payload, with an End option and anything
behind it, or with an option that is cut short, in its length byte or in its value. -/
inductive Ending where
  | payloadEnd
  | endOption (rest : List UInt8)
  | cutLength (tag : UInt8) (htag : tag ∉ [0, 255])
  | cutValue (tag len : UInt8) (value : List UInt8) (htag : tag ∉ [0, 255])
      (cut : value.length < len.toNat)

namespace Ending

def encode : Ending → List UInt8
  | payloadEnd => []
  | endOption rest => 255 :: rest
  | cutLength tag _ => [tag]
  | cutValue tag len value _ _ => tag :: len :: value

theorem terminal (e : Ending) : Terminal e.encode := by
  cases e with
  | payloadEnd => trivial
  | endOption rest =>
    cases rest with
    | nil => trivial
    | cons b rest => exact .inl rfl
  | cutLength tag htag => trivial
  | cutValue tag len value htag cut =>
    exact .inr ⟨fun h => htag (h ▸ List.mem_cons_self), cut⟩

end Ending

def withOptions (lead : Vector UInt8 240) (items : List Item) (ending : Ending) : List UInt8 :=
  lead.toList ++ (DhcpMessage.magicCookie ++ (items.flatMap Item.encode ++ ending.encode))

def lastText (tag : UInt8) (items : List Item) : Option String :=
  (items.filterMap (Item.textOf tag)).getLast?

def lastType (items : List Item) : Option UInt8 := (items.filterMap Item.typeByte).getLast?

def optionsOf (items : List Item) : List Item := items.filter fun i => i ≠ .pad

theorem filterMap_optionsOf {β : Type} {f : Item → Option β} (hf : f .pad = none)
    (items : List Item) : (optionsOf items).filterMap f = items.filterMap f := by
  rw [optionsOf, List.filterMap_filter]
  refine List.filterMap_congr fun i _ => ?_
  by_cases hi : i = .pad
  · rw [hi, hf, ite_self]
  · rw [if_pos (decide_eq_true hi)]

/-- **The option walk is the reference fold.**  Behind any leading bytes and the cookie, and
whatever way the options end, the parser returns the last hostname, the last vendor class
and the last message type; the pad bytes, the leading bytes and the way of ending do not
matter. -/
theorem parseDhcp_walk (lead : Vector UInt8 240) {items : List Item}
    (hitems : ∀ i ∈ items, i.Valid ∧ i ≠ .option 53 []) (ending : Ending) :
    parseDhcp (withOptions lead items ending) =
        .ok ⟨lastText 12 items, lastText 60 items, lastType items⟩ ∧
      ∀ (lead' : Vector UInt8 240) (items' : List Item) (ending' : Ending),
        (∀ i ∈ items', i.Valid ∧ i ≠ .option 53 []) → optionsOf items' = optionsOf items →
        parseDhcp (withOptions lead' items' ending') = parseDhcp (withOptions lead items ending) := by
  have hwalk : ∀ (lead : Vector UInt8 240) (items : List Item) (ending : Ending),
      (∀ i ∈ items, i.Valid ∧ i ≠ .option 53 []) →
      parseDhcp (withOptions lead items ending) =
        .ok ⟨lastText 12 items, lastText 60 items, lastType items⟩ := by
    intro lead items ending hitems
    have hdrop : (withOptions lead items ending).drop 240 =
        DhcpMessage.magicCookie ++ (items.flatMap Item.encode ++ ending.encode) :=
      List.drop_left' (Vector.length_toList)
    have hreads : Reads (items.flatMap Item.encode ++ ending.encode) items :=
      ⟨fun i hi => (hitems i hi).1, _, rfl, ending.terminal⟩
    rw [parseDhcp_eq_foldlM hdrop hreads, foldlM_apply_of_ne fun i hi => (hitems i hi).2]
    simp only [DhcpInfo.default, Option.or_none, lastText, lastType]
  refine ⟨hwalk lead items ending hitems, fun lead' items' ending' hitems' hsame => ?_⟩
  rw [hwalk lead items ending hitems, hwalk lead' items' ending' hitems']
  have hlast : ∀ {β : Type} (f : Item → Option β), f .pad = none →
      items'.filterMap f = items.filterMap f := by
    intro β f hf
    rw [← filterMap_optionsOf hf, hsame, filterMap_optionsOf hf]
  simp only [lastText, lastType, hlast (Item.textOf 12) rfl, hlast (Item.textOf 60) rfl,
    hlast Item.typeByte rfl]

/-- Two messages with the hostname `b` and the type REQUEST. -/
theorem parseDhcp_walk_request :
    parseDhcp (withOptions (.replicate 240 0) [.option 12 [98], .pad, .option 53 [3]]
        (.endOption [1])) = .ok ⟨some "b", none, some 3⟩ ∧
      parseDhcp (withOptions (.replicate 240 1) [.option 12 [98], .option 53 [3]] .payloadEnd) =
        .ok ⟨some "b", none, some 3⟩ := by
  have hitems : ∀ i ∈ [Item.option 12 [98], .pad, .option 53 [3]],
      i.Valid ∧ i ≠ .option 53 [] := by
    intro i hi
    simp only [List.mem_cons, List.not_mem_nil, or_false] at hi
    rcases hi with rfl | rfl | rfl
    · exact ⟨⟨by decide, by decide, by decide⟩, by decide⟩
    · exact ⟨trivial, by decide⟩
    · exact ⟨⟨by decide, by decide, by decide⟩, by decide⟩
  have hitems' : ∀ i ∈ [Item.option 12 [98], .option 53 [3]], i.Valid ∧ i ≠ .option 53 [] := by
    intro i hi
    have hsub : [Item.option 12 [98], .option 53 [3]] ⊆ [.option 12 [98], .pad, .option 53 [3]] := by
      decide
    exact hitems i (hsub hi)
  obtain ⟨hread, hsame⟩ := parseDhcp_walk (.replicate 240 0) hitems (.endOption [1])
  have hinfo : (⟨lastText 12 [.option 12 [98], .pad, .option 53 [3]],
      lastText 60 [.option 12 [98], .pad, .option 53 [3]],
      lastType [.option 12 [98], .pad, .option 53 [3]]⟩ : DhcpInfo) =
        ⟨some "b", none, some 3⟩ := by decide +kernel
  rw [hinfo] at hread
  exact ⟨hread, (hsame (.replicate 240 1) _ .payloadEnd hitems' rfl).trans hread⟩

end EdgeShield.Protocol
