import Mathlib.Data.List.DropRight
import EdgeShield.Lib.Bytes

/-!
# DHCP parsing

`crates/protocol/src/dhcp.rs`: `parseDhcp` checks the magic cookie at bytes
240..243 and walks the tag-length-value options from byte 244 on.

The walk is described without offsets by a list of items (`Item`: a pad byte or an
option) and a tail at which it ends (`Terminal`: the end of the payload, an End
option, an option cut short).  Every byte string splits so (`exists_items`), and the
walk is the fold of `applyOption` over the items
(`optionLoop_eq_foldlM`).  The one step that can panic is an option 53 without a
value.
-/

namespace EdgeShield.Protocol

open EdgeShield.Lib

structure DhcpInfo where
  hostname : Option String
  vendorClass : Option String
  messageType : Option UInt8
  deriving DecidableEq, Repr

def DhcpInfo.default : DhcpInfo := ⟨none, none, none⟩

def trimEndNul (s : String) : String :=
  String.ofList (s.toList.rdropWhile fun c => c == Char.ofNat 0)

/-- The text of an option: valid UTF-8, and not empty without its trailing NULs. -/
def optionText (value : List UInt8) : Option String :=
  match fromUtf8 value with
  | none => none
  | some s => if trimEndNul s = "" then none else some (trimEndNul s)

/-- The `match tag` of the loop. -/
def applyOption (info : DhcpInfo) (tag : UInt8) (value : List UInt8) : Run Unit DhcpInfo :=
  if tag = 12 then
    match optionText value with
    | some hostname => .ok { info with hostname := some hostname }
    | none => .ok info
  else if tag = 60 then
    match optionText value with
    | some vendor => .ok { info with vendorClass := some vendor }
    | none => .ok info
  else if tag = 53 then do
    let messageType ← index value 0
    return { info with messageType := some messageType }
  else .ok info

def optionLoop (payload : List UInt8) (offset : Nat) (info : DhcpInfo) : Run Unit DhcpInfo :=
  if _h : offset + 1 < payload.length then do
    let tag ← index payload offset
    if tag = 255 then return info
    else if tag = 0 then optionLoop payload (offset + 1) info
    else if payload.length ≤ offset + 1 then return info
    else
      let len ← index payload (offset + 1)
      if payload.length < offset + 2 + len.toNat then return info
      else
        let value ← slice payload (offset + 2) (offset + 2 + len.toNat)
        let info ← applyOption info tag value
        optionLoop payload (offset + 2 + len.toNat) info
  else return info
termination_by payload.length - offset

def parseDhcp (payload : List UInt8) : Run Unit DhcpInfo := do
  if payload.length < 240 then Run.none
  else if payload.length < 244 then Run.none
  else
    let c₀ ← index payload 240
    let c₁ ← index payload 241
    let c₂ ← index payload 242
    let c₃ ← index payload 243
    if c₀ ≠ 0x63 ∨ c₁ ≠ 0x82 ∨ c₂ ≠ 0x53 ∨ c₃ ≠ 0x63 then Run.none
    else optionLoop payload 244 .default

/-! ### The walk without offsets -/

/-- One step of the walk: a pad byte, or an option. -/
inductive Item where
  | pad
  | option (tag : UInt8) (value : List UInt8)
  deriving DecidableEq, Repr

namespace Item

/-- An option has a tag other than Pad and End, and its length fits a byte. -/
def Valid : Item → Prop
  | pad => True
  | option tag value => tag ≠ 0 ∧ tag ≠ 255 ∧ value.length ≤ 255

def encode : Item → List UInt8
  | pad => [0]
  | option tag value => tag :: UInt8.ofNat value.length :: value

def apply (info : DhcpInfo) : Item → Run Unit DhcpInfo
  | pad => .ok info
  | option tag value => applyOption info tag value

end Item

/-- The bytes at which the walk ends: at most one byte, an End option, or an option
whose announced length reaches past the end. -/
def Terminal : List UInt8 → Prop
  | [] => True
  | [_] => True
  | tag :: len :: rest => tag = 255 ∨ (tag ≠ 0 ∧ rest.length < len.toNat)

/-- `bytes` reads as `items`, with nothing more to read after them. -/
def Reads (bytes : List UInt8) (items : List Item) : Prop :=
  (∀ i ∈ items, i.Valid) ∧ ∃ tail, bytes = items.flatMap Item.encode ++ tail ∧ Terminal tail

theorem toNat_ofNat_length {value : List UInt8} (h : value.length ≤ 255) :
    (UInt8.ofNat value.length).toNat = value.length := by
  rw [UInt8.toNat_ofNat']
  omega

theorem exists_items (bytes : List UInt8) : ∃ items, Reads bytes items := by
  induction hn : bytes.length using Nat.strong_induction_on generalizing bytes with
  | _ n ih =>
    match bytes with
    | [] => exact ⟨[], by simp, [], rfl, trivial⟩
    | [b] => exact ⟨[], by simp, [b], rfl, trivial⟩
    | tag :: len :: rest =>
      by_cases hend : tag = 255
      · exact ⟨[], by simp, _, rfl, Or.inl hend⟩
      by_cases hpad : tag = 0
      · obtain ⟨items, hv, tail, ht, hterm⟩ := ih (len :: rest).length (by simp [← hn]) _ rfl
        refine ⟨.pad :: items, ?_, tail, ?_, hterm⟩
        · exact List.forall_mem_cons.mpr ⟨trivial, hv⟩
        · rw [hpad, ht]; rfl
      rcases lt_or_ge rest.length len.toNat with hcut | hfit
      · exact ⟨[], by simp, _, rfl, Or.inr ⟨hpad, hcut⟩⟩
      obtain ⟨items, hv, tail, ht, hterm⟩ := ih (rest.drop len.toNat).length
        (by simp only [List.length_drop, ← hn, List.length_cons]; omega) _ rfl
      have htake : (rest.take len.toNat).length = len.toNat := by
        rw [List.length_take]; omega
      refine ⟨.option tag (rest.take len.toNat) :: items, ?_, tail, ?_, hterm⟩
      · refine List.forall_mem_cons.mpr ⟨⟨hpad, hend, ?_⟩, hv⟩
        rw [htake]
        exact Nat.le_of_lt_succ len.toNat_lt
      · rw [List.flatMap_cons, Item.encode, List.append_assoc, ← ht, htake, UInt8.ofNat_toNat]
        simp

theorem optionLoop_of_terminal {payload tail : List UInt8} {offset : Nat}
    (htail : payload.drop offset = tail) (hterm : Terminal tail) (hoff : offset ≤ payload.length)
    (info : DhcpInfo) : optionLoop payload offset info = .ok info := by
  have hlen := length_of_drop htail hoff
  rw [optionLoop]
  rcases tail with _ | ⟨tag, _ | ⟨len, rest⟩⟩
  · rw [List.length_nil] at hlen
    rw [dif_neg (by omega)]
    rfl
  · rw [List.length_singleton] at hlen
    rw [dif_neg (by omega)]
    rfl
  · simp only [List.length_cons] at hlen
    rw [dif_pos (by omega), index_of_drop htail, Run.ok_bind]
    by_cases hend : tag = 255
    · rw [if_pos hend]
      rfl
    · obtain ⟨hpad, hcut⟩ := hterm.resolve_left hend
      have htail' : payload.drop (offset + 1) = len :: rest := drop_of_drop [tag] htail
      rw [if_neg hend, if_neg hpad, if_neg (by omega), index_of_drop htail', Run.ok_bind,
        if_pos (by omega)]
      rfl

theorem optionLoop_of_pad {payload rest : List UInt8} {offset : Nat}
    (h : payload.drop offset = 0 :: rest) (info : DhcpInfo) :
    optionLoop payload offset info = optionLoop payload (offset + 1) info := by
  by_cases hlast : offset + 1 < payload.length
  · rw [optionLoop, dif_pos hlast, index_of_drop h, Run.ok_bind, if_neg (by decide), if_pos rfl]
  · -- a pad as the very last byte is not looked at, and changes nothing
    rw [optionLoop, dif_neg hlast, optionLoop, dif_neg (by omega)]

theorem optionLoop_of_option {payload value rest : List UInt8} {tag : UInt8} {offset : Nat}
    (hv : (Item.option tag value).Valid)
    (h : payload.drop offset = (Item.option tag value).encode ++ rest)
    (hoff : offset ≤ payload.length) (info : DhcpInfo) :
    optionLoop payload offset info =
      applyOption info tag value >>= optionLoop payload (offset + 2 + value.length) := by
  obtain ⟨hpad, hend, hval⟩ := hv
  have hlen := length_of_drop h hoff
  simp only [Item.encode, List.cons_append, List.length_cons, List.length_append] at hlen
  have hlength : payload.drop (offset + 1) = UInt8.ofNat value.length :: (value ++ rest) :=
    drop_of_drop [tag] h
  have hvalue : payload.drop (offset + 2) = value ++ rest :=
    drop_of_drop [tag, UInt8.ofNat value.length] h
  rw [optionLoop, dif_pos (by omega), index_of_drop h, Run.ok_bind, if_neg hend, if_neg hpad,
    if_neg (by omega), index_of_drop hlength, Run.ok_bind, toNat_ofNat_length hval,
    if_neg (by omega), slice_of_drop hvalue (by omega), Run.ok_bind]

/-- **The option loop is the fold over the items that the rest of the payload reads
as.** -/
theorem optionLoop_eq_foldlM {payload : List UInt8} : ∀ {items : List Item} {offset : Nat},
    Reads (payload.drop offset) items → offset ≤ payload.length → ∀ info : DhcpInfo,
      optionLoop payload offset info = items.foldlM Item.apply info := by
  intro items
  induction items with
  | nil =>
    intro offset ⟨_, tail, htail, hterm⟩ hoff info
    rw [List.flatMap_nil, List.nil_append] at htail
    exact optionLoop_of_terminal htail hterm hoff info
  | cons item items ih =>
    intro offset ⟨hv, tail, htail, hterm⟩ hoff info
    obtain ⟨hvi, hvs⟩ := List.forall_mem_cons.mp hv
    rw [List.flatMap_cons, List.append_assoc] at htail
    have hlen := length_of_drop htail hoff
    rw [List.length_append] at hlen
    have hnext : Reads (payload.drop (offset + item.encode.length)) items :=
      ⟨hvs, tail, drop_of_drop _ htail, hterm⟩
    have hrest := ih hnext (by omega)
    cases item with
    | pad =>
      rw [optionLoop_of_pad htail]
      exact hrest info
    | option tag value =>
      have hend : offset + 2 + value.length = offset + (Item.option tag value).encode.length := by
        simp only [Item.encode, List.length_cons]
        omega
      rw [optionLoop_of_option hvi htail hoff, hend, List.foldlM_cons]
      congr 1
      funext info'
      exact hrest info'

/-! ### What the walk collects -/

namespace Item

def textOf (tag : UInt8) : Item → Option String
  | pad => none
  | option t value => if t = tag then optionText value else none

def typeByte : Item → Option UInt8
  | pad => none
  | option t value => if t = 53 then value.head? else none

theorem apply_of_ne {item : Item} (h : item ≠ .option 53 []) (info : DhcpInfo) :
    apply info item = .ok ⟨(item.textOf 12).or info.hostname, (item.textOf 60).or info.vendorClass,
      item.typeByte.or info.messageType⟩ := by
  cases item with
  | pad => rfl
  | option tag value =>
    simp only [apply, applyOption, textOf, typeByte]
    by_cases h12 : tag = 12
    · subst h12
      cases optionText value <;> rfl
    by_cases h60 : tag = 60
    · subst h60
      cases optionText value <;> rfl
    by_cases h53 : tag = 53
    · subst h53
      cases value with
      | nil => exact absurd rfl h
      | cons b rest => rfl
    · simp only [if_neg h12, if_neg h60, if_neg h53, Option.none_or]

theorem apply_empty_type (info : DhcpInfo) : apply info (.option 53 []) = .panic := rfl

end Item

theorem getLast?_filterMap_cons_or {α β : Type} (f : α → Option β) (a : α) (l : List α)
    (x : Option β) :
    ((a :: l).filterMap f).getLast?.or x = (l.filterMap f).getLast?.or ((f a).or x) := by
  rw [List.filterMap_cons]
  cases hf : f a with
  | none => rw [Option.none_or]
  | some b =>
    rw [List.getLast?_cons]
    cases (l.filterMap f).getLast? <;> rfl

/-- **Without an empty option 53 the walk keeps the last text of options 12 and 60
and the last message type.** -/
theorem foldlM_apply_of_ne {items : List Item} (h : ∀ i ∈ items, i ≠ .option 53 []) :
    ∀ info : DhcpInfo, items.foldlM Item.apply info =
      .ok ⟨(items.filterMap (Item.textOf 12)).getLast?.or info.hostname,
        (items.filterMap (Item.textOf 60)).getLast?.or info.vendorClass,
        (items.filterMap Item.typeByte).getLast?.or info.messageType⟩ := by
  induction items with
  | nil => intro info; rfl
  | cons i items ih =>
    intro info
    obtain ⟨hi, hs⟩ := List.forall_mem_cons.mp h
    rw [List.foldlM_cons, Item.apply_of_ne hi, Run.ok_bind, ih hs]
    simp only [getLast?_filterMap_cons_or]

/-- An empty option 53 is indexed out of its bounds. -/
theorem foldlM_apply_of_mem {items : List Item} (h : .option 53 [] ∈ items) :
    ∀ info : DhcpInfo, items.foldlM Item.apply info = .panic := by
  induction items with
  | nil => simp at h
  | cons i items ih =>
    intro info
    rw [List.foldlM_cons]
    by_cases hi : i = .option 53 []
    · rw [hi, Item.apply_empty_type]; rfl
    · rw [Item.apply_of_ne hi, Run.ok_bind]
      exact ih ((List.mem_cons.mp h).resolve_left fun he => hi he.symm) _

/-- The items carry these fields: the last text of options 12 and 60, the last
message type, and no option 53 is empty. -/
def Carries (items : List Item) (info : DhcpInfo) : Prop :=
  (∀ i ∈ items, i ≠ .option 53 []) ∧
    info = ⟨(items.filterMap (Item.textOf 12)).getLast?,
      (items.filterMap (Item.textOf 60)).getLast?, (items.filterMap Item.typeByte).getLast?⟩

theorem foldlM_apply_eq_ok {items : List Item} {info : DhcpInfo} :
    items.foldlM Item.apply .default = .ok info ↔ Carries items info := by
  by_cases h : .option 53 [] ∈ items
  · rw [foldlM_apply_of_mem h]
    exact ⟨fun hp => (by cases hp), fun hc => absurd rfl (hc.1 _ h)⟩
  · have hne : ∀ i ∈ items, i ≠ .option 53 [] := fun i hi he => h (he ▸ hi)
    rw [foldlM_apply_of_ne hne]
    simp only [DhcpInfo.default, Option.or_none, Except.ok.injEq]
    exact ⟨fun he => ⟨hne, he.symm⟩, fun hc => hc.2.symm⟩

end EdgeShield.Protocol
