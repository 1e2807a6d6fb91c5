import EdgeShield.Protocol.Dhcp

/-!
# The documented DHCP message format

The table at the top of `crates/protocol/src/dhcp.rs` lays a message out field by
field; `DhcpMessage` is that table, with the options a client sends, and `encode`
writes it down.  The fixed fields take 236 bytes (`length_header`), so the cookie
stands at bytes 236..239 and the first option at byte 240.

`parseDhcp` looks for the cookie at bytes 240..243.  It finds one there only when
the first option of the message spells it: tag `0x63`, length `0x82` and a value
that starts with `0x53 0x63`.  `parseDhcp_encode_iff` says that the parser gives
back the fields of the message exactly when, besides, the options read from the
third byte of that value on carry those fields again.
-/

namespace EdgeShield.Protocol

open EdgeShield.Lib

/-- The text of an option 12 or 60: not empty, without a trailing NUL, and short
enough for the length byte. -/
structure OptionString where
  text : String
  nonempty : text ≠ ""
  noTrailingNul : text.toList.getLast? ≠ some (Char.ofNat 0)
  fits : (utf8Bytes text).length ≤ 255

inductive MessageOption where
  | hostname (s : OptionString)
  | vendorClass (s : OptionString)
  | messageType (b : UInt8)
  | other (tag : UInt8) (value : List UInt8) (htag : tag ∉ [0, 12, 53, 60, 255])
      (fits : value.length ≤ 255)

namespace MessageOption

def item : MessageOption → Item
  | hostname s => .option 12 (utf8Bytes s.text)
  | vendorClass s => .option 60 (utf8Bytes s.text)
  | messageType b => .option 53 [b]
  | other tag value _ _ => .option tag value

def hostname? : MessageOption → Option String
  | hostname s => some s.text
  | _ => none

def vendorClass? : MessageOption → Option String
  | vendorClass s => some s.text
  | _ => none

def messageType? : MessageOption → Option UInt8
  | messageType b => some b
  | _ => none

def encode (o : MessageOption) : List UInt8 := o.item.encode

end MessageOption

/-- A DHCP message.  Options 12, 60 and 53 stand in it at most once. -/
structure DhcpMessage where
  op : UInt8
  htype : UInt8
  hlen : UInt8
  hops : UInt8
  xid : Vector UInt8 4
  secs : Vector UInt8 2
  flags : Vector UInt8 2
  ciaddr : Vector UInt8 4
  yiaddr : Vector UInt8 4
  siaddr : Vector UInt8 4
  giaddr : Vector UInt8 4
  chaddr : Vector UInt8 16
  sname : Vector UInt8 64
  file : Vector UInt8 128
  options : List MessageOption
  hostname_once : (options.filterMap MessageOption.hostname?).length ≤ 1
  vendorClass_once : (options.filterMap MessageOption.vendorClass?).length ≤ 1
  messageType_once : (options.filterMap MessageOption.messageType?).length ≤ 1

namespace DhcpMessage

def header (m : DhcpMessage) : List UInt8 :=
  [m.op, m.htype, m.hlen, m.hops] ++ m.xid.toList ++ m.secs.toList ++ m.flags.toList ++
    m.ciaddr.toList ++ m.yiaddr.toList ++ m.siaddr.toList ++ m.giaddr.toList ++ m.chaddr.toList ++
    m.sname.toList ++ m.file.toList

def magicCookie : List UInt8 := [0x63, 0x82, 0x53, 0x63]

def encode (m : DhcpMessage) : List UInt8 :=
  m.header ++ (magicCookie ++ (m.options.flatMap MessageOption.encode ++ [255]))

def info (m : DhcpMessage) : DhcpInfo :=
  ⟨(m.options.filterMap MessageOption.hostname?).head?,
    (m.options.filterMap MessageOption.vendorClass?).head?,
    (m.options.filterMap MessageOption.messageType?).head?⟩

theorem length_header (m : DhcpMessage) : m.header.length = 236 := by
  simp only [header, List.length_append, List.length_cons, List.length_nil, Vector.length_toList]

theorem drop_header (m : DhcpMessage) :
    m.encode.drop 240 = m.options.flatMap MessageOption.encode ++ [255] := by
  have h : (m.header ++ magicCookie).length = 240 := by
    rw [List.length_append, length_header]; rfl
  rw [encode, ← List.append_assoc, List.drop_left' h]

end DhcpMessage

/-! ### The parser on any payload -/

theorem length_of_cookie {payload rest : List UInt8}
    (h : payload.drop 240 = DhcpMessage.magicCookie ++ rest) :
    payload.length = 244 + rest.length := by
  have h' := congrArg List.length h
  simp only [List.length_drop, List.length_append, DhcpMessage.magicCookie, List.length_cons,
    List.length_nil] at h'
  omega

theorem parseDhcp_of_cookie {payload rest : List UInt8}
    (h : payload.drop 240 = DhcpMessage.magicCookie ++ rest) :
    parseDhcp payload = optionLoop payload 244 .default := by
  have hlen := length_of_cookie h
  have h₁ : payload.drop 241 = [0x82, 0x53, 0x63] ++ rest := drop_of_drop [0x63] h
  have h₂ : payload.drop 242 = [0x53, 0x63] ++ rest := drop_of_drop [0x63, 0x82] h
  have h₃ : payload.drop 243 = [0x63] ++ rest := drop_of_drop [0x63, 0x82, 0x53] h
  rw [parseDhcp, if_neg (by omega), if_neg (by omega), index_of_drop h, Run.ok_bind,
    index_of_drop h₁, Run.ok_bind, index_of_drop h₂, Run.ok_bind, index_of_drop h₃, Run.ok_bind,
    if_neg (by decide)]

theorem parseDhcp_cases (payload : List UInt8) :
    parseDhcp payload = Run.none ∨
      payload.drop 240 = DhcpMessage.magicCookie ++ payload.drop 244 := by
  rw [parseDhcp]
  by_cases h240 : payload.length < 240
  · exact .inl (if_pos h240)
  by_cases h244 : payload.length < 244
  · rw [if_neg h240, if_pos h244]
    exact .inl rfl
  have hget : ∀ i, i < 244 → ∃ c, payload[i]? = some c := fun i hi =>
    ⟨_, List.getElem?_eq_getElem (by omega)⟩
  obtain ⟨c₀, h₀⟩ := hget 240 (by decide)
  obtain ⟨c₁, h₁⟩ := hget 241 (by decide)
  obtain ⟨c₂, h₂⟩ := hget 242 (by decide)
  obtain ⟨c₃, h₃⟩ := hget 243 (by decide)
  rw [if_neg h240, if_neg h244, index_eq_ok.mpr h₀, Run.ok_bind, index_eq_ok.mpr h₁, Run.ok_bind,
    index_eq_ok.mpr h₂, Run.ok_bind, index_eq_ok.mpr h₃, Run.ok_bind]
  by_cases hc : c₀ ≠ 0x63 ∨ c₁ ≠ 0x82 ∨ c₂ ≠ 0x53 ∨ c₃ ≠ 0x63
  · exact .inl (if_pos hc)
  · simp only [not_or, not_not] at hc
    obtain ⟨rfl, rfl, rfl, rfl⟩ := hc
    refine .inr ?_
    rw [List.drop_eq_getElem?_toList_append, List.drop_eq_getElem?_toList_append (i := 241),
      List.drop_eq_getElem?_toList_append (i := 242),
      List.drop_eq_getElem?_toList_append (i := 243), h₀, h₁, h₂, h₃]
    rfl

theorem cookie_of_parseDhcp {payload : List UInt8} {info : DhcpInfo}
    (h : parseDhcp payload = .ok info) :
    payload.drop 240 = DhcpMessage.magicCookie ++ payload.drop 244 := by
  rcases parseDhcp_cases payload with hnone | hdrop
  · rw [hnone] at h
    cases h
  · exact hdrop

theorem parseDhcp_eq_foldlM {payload rest : List UInt8} {items : List Item}
    (hdrop : payload.drop 240 = DhcpMessage.magicCookie ++ rest) (hitems : Reads rest items) :
    parseDhcp payload = items.foldlM Item.apply .default := by
  have h244 : payload.drop 244 = rest := drop_of_drop _ hdrop
  have hlen := length_of_cookie hdrop
  rw [parseDhcp_of_cookie hdrop]
  exact optionLoop_eq_foldlM (by rwa [h244]) (by omega) _

theorem parseDhcp_eq_ok {payload : List UInt8} {info : DhcpInfo} :
    parseDhcp payload = .ok info ↔
      ∃ rest items, payload.drop 240 = DhcpMessage.magicCookie ++ rest ∧ Reads rest items ∧
        Carries items info := by
  constructor
  · intro h
    have hdrop := cookie_of_parseDhcp h
    obtain ⟨items, hitems⟩ := exists_items (payload.drop 244)
    rw [parseDhcp_eq_foldlM hdrop hitems, foldlM_apply_eq_ok] at h
    exact ⟨_, items, hdrop, hitems, h⟩
  · rintro ⟨rest, items, hdrop, hitems, hcarry⟩
    rw [parseDhcp_eq_foldlM hdrop hitems, foldlM_apply_eq_ok]
    exact hcarry

/-! ### The parser on a documented message -/

/-- The first option of the message spells the cookie once more, four bytes late:
tag `0x63`, length `0x82`, a value that starts with `0x53 0x63`; and the options
read from the third byte of that value on carry the fields of the message. -/
def RepeatsCookie (m : DhcpMessage) : Prop :=
  ∃ value htag fits rest, m.options = .other 0x63 value htag fits :: rest ∧
    value.length = 0x82 ∧ value.take 2 = [0x53, 0x63] ∧
    ∃ items, Reads (value.drop 2 ++ (rest.flatMap MessageOption.encode ++ [255])) items ∧
      Carries items m.info

theorem options_eq_cookie_append {options : List MessageOption} {rest : List UInt8}
    (h : options.flatMap MessageOption.encode ++ [255] = DhcpMessage.magicCookie ++ rest) :
    ∃ value htag fits os, options = .other 0x63 value htag fits :: os ∧ value.length = 0x82 ∧
      value.take 2 = [0x53, 0x63] ∧
      rest = value.drop 2 ++ (os.flatMap MessageOption.encode ++ [255]) := by
  cases options with
  | nil => simp [DhcpMessage.magicCookie] at h
  | cons o os =>
    rw [List.flatMap_cons, List.append_assoc] at h
    cases o with
    | hostname s =>
      simp [MessageOption.encode, MessageOption.item, Item.encode, DhcpMessage.magicCookie] at h
    | vendorClass s =>
      simp [MessageOption.encode, MessageOption.item, Item.encode, DhcpMessage.magicCookie] at h
    | messageType b =>
      simp [MessageOption.encode, MessageOption.item, Item.encode, DhcpMessage.magicCookie] at h
    | other tag value htag fits =>
      simp only [MessageOption.encode, MessageOption.item, Item.encode, DhcpMessage.magicCookie,
        List.cons_append, List.nil_append, List.cons.injEq] at h
      obtain ⟨rfl, hlen, hrest⟩ := h
      have hval : value.length = 0x82 := by
        have := toNat_ofNat_length fits
        rw [hlen] at this
        exact this.symm
      rcases value with _ | ⟨a, _ | ⟨b, value⟩⟩
      · cases hval
      · cases hval
      simp only [List.cons_append, List.cons.injEq] at hrest
      obtain ⟨rfl, rfl, hrest⟩ := hrest
      exact ⟨_, htag, fits, os, rfl, hval, rfl, hrest.symm⟩

/-- **The parser gives back the fields of a documented message exactly when the
message repeats the cookie four bytes late.** -/
theorem parseDhcp_encode_iff (m : DhcpMessage) :
    parseDhcp m.encode = .ok m.info ↔ RepeatsCookie m := by
  rw [parseDhcp_eq_ok, m.drop_header]
  constructor
  · rintro ⟨rest, items, hdrop, hitems, hcarry⟩
    obtain ⟨value, htag, fits, os, ho, hlen, htake, rfl⟩ := options_eq_cookie_append hdrop
    exact ⟨value, htag, fits, os, ho, hlen, htake, items, hitems, hcarry⟩
  · rintro ⟨value, htag, fits, os, ho, hlen, htake, items, hitems, hcarry⟩
    refine ⟨_, items, ?_, hitems, hcarry⟩
    have hsplit : value = [0x53, 0x63] ++ value.drop 2 := by
      rw [← htake, List.take_append_drop]
    rw [ho, List.flatMap_cons, List.append_assoc, ← List.append_assoc DhcpMessage.magicCookie]
    congr 1
    rw [MessageOption.encode, MessageOption.item, Item.encode, hlen, hsplit]
    rfl

/-- A REQUEST from a client with the hostname `raspberrypi`. -/
def requestFrom : DhcpMessage where
  op := 1
  htype := 1
  hlen := 6
  hops := 0
  xid := .replicate 4 0
  secs := .replicate 2 0
  flags := .replicate 2 0
  ciaddr := .replicate 4 0
  yiaddr := .replicate 4 0
  siaddr := .replicate 4 0
  giaddr := .replicate 4 0
  chaddr := .replicate 16 0
  sname := .replicate 64 0
  file := .replicate 128 0
  options := [.messageType 3, .hostname ⟨"raspberrypi", by decide, by decide, by decide⟩]
  hostname_once := by decide
  vendorClass_once := by decide
  messageType_once := by decide

/-- The parser finds no cookie in `requestFrom`: it does not give every documented
message back. -/
theorem parseDhcp_misses_request :
    requestFrom.info = ⟨some "raspberrypi", none, some 3⟩ ∧
      parseDhcp requestFrom.encode = .none ∧
      ¬ ∀ m : DhcpMessage, parseDhcp m.encode = .ok m.info := by
  have h : parseDhcp requestFrom.encode = .none := by decide +kernel
  refine ⟨rfl, h, fun hall => ?_⟩
  have hok := hall requestFrom
  rw [h] at hok
  cases hok

end EdgeShield.Protocol
