import EdgeShield.Protocol.MdnsWalk

/-!
# DNS messages with compression, and what the parser makes of them

A message as it is written: a header with the four counts, questions, and three lists of
records.  A name is written as labels and then a zero byte, or a pointer to a place
further up where the name goes on (`DnsName`).  Which name that is depends on what
stands in the message before it: `Scope` keeps the offset reached so far and the places
at which a name can be read, and `Scope.name` resolves a pointer in it.  A message
resolves when all its pointers lead to such places, with ten hops at most, and its
records have texts; `DnsMessage.resolve` then gives their contents, names in full.

`Scope.Holds` ties the two sides together: at every place of the scope, the name that the
scope gives is on the wire.  Writing a name keeps it (`Scope.Holds.name`), so each record
is read back as its content (`parseRecord_encode`), and so is the message.
-/

namespace EdgeShield.Protocol

open EdgeShield.Lib

/-! ### Messages as they are written -/

structure DnsLabel where
  bytes : List UInt8
  pos : 0 < bytes.length
  le : bytes.length ≤ 63

structure DnsName where
  labels : List DnsLabel
  pointer : Option Nat

def encodeU16 (n : Nat) : List UInt8 := [UInt8.ofNat (n / 256), UInt8.ofNat (n % 256)]

def DnsLabel.encode (l : DnsLabel) : List UInt8 := UInt8.ofNat l.bytes.length :: l.bytes

def encodeTail : Option Nat → List UInt8
  | none => [0]
  | some target => encodeU16 (0xC000 + target)

def DnsName.encode (n : DnsName) : List UInt8 :=
  n.labels.flatMap DnsLabel.encode ++ encodeTail n.pointer

structure DnsQuestion where
  name : DnsName
  fields : Vector UInt8 4

def DnsQuestion.encode (q : DnsQuestion) : List UInt8 := q.name.encode ++ q.fields.toList

/-- The data of a record.  Of an SRV record, `fields` are priority, weight and port. -/
inductive RecordData where
  | ptr (name : DnsName)
  | srv (fields : Vector UInt8 6) (target : DnsName)
  | other (recordType : Nat) (rdata : List UInt8) (small : recordType < 65536)
      (notPtr : recordType ≠ recordTypePtr) (notSrv : recordType ≠ recordTypeSrv)

namespace RecordData

def recordType : RecordData → Nat
  | ptr _ => recordTypePtr
  | srv _ _ => recordTypeSrv
  | other recordType _ _ _ _ => recordType

def encode : RecordData → List UInt8
  | ptr name => name.encode
  | srv fields target => fields.toList ++ target.encode
  | other _ rdata _ _ _ => rdata

end RecordData

/-- A record; `fields` are its class and its time to live. -/
structure DnsRecord where
  name : DnsName
  fields : Vector UInt8 6
  data : RecordData
  fits : data.encode.length < 65536

def DnsRecord.fixed (r : DnsRecord) : List UInt8 :=
  encodeU16 r.data.recordType ++ (r.fields.toList ++ encodeU16 r.data.encode.length)

def DnsRecord.encode (r : DnsRecord) : List UInt8 :=
  r.name.encode ++ (r.fixed ++ r.data.encode)

/-- A message; `head` are the id and the flags. -/
structure DnsMessage where
  head : Vector UInt8 4
  questions : List DnsQuestion
  answers : List DnsRecord
  authorities : List DnsRecord
  additionals : List DnsRecord
  questions_lt : questions.length < 65536
  answers_lt : answers.length < 65536
  authorities_lt : authorities.length < 65536
  additionals_lt : additionals.length < 65536

namespace DnsMessage

def header (m : DnsMessage) : List UInt8 :=
  m.head.toList ++ (encodeU16 m.questions.length ++ (encodeU16 m.answers.length ++
    (encodeU16 m.authorities.length ++ encodeU16 m.additionals.length)))

def body (m : DnsMessage) : List UInt8 :=
  m.questions.flatMap DnsQuestion.encode ++ (m.answers.flatMap DnsRecord.encode ++
    (m.authorities.flatMap DnsRecord.encode ++ m.additionals.flatMap DnsRecord.encode))

def encode (m : DnsMessage) : List UInt8 := m.header ++ m.body

end DnsMessage

/-! ### Names in full -/

/-- A place at which a name can be read: its labels in full, and the pointers on the
way. -/
structure Place where
  offset : Nat
  labels : List DnsLabel
  hops : Nat

/-- How far a message has been written, and the places in it. -/
structure Scope where
  pos : Nat
  places : List Place

namespace Scope

def skip (c : Scope) (n : Nat) : Scope := { c with pos := c.pos + n }

/-- How a name goes on behind its own labels: not at all, or at the place that its
pointer leads to. -/
def follow (c : Scope) : Option Nat → Option (List DnsLabel × Nat)
  | none => some ([], 0)
  | some target =>
    match c.places.find? fun p => p.offset = target with
    | none => none
    | some p => if target < 2 ^ 14 ∧ p.hops < 10 then some (p.labels, p.hops + 1) else none

/-- The places of a name that is written at `pos`: one before each label, and one before
its end. -/
def placesAt (rest : List DnsLabel) (hops : Nat) : Nat → List DnsLabel → List Place
  | pos, [] => [⟨pos, rest, hops⟩]
  | pos, l :: ls =>
    ⟨pos, l :: ls ++ rest, hops⟩ :: placesAt rest hops (pos + l.encode.length) ls

def name (c : Scope) (n : DnsName) : Option (List DnsLabel × Scope) :=
  match c.follow n.pointer with
  | none => none
  | some (rest, hops) =>
    some (n.labels ++ rest,
      ⟨c.pos + n.encode.length, c.places ++ placesAt rest hops c.pos n.labels⟩)

end Scope

def labelTexts (labels : List DnsLabel) : Option (List String) :=
  (labels.map DnsLabel.bytes).mapM fromUtf8

inductive RecordContent where
  | ptr (owner instanceName : List String)
  | srv (owner target : List String)
  | other (owner : List String)
  deriving DecidableEq

namespace Scope

def textName (c : Scope) (n : DnsName) : Option (List String × Scope) :=
  match c.name n with
  | none => none
  | some (labels, c) => (labelTexts labels).map fun texts => (texts, c)

def properName (c : Scope) (n : DnsName) : Option (List String × Scope) :=
  (c.textName n).filter fun r => r.1 ≠ []

def record (c : Scope) (r : DnsRecord) : Option (RecordContent × Scope) :=
  match c.textName r.name with
  | none => none
  | some (owner, c) =>
    match r.data with
    | .ptr name => ((c.skip 10).properName name).map fun x => (.ptr owner x.1, x.2)
    | .srv _ target => ((c.skip 16).properName target).map fun x => (.srv owner x.1, x.2)
    | .other _ rdata _ _ _ => some (.other owner, c.skip (10 + rdata.length))

def records : Scope → List DnsRecord → Option (List RecordContent × Scope)
  | c, [] => some ([], c)
  | c, r :: rs =>
    match c.record r with
    | none => none
    | some (content, c) => (records c rs).map fun x => (content :: x.1, x.2)

def questions : Scope → List DnsQuestion → Option Scope
  | c, [] => some c
  | c, q :: qs =>
    match c.name q.name with
    | none => none
    | some (_, c) => questions (c.skip 4) qs

end Scope

/-- The contents of all records, names in full; `none` when a pointer leads nowhere, a
record has a name without a text, or a PTR or SRV record names the root. -/
def DnsMessage.resolve (m : DnsMessage) : Option (List RecordContent) := do
  let c ← Scope.questions ⟨12, []⟩ m.questions
  let (answers, c) ← c.records m.answers
  let (authorities, c) ← c.records m.authorities
  let (additionals, _) ← c.records m.additionals
  return answers ++ (authorities ++ additionals)

/-! ### Bytes of labels and pointers -/

theorem labelByte_plain {n : Nat} (h : n < 64) : UInt8.ofNat n &&& 0xC0 ≠ 0xC0 := by
  have hall : ∀ k : Fin 64, UInt8.ofNat k.val &&& 0xC0 ≠ 0xC0 := by decide
  exact hall ⟨n, h⟩

theorem pointerByte_mark {n : Nat} (h : n < 64) :
    UInt8.ofNat (0xC0 + n) &&& 0xC0 = 0xC0 ∧ (UInt8.ofNat (0xC0 + n) &&& 0x3F).toNat = n := by
  have hall : ∀ k : Fin 64, UInt8.ofNat (0xC0 + k.val) &&& 0xC0 = 0xC0 ∧
      (UInt8.ofNat (0xC0 + k.val) &&& 0x3F).toNat = k.val := by decide
  exact hall ⟨n, h⟩

theorem toNat_ofNat_of_lt {n : Nat} (h : n < 256) : (UInt8.ofNat n).toNat = n := by
  rw [UInt8.toNat_ofNat']
  omega

theorem encodeTail_pointer {target : Nat} (h : target < 2 ^ 14) :
    ∃ len low, encodeTail (some target) = [len, low] ∧ len &&& 0xC0 = 0xC0 ∧
      pointerTarget len low = target := by
  have hhi : (0xC000 + target) / 256 = 0xC0 + target / 256 := by omega
  have hlo : (0xC000 + target) % 256 = target % 256 := by omega
  obtain ⟨hmark, hbits⟩ := pointerByte_mark (by omega : target / 256 < 64)
  refine ⟨_, _, rfl, ?_, ?_⟩
  · rw [hhi]
    exact hmark
  · rw [pointerTarget, hhi, hlo, hbits, toNat_ofNat_of_lt (by omega)]
    omega

theorem u16At_of_drop {payload rest : List UInt8} {i n : Nat}
    (h : payload.drop i = encodeU16 n ++ rest) (hn : n < 65536) : u16At payload i = .ok n := by
  rw [u16At, index_of_drop h, Run.ok_bind, index_of_drop (drop_succ_of_drop h), Run.ok_bind,
    toNat_ofNat_of_lt (by omega), toNat_ofNat_of_lt (by omega)]
  exact congrArg Except.ok (by omega)

/-! ### Names -/

def labelBytes (labels : List DnsLabel) : List (List UInt8) := labels.map DnsLabel.bytes

section Names

variable {payload : List UInt8}

theorem WireName.cons {limit pos hops e : Nat} {l : DnsLabel} {labels : List (List UInt8)}
    {rest : List UInt8} (h : payload.drop pos = l.encode ++ rest) (hpos : pos ≤ payload.length)
    (hrest : WireName payload limit (pos + l.encode.length) hops e labels) :
    WireName payload limit pos hops e (l.bytes :: labels) := by
  have hbytes := l.pos
  have hle := l.le
  have hlen : (UInt8.ofNat l.bytes.length).toNat = l.bytes.length := toNat_ofNat_of_lt (by omega)
  have hnext : pos + 1 + (UInt8.ofNat l.bytes.length).toNat = pos + l.encode.length := by
    rw [hlen, DnsLabel.encode, List.length_cons]
    omega
  have hbehind : payload.drop (pos + 1) = l.bytes ++ rest := drop_succ_of_drop h
  have hlabel : labelAt payload pos (UInt8.ofNat l.bytes.length) = l.bytes := by
    rw [labelAt, hbehind, hlen, List.take_left]
  have hfits := length_of_drop h hpos
  rw [List.length_append] at hfits
  have hlabeled := WireName.label (getElem?_of_drop h) (labelByte_plain (by omega)) (by
    intro hzero
    rw [hzero] at hlen
    exact absurd hlen (Nat.ne_of_lt hbytes)) (by omega) (hnext ▸ hrest)
  rw [hlabel] at hlabeled
  exact hlabeled

def Place.Holds (payload : List UInt8) (limit : Nat) (p : Place) : Prop :=
  p.offset < limit ∧ p.hops ≤ 10 ∧
    ∃ e, WireName payload limit p.offset p.hops e (labelBytes p.labels)

theorem Place.Holds.mono {p : Place} {limit limit' : Nat} (h : p.Holds payload limit)
    (hle : limit ≤ limit') : p.Holds payload limit' := by
  obtain ⟨hlt, hhops, e, hwire⟩ := h
  exact ⟨by omega, hhops, e, hwire.mono hle⟩

structure Scope.Holds (payload : List UInt8) (c : Scope) : Prop where
  inside : c.pos ≤ payload.length
  places : ∀ p ∈ c.places, p.Holds payload c.pos

theorem wireName_of_labels {limit hops e : Nat} {restLabels : List DnsLabel} (hhops : hops ≤ 10)
    {tail : List UInt8} (labels : List DnsLabel) :
    ∀ {pos : Nat}, payload.drop pos = labels.flatMap DnsLabel.encode ++ tail →
      pos ≤ payload.length →
      WireName payload limit (pos + (labels.flatMap DnsLabel.encode).length) hops e
        (labelBytes restLabels) →
      WireName payload limit pos hops e (labelBytes (labels ++ restLabels)) ∧
      ∀ p ∈ Scope.placesAt restLabels hops pos labels,
        p.offset ≤ pos + (labels.flatMap DnsLabel.encode).length ∧ p.hops ≤ 10 ∧
          WireName payload limit p.offset p.hops e (labelBytes p.labels) := by
  induction labels with
  | nil =>
    intro pos _ _ hrest
    refine ⟨hrest, fun p hp => ?_⟩
    rw [List.mem_singleton.mp hp]
    exact ⟨le_refl pos, hhops, hrest⟩
  | cons l labels ih =>
    intro pos hdrop hpos hrest
    rw [List.flatMap_cons, List.append_assoc] at hdrop
    rw [List.flatMap_cons, List.length_append, ← Nat.add_assoc] at hrest
    have hlen := length_of_drop hdrop hpos
    rw [List.length_append] at hlen
    obtain ⟨hwire, hplaces⟩ := ih (drop_of_drop l.encode hdrop) (by omega) hrest
    have hcons : WireName payload limit pos hops e (labelBytes (l :: labels ++ restLabels)) :=
      hwire.cons hdrop hpos
    refine ⟨hcons, fun p hp => ?_⟩
    rw [List.flatMap_cons, List.length_append]
    rcases List.mem_cons.mp hp with rfl | hp
    · exact ⟨Nat.le_add_right _ _, hhops, hcons⟩
    · obtain ⟨hle, hhops', hwire'⟩ := hplaces p hp
      exact ⟨by omega, hhops', hwire'⟩

theorem Scope.Holds.follow {c : Scope} (hc : c.Holds payload) {pointer : Option Nat}
    {rest : List DnsLabel} {hops pos : Nat} {more : List UInt8}
    (h : c.follow pointer = some (rest, hops))
    (hdrop : payload.drop pos = encodeTail pointer ++ more) :
    hops ≤ 10 ∧
      WireName payload c.pos pos hops (pos + (encodeTail pointer).length) (labelBytes rest) := by
  cases pointer with
  | none =>
    cases h
    exact ⟨Nat.zero_le 10, .root (getElem?_of_drop hdrop)⟩
  | some target =>
    simp only [Scope.follow] at h
    split at h
    · cases h
    next p hfind =>
    split at h
    · next hok =>
      cases h
      obtain ⟨len, low, htail, hmark, htarget⟩ := encodeTail_pointer hok.1
      obtain ⟨hlt, _, e, hwire⟩ := hc.places p (List.mem_of_find?_eq_some hfind)
      have hoffset : p.offset = target := by simpa using List.find?_some hfind
      rw [htail] at hdrop ⊢
      rw [hoffset, ← htarget] at hwire hlt
      refine ⟨by omega, .pointer (getElem?_of_drop hdrop) hmark ?_ hlt hwire⟩
      exact getElem?_of_drop (drop_succ_of_drop hdrop)
    · cases h

/-- **Writing a name keeps the scope right**, and the name is on the wire. -/
theorem Scope.Holds.name {c c' : Scope} (hc : c.Holds payload) {n : DnsName}
    {labels : List DnsLabel} {more : List UInt8} (h : c.name n = some (labels, c'))
    (hdrop : payload.drop c.pos = n.encode ++ more) :
    c'.pos = c.pos + n.encode.length ∧ c'.Holds payload ∧
      ∃ hops ≤ 10, WireName payload c.pos c.pos hops c'.pos (labelBytes labels) := by
  rw [Scope.name] at h
  split at h
  · cases h
  next rest hops hfollow =>
  cases h
  have hlen := length_of_drop hdrop hc.inside
  rw [List.length_append] at hlen
  rw [DnsName.encode, List.append_assoc] at hdrop
  obtain ⟨hhops, htail⟩ := hc.follow hfollow (drop_of_drop _ hdrop)
  rw [Nat.add_assoc, ← List.length_append] at htail
  obtain ⟨hwire, hplaces⟩ := wireName_of_labels hhops n.labels hdrop hc.inside htail
  have hend := hwire.lt_le
  refine ⟨rfl, ⟨?_, fun p hp => ?_⟩, hops, hhops, hwire⟩
  · simp only
    omega
  · rcases List.mem_append.mp hp with hp | hp
    · exact (hc.places p hp).mono (Nat.le_add_right _ _)
    · obtain ⟨hle, hhops', hwire'⟩ := hplaces p hp
      have hlt : p.offset < c.pos + n.encode.length := hwire'.lt_le.1
      exact ⟨hlt, hhops', _, hwire'.mono (Nat.le_add_right _ _)⟩

theorem Scope.Holds.textName {c c' : Scope} (hc : c.Holds payload) {n : DnsName}
    {texts : List String} {more : List UInt8} (h : c.textName n = some (texts, c'))
    (hdrop : payload.drop c.pos = n.encode ++ more) :
    c'.pos = c.pos + n.encode.length ∧ c'.Holds payload ∧
      readName payload c.pos = .ok (c'.pos, joinLabels texts) := by
  rw [Scope.textName] at h
  split at h
  · cases h
  next labels c'' hname =>
  obtain ⟨texts', htexts, he⟩ := Option.map_eq_some_iff.mp h
  cases he
  obtain ⟨hpos, hc', hops, hhops, hwire⟩ := hc.name hname hdrop
  refine ⟨hpos, hc', hwire.readNameLoop_eq (by omega) ?_ none⟩
  rw [nameText, if_pos rfl, labelBytes, show (labels.map DnsLabel.bytes).mapM fromUtf8 = _ from htexts]
  rfl

theorem Scope.Holds.properName {c c' : Scope} (hc : c.Holds payload) {n : DnsName}
    {texts : List String} {more : List UInt8} (h : c.properName n = some (texts, c'))
    (hdrop : payload.drop c.pos = n.encode ++ more) :
    c'.pos = c.pos + n.encode.length ∧ c'.Holds payload ∧
      readName payload c.pos = .ok (c'.pos, some (".".intercalate texts)) := by
  obtain ⟨htext, hne⟩ := Option.filter_eq_some_iff.mp h
  obtain ⟨hpos, hc', hread⟩ := hc.textName htext hdrop
  refine ⟨hpos, hc', ?_⟩
  rw [hread, joinLabels, if_pos (by simpa using hne)]

theorem Scope.Holds.skip {c : Scope} (hc : c.Holds payload) {n : Nat}
    (hle : c.pos + n ≤ payload.length) : (c.skip n).Holds payload :=
  ⟨hle, fun p hp => (hc.places p hp).mono (Nat.le_add_right _ _)⟩

end Names

/-! ### Records -/

section Records

variable {payload : List UInt8}

theorem parseRecord_of_fixed {offset nameEnd recordType rdlength : Nat} {name : Option String}
    (hname : readName payload offset = .ok (nameEnd, name))
    (htype : u16At payload nameEnd = .ok recordType)
    (hrdlength : u16At payload (nameEnd + 8) = .ok rdlength)
    (hle : nameEnd + 10 + rdlength ≤ payload.length) :
    parseRecord payload offset =
      if recordType = recordTypePtr then
        readName payload (nameEnd + 10) >>= fun r =>
          .ok ⟨name, recordType, nameEnd + 10 + rdlength, none, r.2⟩
      else if recordType = recordTypeSrv ∧ 7 ≤ rdlength then
        readName payload (nameEnd + 10 + 6) >>= fun r =>
          .ok ⟨name, recordType, nameEnd + 10 + rdlength, r.2, none⟩
      else .ok ⟨name, recordType, nameEnd + 10 + rdlength, none, none⟩ := by
  have hlen : ((payload.drop (nameEnd + 10)).take rdlength).length = rdlength := by
    rw [List.length_take, List.length_drop]
    omega
  rw [parseRecord, hname, Run.ok_bind]
  simp only [if_neg (by omega : ¬payload.length < nameEnd + 10), htype, hrdlength, Run.ok_bind,
    if_neg (by omega : ¬payload.length < nameEnd + 10 + rdlength),
    slice_of_le (by omega : nameEnd + 10 ≤ nameEnd + 10 + rdlength) hle, Nat.add_sub_cancel_left,
    hlen]
  rfl

theorem fixed_of_parseRecord {offset : Nat} {record : ParsedRecord}
    (h : parseRecord payload offset = .ok record) :
    ∃ nameEnd name recordType rdlength, readName payload offset = .ok (nameEnd, name) ∧
      u16At payload nameEnd = .ok recordType ∧ u16At payload (nameEnd + 8) = .ok rdlength ∧
      nameEnd + 10 + rdlength ≤ payload.length := by
  rw [parseRecord] at h
  obtain ⟨⟨nameEnd, name⟩, hname, h⟩ := Run.bind_eq_ok.mp h
  dsimp only at h
  split at h
  · cases h
  obtain ⟨recordType, htype, h⟩ := Run.bind_eq_ok.mp h
  obtain ⟨rdlength, hrdlength, h⟩ := Run.bind_eq_ok.mp h
  split at h
  · cases h
  next hfits => exact ⟨nameEnd, name, recordType, rdlength, hname, htype, hrdlength, by omega⟩

def MdnsInfo.addContent (info : MdnsInfo) : RecordContent → MdnsInfo
  | .ptr owner instanceName =>
    if info.instanceName.isNone then
      { info with
        instanceName := some (".".intercalate instanceName)
        serviceType := joinLabels owner }
    else info
  | .srv _ target =>
    if info.hostname.isNone then { info with hostname := some (".".intercalate target) } else info
  | .other _ => info

theorem addRecord_of_ptr (info : MdnsInfo) (name : Option String) (next : Nat)
    (owner instanceName : List String) (hname : name = joinLabels owner) :
    info.addRecord ⟨name, recordTypePtr, next, none, some (".".intercalate instanceName)⟩ =
      info.addContent (.ptr owner instanceName) := by
  rw [hname]
  simp [MdnsInfo.addRecord, MdnsInfo.addContent]

theorem addRecord_of_srv (info : MdnsInfo) (name : Option String) (next : Nat)
    (owner target : List String) :
    info.addRecord ⟨name, recordTypeSrv, next, some (".".intercalate target), none⟩ =
      info.addContent (.srv owner target) := by
  have hne : recordTypeSrv ≠ recordTypePtr := by decide
  simp [MdnsInfo.addRecord, MdnsInfo.addContent, hne]

theorem addRecord_of_other (info : MdnsInfo) (name : Option String) {recordType : Nat}
    (next : Nat) (h : recordType ≠ recordTypePtr) :
    info.addRecord ⟨name, recordType, next, none, none⟩ = info := by
  simp [MdnsInfo.addRecord, h]

theorem RecordData.recordType_lt (d : RecordData) : d.recordType < 65536 := by
  cases d with
  | ptr => exact (by decide : recordTypePtr < 65536)
  | srv => exact (by decide : recordTypeSrv < 65536)
  | other _ _ small => exact small

theorem DnsName.encode_pos (n : DnsName) : 0 < n.encode.length := by
  rw [DnsName.encode, List.length_append]
  cases n.pointer with
  | none => exact Nat.lt_add_left _ Nat.one_pos
  | some target => exact Nat.lt_add_left _ Nat.two_pos

theorem DnsRecord.fixed_spec (r : DnsRecord) {pos : Nat} {more : List UInt8}
    (h : payload.drop pos = r.fixed ++ more) :
    r.fixed.length = 10 ∧ u16At payload pos = .ok r.data.recordType ∧
      u16At payload (pos + 8) = .ok r.data.encode.length := by
  refine ⟨?_, ?_, ?_⟩
  · simp only [fixed, encodeU16, List.length_append, Vector.length_toList, List.length_cons,
      List.length_nil]
  · rw [fixed, List.append_assoc] at h
    exact u16At_of_drop h r.data.recordType_lt
  · rw [fixed, ← List.append_assoc, List.append_assoc] at h
    have h' := drop_of_drop _ h
    have hlen : (encodeU16 r.data.recordType ++ r.fields.toList).length = 8 := by
      simp only [encodeU16, List.length_append, Vector.length_toList, List.length_cons,
        List.length_nil]
    rw [hlen] at h'
    exact u16At_of_drop h' r.fits

/-- **A record is read back** as its content, and the scope stays right. -/
theorem parseRecord_encode {c c' : Scope} (hc : c.Holds payload) {r : DnsRecord}
    {content : RecordContent} {more : List UInt8} (h : c.record r = some (content, c'))
    (hdrop : payload.drop c.pos = r.encode ++ more) :
    c'.pos = c.pos + r.encode.length ∧ c'.Holds payload ∧
      ∃ record, parseRecord payload c.pos = .ok record ∧ record.nextOffset = c'.pos ∧
        ∀ info : MdnsInfo, info.addRecord record = info.addContent content := by
  rw [Scope.record] at h
  split at h
  · cases h
  next owner c₁ howner =>
  have hsize : r.encode.length = r.name.encode.length + (r.fixed.length + r.data.encode.length) := by
    rw [DnsRecord.encode, List.length_append, List.length_append]
  have hlen := length_of_drop hdrop hc.inside
  rw [List.length_append, hsize] at hlen
  rw [DnsRecord.encode, List.append_assoc, List.append_assoc] at hdrop
  obtain ⟨hpos₁, hc₁, hread⟩ := hc.textName howner hdrop
  have hfixed := drop_of_drop _ hdrop
  rw [← hpos₁] at hfixed
  obtain ⟨hten, htype, hrdlength⟩ := r.fixed_spec hfixed
  have hdata := drop_of_drop _ hfixed
  rw [hten] at hdata hlen hsize
  rw [parseRecord_of_fixed hread htype hrdlength (by omega)]
  rw [hsize]
  cases hd : r.data with
  | ptr name =>
    rw [hd] at h hdata hlen
    obtain ⟨x, hx, he⟩ := Option.map_eq_some_iff.mp h
    cases he
    obtain ⟨hpos₂, hc₂, hread₂⟩ := (hc₁.skip (by omega)).properName hx hdata
    have hnext : x.2.pos = c₁.pos + 10 + (RecordData.ptr name).encode.length := hpos₂
    refine ⟨by omega, hc₂, ?_⟩
    rw [if_pos (by rfl), show readName payload (c₁.pos + 10) = _ from hread₂]
    exact ⟨_, rfl, hnext.symm, fun info => addRecord_of_ptr info _ _ owner x.1 rfl⟩
  | srv fields target =>
    rw [hd] at h hdata hlen
    obtain ⟨x, hx, he⟩ := Option.map_eq_some_iff.mp h
    cases he
    have hrdata : (RecordData.srv fields target).encode.length = 6 + target.encode.length := by
      rw [RecordData.encode, List.length_append, Vector.length_toList]
    rw [RecordData.encode, List.append_assoc] at hdata
    have htarget := drop_of_drop _ hdata
    rw [Vector.length_toList] at htarget
    obtain ⟨hpos₂, hc₂, hread₂⟩ := (hc₁.skip (by omega)).properName hx htarget
    have hnext : x.2.pos = c₁.pos + 10 + (RecordData.srv fields target).encode.length := by
      rw [hpos₂, hrdata]
      simp only [Scope.skip]
      omega
    have hpos := target.encode_pos
    have htypes : (RecordData.srv fields target).recordType ≠ recordTypePtr :=
      (by decide : recordTypeSrv ≠ recordTypePtr)
    refine ⟨by omega, hc₂, ?_⟩
    rw [if_neg htypes, if_pos ⟨rfl, by omega⟩,
      show readName payload (c₁.pos + 10 + 6) = _ from hread₂]
    exact ⟨_, rfl, hnext.symm, fun info => addRecord_of_srv info _ _ owner x.1⟩
  | other recordType rdata small notPtr notSrv =>
    rw [hd] at h hlen
    cases h
    simp only [RecordData.encode] at hlen
    have htypes : (RecordData.other recordType rdata small notPtr notSrv).recordType ≠
        recordTypePtr := notPtr
    refine ⟨by simp only [Scope.skip, RecordData.encode]; omega, hc₁.skip (by omega), ?_⟩
    rw [if_neg htypes, if_neg fun h => notSrv h.1]
    exact ⟨_, rfl, Nat.add_assoc _ _ _, fun info => addRecord_of_other info _ _ notPtr⟩

/-! ### Sections and messages -/

/-- **A section is read back**: the walk adds its contents one after the other. -/
theorem walkSection_encode (records : List DnsRecord) :
    ∀ {c c' : Scope} {contents : List RecordContent} {more : List UInt8} (info : MdnsInfo),
      c.Holds payload → c.records records = some (contents, c') →
      payload.drop c.pos = records.flatMap DnsRecord.encode ++ more →
      c'.Holds payload ∧ payload.drop c'.pos = more ∧
        walkSection payload records.length c.pos info =
          .ok (.next c'.pos (contents.foldl MdnsInfo.addContent info)) := by
  induction records with
  | nil =>
    intro c c' contents more info hc h hdrop
    cases h
    exact ⟨hc, hdrop, rfl⟩
  | cons r records ih =>
    intro c c' contents more info hc h hdrop
    rw [Scope.records] at h
    split at h
    · cases h
    next content c₁ hrecord =>
    obtain ⟨x, hx, he⟩ := Option.map_eq_some_iff.mp h
    cases he
    rw [List.flatMap_cons, List.append_assoc] at hdrop
    obtain ⟨hpos, hc₁, record, hparse, hnext, hadd⟩ := parseRecord_encode hc hrecord hdrop
    have hrest := drop_of_drop _ hdrop
    rw [← hpos] at hrest
    obtain ⟨hc', hmore, hwalk⟩ := ih (info.addContent content) hc₁ hx hrest
    refine ⟨hc', hmore, ?_⟩
    rw [List.length_cons, walkSection, hparse]
    simp only [Run.toOption, Run.ok_bind, hnext, hadd]
    exact hwalk

theorem skipQuestions_encode (questions : List DnsQuestion) :
    ∀ {c c' : Scope} {more : List UInt8}, c.Holds payload → c.questions questions = some c' →
      payload.drop c.pos = questions.flatMap DnsQuestion.encode ++ more →
      c'.Holds payload ∧ payload.drop c'.pos = more ∧
        skipQuestions payload questions.length c.pos = .ok c'.pos := by
  induction questions with
  | nil =>
    intro c c' more hc h hdrop
    cases h
    exact ⟨hc, hdrop, rfl⟩
  | cons q questions ih =>
    intro c c' more hc h hdrop
    rw [Scope.questions] at h
    split at h
    · cases h
    next labels c₁ hname =>
    rw [List.flatMap_cons, DnsQuestion.encode, List.append_assoc, List.append_assoc] at hdrop
    obtain ⟨hpos, hc₁, hops, hhops, hwire⟩ := hc.name hname hdrop
    have hfields := drop_of_drop _ hdrop
    rw [← hpos] at hfields
    have hlen := length_of_drop hfields hc₁.inside
    rw [List.length_append, Vector.length_toList] at hlen
    have hrest := drop_of_drop _ hfields
    rw [Vector.length_toList] at hrest
    obtain ⟨hc', hmore, hskip⟩ := ih (hc₁.skip (by omega)) h hrest
    refine ⟨hc', hmore, ?_⟩
    have hread : skipName payload c.pos = .ok (c₁.pos, none) :=
      hwire.readNameLoop_eq (by omega) rfl none
    rw [List.length_cons, skipQuestions, hread, Run.ok_bind]
    simp only [if_neg (by omega : ¬payload.length < c₁.pos + 4)]
    exact hskip

end Records

namespace DnsMessage

theorem length_header (m : DnsMessage) : m.header.length = 12 := by
  simp only [header, encodeU16, List.length_append, Vector.length_toList, List.length_cons,
    List.length_nil]

theorem counts_encode (m : DnsMessage) :
    u16At m.encode 4 = .ok m.questions.length ∧ u16At m.encode 6 = .ok m.answers.length ∧
      u16At m.encode 8 = .ok m.authorities.length ∧
      u16At m.encode 10 = .ok m.additionals.length := by
  have h₄ : m.encode.drop 4 = encodeU16 m.questions.length ++ (encodeU16 m.answers.length ++
      (encodeU16 m.authorities.length ++ (encodeU16 m.additionals.length ++ m.body))) := by
    rw [encode, header]
    simp only [List.append_assoc]
    exact List.drop_left' m.head.length_toList
  have h₆ := drop_of_drop _ h₄
  have h₈ := drop_of_drop _ h₆
  have h₁₀ := drop_of_drop _ h₈
  exact ⟨u16At_of_drop h₄ m.questions_lt, u16At_of_drop h₆ m.answers_lt,
    u16At_of_drop h₈ m.authorities_lt, u16At_of_drop h₁₀ m.additionals_lt⟩

end DnsMessage

def MdnsInfo.finish (info : MdnsInfo) : Run Unit MdnsInfo :=
  if info.hostname.isNone ∧ info.instanceName.isNone ∧ info.serviceType.isNone then Run.none
  else .ok info

/-- **A message is read back**: the parser adds up the contents of its records. -/
theorem parseMdns_eq_fold {m : DnsMessage} {contents : List RecordContent}
    (h : m.resolve = some contents) :
    parseMdns m.encode =
      (contents.foldl MdnsInfo.addContent ⟨none, none, none⟩).finish := by
  simp only [DnsMessage.resolve, Option.bind_eq_bind, Option.bind_eq_some_iff, Option.pure_def,
    Option.some.injEq] at h
  obtain ⟨c, hquestions, ⟨answers, c₁⟩, hanswers, ⟨authorities, c₂⟩, hauthorities,
    ⟨additionals, c₃⟩, hadditionals, rfl⟩ := h
  have hbody : m.encode.drop 12 = m.body := List.drop_left' m.length_header
  have hlen : 12 ≤ m.encode.length := by
    rw [DnsMessage.encode, List.length_append, m.length_header]
    exact Nat.le_add_right _ _
  have hstart : (⟨12, []⟩ : Scope).Holds m.encode := ⟨hlen, fun p hp => absurd hp List.not_mem_nil⟩
  obtain ⟨hc, hdrop, hskip⟩ := skipQuestions_encode m.questions hstart hquestions hbody
  obtain ⟨hc₁, hdrop₁, hwalk₁⟩ := walkSection_encode m.answers ⟨none, none, none⟩ hc hanswers hdrop
  obtain ⟨hc₂, hdrop₂, hwalk₂⟩ := walkSection_encode m.authorities _ hc₁ hauthorities hdrop₁
  obtain ⟨_, _, hwalk₃⟩ := @walkSection_encode _ m.additionals _ _ _ [] _ hc₂ hadditionals
    (by rw [hdrop₂, List.append_nil])
  obtain ⟨hqd, han, hns, har⟩ := m.counts_encode
  rw [parseMdns]
  simp only [if_neg (by omega : ¬m.encode.length < 12), hqd, han, hns, har, Run.ok_bind, hskip,
    walkSections, hwalk₁]
  rw [hwalk₂, Run.ok_bind]
  simp only
  rw [hwalk₃, List.foldl_append, List.foldl_append]
  rfl

/-! ### The first records -/

namespace RecordContent

def target? : RecordContent → Option (List String)
  | srv _ target => some target
  | _ => none

def pointer? : RecordContent → Option (List String × List String)
  | ptr owner instanceName => some (owner, instanceName)
  | _ => none

end RecordContent

def firstRecords (contents : List RecordContent) : MdnsInfo where
  hostname := (contents.findSome? RecordContent.target?).map (".".intercalate ·)
  instanceName := (contents.findSome? RecordContent.pointer?).map fun p => ".".intercalate p.2
  serviceType := (contents.findSome? RecordContent.pointer?).bind fun p => joinLabels p.1

/-- The records after those that `info` came from add what is still open. -/
theorem foldl_addContent (contents : List RecordContent) :
    ∀ {info : MdnsInfo}, (info.instanceName = none → info.serviceType = none) →
      contents.foldl MdnsInfo.addContent info =
        ⟨info.hostname.or (firstRecords contents).hostname,
          info.instanceName.or (firstRecords contents).instanceName,
          if info.instanceName.isNone then (firstRecords contents).serviceType
          else info.serviceType⟩ := by
  induction contents with
  | nil =>
    rintro ⟨hostname, instanceName, serviceType⟩ hinfo
    cases instanceName with
    | none =>
      have hservice : serviceType = none := hinfo rfl
      simp [firstRecords, hservice]
    | some x => simp [firstRecords]
  | cons content contents ih =>
    rintro ⟨hostname, instanceName, serviceType⟩ hinfo
    rw [List.foldl_cons]
    cases content with
    | ptr owner name =>
      cases instanceName with
      | none =>
        show contents.foldl MdnsInfo.addContent
          ⟨hostname, some (".".intercalate name), joinLabels owner⟩ = _
        rw [ih (fun h => by cases h)]
        rfl
      | some x =>
        show contents.foldl MdnsInfo.addContent ⟨hostname, some x, serviceType⟩ = _
        rw [ih (fun h => by cases h)]
        rfl
    | srv owner target =>
      cases hostname with
      | none =>
        have hrest := @ih ⟨some (".".intercalate target), instanceName, serviceType⟩ hinfo
        exact hrest.trans rfl
      | some x =>
        show contents.foldl MdnsInfo.addContent ⟨some x, instanceName, serviceType⟩ = _
        rw [ih hinfo]
        rfl
    | other owner =>
      show contents.foldl MdnsInfo.addContent ⟨hostname, instanceName, serviceType⟩ = _
      rw [ih hinfo]
      rfl

/-- **mDNS decode undoes encode.**  For a message that resolves, the parser returns the
target of the first SRV record, and instance and owner of the first PTR record, over the
three sections in order; an owner that is the root is no service type.  It returns `None`
exactly when there is neither. -/
theorem parseMdns_encode {m : DnsMessage} {contents : List RecordContent}
    (h : m.resolve = some contents) :
    parseMdns m.encode =
      if contents.findSome? RecordContent.target? = none ∧
          contents.findSome? RecordContent.pointer? = none then Run.none
      else .ok (firstRecords contents) := by
  rw [parseMdns_eq_fold h, foldl_addContent contents (fun _ => rfl), MdnsInfo.finish]
  simp only [Option.none_or, Option.isNone_none, if_true, Option.isNone_iff_eq_none]
  cases htarget : contents.findSome? RecordContent.target? with
  | some t => simp [firstRecords, htarget]
  | none =>
    cases hpointer : contents.findSome? RecordContent.pointer? with
    | some p => simp [firstRecords, htarget, hpointer]
    | none => simp [firstRecords, htarget, hpointer]

def labelA : DnsLabel where
  bytes := [97]
  pos := by decide
  le := by decide

def answerMessage (questions : List DnsQuestion) (answers : List DnsRecord)
    (hquestions : questions.length < 65536) (hanswers : answers.length < 65536) : DnsMessage where
  head := Vector.replicate 4 0
  questions := questions
  answers := answers
  authorities := []
  additionals := []
  questions_lt := hquestions
  answers_lt := hanswers
  authorities_lt := by decide
  additionals_lt := by decide

/-- A question about `a`, and an SRV record of `a` with the target `a.a`, which both point
to the question. -/
def compressedSrv : DnsMessage :=
  answerMessage [⟨⟨[labelA], none⟩, Vector.replicate 4 0⟩]
    [⟨⟨[], some 12⟩, Vector.replicate 6 0, .srv (Vector.replicate 6 0) ⟨[labelA], some 12⟩,
      by decide⟩]
    (by decide) (by decide)

theorem parseMdns_compressedSrv :
    compressedSrv.resolve = some [.srv ["a"] ["a", "a"]] ∧
      parseMdns compressedSrv.encode = .ok ⟨some "a.a", none, none⟩ := by
  have h : compressedSrv.resolve = some [.srv ["a"] ["a", "a"]] := by decide +kernel
  exact ⟨h, (parseMdns_encode h).trans rfl⟩

/-- A PTR record of the root, with the instance `a`. -/
def rootPtr : DnsMessage :=
  answerMessage [] [⟨⟨[], none⟩, Vector.replicate 6 0, .ptr ⟨[labelA], none⟩, by decide⟩]
    (by decide) (by decide)

/-- **The owner of the first PTR record is the root**, and there is no service type: not
the empty text that its labels join to. -/
theorem serviceType_rootPtr :
    rootPtr.resolve = some [.ptr [] ["a"]] ∧
      ∃ info, parseMdns rootPtr.encode = .ok info ∧ info.instanceName = some "a" ∧
        info.serviceType ≠ some (".".intercalate []) := by
  have h : rootPtr.resolve = some [.ptr [] ["a"]] := by decide +kernel
  exact ⟨h, _, parseMdns_eq_fold h, rfl, by decide⟩

end EdgeShield.Protocol
