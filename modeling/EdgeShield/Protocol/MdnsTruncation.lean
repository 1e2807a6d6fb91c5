import EdgeShield.Protocol.MdnsMessage

/-!
# Messages that are cut short

`parse_mdns` has two ways out: at the end of the announced records, and at the first record
that does not parse.  At both it returns what it has, if that is anything.  But they do not
agree on what counts: the end of the message counts the service type, and the early exit
does not.

What is read of a message is a `Reading`: the records before the first bad one, or all that
are announced.  It decides what is returned (`parseMdns_of_reading`), and the exits differ on
records that give a service type and no name (`HalfPtr`).

Lowering the counts changes six bytes of the header.  A name stands behind the header, but its
pointers may lead there, and then it can be another name afterwards (`lowered_renames`).
`ReadsByte` follows a name byte by byte, and `NamesKept` says that no name that is read runs over
a changed byte.  `parseMdns_lowered_iff` says for every such message that is cut short when it
returns what its good records return.
-/

namespace EdgeShield.Protocol

open EdgeShield.Lib

/-! ### The walk as one section -/

/-- The records that parse one after the other, from an offset to where the next one
starts. -/
inductive RecordsAt (payload : List UInt8) : Nat → List ParsedRecord → Nat → Prop where
  | nil (offset : Nat) : RecordsAt payload offset [] offset
  | cons {offset next : Nat} {record : ParsedRecord} {records : List ParsedRecord}
      (parsed : parseRecord payload offset = .ok record)
      (rest : RecordsAt payload record.nextOffset records next) :
      RecordsAt payload offset (record :: records) next

def walkOn (payload : List UInt8) (count : Nat) : Walk → Run Unit Walk
  | .next offset info => walkSection payload count offset info
  | .stop info => .ok (.stop info)

section Walks

variable {payload : List UInt8}

theorem walkSection_add (a b : Nat) : ∀ (offset : Nat) (info : MdnsInfo),
    walkSection payload (a + b) offset info =
      walkSection payload a offset info >>= walkOn payload b := by
  induction a with
  | zero =>
    intro offset info
    rw [Nat.zero_add]
    rfl
  | succ a ih =>
    intro offset info
    rw [Nat.succ_add, walkSection, walkSection]
    rcases parseRecord_cases payload offset with hnone | ⟨record, hok, _⟩
    · rw [hnone]
      rfl
    · rw [hok]
      exact ih record.nextOffset (info.addRecord record)

theorem walkSections_eq (counts : List Nat) : ∀ (offset : Nat) (info : MdnsInfo),
    walkSections payload counts offset info =
      walkSection payload (counts.foldr (· + ·) 0) offset info := by
  induction counts with
  | nil =>
    intro offset info
    rfl
  | cons count counts ih =>
    intro offset info
    rw [walkSections, List.foldr_cons, walkSection_add]
    cases walkSection payload count offset info with
    | error e => rfl
    | ok walk =>
      cases walk with
      | next offset' info' => exact ih offset' info'
      | stop info' => rfl

/-- **The walk over records that parse** adds them up. -/
theorem RecordsAt.walkSection_eq {offset next : Nat} {records : List ParsedRecord}
    (h : RecordsAt payload offset records next) (count : Nat) : ∀ info : MdnsInfo,
    walkSection payload (records.length + count) offset info =
      walkSection payload count next (records.foldl MdnsInfo.addRecord info) := by
  induction h with
  | nil offset =>
    intro info
    rw [List.length_nil, Nat.zero_add]
    rfl
  | @cons offset next record records hparsed _ ih =>
    intro info
    rw [List.length_cons, Nat.add_right_comm, walkSection, hparsed]
    exact ih (info.addRecord record)

end Walks

/-! ### The two exits -/

def MdnsInfo.finishEarly (info : MdnsInfo) : Run Unit MdnsInfo :=
  if info.hostname.isSome ∨ info.instanceName.isSome then .ok info else Run.none

def Walk.finish : Walk → Run Unit MdnsInfo
  | next _ info => info.finish
  | stop info => info.finishEarly

/-! ### What the records add up to -/

theorem MdnsInfo.addRecord_eq (info : MdnsInfo) (r : ParsedRecord) :
    info.addRecord r =
      { hostname := info.hostname.or (if r.recordType = recordTypeSrv then r.srvTarget else none)
        instanceName :=
          info.instanceName.or (if r.recordType = recordTypePtr then r.ptrRdata else none)
        serviceType :=
          if info.instanceName = none ∧ r.recordType = recordTypePtr then r.name
          else info.serviceType } := by
  obtain ⟨hostname, instanceName, serviceType⟩ := info
  obtain ⟨name, recordType, nextOffset, srvTarget, ptrRdata⟩ := r
  have hne : recordTypeSrv ≠ recordTypePtr := by decide
  simp only [addRecord]
  cases srvTarget with
  | none =>
    cases instanceName with
    | some i => simp
    | none =>
      by_cases hptr : recordType = recordTypePtr
      · simp [hptr]
      · simp [hptr]
  | some target =>
    by_cases hsrv : recordType = recordTypeSrv
    · cases hostname with
      | none => simp [hsrv, hne]
      | some h => simp [hsrv, hne]
    · cases instanceName with
      | some i => simp [hsrv]
      | none =>
        by_cases hptr : recordType = recordTypePtr
        · simp [hptr, hne.symm]
        · simp [hsrv, hptr]

def lastPtrName (records : List ParsedRecord) : Option String :=
  ((records.filter fun r => r.recordType = recordTypePtr).getLast?).bind ParsedRecord.name

/-- The records name nothing: no SRV record has a target, no PTR record an instance name. -/
def Silent (records : List ParsedRecord) : Prop :=
  (∀ r ∈ records, r.recordType = recordTypeSrv → r.srvTarget = none) ∧
    ∀ r ∈ records, r.recordType = recordTypePtr → r.ptrRdata = none

/-- **The records give a service type alone**: they name nothing, and the last PTR record
has an owner name. -/
def HalfPtr (records : List ParsedRecord) : Prop := Silent records ∧ lastPtrName records ≠ none

def gathered (records : List ParsedRecord) : MdnsInfo :=
  records.foldl MdnsInfo.addRecord ⟨none, none, none⟩

theorem forall_mem_snoc {α : Type} {p : α → Prop} {l : List α} {a : α} :
    (∀ b ∈ l ++ [a], p b) ↔ (∀ b ∈ l, p b) ∧ p a := by
  rw [List.forall_mem_append, List.forall_mem_singleton]

/-- The sum of the records, as far as it decides which exit returns something. -/
theorem gathered_spec (records : List ParsedRecord) :
    ((gathered records).hostname = none ↔
        ∀ r ∈ records, r.recordType = recordTypeSrv → r.srvTarget = none) ∧
      ((gathered records).instanceName = none ↔
        ∀ r ∈ records, r.recordType = recordTypePtr → r.ptrRdata = none) ∧
      ((gathered records).instanceName = none →
        (gathered records).serviceType = lastPtrName records) := by
  induction records using List.reverseRecOn with
  | nil =>
    refine ⟨⟨fun _ r hr => ?_, fun _ => rfl⟩, ⟨fun _ r hr => ?_, fun _ => rfl⟩, fun _ => rfl⟩
    · exact absurd hr List.not_mem_nil
    · exact absurd hr List.not_mem_nil
  | append_singleton records r ih =>
    obtain ⟨hhost, hinstance, hservice⟩ := ih
    rw [gathered, List.foldl_append, List.foldl_cons, List.foldl_nil, ← gathered,
      MdnsInfo.addRecord_eq]
    refine ⟨?_, ?_, ?_⟩
    · rw [forall_mem_snoc, Option.or_eq_none_iff, hhost, ite_eq_right_iff]
    · rw [forall_mem_snoc, Option.or_eq_none_iff, hinstance, ite_eq_right_iff]
    · intro hnone
      have hbefore := (Option.or_eq_none_iff.mp hnone).1
      show (if _ then _ else _) = _
      rw [lastPtrName, List.filter_append]
      by_cases hptr : r.recordType = recordTypePtr
      · rw [if_pos ⟨hbefore, hptr⟩]
        simp [hptr]
      · rw [if_neg fun h => hptr h.2, hservice hbefore, lastPtrName]
        simp [hptr]

theorem silent_iff (records : List ParsedRecord) :
    Silent records ↔
      (gathered records).hostname = none ∧ (gathered records).instanceName = none := by
  obtain ⟨hhost, hinstance, -⟩ := gathered_spec records
  rw [Silent, hhost, hinstance]

theorem finishEarly_gathered (records : List ParsedRecord) :
    (Silent records → (gathered records).finishEarly = Run.none) ∧
      (¬Silent records → (gathered records).finishEarly = .ok (gathered records)) := by
  rw [silent_iff, MdnsInfo.finishEarly]
  constructor
  · rintro ⟨hhost, hinstance⟩
    rw [hhost, hinstance]
    rfl
  · intro hsome
    rw [if_pos]
    rw [Option.isSome_iff_ne_none, Option.isSome_iff_ne_none]
    exact not_and_or.mp hsome

theorem finish_gathered (records : List ParsedRecord) :
    (Silent records ∧ lastPtrName records = none → (gathered records).finish = Run.none) ∧
      (¬(Silent records ∧ lastPtrName records = none) →
        (gathered records).finish = .ok (gathered records)) := by
  obtain ⟨-, -, hservice⟩ := gathered_spec records
  rw [silent_iff, MdnsInfo.finish]
  simp only [Option.isNone_iff_eq_none]
  constructor
  · rintro ⟨⟨hhost, hinstance⟩, hlast⟩
    exact if_pos ⟨hhost, hinstance, (hservice hinstance).trans hlast⟩
  · intro hsome
    rw [if_neg]
    rintro ⟨hhost, hinstance, hnone⟩
    exact hsome ⟨⟨hhost, hinstance⟩, (hservice hinstance).symm.trans hnone⟩

/-! ### What is read of a message -/

structure HeaderIs (payload : List UInt8) (qdcount ancount nscount arcount : Nat) : Prop where
  long : 12 ≤ payload.length
  questions : u16At payload 4 = .ok qdcount
  answers : u16At payload 6 = .ok ancount
  authorities : u16At payload 8 = .ok nscount
  additionals : u16At payload 10 = .ok arcount

/-- What is read behind the questions when `count` records are announced: all of them, or
those before the first one that does not parse. -/
inductive Reading (payload : List UInt8) (qdcount count : Nat) : List ParsedRecord → Bool → Prop
    where
  | whole {offset next : Nat} {records : List ParsedRecord}
      (questions : skipQuestions payload qdcount 12 = .ok offset)
      (parsed : RecordsAt payload offset records next) (all : records.length = count) :
      Reading payload qdcount count records true
  | cut {offset next : Nat} {records : List ParsedRecord}
      (questions : skipQuestions payload qdcount 12 = .ok offset)
      (parsed : RecordsAt payload offset records next)
      (bad : parseRecord payload next = Run.none) (short : records.length < count) :
      Reading payload qdcount count records false

def exitOf (records : List ParsedRecord) (whole : Bool) : Run Unit MdnsInfo :=
  if whole then (gathered records).finish else (gathered records).finishEarly

section Readings

variable {payload : List UInt8} {qdcount ancount nscount arcount : Nat}

theorem parseMdns_eq_walk (h : HeaderIs payload qdcount ancount nscount arcount) :
    parseMdns payload = skipQuestions payload qdcount 12 >>= fun offset =>
      walkSection payload (ancount + nscount + arcount) offset ⟨none, none, none⟩ >>=
        Walk.finish := by
  have hlong := h.long
  have hsum : [ancount, nscount, arcount].foldr (· + ·) 0 = ancount + nscount + arcount := by
    simp only [List.foldr_cons, List.foldr_nil, Nat.add_zero, Nat.add_assoc]
  rw [parseMdns]
  simp only [if_neg (by omega : ¬payload.length < 12), h.questions, h.answers, h.authorities,
    h.additionals, Run.ok_bind, walkSections_eq, hsum]
  congr 1
  funext offset
  congr 1
  funext walk
  cases walk with
  | stop info => rfl
  | next offset' info => rfl

theorem u16At_lt {i n : Nat} (h : u16At payload i = .ok n) : n < 65536 := by
  rw [u16At] at h
  obtain ⟨hi, -, h⟩ := Run.bind_eq_ok.mp h
  obtain ⟨lo, -, h⟩ := Run.bind_eq_ok.mp h
  cases h
  have hhi := hi.toNat_lt
  have hlo := lo.toNat_lt
  omega

/-- **What is read decides** what `parse_mdns` returns. -/
theorem parseMdns_of_reading {records : List ParsedRecord} {whole : Bool}
    (h : HeaderIs payload qdcount ancount nscount arcount)
    (hread : Reading payload qdcount (ancount + nscount + arcount) records whole) :
    parseMdns payload = exitOf records whole := by
  rw [parseMdns_eq_walk h]
  cases hread with
  | @whole offset next _ hquestions hparsed hall =>
    rw [hquestions, Run.ok_bind, ← hall, ← Nat.add_zero records.length, hparsed.walkSection_eq]
    rfl
  | @cut offset next _ hquestions hparsed hbad hshort =>
    obtain ⟨count, hcount⟩ := Nat.exists_eq_add_of_lt hshort
    rw [hquestions, Run.ok_bind, hcount, Nat.add_assoc, hparsed.walkSection_eq, walkSection, hbad]
    rfl

/-- A reading returns nothing exactly when its records name nothing and, at the end of the
message, give no service type. -/
theorem exitOf_eq_none_iff (records : List ParsedRecord) (whole : Bool) :
    exitOf records whole = Run.none ↔
      Silent records ∧ (whole = true → lastPtrName records = none) := by
  cases whole with
  | false =>
    obtain ⟨hsilent, hloud⟩ := finishEarly_gathered records
    constructor
    · intro hnone
      refine ⟨?_, fun h => by cases h⟩
      by_contra hne
      exact absurd ((hloud hne).symm.trans hnone) (by simp [Run.none])
    · exact fun h => hsilent h.1
  | true =>
    obtain ⟨hsilent, hloud⟩ := finish_gathered records
    constructor
    · intro hnone
      by_contra hne
      have hok := hloud fun h => hne ⟨h.1, fun _ => h.2⟩
      exact absurd (hok.symm.trans hnone) (by simp [Run.none])
    · exact fun h => hsilent ⟨h.1, h.2 rfl⟩

theorem exitOf_of_not_silent {records : List ParsedRecord} (h : ¬Silent records) (whole : Bool) :
    exitOf records whole = .ok (gathered records) := by
  cases whole with
  | false => exact (finishEarly_gathered records).2 h
  | true => exact (finish_gathered records).2 fun hs => h hs.1

end Readings

/-! ### The message with lowered counts -/

def withCounts (payload : List UInt8) (ancount nscount arcount : Nat) : List UInt8 :=
  payload.take 6 ++ (encodeU16 ancount ++ (encodeU16 nscount ++ (encodeU16 arcount ++
    payload.drop 12)))

section Lowered

variable {payload : List UInt8} {qdcount ancount nscount arcount ancount' nscount' arcount' : Nat}

theorem length_withCounts (h : 12 ≤ payload.length) (ancount nscount arcount : Nat) :
    (withCounts payload ancount nscount arcount).length = payload.length := by
  simp only [withCounts, encodeU16, List.length_append, List.length_take, List.length_drop,
    List.length_cons, List.length_nil]
  omega

theorem drop_withCounts (h : 12 ≤ payload.length) (ancount nscount arcount : Nat) :
    (withCounts payload ancount nscount arcount).drop 6 =
        encodeU16 ancount ++ (encodeU16 nscount ++ (encodeU16 arcount ++ payload.drop 12)) ∧
      (withCounts payload ancount nscount arcount).drop 12 = payload.drop 12 := by
  have hsix : (payload.take 6).length = 6 := by
    rw [List.length_take]
    omega
  have h₆ : (withCounts payload ancount nscount arcount).drop 6 =
      encodeU16 ancount ++ (encodeU16 nscount ++ (encodeU16 arcount ++ payload.drop 12)) :=
    List.drop_left' hsix
  exact ⟨h₆, drop_of_drop _ (drop_of_drop _ (drop_of_drop _ h₆))⟩

/-- **Lowering the counts** changes the counts of the header. -/
theorem HeaderIs.withCounts (h : HeaderIs payload qdcount ancount nscount arcount)
    (han : ancount' ≤ ancount) (hns : nscount' ≤ nscount) (har : arcount' ≤ arcount) :
    HeaderIs (withCounts payload ancount' nscount' arcount') qdcount ancount' nscount'
      arcount' := by
  have hlong := h.long
  obtain ⟨h₆, -⟩ := drop_withCounts hlong ancount' nscount' arcount'
  have h₈ := drop_of_drop _ h₆
  have h₁₀ := drop_of_drop _ h₈
  have hquestions : u16At (Protocol.withCounts payload ancount' nscount' arcount') 4 =
      u16At payload 4 := by
    have hget : ∀ i < 6, (Protocol.withCounts payload ancount' nscount' arcount')[i]? =
        payload[i]? := by
      intro i hi
      rw [Protocol.withCounts, List.getElem?_append_left, List.getElem?_take_of_lt hi]
      rw [List.length_take]
      omega
    rw [u16At, u16At, index, index, index, index, hget 4 (by decide), hget 5 (by decide)]
  refine ⟨(length_withCounts hlong _ _ _).symm ▸ hlong, hquestions.trans h.questions, ?_, ?_, ?_⟩
  · exact u16At_of_drop h₆ (lt_of_le_of_lt han (u16At_lt h.answers))
  · exact u16At_of_drop h₈ (lt_of_le_of_lt hns (u16At_lt h.authorities))
  · exact u16At_of_drop h₁₀ (lt_of_le_of_lt har (u16At_lt h.additionals))

end Lowered

/-! ### The bytes of a name -/

/-- The name at an offset reads the byte at `i`: as a length byte, in a label, in a pointer, or
further on, where the label ends or the pointer leads. -/
inductive ReadsByte (payload : List UInt8) (i : Nat) : Nat → Prop where
  | here : ReadsByte payload i i
  | inLabel {offset : Nat} {len : UInt8} (length : payload[offset]? = some len)
      (plain : len &&& 0xC0 ≠ 0xC0) (after : offset < i) (inside : i ≤ offset + len.toNat) :
      ReadsByte payload i offset
  | afterLabel {offset : Nat} {len : UInt8} (length : payload[offset]? = some len)
      (plain : len &&& 0xC0 ≠ 0xC0) (nonzero : len ≠ 0)
      (rest : ReadsByte payload i (offset + 1 + len.toNat)) : ReadsByte payload i offset
  | inPointer {offset : Nat} {len : UInt8} (high : payload[offset]? = some len)
      (mark : len &&& 0xC0 = 0xC0) (second : i = offset + 1) : ReadsByte payload i offset
  | afterPointer {offset : Nat} {len low : UInt8} (high : payload[offset]? = some len)
      (mark : len &&& 0xC0 = 0xC0) (second : payload[offset + 1]? = some low)
      (rest : ReadsByte payload i (pointerTarget len low)) : ReadsByte payload i offset

/-- The name at an offset comes by `j`, as the place of a length byte or a pointer. -/
inductive ComesBy (payload : List UInt8) (j : Nat) : Nat → Prop where
  | here : ComesBy payload j j
  | afterLabel {offset : Nat} {len : UInt8} (length : payload[offset]? = some len)
      (plain : len &&& 0xC0 ≠ 0xC0) (nonzero : len ≠ 0)
      (rest : ComesBy payload j (offset + 1 + len.toNat)) : ComesBy payload j offset
  | afterPointer {offset : Nat} {len low : UInt8} (high : payload[offset]? = some len)
      (mark : len &&& 0xC0 = 0xC0) (second : payload[offset + 1]? = some low)
      (rest : ComesBy payload j (pointerTarget len low)) : ComesBy payload j offset

/-- No pointer of the name at an offset leads below a bound. -/
def PointsBehind (payload : List UInt8) (bound offset : Nat) : Prop :=
  ∀ (j : Nat) (len low : UInt8), ComesBy payload j offset → payload[j]? = some len →
    len &&& 0xC0 = 0xC0 → payload[j + 1]? = some low → bound ≤ pointerTarget len low

def questionNames (payload : List UInt8) : Nat → Nat → List Nat
  | 0, _ => []
  | qdcount + 1, offset =>
    offset :: match skipName payload offset with
      | .ok (nameEnd, _) => questionNames payload qdcount (nameEnd + 4)
      | .error _ => []

/-- Where the name in the data of a record stands, behind an owner that ends at `nameEnd`. -/
def dataName (nameEnd : Nat) (record : ParsedRecord) : List Nat :=
  if record.recordType = recordTypePtr then [nameEnd + 10]
  else if record.recordType = recordTypeSrv ∧ nameEnd + 10 + 7 ≤ record.nextOffset then
    [nameEnd + 10 + 6]
  else []

def recordNames (payload : List UInt8) (offset : Nat) (record : ParsedRecord) : List Nat :=
  offset :: match readName payload offset with
    | .ok (nameEnd, _) => dataName nameEnd record
    | .error _ => []

def recordsNames (payload : List UInt8) : Nat → List ParsedRecord → List Nat
  | _, [] => []
  | offset, record :: records =>
    recordNames payload offset record ++ recordsNames payload record.nextOffset records

/-- **No name that is read runs over a byte that is another one in the other payload.** -/
structure NamesKept (payload payload' : List UInt8) (qdcount : Nat)
    (records : List ParsedRecord) : Prop where
  questions : ∀ start ∈ questionNames payload qdcount 12, ∀ i, ReadsByte payload i start →
    payload'[i]? = payload[i]?
  records : ∀ offset, skipQuestions payload qdcount 12 = .ok offset →
    ∀ start ∈ recordsNames payload offset records, ∀ i, ReadsByte payload i start →
      payload'[i]? = payload[i]?

section Names

variable {payload payload' : List UInt8}

/-- Where no pointer of a name leads below a bound, the name reads no byte below it. -/
theorem le_of_readsByte {bound i start : Nat} (hpointers : PointsBehind payload bound start)
    (h : ReadsByte payload i start) (hstart : bound ≤ start) : bound ≤ i := by
  induction h with
  | here => exact hstart
  | inLabel _ _ hafter _ => omega
  | afterLabel hlen hplain hnonzero _ ih =>
    exact ih (fun j len low hcomes => hpointers j len low (.afterLabel hlen hplain hnonzero hcomes))
      (by omega)
  | inPointer _ _ hsecond => omega
  | @afterPointer offset len low hlen hmark hlow _ ih =>
    exact ih (fun j len' low' hcomes => hpointers j len' low' (.afterPointer hlen hmark hlow hcomes))
      (hpointers offset len low .here hlen hmark hlow)

theorem labelAt_congr {offset : Nat} {len : UInt8}
    (h : ∀ i, offset < i → i ≤ offset + len.toNat → payload'[i]? = payload[i]?) :
    labelAt payload' offset len = labelAt payload offset len := by
  refine List.ext_getElem? fun k => ?_
  rw [labelAt, labelAt, List.getElem?_take, List.getElem?_take]
  split
  · next hk =>
    rw [List.getElem?_drop, List.getElem?_drop]
    exact h _ (by omega) (by omega)
  · rfl

/-- **A name whose bytes are kept** is the same name. -/
theorem WireName.kept (hlength : payload'.length = payload.length) {limit offset hops e : Nat}
    {labels : List (List UInt8)} (h : WireName payload limit offset hops e labels)
    (hkept : ∀ i, ReadsByte payload i offset → payload'[i]? = payload[i]?) :
    WireName payload' limit offset hops e labels := by
  induction h with
  | root hzero => exact .root ((hkept _ .here).trans hzero)
  | @label offset hops e len labels hlen hplain hne hfits hrest ih =>
    have hlabel : labelAt payload' offset len = labelAt payload offset len :=
      labelAt_congr fun i hafter hinside => hkept i (.inLabel hlen hplain hafter hinside)
    rw [← hlabel]
    exact .label ((hkept _ .here).trans hlen) hplain hne (hlength.symm ▸ hfits)
      (ih fun i hi => hkept i (.afterLabel hlen hplain hne hi))
  | @pointer offset hops e len low labels hlen hmark hlow hbelow hrest ih =>
    have hsecond := (hkept _ (.inPointer hlen hmark rfl)).trans hlow
    exact .pointer ((hkept _ .here).trans hlen) hmark hsecond hbelow
      (ih fun i hi => hkept i (.afterPointer hlen hmark hlow hi))

theorem readNameInternal_kept (hlength : payload'.length = payload.length) {offset : Nat}
    {collect : Bool} {r : Nat × Option String}
    (hkept : ∀ i, ReadsByte payload i offset → payload'[i]? = payload[i]?)
    (h : readNameInternal payload offset collect = .ok r) :
    readNameInternal payload' offset collect = .ok r ∧ offset < r.1 := by
  rcases readNameInternal_cases payload offset collect with
    hnone | ⟨hops, e, rest, name, hwire, hle, htext, hok⟩
  · rw [hnone] at h
    cases h
  · rw [hok] at h
    cases h
    exact ⟨(hwire.kept hlength hkept).readNameLoop_eq (by omega) htext none, hwire.lt_le.1⟩

end Names

/-! ### The message behind the header -/

/-- Two payloads that differ in their headers at most. -/
structure SameBody (payload payload' : List UInt8) : Prop where
  length : payload'.length = payload.length
  body : payload'.drop 12 = payload.drop 12

section Bodies

variable {payload payload' : List UInt8}

theorem SameBody.getElem? (h : SameBody payload payload') {i : Nat} (hi : 12 ≤ i) :
    payload'[i]? = payload[i]? := by
  obtain ⟨k, rfl⟩ := Nat.exists_eq_add_of_le hi
  rw [← List.getElem?_drop, ← List.getElem?_drop, h.body]

theorem SameBody.u16At (h : SameBody payload payload') {i : Nat} (hi : 12 ≤ i) :
    u16At payload' i = u16At payload i := by
  rw [Protocol.u16At, Protocol.u16At, index, index, index, index, h.getElem? hi,
    h.getElem? (Nat.le_succ_of_le hi)]

theorem skipQuestions_kept (hsame : SameBody payload payload') (qdcount : Nat) :
    ∀ {offset next : Nat}, (∀ start ∈ questionNames payload qdcount offset, ∀ i,
      ReadsByte payload i start → payload'[i]? = payload[i]?) → 12 ≤ offset →
    skipQuestions payload qdcount offset = .ok next →
      skipQuestions payload' qdcount offset = .ok next ∧ 12 ≤ next := by
  induction qdcount with
  | zero =>
    intro offset next _ hoffset h
    cases h
    exact ⟨rfl, hoffset⟩
  | succ qdcount ih =>
    intro offset next hkept hoffset h
    rw [questionNames] at hkept
    obtain ⟨hfirst, hlater⟩ := List.forall_mem_cons.mp hkept
    rw [skipQuestions] at h
    obtain ⟨⟨nameEnd, name⟩, hname, h⟩ := Run.bind_eq_ok.mp h
    obtain ⟨hname', hend⟩ := readNameInternal_kept hsame.length hfirst hname
    rw [hname] at hlater
    dsimp only at h hend
    split at h
    · cases h
    next hfits =>
    rw [skipQuestions, skipName, hname', Run.ok_bind]
    simp only [hsame.length, if_neg hfits]
    exact ih hlater (by omega) h

theorem parseRecord_kept (hsame : SameBody payload payload') {offset : Nat} {record : ParsedRecord}
    (hkept : ∀ start ∈ recordNames payload offset record, ∀ i, ReadsByte payload i start →
      payload'[i]? = payload[i]?) (hoffset : 12 ≤ offset)
    (h : parseRecord payload offset = .ok record) :
    parseRecord payload' offset = .ok record ∧ 12 ≤ record.nextOffset := by
  obtain ⟨nameEnd, name, recordType, rdlength, hname, htype, hrdlength, hfits⟩ :=
    fixed_of_parseRecord h
  rw [recordNames, hname] at hkept
  obtain ⟨howner, hdata⟩ := List.forall_mem_cons.mp hkept
  obtain ⟨hname', hend⟩ := readNameInternal_kept hsame.length howner hname
  dsimp only at hend hdata
  have htype' := (hsame.u16At (by omega : 12 ≤ nameEnd)).trans htype
  have hrdlength' := (hsame.u16At (by omega : 12 ≤ nameEnd + 8)).trans hrdlength
  rw [parseRecord_of_fixed hname htype hrdlength hfits] at h
  rw [parseRecord_of_fixed hname' htype' hrdlength' (hsame.length.symm ▸ hfits)]
  split at h
  · next hptr =>
    obtain ⟨r, hread, h⟩ := Run.bind_eq_ok.mp h
    cases h
    rw [dataName, if_pos hptr] at hdata
    obtain ⟨hread', -⟩ :=
      readNameInternal_kept hsame.length (hdata _ (List.mem_singleton_self _)) hread
    rw [if_pos hptr, readName, hread']
    exact ⟨rfl, by show 12 ≤ nameEnd + 10 + rdlength; omega⟩
  next hptr =>
  split at h
  · next hsrv =>
    obtain ⟨r, hread, h⟩ := Run.bind_eq_ok.mp h
    cases h
    have hlong : nameEnd + 10 + 7 ≤ nameEnd + 10 + rdlength := Nat.add_le_add_left hsrv.2 _
    rw [dataName, if_neg hptr, if_pos ⟨hsrv.1, hlong⟩] at hdata
    obtain ⟨hread', -⟩ :=
      readNameInternal_kept hsame.length (hdata _ (List.mem_singleton_self _)) hread
    rw [if_neg hptr, if_pos hsrv, readName, hread']
    exact ⟨rfl, by show 12 ≤ nameEnd + 10 + rdlength; omega⟩
  · next hsrv =>
    cases h
    rw [if_neg hptr, if_neg hsrv]
    exact ⟨rfl, by show 12 ≤ nameEnd + 10 + rdlength; omega⟩

theorem RecordsAt.kept (hsame : SameBody payload payload') {offset next : Nat}
    {records : List ParsedRecord} (h : RecordsAt payload offset records next)
    (hkept : ∀ start ∈ recordsNames payload offset records, ∀ i, ReadsByte payload i start →
      payload'[i]? = payload[i]?) (hoffset : 12 ≤ offset) :
    RecordsAt payload' offset records next := by
  induction h with
  | nil offset => exact .nil offset
  | cons hparsed _ ih =>
    rw [recordsNames] at hkept
    obtain ⟨hfirst, hlater⟩ := List.forall_mem_append.mp hkept
    obtain ⟨hparsed', hnext⟩ := parseRecord_kept hsame hfirst hoffset hparsed
    exact .cons hparsed' (ih hlater hnext)

theorem le_of_mem_questionNames (qdcount : Nat) : ∀ {offset start : Nat},
    start ∈ questionNames payload qdcount offset → offset ≤ start := by
  induction qdcount with
  | zero => intro offset start h; cases h
  | succ qdcount ih =>
    intro offset start h
    rw [questionNames] at h
    rcases List.mem_cons.mp h with rfl | h
    · exact le_refl _
    · rcases readNameInternal_bounds payload offset false with hnone | ⟨e, name, hok, hlt, -⟩
      · rw [skipName, hnone] at h
        cases h
      · rw [skipName, hok] at h
        have hle := ih h
        omega

theorem le_of_mem_recordNames {offset start : Nat} {record : ParsedRecord}
    (h : start ∈ recordNames payload offset record) : offset ≤ start := by
  rw [recordNames] at h
  rcases List.mem_cons.mp h with rfl | h
  · exact le_refl _
  · rcases readNameInternal_bounds payload offset true with hnone | ⟨e, name, hok, hlt, -⟩
    · rw [readName, hnone] at h
      cases h
    · rw [readName, hok] at h
      dsimp only at h
      rw [dataName] at h
      split at h
      · rw [List.mem_singleton.mp h]
        omega
      · split at h
        · rw [List.mem_singleton.mp h]
          omega
        · cases h

theorem RecordsAt.le_of_mem {offset next start : Nat} {records : List ParsedRecord}
    (h : RecordsAt payload offset records next) (hmem : start ∈ recordsNames payload offset records) :
    offset ≤ start := by
  induction h with
  | nil offset => cases hmem
  | @cons offset next record records hparsed _ ih =>
    rw [recordsNames] at hmem
    rcases List.mem_append.mp hmem with hmem | hmem
    · exact le_of_mem_recordNames hmem
    · have hle := ih hmem
      rcases parseRecord_cases payload offset with hnone | ⟨record', hok, hlt, -⟩
      · rw [hnone] at hparsed
        cases hparsed
      · rw [hok] at hparsed
        cases hparsed
        omega

/-- **Names are kept** where no pointer of a name that is read leads into the header. -/
theorem namesKept_of_pointers (hsame : SameBody payload payload') {qdcount count : Nat}
    {records : List ParsedRecord} {whole : Bool}
    (hread : Reading payload qdcount count records whole)
    (hquestions : ∀ start ∈ questionNames payload qdcount 12, PointsBehind payload 12 start)
    (hrecords : ∀ offset, skipQuestions payload qdcount 12 = .ok offset →
      ∀ start ∈ recordsNames payload offset records, PointsBehind payload 12 start) :
    NamesKept payload payload' qdcount records := by
  obtain ⟨offset, next, hskip, hparsed⟩ : ∃ offset next,
      skipQuestions payload qdcount 12 = .ok offset ∧ RecordsAt payload offset records next := by
    cases hread with
    | whole hquestions hparsed _ => exact ⟨_, _, hquestions, hparsed⟩
    | cut hquestions hparsed _ _ => exact ⟨_, _, hquestions, hparsed⟩
  have hquestionNames : ∀ start ∈ questionNames payload qdcount 12, ∀ i,
      ReadsByte payload i start → payload'[i]? = payload[i]? := fun start hstart i hi =>
    hsame.getElem? (le_of_readsByte (hquestions start hstart) hi
      (le_of_mem_questionNames qdcount hstart))
  refine ⟨hquestionNames, fun offset' hoffset' start hstart i hi => ?_⟩
  rw [hskip] at hoffset'
  cases hoffset'
  obtain ⟨-, hoffset⟩ := skipQuestions_kept hsame qdcount hquestionNames (le_refl 12) hskip
  exact hsame.getElem? (le_of_readsByte (hrecords offset hskip start hstart) hi
    (hoffset.trans (hparsed.le_of_mem hstart)))

end Bodies

/-! ### A message that is cut short -/

section Cut

variable {payload : List UInt8} {qdcount ancount nscount arcount ancount' nscount' arcount' : Nat}
  {records : List ParsedRecord}

theorem exitOf_cut_eq_whole_iff (records : List ParsedRecord) :
    exitOf records false = exitOf records true ↔ ¬HalfPtr records := by
  by_cases hsilent : Silent records
  · rw [(exitOf_eq_none_iff records false).mpr ⟨hsilent, fun hf => by cases hf⟩, eq_comm,
      exitOf_eq_none_iff, HalfPtr, not_and, not_not]
    exact ⟨fun h _ => h.2 rfl, fun h => ⟨hsilent, fun _ => h hsilent⟩⟩
  · rw [exitOf_of_not_silent hsilent, exitOf_of_not_silent hsilent]
    exact ⟨fun _ h => hsilent h.1, fun _ => rfl⟩

/-- **A message that is cut short against the same message with its good records alone.**
Where the names of the good records are kept, the two return the same exactly when the good
records do not give a service type alone. -/
theorem parseMdns_lowered_iff (h : HeaderIs payload qdcount ancount nscount arcount)
    (hread : Reading payload qdcount (ancount + nscount + arcount) records false)
    (han : ancount' ≤ ancount) (hns : nscount' ≤ nscount) (har : arcount' ≤ arcount)
    (hsum : ancount' + nscount' + arcount' = records.length)
    (hkept : NamesKept payload (withCounts payload ancount' nscount' arcount') qdcount records) :
    parseMdns payload = parseMdns (withCounts payload ancount' nscount' arcount') ↔
      ¬HalfPtr records := by
  have h' := h.withCounts han hns har
  have hsame : SameBody payload (withCounts payload ancount' nscount' arcount') :=
    ⟨length_withCounts h.long _ _ _, (drop_withCounts h.long _ _ _).2⟩
  have hread' : Reading (withCounts payload ancount' nscount' arcount') qdcount
      (ancount' + nscount' + arcount') records true := by
    cases hread with
    | @cut offset _ _ hquestions hparsed _ _ =>
      obtain ⟨hquestions', hoffset⟩ :=
        skipQuestions_kept hsame qdcount hkept.questions (le_refl 12) hquestions
      exact .whole hquestions' (hparsed.kept hsame (hkept.records offset hquestions) hoffset)
        hsum.symm
  rw [parseMdns_of_reading h hread, parseMdns_of_reading h' hread', exitOf_cut_eq_whole_iff]

end Cut

/-! ### A PTR record without an instance name -/

/-- A message that announces answers: a PTR record of `x` with its data, and nothing
behind. -/
def ptrMessage (ancount : UInt8) (data : List UInt8) : List UInt8 :=
  [0, 0, 0, 0, 0, 0, 0, ancount, 0, 0, 0, 0, 1, 120, 0, 0, 12, 0, 1, 0, 0, 0, 0, 0,
    UInt8.ofNat data.length] ++ data

theorem parseRecord_ptrMessage {ancount : UInt8} {data : List UInt8} {e : Nat}
    {name : Option String} (hlt : data.length < 256)
    (hread : readName (ptrMessage ancount data) 25 = .ok (e, name)) :
    parseRecord (ptrMessage ancount data) 12 =
      .ok ⟨some "x", 12, 25 + data.length, none, name⟩ := by
  have hlength : (ptrMessage ancount data).length = 25 + data.length := by
    rw [ptrMessage, List.length_append]
    rfl
  have hlen : (ptrMessage ancount data)[12]? = some 1 := rfl
  have hx : WireName (ptrMessage ancount data) 12 12 0 15 [[120]] :=
    .label hlen (by decide) (by decide) (by rw [hlength]; show 14 ≤ _; omega) (.root rfl)
  have howner : readName (ptrMessage ancount data) 12 = .ok (15, some "x") :=
    hx.readNameLoop_eq (by decide) (by decide +kernel) none
  have htype : u16At (ptrMessage ancount data) 15 = .ok recordTypePtr := rfl
  have hrdlength : u16At (ptrMessage ancount data) (15 + 8) = .ok data.length := by
    show Except.ok (0 * 256 + (UInt8.ofNat data.length).toNat) = _
    rw [Nat.zero_mul, Nat.zero_add, toNat_ofNat_of_lt hlt]
  rw [parseRecord_of_fixed howner htype hrdlength (by omega), if_pos rfl, hread]
  rfl

theorem reading_ptrMessage {ancount : UInt8} {data : List UInt8} {e : Nat}
    {name : Option String} (hlt : data.length < 256)
    (hread : readName (ptrMessage ancount data) 25 = .ok (e, name)) :
    Reading (ptrMessage ancount data) 0 1
        [⟨some "x", 12, 25 + data.length, none, name⟩] true ∧
      Reading (ptrMessage ancount data) 0 2
        [⟨some "x", 12, 25 + data.length, none, name⟩] false := by
  have hparsed := RecordsAt.cons (parseRecord_ptrMessage hlt hread) (.nil _)
  have hbad : parseRecord (ptrMessage ancount data) (25 + data.length) = Run.none := by
    have hend : (ptrMessage ancount data).length ≤ 25 + data.length := by
      rw [ptrMessage, List.length_append]
      exact le_refl _
    rw [parseRecord, readName, readNameInternal, readNameLoop_of_le hend]
    rfl
  exact ⟨.whole rfl hparsed rfl, .cut rfl hparsed hbad Nat.one_lt_two⟩

theorem headerIs_ptrMessage (ancount : UInt8) (data : List UInt8) :
    HeaderIs (ptrMessage ancount data) 0 ancount.toNat 0 0 := by
  refine ⟨?_, rfl, ?_, rfl, rfl⟩
  · rw [ptrMessage, List.length_append]
    exact Nat.le_add_right_of_le (by show 12 ≤ 25; decide)
  · show Except.ok (0 * 256 + ancount.toNat) = _
    rw [Nat.zero_mul, Nat.zero_add]

/-- With an instance name, the message that is cut short returns what the lowered one
does. -/
theorem parseMdns_lowered_instance :
    parseMdns (ptrMessage 2 [1, 97, 0]) = parseMdns (withCounts (ptrMessage 2 [1, 97, 0]) 1 0 0) := by
  have hlen : (ptrMessage 2 [1, 97, 0])[25]? = some 1 := rfl
  have hname : WireName (ptrMessage 2 [1, 97, 0]) 25 25 0 28 [[97]] :=
    .label hlen (by decide) (by decide) (by decide) (.root rfl)
  have hread : readName (ptrMessage 2 [1, 97, 0]) 25 = .ok (28, some "a") :=
    hname.readNameLoop_eq (by decide) (by decide +kernel) none
  have hread' : Reading (ptrMessage 2 [1, 97, 0]) 0 2 [⟨some "x", 12, 28, none, some "a"⟩] false :=
    (reading_ptrMessage (by decide) hread).2
  have hsame : SameBody (ptrMessage 2 [1, 97, 0]) (withCounts (ptrMessage 2 [1, 97, 0]) 1 0 0) :=
    ⟨rfl, rfl⟩
  have hkept : NamesKept (ptrMessage 2 [1, 97, 0]) (withCounts (ptrMessage 2 [1, 97, 0]) 1 0 0) 0
      [⟨some "x", 12, 28, none, some "a"⟩] := by
    have hplain : ∀ b ∈ ptrMessage 2 [1, 97, 0], b &&& 0xC0 ≠ 0xC0 := by decide +kernel
    have hbehind : ∀ start, PointsBehind (ptrMessage 2 [1, 97, 0]) 12 start :=
      fun start j len low _ hlen hmark => absurd hmark (hplain len (List.mem_of_getElem? hlen))
    exact namesKept_of_pointers hsame hread' (fun start _ => hbehind start)
      fun _ _ start _ => hbehind start
  refine (parseMdns_lowered_iff (headerIs_ptrMessage 2 [1, 97, 0]) hread' (by decide) (le_refl 0)
    (le_refl 0) rfl hkept).mpr ?_
  rintro ⟨⟨-, hptr⟩, -⟩
  exact absurd (hptr _ List.mem_cons_self rfl) (Option.some_ne_none "a")

/-- **A missing record hides the service type**: with the root for its data, the PTR record
of `x` gives a service type where one answer is announced, and nothing where a second one
is announced and missing. -/
theorem truncation_hides_service :
    parseMdns (ptrMessage 2 [0]) = Run.none ∧
      parseMdns (withCounts (ptrMessage 2 [0]) 1 0 0) = .ok ⟨none, none, some "x"⟩ ∧
      ¬∀ payload qdcount ancount nscount arcount ancount' nscount' arcount' records,
        HeaderIs payload qdcount ancount nscount arcount →
        Reading payload qdcount (ancount + nscount + arcount) records false →
        ancount' ≤ ancount → nscount' ≤ nscount → arcount' ≤ arcount →
        ancount' + nscount' + arcount' = records.length →
          parseMdns payload = parseMdns (withCounts payload ancount' nscount' arcount') := by
  have hroot : ∀ ancount, readName (ptrMessage ancount [0]) 25 = .ok (26, none) := by
    intro ancount
    have hname : WireName (ptrMessage ancount [0]) 25 25 0 26 [] := .root rfl
    exact hname.readNameLoop_eq (by decide) (by decide) none
  have hcut := (reading_ptrMessage (by decide) (hroot 2)).2
  have hnone : parseMdns (ptrMessage 2 [0]) = Run.none :=
    parseMdns_of_reading (headerIs_ptrMessage 2 [0]) hcut
  have hsome : parseMdns (withCounts (ptrMessage 2 [0]) 1 0 0) = .ok ⟨none, none, some "x"⟩ :=
    parseMdns_of_reading (headerIs_ptrMessage 1 [0]) (reading_ptrMessage (by decide) (hroot 1)).1
  refine ⟨hnone, hsome, fun hall => ?_⟩
  have h := hall _ _ _ _ _ 1 0 0 _ (headerIs_ptrMessage 2 [0]) hcut (by decide) (le_refl 0)
    (le_refl 0) rfl
  rw [hnone, hsome] at h
  cases h

/-! ### A name in the counts -/

/-- A message that announces 353 answers: an SRV record whose target is a pointer to that
count, which reads as the label `a`, and nothing behind. -/
def srvMessage : List UInt8 :=
  [0, 0, 0, 0, 0, 0, 1, 97, 0, 0, 0, 0, 0, 0, 33, 0, 1, 0, 0, 0, 0, 0, 8, 0, 0, 0, 0, 0, 0,
    0xC0, 6]

/-- **Lowering the counts renames**: with one answer announced, the target is the root.  So the
two messages differ, though the record gives a name. -/
theorem lowered_renames :
    parseMdns srvMessage = .ok ⟨some "a", none, none⟩ ∧
      parseMdns (withCounts srvMessage 1 0 0) = Run.none := by
  have hlen : srvMessage[6]? = some 1 := rfl
  have hhigh : srvMessage[29]? = some 0xC0 := rfl
  have hlow : srvMessage[30]? = some 6 := rfl
  have hhigh' : (withCounts srvMessage 1 0 0)[29]? = some 0xC0 := rfl
  have hlow' : (withCounts srvMessage 1 0 0)[30]? = some 6 := rfl
  have hname : WireName srvMessage 29 29 1 31 [[97]] :=
    .pointer hhigh (by decide) hlow (by decide)
      (.label hlen (by decide) (by decide) (by decide) (.root rfl))
  have hname' : WireName (withCounts srvMessage 1 0 0) 29 29 1 31 [] :=
    .pointer hhigh' (by decide) hlow' (by decide) (.root rfl)
  have howner : readName srvMessage 12 = .ok (13, none) :=
    readNameLoop_of_zero rfl
  have howner' : readName (withCounts srvMessage 1 0 0) 12 = .ok (13, none) :=
    readNameLoop_of_zero rfl
  have htarget : readName srvMessage 29 = .ok (31, some "a") :=
    hname.readNameLoop_eq (by decide) (by decide +kernel) none
  have htarget' : readName (withCounts srvMessage 1 0 0) 29 = .ok (31, none) :=
    hname'.readNameLoop_eq (by decide) (by decide) none
  have hrecord : parseRecord srvMessage 12 = .ok ⟨none, 33, 31, some "a", none⟩ := by
    have htype : u16At srvMessage 13 = .ok recordTypeSrv := rfl
    have hrdlength : u16At srvMessage (13 + 8) = .ok 8 := rfl
    rw [parseRecord_of_fixed howner htype hrdlength (by decide), if_neg (by decide),
      if_pos (by decide), htarget]
    rfl
  have hrecord' : parseRecord (withCounts srvMessage 1 0 0) 12 =
      .ok ⟨none, 33, 31, none, none⟩ := by
    have htype : u16At (withCounts srvMessage 1 0 0) 13 = .ok recordTypeSrv := rfl
    have hrdlength : u16At (withCounts srvMessage 1 0 0) (13 + 8) = .ok 8 := rfl
    rw [parseRecord_of_fixed howner' htype hrdlength (by decide), if_neg (by decide),
      if_pos (by decide), htarget']
    rfl
  have hbad : parseRecord srvMessage 31 = Run.none := by
    rw [parseRecord, readName, readNameInternal, readNameLoop_of_le (by decide)]
    rfl
  have hcut : Reading srvMessage 0 353 [⟨none, 33, 31, some "a", none⟩] false :=
    .cut rfl (.cons hrecord (.nil _)) hbad (by decide)
  have hwhole : Reading (withCounts srvMessage 1 0 0) 0 1 [⟨none, 33, 31, none, none⟩] true :=
    .whole rfl (.cons hrecord' (.nil _)) rfl
  have hheader : HeaderIs srvMessage 0 353 0 0 := ⟨by decide, rfl, rfl, rfl, rfl⟩
  have hheader' : HeaderIs (withCounts srvMessage 1 0 0) 0 1 0 0 := ⟨by decide, rfl, rfl, rfl, rfl⟩
  exact ⟨parseMdns_of_reading hheader hcut, parseMdns_of_reading hheader' hwhole⟩

end EdgeShield.Protocol
