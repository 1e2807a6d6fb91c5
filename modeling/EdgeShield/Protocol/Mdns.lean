import EdgeShield.Lib.Bytes

/-!
# mDNS parsing

`crates/protocol/src/mdns.rs`: the DNS wire format as the daemon reads it.  Names
are label sequences with compression pointers (`readNameInternal`), a record is a
name, ten fixed bytes and its data (`parseRecord`), and `parseMdns` walks the
questions and the three record sections, keeping the first SRV target and the
first PTR name.

A function that returns an `Option` is a `Run Unit`: `None` is `Run.none`, `?` is
the bind, and every index and slice is a checked read.  The name loop ends because
each pointer uses up one of ten jumps and each label moves forward.
-/

namespace EdgeShield.Protocol

open EdgeShield.Lib

/-- `u16::from_be_bytes([payload[i], payload[i + 1]])`. -/
def u16At (payload : List UInt8) (i : Nat) : Run Unit Nat := do
  let hi ← index payload i
  let lo ← index payload (i + 1)
  return hi.toNat * 256 + lo.toNat

structure MdnsInfo where
  hostname : Option String
  instanceName : Option String
  serviceType : Option String
  deriving DecidableEq, Repr

def recordTypePtr : Nat := 12
def recordTypeSrv : Nat := 33

/-! ### Names -/

/-- The loop of `read_name_internal`.  `endOffset` is the end of the name once a
pointer has been followed. -/
def readNameLoop (payload : List UInt8) (originalOffset : Nat) (collect : Bool)
    (offset jumps : Nat) (endOffset : Option Nat) (labels : List String) :
    Run Unit (Nat × Option String) :=
  if _h : payload.length ≤ offset then Run.none
  else do
    let len ← index payload offset
    -- compression pointer: top two bits set
    if len &&& 0xC0 = 0xC0 then
      if payload.length ≤ offset + 1 then Run.none
      else
        let low ← index payload (offset + 1)
        let pointer := (len &&& 0x3F).toNat * 256 + low.toNat
        let endOffset := endOffset.or (some (offset + 2))
        if _hj : 10 < jumps + 1 ∨ originalOffset ≤ pointer then Run.none
        else readNameLoop payload originalOffset collect pointer (jumps + 1) endOffset labels
    else if len = 0 then
      return (endOffset.getD (offset + 1),
        if collect ∧ labels ≠ [] then some (".".intercalate labels) else none)
    else
      let labelEnd := offset + 1 + len.toNat
      if payload.length < labelEnd then Run.none
      else if collect then
        match fromUtf8 (← slice payload (offset + 1) labelEnd) with
        | some s =>
          readNameLoop payload originalOffset collect labelEnd jumps endOffset (labels ++ [s])
        | none => Run.none
      else readNameLoop payload originalOffset collect labelEnd jumps endOffset labels
termination_by (11 - jumps, payload.length - offset)

def readNameInternal (payload : List UInt8) (offset : Nat) (collect : Bool) :
    Run Unit (Nat × Option String) :=
  readNameLoop payload offset collect offset 0 none []

def skipName (payload : List UInt8) (offset : Nat) : Run Unit (Nat × Option String) :=
  readNameInternal payload offset false

def readName (payload : List UInt8) (offset : Nat) : Run Unit (Nat × Option String) :=
  readNameInternal payload offset true

/-! ### Records -/

structure ParsedRecord where
  name : Option String
  recordType : Nat
  nextOffset : Nat
  srvTarget : Option String
  ptrRdata : Option String
  deriving DecidableEq, Repr

def parseRecord (payload : List UInt8) (offset : Nat) : Run Unit ParsedRecord := do
  let (nameEnd, name) ← readName payload offset
  -- type (2), class (2), ttl (4), rdlength (2)
  if payload.length < nameEnd + 10 then Run.none
  else
    let recordType ← u16At payload nameEnd
    let rdlength ← u16At payload (nameEnd + 8)
    let rdataStart := nameEnd + 10
    if payload.length < rdataStart + rdlength then Run.none
    else
      let nextOffset := rdataStart + rdlength
      let rdata ← slice payload rdataStart (rdataStart + rdlength)
      if recordType = recordTypePtr then
        let (_, rdataName) ← readName payload rdataStart
        return { name, recordType, nextOffset, srvTarget := none, ptrRdata := rdataName }
      else if recordType = recordTypeSrv ∧ 7 ≤ rdata.length then
        let (_, target) ← readName payload (rdataStart + 6)
        return { name, recordType, nextOffset, srvTarget := target, ptrRdata := none }
      else
        return { name, recordType, nextOffset, srvTarget := none, ptrRdata := none }

/-! ### Messages -/

def skipQuestions (payload : List UInt8) : Nat → Nat → Run Unit Nat
  | 0, offset => return offset
  | qdcount + 1, offset => do
    let (nameEnd, _) ← skipName payload offset
    if payload.length < nameEnd + 4 then Run.none
    else skipQuestions payload qdcount (nameEnd + 4)

/-- What one record adds: the first SRV target, the first PTR name. -/
def MdnsInfo.addRecord (info : MdnsInfo) (record : ParsedRecord) : MdnsInfo :=
  let info :=
    match record.srvTarget with
    | some target =>
      if info.hostname.isNone ∧ record.recordType = recordTypeSrv then
        { info with hostname := some target }
      else info
    | none => info
  if info.instanceName.isNone ∧ record.recordType = recordTypePtr then
    { info with instanceName := record.ptrRdata, serviceType := record.name }
  else info

/-- How the walk over one section ends: at its last record, or at a record that
does not parse. -/
inductive Walk where
  | next (offset : Nat) (info : MdnsInfo)
  | stop (info : MdnsInfo)
  deriving DecidableEq, Repr

def walkSection (payload : List UInt8) : Nat → Nat → MdnsInfo → Run Unit Walk
  | 0, offset, info => return .next offset info
  | count + 1, offset, info => do
    match ← Run.toOption (parseRecord payload offset) with
    | none => return .stop info
    | some record => walkSection payload count record.nextOffset (info.addRecord record)

def walkSections (payload : List UInt8) : List Nat → Nat → MdnsInfo → Run Unit Walk
  | [], offset, info => return .next offset info
  | count :: counts, offset, info => do
    match ← walkSection payload count offset info with
    | .next offset info => walkSections payload counts offset info
    | .stop info => return .stop info

def parseMdns (payload : List UInt8) : Run Unit MdnsInfo := do
  if payload.length < 12 then Run.none
  else
    let qdcount ← u16At payload 4
    let ancount ← u16At payload 6
    let nscount ← u16At payload 8
    let arcount ← u16At payload 10
    let offset ← skipQuestions payload qdcount 12
    match ← walkSections payload [ancount, nscount, arcount] offset ⟨none, none, none⟩ with
    | .stop info =>
      if info.hostname.isSome ∨ info.instanceName.isSome then return info else Run.none
    | .next _ info =>
      if info.hostname.isNone ∧ info.instanceName.isNone ∧ info.serviceType.isNone then Run.none
      else return info

end EdgeShield.Protocol
