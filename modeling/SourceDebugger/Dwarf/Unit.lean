import SourceDebugger.Dwarf.Attribute
import SourceDebugger.Text.Utf8
/-!
Units of debugging information. A unit is a tree of entries; its root says where the unit's texts,
addresses and statements are found in the other sections.
-/
namespace SourceDebugger.Dwarf

/-- The sections that hold debugging information. -/
structure Sections where
  info : Bytes
  abbreviations : Bytes
  str : Bytes
  lineStr : Bytes
  strOffsets : Bytes
  addr : Bytes
  aranges : Bytes
  line : Bytes
  ranges : Bytes
  rnglists : Bytes
  deriving Inhabited

inductive UnitKind where
  | compilation
  /-- Referred to by other units, without code of its own. -/
  | fragment
  | type
  deriving DecidableEq, Repr, Inhabited

structure UnitHeader where
  /-- Where the unit begins in its section. -/
  offset : Nat
  kind : UnitKind
  encoding : Encoding
  abbrevOffset : Nat
  /-- Where the unit's first entry is, counted from the beginning of the unit. -/
  entriesOffset : Nat
  /-- The whole unit. -/
  bytes : Bytes
  deriving Inhabited

/-- The number of bytes of a part of a section, which must be written in 32 bits. -/
def partLength : Reading Nat := do
  let n ← Reading.number 4
  Reading.require (n < 0xfffffff0)
  return n

/-- What stands in a unit's header behind its general part. -/
def unitKind : Nat → Reading UnitKind
  | 1 => return .compilation
  | 3 => return .fragment
  | 4 | 5 => do
    Reading.skip 8
    return .compilation
  | 2 | 6 => do
    Reading.skip 12
    return .type
  | _ => Reading.malformed

/-- Version, and in an order that depends on it the place of the abbreviations, the size of
addresses and the kind of unit. -/
def unitFields : Reading (Encoding × Nat × UnitKind) := do
  let version ← Reading.number 2
  if 2 ≤ version ∧ version ≤ 4 then
    let abbrevOffset ← Reading.number 4
    return (⟨version, ← addressSize⟩, abbrevOffset, .compilation)
  Reading.require (version == 5)
  let kind ← Reading.number 1
  let size ← addressSize
  let abbrevOffset ← Reading.number 4
  return (⟨version, size⟩, abbrevOffset, ← unitKind kind)

def unitHeader : Reading UnitHeader := do
  let start ← get
  let length ← partLength
  let _ ← Reading.bytes length
  let bytes := start.rest.take (length + 4)
  let ((encoding, abbrevOffset, kind), c) ← Reading.ofOption (unitFields.run ⟨4, bytes.drop 4⟩)
  return ⟨start.position, kind, encoding, abbrevOffset, c.position, bytes⟩

/-- All units of a section, up to its end. -/
def unitHeaders : Nat → Reading (List UnitHeader)
  | 0 => Reading.malformed
  | n + 1 => do
    if ← Reading.atEnd then return []
    return (← unitHeader) :: (← unitHeaders n)

/-- An entry without its children. -/
structure Entry where
  offset : Nat
  tag : Tag
  hasChildren : Bool
  attributes : List (AttributeName × AttributeValue)
  deriving Repr, Inhabited

/-- The value of the first attribute with a name. -/
def Entry.find? (e : Entry) (key : AttributeName) : Option AttributeValue :=
  e.attributes.lookup key

/-- What the entries of a unit are read with. -/
structure UnitReader where
  header : UnitHeader
  abbreviations : List Abbreviation
  deriving Inhabited

def readerFor? (s : Sections) (h : UnitHeader) : Option UnitReader := do
  let bytes ← s.abbreviations.after? h.abbrevOffset
  some ⟨h, ← Reading.from? bytes (abbreviations (bytes.length + 1))⟩

namespace UnitReader

/-- Reads an entry; none is the mark after an entry's last child. -/
def entry (u : UnitReader) : Reading (Option Entry) := do
  let offset ← Reading.position
  let code ← Reading.unsigned
  if code = 0 then return none
  let a ← Reading.ofOption (u.abbreviations.find? (·.code = code))
  let attributes ← a.attributes.mapM (readAttribute u.header.encoding)
  return some ⟨offset, a.tag, a.hasChildren, attributes⟩

/-- The place of an entry, which lies behind the header. -/
def cursorAt? (u : UnitReader) (offset : Nat) : Option Cursor :=
  if u.header.entriesOffset ≤ offset ∧ offset < u.header.bytes.length then
    some ⟨offset, u.header.bytes.drop offset⟩
  else none

/-- The entry at an offset, and the place behind it. -/
def entryAt? (u : UnitReader) (offset : Nat) : Option (Entry × Cursor) := do
  match ← u.entry.run (← u.cursorAt? offset) with
  | (some e, c) => some (e, c)
  | (none, _) => none

end UnitReader

/-- A unit with what its root says about the other sections. -/
structure DebugUnit where
  reader : UnitReader
  root : Entry
  stringOffsetsBase : Nat
  addressBase : Nat
  rangeListsBase : Nat
  deriving Inhabited

namespace DebugUnit

def encoding (u : DebugUnit) : Encoding := u.reader.header.encoding

/-- The last offset that an attribute of the root gives, or 0. -/
def baseIn (root : Entry) (key : AttributeName) : Nat :=
  root.attributes.foldl (fun base (n, v) => match v with
    | .sectionOffset offset => if n = key then offset else base
    | _ => base) 0

def ofReader? (reader : UnitReader) : Option DebugUnit := do
  let (root, _) ← reader.entryAt? reader.header.entriesOffset
  some { reader, root
         stringOffsetsBase := baseIn root .stringOffsetsBase
         addressBase := baseIn root .addressBase
         rangeListsBase := baseIn root .rangeListsBase }

/-- The last value that the root gives an attribute. -/
def rootValue? (u : DebugUnit) (key : AttributeName) : Option AttributeValue :=
  u.root.attributes.reverse.lookup key

def textIn? (data : Bytes) (offset : Nat) : Option Bytes := do
  Reading.from? (← data.after? offset) Reading.text

/-- The text that an attribute's value stands for. -/
def text? (s : Sections) (u : DebugUnit) : AttributeValue → Option Bytes
  | .text bytes => some bytes
  | .textAt offset => textIn? s.str offset
  | .lineTextAt offset => textIn? s.lineStr offset
  | .textIndex n => do
    let entry ← s.strOffsets.after? (u.stringOffsetsBase + 4 * n)
    textIn? s.str (← Reading.from? entry (Reading.number 4))
  | _ => none

/-- An address in the unit's table of addresses. -/
def indexedAddress? (s : Sections) (u : DebugUnit) (n : Nat) : Option UInt64 := do
  let entry ← s.addr.after? (u.addressBase + u.encoding.addressSize * n)
  Reading.from? entry u.encoding.address

/-- The address that a value stands for; a value that is no address at all gives `some none`. -/
def address? (s : Sections) (u : DebugUnit) : AttributeValue → Option (Option UInt64)
  | .address a => some (some a)
  | .addressIndex n => (u.indexedAddress? s n).map some
  | _ => some none

/-- The name of an entry. It may have none, but one that cannot be read is malformed. -/
def name? (s : Sections) (u : DebugUnit) (e : Entry) : Option (Option String) :=
  match e.find? .name with
  | none => some none
  | some v => (u.text? s v).map fun bytes => some (Text.ofUtf8Lossy bytes)

end DebugUnit

end SourceDebugger.Dwarf
