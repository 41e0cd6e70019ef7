import SourceDebugger.Memory.Cursor
/-!
Attributes of debugging entries in the format DWARF: a name, which says what the value means, and a
form, which says how it is written. Values that say the same in different forms are one value
here.
-/
namespace SourceDebugger.Dwarf

inductive Tag where
  | formalParameter
  | lexicalBlock
  | member
  | pointerType
  | referenceType
  | structureType
  | typedef
  | baseType
  | constType
  | subprogram
  | variable
  | volatileType
  | other (code : Nat)
  deriving DecidableEq, Repr, Inhabited

def Tag.ofCode : Nat → Tag
  | 0x05 => .formalParameter
  | 0x0b => .lexicalBlock
  | 0x0d => .member
  | 0x0f => .pointerType
  | 0x10 => .referenceType
  | 0x13 => .structureType
  | 0x16 => .typedef
  | 0x24 => .baseType
  | 0x26 => .constType
  | 0x2e => .subprogram
  | 0x34 => .variable
  | 0x35 => .volatileType
  | code => .other code

inductive AttributeName where
  | sibling
  | location
  | name
  | byteSize
  | statements
  | lowPc
  | highPc
  | directory
  | abstractOrigin
  | encoding
  | frameBase
  | specification
  | type
  | ranges
  | stringOffsetsBase
  | addressBase
  | rangeListsBase
  | other (code : Nat)
  deriving DecidableEq, Repr, Inhabited

def AttributeName.ofCode : Nat → AttributeName
  | 0x01 => .sibling
  | 0x02 => .location
  | 0x03 => .name
  | 0x0b => .byteSize
  | 0x10 => .statements
  | 0x11 => .lowPc
  | 0x12 => .highPc
  | 0x1b => .directory
  | 0x31 => .abstractOrigin
  | 0x3e => .encoding
  | 0x40 => .frameBase
  | 0x47 => .specification
  | 0x49 => .type
  | 0x55 => .ranges
  | 0x72 => .stringOffsetsBase
  | 0x73 | 0x2133 => .addressBase
  | 0x74 | 0x2132 => .rangeListsBase
  | code => .other code

inductive AttributeValue where
  | address (a : UInt64)
  /-- A position in the unit's table of addresses. -/
  | addressIndex (n : Nat)
  /-- An expression, or other bytes. -/
  | block (bytes : Bytes)
  | unsigned (n : Nat)
  | signed (n : Int)
  | sectionOffset (n : Nat)
  | text (bytes : Bytes)
  | textAt (offset : Nat)
  | lineTextAt (offset : Nat)
  /-- A position in the unit's table of texts. -/
  | textIndex (n : Nat)
  /-- Another entry of the unit, by its offset. -/
  | entry (offset : Nat)
  /-- A position in the unit's table of range lists. -/
  | rangesIndex (n : Nat)
  | other
  deriving Repr, Inhabited

/-- A number that is not negative. -/
def AttributeValue.natural? : AttributeValue → Option Nat
  | .unsigned n => some n
  | .signed n => if n < 0 then none else some n.toNat
  | _ => none

/-- How the numbers of a unit are written. -/
structure Encoding where
  version : Nat
  addressSize : Nat
  deriving Repr, Inhabited

def Encoding.address (e : Encoding) : Reading UInt64 := do
  return UInt64.ofNat (← Reading.number e.addressSize)

/-- The greatest address. -/
def Encoding.maxAddress (e : Encoding) : UInt64 := UInt64.ofNat (256 ^ e.addressSize - 1)

/-- An address size that is in use. -/
def addressSize : Reading Nat := do
  let n ← Reading.number 1
  Reading.require (n == 1 || n == 2 || n == 4 || n == 8)
  return n

/-- Bytes after their number, which is itself read as given. -/
def counted (count : Reading Nat) : Reading Bytes := do Reading.bytes (← count)

/-- Reads a value by its form. The constant of a form that has its value in the abbreviation is
given, and how often a form may say that the form itself comes first. -/
def value (e : Encoding) (constant : Option Int) : (detours form : Nat) → Reading AttributeValue
  | _, 0x01 => return .address (← e.address)
  | _, 0x03 => return .block (← counted (Reading.number 2))
  | _, 0x04 => return .block (← counted (Reading.number 4))
  | _, 0x05 => return .unsigned (← Reading.number 2)
  | _, 0x06 => return .unsigned (← Reading.number 4)
  | _, 0x07 => return .unsigned (← Reading.number 8)
  | _, 0x08 => return .text (← Reading.text)
  | _, 0x09 | _, 0x18 => return .block (← counted Reading.unsigned)
  | _, 0x0a => return .block (← counted (Reading.number 1))
  | _, 0x0b => return .unsigned (← Reading.number 1)
  | _, 0x0c => skipped 1
  | _, 0x0d => return .signed (← Reading.signed)
  | _, 0x0e => return .textAt (← Reading.number 4)
  | _, 0x0f => return .unsigned (← Reading.unsigned)
  | _, 0x10 => skipped (if e.version = 2 then e.addressSize else 4)
  | _, 0x11 => return .entry (← Reading.number 1)
  | _, 0x12 => return .entry (← Reading.number 2)
  | _, 0x13 => return .entry (← Reading.number 4)
  | _, 0x14 => return .entry (← Reading.number 8)
  | _, 0x15 => return .entry (← Reading.unsigned)
  | detours + 1, 0x16 => do value e constant detours (← Reading.unsigned16)
  | _, 0x17 => return .sectionOffset (← Reading.number 4)
  | _, 0x19 => return .other
  | _, 0x1a | _, 0x1f02 => return .textIndex (← Reading.unsigned)
  | _, 0x1b | _, 0x1f01 => return .addressIndex (← Reading.unsigned)
  | _, 0x1c | _, 0x1d | _, 0x1f20 | _, 0x1f21 => skipped 4
  | _, 0x1e => return .block (← Reading.bytes 16)
  | _, 0x1f => return .lineTextAt (← Reading.number 4)
  | _, 0x20 | _, 0x24 => skipped 8
  | _, 0x21 => return .signed (← Reading.ofOption constant)
  | _, 0x22 => do
    let _ ← Reading.unsigned
    return .other
  | _, 0x23 => return .rangesIndex (← Reading.unsigned)
  | _, 0x25 => return .textIndex (← Reading.number 1)
  | _, 0x26 => return .textIndex (← Reading.number 2)
  | _, 0x27 => return .textIndex (← Reading.number 3)
  | _, 0x28 => return .textIndex (← Reading.number 4)
  | _, 0x29 => return .addressIndex (← Reading.number 1)
  | _, 0x2a => return .addressIndex (← Reading.number 2)
  | _, 0x2b => return .addressIndex (← Reading.number 3)
  | _, 0x2c => return .addressIndex (← Reading.number 4)
  | _, _ => Reading.malformed
where
  skipped (n : Nat) : Reading AttributeValue := do
    Reading.skip n
    return .other

/-- What an abbreviation says about one attribute. -/
structure AttributeSpec where
  name : AttributeName
  form : Nat
  constant : Option Int
  deriving Repr, Inhabited

/-- Older versions write offsets into other sections as plain numbers. -/
def AttributeSpec.offsetsAreNumbers (s : AttributeSpec) (e : Encoding) : Bool :=
  e.version < 4 && s.form == 0x06 &&
    (s.name == .location || s.name == .statements || s.name == .frameBase || s.name == .ranges)

/-- A value, with as many detours as the form can take in the bytes that are left. -/
def readAttribute (e : Encoding) (s : AttributeSpec) :
    Reading (AttributeName × AttributeValue) := do
  let v ← value e s.constant (← get).rest.length s.form
  match v with
  | .unsigned n => return (s.name, if s.offsetsAreNumbers e then .sectionOffset n else v)
  | _ => return (s.name, v)

/-- A shape of entries: its code stands for a tag and a list of attributes. -/
structure Abbreviation where
  code : Nat
  tag : Tag
  hasChildren : Bool
  attributes : List AttributeSpec
  deriving Repr, Inhabited

/-- The attributes of an abbreviation, up to the pair of zeros. -/
def attributeSpecs : Nat → Reading (List AttributeSpec)
  | 0 => Reading.malformed
  | n + 1 => do
    let name ← Reading.unsigned16
    let form ← Reading.unsigned16
    if name = 0 ∧ form = 0 then return []
    Reading.require (name != 0 && form != 0)
    let constant ← if form = 0x21 then some <$> Reading.signed else pure none
    return ⟨.ofCode name, form, constant⟩ :: (← attributeSpecs n)

/-- A set of abbreviations, up to the code 0. No code is given twice. -/
def abbreviations : Nat → Reading (List Abbreviation)
  | 0 => Reading.malformed
  | n + 1 => do
    let code ← Reading.unsigned
    if code = 0 then return []
    let tag ← Reading.unsigned16
    Reading.require (tag != 0)
    let children ← Reading.number 1
    Reading.require (children < 2)
    let attributes ← attributeSpecs ((← get).rest.length + 1)
    let more ← abbreviations n
    Reading.require (more.all (·.code ≠ code))
    return ⟨code, .ofCode tag, children = 1, attributes⟩ :: more

end SourceDebugger.Dwarf
