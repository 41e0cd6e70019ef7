import SourceDebugger.Dwarf.Tree
import SourceDebugger.Symbols.FunctionTable
/-!
Types and places of variables. Types are followed from entry to entry, but not without end: a chain
that is too long is given up as an unknown type.
-/
namespace SourceDebugger.Dwarf

def unknownType (name : Option String) (size : Nat) : ValueType :=
  .unknown (name.getD "<unknown>") (UInt64.ofNat size)

/-- A base type by its encoding and size. -/
def baseType (encoding : Option Nat) (name : Option String) (size : Nat) : ValueType :=
  let isWordSize := size == 1 || size == 2 || size == 4 || size == 8
  match encoding with
  | some 0x02 => if size = 1 then .bool else unknownType name size
  | some 0x04 =>
    if size = 4 ∨ size = 8 then .float (UInt8.ofNat size) else unknownType name size
  | some 0x05 | some 0x06 =>
    if isWordSize then .int true (UInt8.ofNat size) else unknownType name size
  | some 0x07 | some 0x08 =>
    if isWordSize then .int false (UInt8.ofNat size) else unknownType name size
  | some 0x10 =>
    if size = 4 then .char
    else if isWordSize then .int false (UInt8.ofNat size)
    else unknownType name size
  | _ => unknownType name size

/-- The entry that an attribute refers to, within the unit. -/
def Entry.reference? (e : Entry) (key : AttributeName) : Option Nat :=
  match e.find? key with
  | some (.entry offset) => some offset
  | _ => none

/-- Encodings are numbers of one byte. -/
def Entry.encoding? (e : Entry) : Option Nat :=
  ((e.find? .encoding).bind (·.natural?)).filter (· < 256)

/-- The first member of an array's structure that points at the elements. -/
def elementsMember? (s : Sections) (u : DebugUnit) : List Tree → Option (Option Entry)
  | [] => some none
  | .node e _ :: rest =>
    if e.tag ≠ .member then elementsMember? s u rest
    else do
      if (← u.name? s e) = some "data_ptr" then some (some e) else elementsMember? s u rest

/-- What the elements pointer of an array points at, if there is one. -/
def elementTarget? (s : Sections) (u : DebugUnit) (offset : Nat) : Option (Option Nat) := do
  let .node _ members ← u.reader.treeAt? offset fun _ => false
  match ← elementsMember? s u members with
  | none => some none
  | some m => match m.reference? .type with
    | none => some none
    | some pointer => do
      let (p, _) ← u.reader.entryAt? pointer
      some (p.reference? .type)

/-- Arrays are structures whose name begins like a reference to an array. -/
def namesArray (name : String) : Bool := name.startsWith "&[" || name.startsWith "&mut ["

def namesText (name : String) : Bool := name == "&str" || name == "&mut str"

/-- The type that an entry stands for; `links` more entries may be followed. -/
def type? (s : Sections) (u : DebugUnit) : (links offset : Nat) → Option ValueType
  | links, offset => do
    let (e, _) ← u.reader.entryAt? offset
    let name ← u.name? s e
    let size := ((e.find? .byteSize).bind (·.natural?)).getD 0
    match links with
    | 0 => some (unknownType name size)
    | links + 1 =>
      match e.tag with
      | .baseType => some (baseType e.encoding? name size)
      | .pointerType | .referenceType =>
        match name, e.reference? .type with
        | some n, _ => some (.pointer n)
        | none, some target => do some (.pointer ("*" ++ (← type? s u links target).render))
        | none, none => some (.pointer "*void")
      | .typedef | .constType | .volatileType =>
        match e.reference? .type with
        | some target => type? s u links target
        | none => some (unknownType name size)
      | .structureType =>
        if (name.map namesText).getD false then some .text
        else if (name.map namesArray).getD false then do
          match ← elementTarget? s u offset with
          | some target => do some (.slice (← type? s u links target))
          | none => some (unknownType name size)
        else some (unknownType name size)
      | _ => some (unknownType name size)

/-- How many entries a type may be away from its variable's. -/
def maxLinks : Nat := 8

/-- What an expression says about a variable's place. Only expressions that begin with a frame
offset, an address or a register are understood. -/
def placeOf? (expression : Bytes) : Option Place :=
  Reading.from? expression do
    let operation ← Reading.byte
    if operation = 0x91 then return .frame (Int64.ofInt (← Reading.signed))
    if operation = 0x03 then return .address (← Reading.word)
    if 0x50 ≤ operation && operation ≤ 0x6f then return .register (operation.toNat - 0x50)
    return .unsupported

def place? (e : Entry) : Option Place :=
  match e.find? .location with
  | none => some .optimizedOut
  | some (.block expression) => placeOf? expression
  | some _ => some .unsupported

/-- The variable that an entry describes; entries without a name describe none. -/
def variableOf? (s : Sections) (u : DebugUnit) (e : Entry) : Option (Option VariableInfo) := do
  match ← u.name? s e with
  | none => some none
  | some name => do
    let type ← match e.reference? .type with
      | some offset => type? s u maxLinks offset
      | none => some (unknownType none 0)
    some (some ⟨name, type, ← place? e⟩)

end SourceDebugger.Dwarf
