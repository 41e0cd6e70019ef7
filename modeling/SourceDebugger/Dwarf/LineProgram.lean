import SourceDebugger.Dwarf.Unit
/-!
Line programs. A program is run by a small machine whose registers are an address and a source
position; some of its instructions give out a row. A sequence of rows belongs to one stretch of
code, and addresses do not fall within it: code that seems to lie lower was left out.
-/
namespace SourceDebugger.Dwarf

/-- A source file: its name, and the number of its directory. -/
structure FileEntry where
  name : AttributeValue
  directory : Nat
  deriving Repr, Inhabited

structure LineProgram where
  encoding : Encoding
  minLength : Nat
  maxOperations : Nat
  lineBase : Int
  lineRange : Nat
  opcodeBase : Nat
  /-- How many operands the standard instructions have. -/
  operandCounts : Bytes
  directories : List AttributeValue
  files : List FileEntry
  instructions : Bytes
  deriving Inhabited

/-- Texts up to an empty one. -/
def textList : Nat → Reading (List Bytes)
  | 0 => Reading.malformed
  | n + 1 => do
    let t ← Reading.text
    if t.isEmpty then return [] else return t :: (← textList n)

/-- Directory, time and size follow a file's name; only the directory matters. -/
def olderFile (name : Bytes) : Reading FileEntry := do
  let directory ← Reading.unsigned
  let _time ← Reading.unsigned
  let _size ← Reading.unsigned
  return ⟨.text name, directory⟩

def olderFiles : Nat → Reading (List FileEntry)
  | 0 => Reading.malformed
  | n + 1 => do
    let name ← Reading.text
    if name.isEmpty then return [] else return (← olderFile name) :: (← olderFiles n)

/-- The forms that descriptions of files may have. -/
def fileForms : List Nat :=
  [0x03, 0x04, 0x05, 0x06, 0x07, 0x08, 0x09, 0x0a, 0x0b, 0x0c, 0x0d, 0x0e, 0x0f, 0x17, 0x1a, 0x1d
  , 0x1e, 0x1f, 0x25, 0x26, 0x27, 0x28, 0x1f02, 0x1f21]

/-- The kind of content that is a path. -/
def pathContent : Nat := 1

/-- The kind of content that is the number of a directory. -/
def directoryContent : Nat := 2

/-- In which order and form files are described: pairs of content and form, of which one is the
path. -/
def fileFormat : Reading (List (Nat × Nat)) := do
  let count ← Reading.number 1
  let format ← pairs count
  Reading.require ((format.filter (·.1 = pathContent)).length == 1)
  return format
where
  pairs : Nat → Reading (List (Nat × Nat))
    | 0 => return []
    | n + 1 => do
      let content ← Reading.unsigned
      let form ← Reading.unsigned16
      return (content, form) :: (← pairs n)

/-- Fills in a file from its description, part by part. -/
def newerFile (e : Encoding) (file : FileEntry) : List (Nat × Nat) → Reading FileEntry
  | [] => return file
  | (content, form) :: rest => do
    Reading.require (fileForms.contains form)
    let v ← value e none 0 form
    let file := if content = pathContent then { file with name := v }
      else if content = directoryContent then
        { file with directory := v.natural?.getD file.directory }
      else file
    newerFile e file rest

/-- As many files as a number in front says; each takes at least one byte. -/
def newerFiles (e : Encoding) : Reading (List FileEntry) := do
  let format ← fileFormat
  let count ← Reading.unsigned
  Reading.require (count ≤ (← get).rest.length)
  repeatFile format count
where
  repeatFile (format : List (Nat × Nat)) : Nat → Reading (List FileEntry)
    | 0 => return []
    | n + 1 => do return (← newerFile e ⟨.other, 0⟩ format) :: (← repeatFile format n)

/-- The tables of a program's header: directories and files. -/
def fileTables (e : Encoding) : Reading (List AttributeValue × List FileEntry) := do
  if e.version ≤ 4 then
    let room := (← get).rest.length
    let directories ← textList (room + 1)
    return (directories.map .text, ← olderFiles (room + 1))
  else
    let directories ← newerFiles e
    return (directories.map (·.name), ← newerFiles e)

/-- What stands in front of the instructions. -/
def programHeader (e : Encoding) (instructions : Bytes) : Reading LineProgram := do
  let minLength ← Reading.number 1
  let maxOperations ← if 4 ≤ e.version then Reading.number 1 else pure 1
  let _isStatement ← Reading.byte
  let lineBase ← Reading.number 1
  let lineRange ← Reading.number 1
  let opcodeBase ← Reading.number 1
  Reading.require (minLength != 0 && maxOperations != 0 && lineRange != 0 && opcodeBase != 0)
  let operandCounts ← Reading.bytes (opcodeBase - 1)
  let (directories, files) ← fileTables e
  return { encoding := e, minLength, maxOperations
           lineBase := if lineBase < 128 then lineBase else (lineBase : Int) - 256
           lineRange, opcodeBase, operandCounts, directories, files, instructions }

def lineProgram (unitAddressSize : Nat) : Reading LineProgram := do
  let length ← partLength
  let bytes ← Reading.bytes length
  Reading.ofOption <| Reading.from? bytes do
    let version ← Reading.number 2
    Reading.require (2 ≤ version && version ≤ 5)
    let size ← if version = 5 then addressSize else pure unitAddressSize
    if version = 5 then
      let segmentSize ← Reading.number 1
      Reading.require (segmentSize == 0)
    let headerLength ← Reading.number 4
    let header ← Reading.bytes headerLength
    let instructions := (← get).rest
    Reading.ofOption (Reading.from? header (programHeader ⟨version, size⟩ instructions))

/-- The program that the unit's root names. -/
def DebugUnit.lineProgram? (s : Sections) (u : DebugUnit) : Option (Option LineProgram) :=
  match u.rootValue? .statements with
  | some (.sectionOffset offset) => do
    let bytes ← s.line.after? offset
    some (some (← Reading.from? bytes (lineProgram u.encoding.addressSize)))
  | _ => some none

inductive LineInstruction where
  /-- Advances address and line together and gives out a row. -/
  | special (adjusted : Nat)
  | copy
  | advanceAddress (operations : Nat)
  | advanceLine (n : Int)
  | setFile (n : Nat)
  | setColumn (n : Nat)
  | advanceFixed (n : Nat)
  | setAddress (a : UInt64)
  | defineFile (f : FileEntry)
  | endSequence
  | nothing
  deriving Repr

namespace LineProgram

/-- An instruction that begins with 0: its length and its own code follow. -/
def extended (p : LineProgram) : Reading LineInstruction := do
  let length ← Reading.unsigned
  let bytes ← Reading.bytes length
  Reading.ofOption <| Reading.from? bytes do
    match ← Reading.number 1 with
    | 1 => return .endSequence
    | 2 => return .setAddress (← p.encoding.address)
    | 3 =>
      if p.encoding.version ≤ 4 then do
        let name ← Reading.text
        return .defineFile (← olderFile name)
      else return .nothing
    | 4 => do
      let _discriminator ← Reading.unsigned
      return .nothing
    | _ => return .nothing

def skipOperands : Nat → Reading Unit
  | 0 => pure ()
  | n + 1 => do
    let _ ← Reading.unsigned
    skipOperands n

/-- What advances the address by as much as the highest special instruction. -/
def constantAdvance (p : LineProgram) : Nat := (255 - p.opcodeBase) / p.lineRange

def instruction (p : LineProgram) : Reading LineInstruction := do
  let code ← Reading.number 1
  if code = 0 then p.extended
  else if p.opcodeBase ≤ code then return .special (code - p.opcodeBase)
  else match code with
    | 1 => return .copy
    | 2 => return .advanceAddress (← Reading.unsigned)
    | 3 => return .advanceLine (← Reading.signed)
    | 4 => return .setFile (← Reading.unsigned)
    | 5 => return .setColumn (← Reading.unsigned)
    | 6 | 7 | 10 | 11 => return .nothing
    | 8 => return .advanceAddress p.constantAdvance
    | 9 => return .advanceFixed (← Reading.number 2)
    | 12 => do
      let _ ← Reading.unsigned
      return .nothing
    | _ => do
      skipOperands ((p.operandCounts[code - 1]?).getD 0).toNat
      return .nothing

end LineProgram

structure LineRegisters where
  address : UInt64
  operation : Nat
  file : Nat
  line : UInt64
  column : Nat
  /-- The code the machine is at was left out. -/
  leftOut : Bool
  deriving Repr, Inhabited

/-- The registers at the start of a sequence. -/
def LineRegisters.start : LineRegisters := ⟨0, 0, 1, 1, 0, false⟩

/-- A position that a program gives out, or the end of a sequence. -/
structure LineRow where
  address : UInt64
  file : Nat
  line : UInt32
  column : UInt32
  isEnd : Bool
  deriving DecidableEq, Repr, Inhabited

namespace LineRegisters

def row (r : LineRegisters) (isEnd : Bool) : LineRow :=
  ⟨r.address, r.file, UInt32.ofNat r.line.toNat, UInt32.ofNat r.column, isEnd⟩

/-- The row, unless its code was left out. -/
def given (r : LineRegisters) (isEnd : Bool) : List LineRow :=
  if r.leftOut then [] else [r.row isEnd]

/-- Adds to the address, which must stay an address. -/
def addAddress? (e : Encoding) (r : LineRegisters) (n : Nat) : Option LineRegisters :=
  if r.address.toNat + n ≤ e.maxAddress.toNat then
    some { r with address := r.address + UInt64.ofNat n }
  else none

/-- Advances by operations, of which several may share an address. -/
def advance? (p : LineProgram) (r : LineRegisters) (operations : Nat) : Option LineRegisters :=
  if r.leftOut then some r
  else if p.maxOperations = 1 then
    { r with operation := 0 }.addAddress? p.encoding (p.minLength * operations % 2 ^ 64)
  else
    let total := r.operation + operations
    { r with operation := total % p.maxOperations }.addAddress? p.encoding
      (p.minLength * (total / p.maxOperations) % 2 ^ 64)

/-- Lines do not fall below 0. -/
def advanceLine (r : LineRegisters) (n : Int) : LineRegisters :=
  { r with line :=
      if n < 0 then UInt64.ofNat (r.line.toNat - n.natAbs) else r.line + UInt64.ofNat n.toNat }

/-- Carries out an instruction; the rows it gives out come along. -/
def step? (p : LineProgram) (r : LineRegisters) :
    LineInstruction → Option (LineRegisters × List LineRow)
  | .special adjusted => do
    let r ← (r.advanceLine (p.lineBase + (adjusted % p.lineRange : Nat))).advance? p
      (adjusted / p.lineRange)
    some (r, r.given false)
  | .copy => some (r, r.given false)
  | .advanceAddress operations => do some (← r.advance? p operations, [])
  | .advanceLine n => some (r.advanceLine n, [])
  | .setFile n => some ({ r with file := n }, [])
  | .setColumn n => some ({ r with column := n }, [])
  | .advanceFixed n =>
    if r.leftOut then some (r, [])
    else do some (← { r with operation := 0 }.addAddress? p.encoding n, [])
  | .setAddress a =>
    if a < r.address ∨ a = p.encoding.maxAddress then some ({ r with leftOut := true }, [])
    else some ({ r with address := a, operation := 0, leftOut := false }, [])
  | .endSequence => some (.start, r.given true)
  | .defineFile _ | .nothing => some (r, [])

end LineRegisters

namespace LineProgram

/-- All rows of a program, and the files it defines on its way. -/
def run (p : LineProgram) : Nat → LineRegisters → Reading (List LineRow × List FileEntry)
  | 0, _ => Reading.malformed
  | n + 1, r => do
    if ← Reading.atEnd then return ([], [])
    let i ← p.instruction
    let (r, rows) ← Reading.ofOption (r.step? p i)
    let defined := match i with
      | .defineFile f => [f]
      | _ => []
    let (moreRows, moreFiles) ← p.run n r
    return (rows ++ moreRows, defined ++ moreFiles)

def rows? (p : LineProgram) : Option (List LineRow × List FileEntry) :=
  Reading.from? p.instructions (p.run (p.instructions.length + 1) .start)

end LineProgram

end SourceDebugger.Dwarf
