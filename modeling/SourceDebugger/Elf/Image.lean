import SourceDebugger.Memory.Cursor
/-!
Executable files in the format ELF: the header, the table of segments, which say what is loaded, and
the table of sections, which say what the parts of the file are for. Headers are read in both
word sizes and byte orders; a file that has sections must have words of 64 bits, the lowest
byte first.
-/
namespace SourceDebugger.Elf

inductive FileKind where
  /-- Loaded at the addresses it names. -/
  | fixed
  /-- Loaded anywhere. -/
  | movable
  | other
  deriving DecidableEq, Repr, Inhabited

structure Section where
  name : Bytes
  kind : Nat
  offset : Nat
  size : Nat
  link : Nat
  deriving Repr, Inhabited

structure Segment where
  kind : Nat
  flags : Nat
  offset : Nat
  address : UInt64
  fileSize : Nat
  memorySize : Nat
  deriving Repr, Inhabited

structure Image where
  bytes : Bytes
  kind : FileKind
  entry : UInt64
  segments : List Segment
  sections : List Section
  deriving Inhabited

/-- How the numbers of a file are written. -/
structure Writing where
  wordSize : Nat
  highestFirst : Bool

def Writing.number (w : Writing) (size : Nat) : Reading Nat := do
  let bytes ← Reading.bytes size
  return Bytes.toNat (if w.highestFirst then bytes.reverse else bytes)

def Writing.word (w : Writing) : Reading Nat := w.number w.wordSize

def Writing.isStandard (w : Writing) : Bool := w.wordSize == 8 && !w.highestFirst

/-- A file begins with a magic number, the word size, the byte order and the format's version. -/
def writing : Reading Writing := do
  let magic ← Reading.bytes 4
  let size ← Reading.byte
  let order ← Reading.byte
  let version ← Reading.byte
  Reading.require (magic == [0x7f, 0x45, 0x4c, 0x46] && (size == 1 || size == 2)
    && (order == 1 || order == 2) && version == 1)
  Reading.skip 9
  return ⟨if size = 1 then 4 else 8, order = 2⟩

/-- Where the tables of a file are. -/
structure Header where
  writing : Writing
  kind : FileKind
  entry : UInt64
  segmentOffset : Nat
  sectionOffset : Nat
  segmentEntrySize : Nat
  segmentCount : Nat
  sectionEntrySize : Nat
  sectionCount : Nat
  namesIndex : Nat

def header : Reading Header := do
  let w ← writing
  let kind ← w.number 2
  let _machine ← w.number 2
  let _version ← w.number 4
  let entry ← w.word
  let segmentOffset ← w.word
  let sectionOffset ← w.word
  let _flags ← w.number 4
  let _headerSize ← w.number 2
  let segmentEntrySize ← w.number 2
  let segmentCount ← w.number 2
  let sectionEntrySize ← w.number 2
  let sectionCount ← w.number 2
  let namesIndex ← w.number 2
  return { writing := w
           kind := if kind = 2 then .fixed else if kind = 3 then .movable else .other
           entry := UInt64.ofNat entry, segmentOffset, sectionOffset, segmentEntrySize, segmentCount
           sectionEntrySize, sectionCount, namesIndex }

def repeated {α : Type} (r : Reading α) : Nat → Reading (List α)
  | 0 => return []
  | n + 1 => do return (← r) :: (← repeated r n)

/-- Reads a table of `count` entries at an offset. -/
def table {α : Type} (file : Bytes) (offset count : Nat) (entry : Reading α) : Option (List α) := do
  Reading.from? (← file.after? offset) (repeated entry count)

def segment : Reading Segment := do
  let kind ← Reading.number 4
  let flags ← Reading.number 4
  let offset ← Reading.number 8
  let address ← Reading.word
  let _physical ← Reading.number 8
  let fileSize ← Reading.number 8
  let memorySize ← Reading.number 8
  let _alignment ← Reading.number 8
  return { kind, flags, offset, address, fileSize, memorySize }

/-- An entry of the section table: where its name is, and its other fields. -/
structure SectionEntry where
  nameOffset : Nat
  kind : Nat
  offset : Nat
  size : Nat
  link : Nat
  info : Nat
  deriving Inhabited

def sectionEntry : Reading SectionEntry := do
  let nameOffset ← Reading.number 4
  let kind ← Reading.number 4
  let _flags ← Reading.number 8
  let _address ← Reading.number 8
  let offset ← Reading.number 8
  let size ← Reading.number 8
  let link ← Reading.number 4
  let info ← Reading.number 4
  let _alignment ← Reading.number 8
  let _entrySize ← Reading.number 8
  return { nameOffset, kind, offset, size, link, info }

/-- Sections of this kind take no room in the file. -/
def absentKind : Nat := 8

/-- A string of a string table that fills `size` bytes of the file from `offset` on. -/
def stringAt? (file : Bytes) (offset size : Nat) (position : Nat) : Option Bytes := do
  if size < position then none
  else Reading.from? (← file.slice? (offset + position) (size - position)) Reading.text

/-- The size of an entry of the segment table. -/
def segmentEntrySize : Nat := 56

/-- The size of an entry of the section table. -/
def sectionEntrySize : Nat := 64

/-- A table with no place or no entries is empty; one with entries must have them in the right
size. -/
def segments? (file : Bytes) (h : Header) : Option (List Segment) :=
  if h.segmentOffset = 0 || h.segmentCount = 0 then some []
  else if h.writing.isStandard && h.segmentEntrySize = segmentEntrySize then
    table file h.segmentOffset h.segmentCount segment
  else none

/-- A count of 0 means that the first entry tells the number of sections, and an index of 65535 that
it tells where the names are. -/
def sectionEntries? (file : Bytes) (h : Header) : Option (List SectionEntry × Nat) := do
  if h.sectionOffset = 0 then some ([], 0)
  else if !(h.writing.isStandard && h.sectionEntrySize = sectionEntrySize) then none
  else
    let first := table file h.sectionOffset 1 sectionEntry
    let count ← if h.sectionCount = 0 then first.map fun es => (es.headD default).size
      else some h.sectionCount
    let names ← if h.namesIndex = 0xffff then first.map fun es => (es.headD default).link
      else some h.namesIndex
    if file.length < h.sectionOffset + count * sectionEntrySize then none
    else some (← table file h.sectionOffset count sectionEntry, names)

/-- Sections whose name cannot be read are kept, without one. -/
def named (file : Bytes) (names : SectionEntry) (e : SectionEntry) : Section :=
  let name := if names.kind = absentKind then none
    else stringAt? file names.offset names.size e.nameOffset
  { name := name.getD [], kind := e.kind, offset := e.offset, size := e.size, link := e.link }

def image? (file : Bytes) : Option Image := do
  let h ← Reading.from? file header
  let segments ← segments? file h
  let (entries, namesIndex) ← sectionEntries? file h
  let sections ← if entries.isEmpty then some []
    else (entries[namesIndex]?).map fun names => entries.map (named file names)
  some { bytes := file, kind := h.kind, entry := h.entry, segments, sections }

namespace Image

/-- The bytes of a section; one that takes no room in the file has none. -/
def dataOf? (i : Image) (s : Section) : Option Bytes :=
  if s.kind = absentKind then some [] else i.bytes.slice? s.offset s.size

/-- The bytes of the first section with a name, or none if they cannot be read. -/
def sectionData (i : Image) (name : String) : Bytes :=
  ((i.sections.find? (·.name = name.toUTF8.toList)).bind i.dataOf?).getD []

end Image

end SourceDebugger.Elf
