import SourceDebugger.Elf.Image
import SourceDebugger.Symbols.SymbolTable
import SourceDebugger.Text.Utf8
/-!
The symbols of an executable file that name code. There is a full table and one for dynamic linking;
a stripped file has only the second.
-/
namespace SourceDebugger.Elf

/-- An entry of a symbol table. -/
structure Symbol where
  nameOffset : Nat
  kind : Nat
  value : UInt64
  size : UInt64
  deriving Inhabited

def symbol : Reading Symbol := do
  let nameOffset ← Reading.number 4
  let info ← Reading.number 1
  let _visibility ← Reading.number 1
  let _sectionIndex ← Reading.number 2
  let value ← Reading.word
  let size ← Reading.word
  return { nameOffset, kind := info % 16, value, size }

def symbolSize : Nat := 24

/-- Functions, and functions that choose themselves at run time. -/
def namesCode (s : Symbol) : Bool := s.kind == 2 || s.kind == 10

def fullTable : Nat := 2

def dynamicTable : Nat := 11

/-- The kind of a section that holds strings. -/
def stringKind : Nat := 3

/-- Where the names of a table's symbols are; a table may do without. -/
def namesOf? (i : Image) (s : Section) : Option (Option Section) :=
  if s.link = 0 then some none
  else match i.sections[s.link]? with
    | none => none
    | some names => if names.kind = stringKind then some (some names) else none

/-- The entries of the first table of a kind with their names, as far as these can be read. A file
whose table cannot be read is malformed. -/
def symbolsOfKind? (i : Image) (kind : Nat) : Option (List SymbolEntry) :=
  match i.sections.find? (·.kind = kind) with
  | none => some []
  | some s => do
    let data ← i.dataOf? s
    let symbols ← table data 0 (data.length / symbolSize) symbol
    let names ← namesOf? i s
    some <| (symbols.filter namesCode).filterMap fun y => do
      let n ← names
      let name ← String.fromUTF8? ⟨(← stringAt? i.bytes n.offset n.size y.nameOffset).toArray⟩
      if name.isEmpty then none else some (SymbolEntry.of name y.value y.size)

def precedes (a b : SymbolEntry) : Bool :=
  a.offset < b.offset || (a.offset == b.offset && a.name ≤ b.name)

/-- Of neighbours with the same place and name only the first is kept. -/
def dropRepeated : List SymbolEntry → List SymbolEntry
  | [] => []
  | [s] => [s]
  | s :: t :: rest =>
    if s.offset = t.offset ∧ s.name = t.name then dropRepeated (s :: rest)
    else s :: dropRepeated (t :: rest)
termination_by ss => ss.length

/-- All symbols that name code, in ascending order. -/
def codeSymbols? (i : Image) : Option SymbolTable := do
  let all := (← symbolsOfKind? i fullTable) ++ (← symbolsOfKind? i dynamicTable)
  some (SymbolTable.ofSymbols (dropRepeated (all.mergeSort precedes)))

end SourceDebugger.Elf
