import SourceDebugger.Dwarf.Functions
import SourceDebugger.Dwarf.Lines
import SourceDebugger.Elf.Symbols
import SourceDebugger.Symbols.ModuleSymbols
/-!
What an executable file tells about its code. Debugging information comes first; a file without it
still has the names of its symbols, unless it was stripped of them too.
-/
namespace SourceDebugger

/-- An executable file with the names of its code. -/
structure ObjectFile where
  image : Elf.Image
  symbols : SymbolTable
  deriving Inhabited

namespace ObjectFile

/-- A file is readable if its header, tables and symbols are. -/
def ofBytes? (bytes : Bytes) : Option ObjectFile := do
  let image ← Elf.image? bytes
  some ⟨image, ← Elf.codeSymbols? image⟩

def sections (f : ObjectFile) : Dwarf.Sections :=
  let data := f.image.sectionData
  { info := data ".debug_info", abbreviations := data ".debug_abbrev", str := data ".debug_str"
    lineStr := data ".debug_line_str", strOffsets := data ".debug_str_offsets"
    addr := data ".debug_addr", aranges := data ".debug_aranges", line := data ".debug_line"
    ranges := data ".debug_ranges", rnglists := data ".debug_rnglists" }

def hasDebugInfo (f : ObjectFile) : Bool := !f.sections.info.isEmpty

/-- Whether the file can be loaded at any address. -/
def isMovable (f : ObjectFile) : Bool := f.image.kind == .movable

/-- Addresses in the file are offsets from this one. -/
def imageBase (_ : ObjectFile) : UInt64 := 0

/-- The module described by debugging information, or none if that is malformed. -/
def debugModule? (f : ObjectFile) : Option ModuleSymbols := do
  let s := f.sections
  let headers ← Reading.from? s.info (Dwarf.unitHeaders (s.info.length + 1))
  let units ← headers.mapM fun h => do Dwarf.DebugUnit.ofReader? (← Dwarf.readerFor? s h)
  let lines ← Dwarf.lineTable? s units
  let functions := (← units.mapM (Dwarf.functionsOf? s)).flatten
  some { lines, symbols := f.symbols
         functions := .ofFunctions (ModuleSymbols.markLines lines functions) }

/-- The module known by its symbols alone, if it has any. -/
def symbolModule? (f : ObjectFile) : Option ModuleSymbols :=
  if f.symbols.entries.isEmpty then none
  else some { lines := ⟨#[]⟩, functions := ⟨#[]⟩, symbols := f.symbols }

/-- What is known of a file's code. The outer `none` is a failure. -/
def module? (f : ObjectFile) : Option (Option ModuleSymbols) :=
  if f.hasDebugInfo then f.debugModule?.map some else some f.symbolModule?

end ObjectFile

end SourceDebugger
