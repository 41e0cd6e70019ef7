import SourceDebugger.Symbols.FunctionTable
import SourceDebugger.Symbols.LineTable
import SourceDebugger.Symbols.SymbolTable
/-!
All that is known about the code of one module. Where no function is recorded for an offset, a
symbol still gives it a name.
-/
namespace SourceDebugger

structure ModuleSymbols where
  lines : LineTable
  functions : FunctionTable
  symbols : SymbolTable
  deriving Repr, Inhabited

namespace ModuleSymbols

/-- Functions know whether they have lines only once they stand beside a line table. -/
def markLines (lines : LineTable) (fs : List FunctionInfo) : List FunctionInfo :=
  fs.map fun f => { f with hasLines := lines.hasRowsIn f.low f.high }

/-- A module known by its lines and functions alone. -/
def ofTables (ranges : List CodeRange) (fs : List FunctionInfo) : ModuleSymbols :=
  let lines := LineTable.ofRanges ranges
  { lines, functions := FunctionTable.ofFunctions (markLines lines fs), symbols := ⟨#[]⟩ }

/-- The stretch a symbol stands for when asked at an offset. -/
def functionOfSymbol (offset : UInt64) (s : SymbolEntry) : FunctionInfo :=
  let stop := if s.size = 0 then offset.toNat + 1 else s.offset.toNat + s.size.toNat
  { name := s.display, low := s.offset, high := UInt64.ofNat (min stop (2 ^ 64 - 1))
    frameBase := .framePointer, hasLines := false, arguments := [], locals := [] }

def functionAt? (m : ModuleSymbols) (offset : UInt64) : Option FunctionInfo :=
  (m.functions.at? offset).or ((m.symbols.covering? offset).map (functionOfSymbol offset))

end ModuleSymbols

end SourceDebugger
