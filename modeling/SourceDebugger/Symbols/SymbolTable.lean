import SourceDebugger.Symbols.Mangled
import SourceDebugger.Symbols.Search
/-!
The symbols of a module: names of code positions, without lines or variables. A symbol of size 0 is
taken to reach as far as anyone asks.
-/
namespace SourceDebugger

structure SymbolEntry where
  name : String
  display : String
  offset : UInt64
  size : UInt64
  deriving DecidableEq, Repr, Inhabited

def SymbolEntry.of (name : String) (offset size : UInt64) : SymbolEntry :=
  ⟨name, Mangled.display name, offset, size⟩

/-- Symbols in ascending order of their offsets. -/
structure SymbolTable where
  entries : Array SymbolEntry
  deriving Repr, Inhabited

namespace SymbolTable

def ofSymbols (symbols : List SymbolEntry) : SymbolTable :=
  ⟨(symbols.mergeSort fun a b => a.offset ≤ b.offset).toArray⟩

/-- The offset of the last symbol with a name. -/
def offsetOf? (t : SymbolTable) (name : String) : Option UInt64 :=
  (t.entries.toList.reverse.find? (·.name = name)).map (·.offset)

/-- The symbol an offset belongs to, sought only in the last one that starts before it. -/
def covering? (t : SymbolTable) (offset : UInt64) : Option SymbolEntry :=
  (lastBefore? t.entries fun s => s.offset ≤ offset).filter fun s =>
    s.size = 0 || offset < s.offset + s.size

/-- The symbols in whose name, mangled or readable, a text occurs. -/
def search (t : SymbolTable) (pattern : String) : List SymbolEntry :=
  t.entries.toList.filter fun s =>
    Mangled.occursIn pattern.toList s.name.toList
      || Mangled.occursIn pattern.toList s.display.toList

end SymbolTable

end SourceDebugger
