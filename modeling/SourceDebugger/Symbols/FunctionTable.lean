import SourceDebugger.Symbols.Search
import SourceDebugger.Symbols.ValueType
/-!
The functions of a module. A function is a half-open stretch of code with the variables of its
frame; a table answers which function starts last at or before an offset and contains it, and
which function has a name.
-/
namespace SourceDebugger

/-- What the offsets of a frame's variables are counted from. -/
inductive FrameBase where
  | framePointer
  | stackPointer
  /-- The stack pointer as it was just before the call. -/
  | canonicalAddress
  deriving DecidableEq, Repr, Inhabited

/-- Where a variable lives. -/
inductive Place where
  | frame (offset : Int64)
  | register (number : Nat)
  | address (a : UInt64)
  | optimizedOut
  | unsupported
  deriving DecidableEq, Repr, Inhabited

structure VariableInfo where
  name : String
  type : ValueType
  place : Place
  deriving DecidableEq, Repr, Inhabited

structure FunctionInfo where
  name : String
  low : UInt64
  high : UInt64
  frameBase : FrameBase
  /-- Whether any statement of the function has a source line. -/
  hasLines : Bool
  arguments : List VariableInfo
  locals : List VariableInfo
  deriving DecidableEq, Repr, Inhabited

def FunctionInfo.contains (f : FunctionInfo) (offset : UInt64) : Bool :=
  f.low ≤ offset && offset < f.high

/-- Functions in ascending order of their starts, one for each start. -/
structure FunctionTable where
  entries : Array FunctionInfo
  deriving Repr, Inhabited

namespace FunctionTable

/-- Of neighbours with one start only the first is kept. -/
def dropRepeats : List FunctionInfo → List FunctionInfo
  | [] => []
  | [f] => [f]
  | f :: g :: rest =>
    if f.low = g.low then dropRepeats (f :: rest) else f :: dropRepeats (g :: rest)
termination_by fs => fs.length

def ofFunctions (fs : List FunctionInfo) : FunctionTable :=
  ⟨(dropRepeats (fs.mergeSort fun f g => f.low ≤ g.low)).toArray⟩

def size (t : FunctionTable) : Nat := t.entries.size

/-- The function that contains an offset, sought among those that start before it only in the
last one. -/
def at? (t : FunctionTable) (offset : UInt64) : Option FunctionInfo :=
  (lastBefore? t.entries fun f => f.low ≤ offset).filter (·.contains offset)

/-- The first function with a name. -/
def named? (t : FunctionTable) (name : String) : Option FunctionInfo :=
  t.entries.find? (·.name = name)

end FunctionTable

end SourceDebugger
