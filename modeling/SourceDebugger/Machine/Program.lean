import SourceDebugger.Symbols.ValueType
/-!
Programs of the simulated machine, at source level: functions with variables, and statements that
are lists of operations. A statement may carry a source line. How a program runs is the machine's
business; here is only what can be said.
-/
namespace SourceDebugger.Machine

/-- The types of a program's variables. -/
inductive VarType where
  | int
  | bool
  | text
  | ints
  | object (name : String)
  deriving DecidableEq, Repr, Inhabited

def VarType.valueType : VarType → ValueType
  | .int => .int true 4
  | .bool => .bool
  | .text => .text
  | .ints => .slice (.int true 4)
  | .object name => .pointer name

/-- What a variable can hold; texts and objects may be missing. -/
inductive Datum where
  | int (n : Int32)
  | bool (b : Bool)
  | text (s : Option String)
  | ints (ns : List Int32)
  | object (bytes : Option (List UInt8))
  deriving DecidableEq, Repr, Inhabited

/-- The data that a variable of a type is meant for. -/
def Datum.hasType : Datum → VarType → Bool
  | .int _, .int | .bool _, .bool | .text _, .text | .ints _, .ints | .object _, .object _ => true
  | _, _ => false

inductive Op where
  | nop
  | call (function : String)
  /-- Sets an argument of the next call. -/
  | setArg (index : Nat) (datum : Datum)
  | store (variableName : String) (datum : Datum)
  | print (text : String)
  /-- A trap instruction of the program's own. -/
  | break
  /-- Goes to a statement of the same function. -/
  | jump (statement : Nat)
  | spawn (thread : Int)
  | endThread (thread : Int)
  | load (library : Nat)
  | fault (signal : Int) (description : String)
  | exit (code : Int)
  deriving DecidableEq, Repr, Inhabited

structure Statement where
  line : Option UInt32
  ops : List Op
  deriving DecidableEq, Repr, Inhabited

/-- A statement without operations still takes up code. -/
def Statement.of (line : Option UInt32) (ops : List Op) : Statement :=
  ⟨line, if ops.isEmpty then [.nop] else ops⟩

structure Function where
  name : String
  arguments : List (String × VarType)
  locals : List (String × VarType)
  /-- The line of the code that sets up the frame. -/
  openLine : Option UInt32
  /-- The line of the code that takes the frame down. -/
  closeLine : Option UInt32
  body : List Statement
  deriving DecidableEq, Repr, Inhabited

structure Library where
  path : String
  size : UInt64
  atStart : Bool
  deriving DecidableEq, Repr, Inhabited

structure Program where
  path : String
  sourceFile : String
  entry : String
  functions : List Function
  libraries : List Library
  deriving DecidableEq, Repr, Inhabited

end SourceDebugger.Machine
