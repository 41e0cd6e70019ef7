import SourceDebugger.Decimal.Shortest
import SourceDebugger.Symbols.ValueType
import SourceDebugger.Text.Quoted
/-!
Values of variables, and how they are shown. A value that cannot be read is a value too: it says
why.
-/
namespace SourceDebugger

inductive Primitive where
  | int (n : Int)
  | uint (n : Nat)
  /-- A number of double precision, by its bits. -/
  | float (bits : UInt64)
  | bool (b : Bool)
  | char (c : Char)
  deriving DecidableEq, Repr

def Primitive.render : Primitive → String
  | .int n => toString n
  | .uint n => toString n
  | .float bits => Decimal.render bits
  | .bool b => if b then "true" else "false"
  | .char c => Text.quotedChar c

/-- An array whose elements are read one at a time. -/
structure ArrayValue where
  element : ValueType
  address : UInt64
  length : Nat
  /-- The pause in which the array was read. -/
  generation : Nat
  deriving DecidableEq, Repr, Inhabited

inductive Value where
  | primitive (p : Primitive)
  | null (typeName : String)
  | text (s : String)
  | array (a : ArrayValue)
  | object (typeName : String) (address : UInt64)
  | unavailable (reason : String)
  deriving DecidableEq, Repr

namespace Value

/-- The value as text, without quotation marks. -/
def plain : Value → String
  | .primitive p => p.render
  | .null _ => "null"
  | .text s => s
  | .array a => a.element.render ++ "[" ++ toString a.length ++ "]"
  | .object typeName address => typeName ++ " @ " ++ Text.hexMarked address.toNat
  | .unavailable reason => "<" ++ reason ++ ">"

def render : Value → String
  | .text s => Text.quoted s
  | v => v.plain

end Value

structure Variable where
  name : String
  typeName : String
  value : Value
  deriving DecidableEq, Repr

end SourceDebugger
