/-!
The types of variables, kept to what reading a value needs: how many bytes it takes in its slot and
what the bytes mean.
-/
namespace SourceDebugger

inductive ValueType where
  /-- An integer of `size` bytes. -/
  | int (signed : Bool) (size : UInt8)
  | float (size : UInt8)
  | bool
  | char
  /-- A text as pointer and length. -/
  | text
  /-- An array as pointer and length. -/
  | slice (element : ValueType)
  /-- A reference, which is null at address 0. -/
  | pointer (name : String)
  | unknown (name : String) (size : UInt64)
  deriving DecidableEq, Repr, Inhabited

namespace ValueType

/-- How many bytes a value of the type takes in its slot. -/
def byteSize : ValueType → UInt64
  | .int _ size | .float size => size.toUInt64
  | .bool => 1
  | .char => 4
  | .text | .slice _ => 16
  | .pointer _ => 8
  | .unknown _ size => size

def render : ValueType → String
  | .int signed size => (if signed then "i" else "u") ++ toString (size.toNat * 8)
  | .float size => "f" ++ toString (size.toNat * 8)
  | .bool => "bool"
  | .char => "char"
  | .text => "&str"
  | .slice element => "&[" ++ element.render ++ "]"
  | .pointer name | .unknown name _ => name

end ValueType

end SourceDebugger
