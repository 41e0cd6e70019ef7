import SourceDebugger.Text.Numeral
/-!
Where a breakpoint is asked for, and the written form of it: `file:line`, or an address in
hexadecimal.
-/
namespace SourceDebugger

inductive Location where
  | source (file : String) (line : UInt32)
  | address (a : UInt64)
  deriving DecidableEq, Repr

namespace Location

def render : Location → String
  | .source file line => file ++ ":" ++ toString line.toNat
  | .address a => Text.hexMarked a.toNat

/-- Cuts at the last colon, which is not part of either piece. -/
def atLastColon (cs : List Char) : Option (List Char × List Char) :=
  match cs.reverse.dropWhile (· ≠ ':') with
  | [] => none
  | _ :: before => some (before.reverse, (cs.reverse.takeWhile (· ≠ ':')).reverse)

/-- A text that starts like an address is one or nothing; any other is a file name, the last colon,
and a line. -/
def ofText? (text : String) : Option Location :=
  match text.toList with
  | '0' :: 'x' :: digits | '0' :: 'X' :: digits =>
    (Text.readWord 16 (String.ofList digits)).toOption.map .address
  | cs =>
    match atLastColon cs with
    | some (c :: file, line) =>
      (Text.readNumeral 10 (2 ^ 32) (String.ofList line)).toOption.map fun n =>
        .source (String.ofList (c :: file)) (UInt32.ofNat n)
    | _ => none

end Location

end SourceDebugger
