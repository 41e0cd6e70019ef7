import SourceDebugger.Numbers
/-!
Numerals: hexadecimal and decimal text of numbers, and reading a numeral of a given base that must
stay below a limit. A reader stops at the first character that is wrong, so of two faults the
one further left is reported.
-/
namespace SourceDebugger.Text

/-- Lower-case hexadecimal digits without padding. -/
def hex (n : Nat) : String := String.ofList (Nat.toDigits 16 n)

/-- An address is shown with the mark `0x`. -/
def hexMarked (n : Nat) : String := "0x" ++ hex n

/-- Pads on the left up to a width. -/
def padLeft (fill : Char) (width : Nat) (s : String) : String :=
  String.ofList (List.replicate (width - s.length) fill) ++ s

/-- The value of a digit in bases up to sixteen, in either case. -/
def digitValue? (base : Nat) (c : Char) : Option Nat :=
  let value? :=
    if '0' ≤ c ∧ c ≤ '9' then some (c.toNat - '0'.toNat)
    else if 'a' ≤ c ∧ c ≤ 'f' then some (c.toNat - 'a'.toNat + 10)
    else if 'A' ≤ c ∧ c ≤ 'F' then some (c.toNat - 'A'.toNat + 10)
    else none
  value?.filter (· < base)

/-- Why a text is no numeral. -/
inductive NumeralFault where
  | empty
  | invalidDigit
  | tooLarge
  deriving DecidableEq, Repr

def NumeralFault.message : NumeralFault → String
  | .empty => "cannot parse integer from empty string"
  | .invalidDigit => "invalid digit found in string"
  | .tooLarge => "number too large to fit in target type"

/-- Appends digits to a number that is kept below the limit. -/
def readDigits (base limit : Nat) (acc : Nat) : List Char → Except NumeralFault Nat
  | [] => .ok acc
  | c :: rest =>
    match digitValue? base c with
    | none => .error .invalidDigit
    | some d =>
      let next := acc * base + d
      if next < limit then readDigits base limit next rest else .error .tooLarge

/-- A numeral is at least one digit, with an optional plus sign in front. -/
def readNumeral (base limit : Nat) (s : String) : Except NumeralFault Nat :=
  match s.toList with
  | [] => .error .empty
  | ['+'] | ['-'] => .error .invalidDigit
  | '+' :: digits => readDigits base limit 0 digits
  | digits => readDigits base limit 0 digits

/-- Reads an address or another 64-bit word. -/
def readWord (base : Nat) (s : String) : Except NumeralFault UInt64 :=
  (readNumeral base (2 ^ 64) s).map UInt64.ofNat

end SourceDebugger.Text
