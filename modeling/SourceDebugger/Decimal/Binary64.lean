import SourceDebugger.Numbers
/-!
Binary floating-point numbers, taken apart: a number is a whole number times a power of two. Single
precision is read into double precision, which holds all its numbers.
-/
namespace SourceDebugger.Decimal

/-- A number of double precision. The magnitude is `mantissa * 2 ^ exponent`. -/
inductive Binary where
  | finite (negative : Bool) (mantissa : Nat) (exponent : Int)
  | infinite (negative : Bool)
  | notANumber
  deriving DecidableEq, Repr

/-- Takes bits apart by the widths of their fields. -/
def Binary.ofFields (fractionBits exponentBits : Nat) (bits : Nat) : Binary :=
  let fraction := bits % 2 ^ fractionBits
  let biased := bits / 2 ^ fractionBits % 2 ^ exponentBits
  let negative := bits / 2 ^ (fractionBits + exponentBits) % 2 = 1
  let lowest : Int := 1 - (2 ^ (exponentBits - 1) - 1 : Nat) - fractionBits
  if biased = 2 ^ exponentBits - 1 then
    if fraction = 0 then .infinite negative else .notANumber
  else if biased = 0 then .finite negative fraction lowest
  else .finite negative (fraction + 2 ^ fractionBits) (lowest + (biased - 1 : Nat))

def Binary.ofBits64 (bits : UInt64) : Binary := .ofFields 52 11 bits.toNat

/-- The bits in double precision of a number in single precision. -/
def widen (bits : UInt32) : UInt64 :=
  let sign := bits.toNat / 2 ^ 31 * 2 ^ 63
  match Binary.ofFields 23 8 bits.toNat with
  | .notANumber => UInt64.ofNat (sign + 2047 * 2 ^ 52 + 2 ^ 51)
  | .infinite _ => UInt64.ofNat (sign + 2047 * 2 ^ 52)
  | .finite _ 0 _ => UInt64.ofNat sign
  | .finite _ m e =>
    let top := Nat.log2 m
    let fraction := (m - 2 ^ top) * 2 ^ (52 - top)
    UInt64.ofNat (sign + (e + top + 1023).toNat * 2 ^ 52 + fraction)

end SourceDebugger.Decimal
