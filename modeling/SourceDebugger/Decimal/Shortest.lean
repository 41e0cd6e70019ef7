import SourceDebugger.Decimal.Binary64
/-!
The shortest decimal that reads back as a given number of double precision, and of those the nearest
one. A decimal reads back if it lies in the interval of reals that round to the number: half way
to the next number on either side, with the ends included if the mantissa is even.
-/
namespace SourceDebugger.Decimal

/-- The reals around a number that round to it, as multiples of a common unit `1 / scale`. -/
structure Interval where
  low : Nat
  value : Nat
  high : Nat
  scale : Nat
  closed : Bool
  deriving DecidableEq, Repr

/-- The smallest mantissa of a normal number: below it the next smaller number is half as far
away. -/
def leastNormal : Nat := 2 ^ 52

def Interval.around (mantissa : Nat) (exponent : Int) : Interval :=
  let lowestExponent : Int := -1074
  let below := if mantissa = leastNormal ∧ exponent ≠ lowestExponent then 1 else 2
  let up := 2 ^ exponent.toNat
  { low := (4 * mantissa - below) * up, value := 4 * mantissa * up, high := (4 * mantissa + 2) * up
    scale := 4 * 2 ^ (-exponent).toNat, closed := mantissa % 2 = 0 }

/-- Whether `digits * 10 ^ power` lies in the interval. -/
def Interval.holds (i : Interval) (digits : Nat) (power : Int) : Bool :=
  let up := 10 ^ power.toNat
  let down := 10 ^ (-power).toNat
  let x := digits * up * i.scale
  if i.closed then i.low * down ≤ x && x ≤ i.high * down
  else i.low * down < x && x < i.high * down

/-- A whole number of digits times a power of ten. -/
structure Numeral where
  digits : Nat
  power : Int
  deriving DecidableEq, Repr

/-- The value's two neighbours on the grid of multiples of `10 ^ power`. Of two that read back the
nearer is taken, and the even one if they are equally near. -/
def onGrid (i : Interval) (power : Int) : Option Numeral :=
  let up := 10 ^ power.toNat
  let down := 10 ^ (-power).toNat
  let den := i.scale * up
  let num := i.value * down
  let floor := num / den
  let twice := 2 * (num % den)
  match i.holds floor power && floor != 0, i.holds (floor + 1) power with
  | true, true =>
    if twice < den || (twice == den && floor % 2 == 0) then some ⟨floor, power⟩
    else some ⟨floor + 1, power⟩
  | true, false => some ⟨floor, power⟩
  | false, true => some ⟨floor + 1, power⟩
  | false, false => none

/-- Tries grids of one more digit each. -/
def search (i : Interval) (power : Int) : Nat → Numeral
  | 0 => ⟨0, 0⟩
  | n + 1 => (onGrid i power).getD (search i (power - 1) n)

/-- A power of ten above every number of double precision. -/
def highestPower : Int := 309

/-- So many grids take in every number of double precision. -/
def gridCount : Nat := 309 + 1074 + 20

/-- The shortest decimal of a number that is not zero. -/
def shortest (mantissa : Nat) (exponent : Int) : Numeral :=
  let i := Interval.around mantissa exponent
  let width : Nat := (Nat.log2 mantissa + 1) * 30103 / 100000 + 2
  let shift : Int := Int.tdiv (exponent * 30103) 100000 + 2
  search i (min highestPower (width + shift)) gridCount

/-- Written without an exponent: digits, and a point only where a fraction follows. -/
def Numeral.positional (d : Numeral) : String :=
  let digits := Nat.toDigits 10 d.digits
  match d.power with
  | .ofNat p => String.ofList (digits ++ List.replicate p '0')
  | .negSucc p =>
    let places := p + 1
    let padded := List.replicate (places + 1 - digits.length) '0' ++ digits
    let whole := padded.take (padded.length - places)
    String.ofList (whole ++ ['.'] ++ padded.drop (padded.length - places))

/-- The text of a number of double precision. -/
def render (bits : UInt64) : String :=
  match Binary.ofBits64 bits with
  | .notANumber => "NaN"
  | .infinite negative => if negative then "-inf" else "inf"
  | .finite negative m e =>
    let text := if m = 0 then "0" else (shortest m e).positional
    if negative then "-" ++ text else text

end SourceDebugger.Decimal
