import SourceDebugger.X86.Operation
/-!
Arithmetic on words of a width, with the flags it sets. Arguments may have bits above the width;
results have none.
-/
namespace SourceDebugger.X86

/-- Whether the number of ones in the lowest byte is even. -/
def evenParity (a : UInt64) : Bool :=
  let b := a ^^^ (a >>> 4)
  let b := b ^^^ (b >>> 2)
  let b := b ^^^ (b >>> 1)
  b &&& 1 == 0

def Width.isNegative (w : Width) (a : UInt64) : Bool := a &&& w.signBit != 0

/-- The flags that only the result decides. -/
def resultFlags (w : Width) (r : UInt64) (carry overflow : Bool) : Flags :=
  ⟨carry, evenParity r, r == 0, w.isNegative r, overflow⟩

def addWith (w : Width) (a b : UInt64) (carry : Bool) : UInt64 × Flags :=
  let a := a &&& w.mask
  let b := b &&& w.mask
  let r := (a + b + if carry then 1 else 0) &&& w.mask
  (r, resultFlags w r (if carry then r ≤ a else r < a)
    (w.isNegative ((a ^^^ r) &&& (b ^^^ r))))

def subWith (w : Width) (a b : UInt64) (borrow : Bool) : UInt64 × Flags :=
  let a := a &&& w.mask
  let b := b &&& w.mask
  let r := (a - b - if borrow then 1 else 0) &&& w.mask
  (r, resultFlags w r (if borrow then a ≤ b else a < b)
    (w.isNegative ((a ^^^ b) &&& (a ^^^ r))))

namespace BinaryOp

/-- Two of the operations are made for their flags only. -/
def writes : BinaryOp → Bool
  | compare | test => false
  | _ => true

def apply (op : BinaryOp) (w : Width) (f : Flags) (a b : UInt64) : UInt64 × Flags :=
  let logical := fun r => (r &&& w.mask, resultFlags w (r &&& w.mask) false false)
  match op with
  | add => addWith w a b false
  | addCarry => addWith w a b f.carry
  | sub | compare => subWith w a b false
  | subBorrow => subWith w a b f.carry
  | and | test => logical (a &&& b)
  | or => logical (a ||| b)
  | xor => logical (a ^^^ b)

end BinaryOp

/-- Counting up and down leaves the carry alone. -/
def UnaryOp.apply (op : UnaryOp) (w : Width) (f : Flags) (a : UInt64) : UInt64 × Flags :=
  match op with
  | .not => (~~~a &&& w.mask, f)
  | .negate => subWith w 0 a false
  | .increment =>
    let (r, g) := addWith w a 1 false
    (r, { g with carry := f.carry })
  | .decrement =>
    let (r, g) := subWith w a 1 false
    (r, { g with carry := f.carry })

/-- A shift by nothing changes nothing. The count has five bits, or six for words of 64 bits. -/
def ShiftOp.apply (op : ShiftOp) (w : Width) (f : Flags) (a count : UInt64) : UInt64 × Flags :=
  let n := count &&& if w == .quad then 63 else 31
  if n == 0 then (a &&& w.mask, f)
  else
    let a := a &&& w.mask
    let turn := n % w.bits
    match op with
    | .left =>
      let r := if n < w.bits then (a <<< n) &&& w.mask else 0
      let carry := n ≤ w.bits && (a >>> (w.bits - n)) &&& 1 == 1
      (r, resultFlags w r carry (w.isNegative r != carry))
    | .right =>
      let r := if n < w.bits then a >>> n else 0
      (r, resultFlags w r ((a >>> (n - 1)) &&& 1 == 1) (w.isNegative a))
    | .arithmetic =>
      let s := (w.extend a).toInt64
      let r := (s >>> n.toInt64).toUInt64 &&& w.mask
      (r, resultFlags w r ((s >>> (n - 1).toInt64).toUInt64 &&& 1 == 1) false)
    | .rotateLeft =>
      let r := if turn == 0 then a else ((a <<< turn) ||| (a >>> (w.bits - turn))) &&& w.mask
      (r, { f with carry := r &&& 1 == 1, overflow := w.isNegative r != (r &&& 1 == 1) })
    | .rotateRight =>
      let r := if turn == 0 then a else ((a >>> turn) ||| (a <<< (w.bits - turn))) &&& w.mask
      (r, { f with carry := w.isNegative r, overflow := w.isNegative (r ^^^ (r <<< 1)) })

/-- The product of signed words; carry and overflow tell that it did not fit. -/
def multiplySigned (w : Width) (f : Flags) (a b : UInt64) : UInt64 × Flags :=
  let product := (w.extend a).toInt64.toInt * (w.extend b).toInt64.toInt
  let r := UInt64.ofInt product &&& w.mask
  let lost := (w.extend r).toInt64.toInt != product
  (r, { f with carry := lost, overflow := lost })

/-- The two halves of a product, the lower one first. -/
def multiplyWide (signed : Bool) (w : Width) (a b : UInt64) : UInt64 × UInt64 × Bool :=
  let value := fun x =>
    if signed then (w.extend x).toInt64.toInt else Int.ofNat (x &&& w.mask).toNat
  let product := value a * value b
  let low := UInt64.ofInt product &&& w.mask
  let high := UInt64.ofInt (product / 2 ^ (8 * w.size)) &&& w.mask
  let back : Int := if signed then (w.extend low).toInt64.toInt else low.toNat
  (low, high, back != product)

/-- Quotient and remainder of a number in two halves. There is none if the divisor is zero or the
quotient does not fit. -/
def divideWide? (signed : Bool) (w : Width) (high low divisor : UInt64) :
    Option (UInt64 × UInt64) :=
  let m := w.mask
  let size : Int := 2 ^ (8 * w.size)
  let joined : Int := Int.ofNat ((high &&& m).toNat * 2 ^ (8 * w.size) + (low &&& m).toNat)
  let (n, d) : Int × Int :=
    if signed then
      (if size * size / 2 ≤ joined then joined - size * size else joined,
        (w.extend divisor).toInt64.toInt)
    else (joined, (divisor &&& m).toNat)
  if d = 0 then none
  else
    let q := n.tdiv d
    let fits := if signed then -(size / 2) ≤ q ∧ q < size / 2 else q < size
    if fits then some (UInt64.ofInt q &&& m, UInt64.ofInt (n.tmod d) &&& m) else none

end SourceDebugger.X86
