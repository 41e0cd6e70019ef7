import SourceDebugger.X86.Operation
/-!
Floating-point operations on the bits of numbers. A number of single precision takes the lowest
four bytes of a register and leaves the others alone.
-/
namespace SourceDebugger.X86

namespace Precision

def size : Precision → Nat
  | single => 4
  | double => 8

/-- The value of some bits; every single number is also a double one. -/
def value (p : Precision) (bits : UInt64) : Float :=
  match p with
  | single => (Float32.ofBits bits.toUInt32).toFloat
  | double => Float.ofBits bits

def bits (p : Precision) (x : Float) : UInt64 :=
  match p with
  | single => x.toFloat32.toBits.toUInt64
  | double => x.toBits

/-- Replaces the lowest part of a register. -/
def put (p : Precision) (old : Wide) (bits : UInt64) : Wide :=
  match p with
  | single => { old with low := (old.low &&& 0xffffffff00000000) ||| (bits &&& 0xffffffff) }
  | double => { old with low := bits }

end Precision

/-- The lesser and the greater of two numbers; if they cannot be told apart, the second one. -/
def FloatOp.apply (op : FloatOp) (a b : Float) : Float :=
  match op with
  | .add => a + b
  | .multiply => a * b
  | .subtract => a - b
  | .divide => a / b
  | .minimum => if a < b then a else b
  | .maximum => if b < a then a else b
  | .squareRoot => b.sqrt

/-- An operation on single numbers is rounded to a single number. -/
def FloatOp.onBits (op : FloatOp) (p : Precision) (a b : UInt64) : UInt64 :=
  match p with
  | .double => p.bits (op.apply (p.value a) (p.value b))
  | .single =>
    let x := Float32.ofBits a.toUInt32
    let y := Float32.ofBits b.toUInt32
    let r := match op with
      | .add => x + y
      | .multiply => x * y
      | .subtract => x - y
      | .divide => x / y
      | .minimum => if x < y then x else y
      | .maximum => if y < x then x else y
      | .squareRoot => y.sqrt
    r.toBits.toUInt64

/-- The flags of a comparison; numbers that cannot be compared set three of them. -/
def compareFlags (a b : Float) : Flags :=
  let unordered := !(a < b) && !(b < a) && !(a == b)
  ⟨unordered || a < b, unordered, unordered || a == b, false, false⟩

/-- The integer part of a number; one that does not fit is the least integer. -/
def integerPart (w : Width) (x : Float) : UInt64 :=
  match w with
  | .quad =>
    if -9223372036854775808.0 ≤ x && x < 9223372036854775808.0 then x.toInt64.toUInt64
    else 0x8000000000000000
  | _ =>
    if -2147483649.0 < x && x < 2147483648.0 then x.toInt64.toUInt64 &&& 0xffffffff
    else 0x80000000

def floatOfInt (p : Precision) (w : Width) (a : UInt64) : UInt64 :=
  let n := (w.extend a).toInt64
  match p with
  | .double => n.toFloat.toBits
  | .single => n.toFloat32.toBits.toUInt64

end SourceDebugger.X86
