import SourceDebugger.Text.Numeral
/-!
Words in memory are little-endian: the byte at the lowest address has the least weight.
-/
namespace SourceDebugger

abbrev Bytes := List UInt8

namespace Bytes

/-- The number that bytes stand for. -/
def toNat : Bytes → Nat
  | [] => 0
  | b :: rest => b.toNat + 256 * Bytes.toNat rest

/-- The `size` lowest bytes of a number. -/
def ofNat : (size : Nat) → Nat → Bytes
  | 0, _ => []
  | size + 1, n => UInt8.ofNat n :: Bytes.ofNat size (n / 256)

def ofWord (w : UInt64) : Bytes := ofNat 8 w.toNat

/-- Two hexadecimal digits for each byte. -/
def render (bytes : Bytes) : String :=
  String.join (bytes.map fun b => Text.padLeft '0' 2 (Text.hex b.toNat))

theorem length_ofNat (size n : Nat) : (ofNat size n).length = size := by
  induction size generalizing n with
  | zero => rfl
  | succ size ih => simp [ofNat, ih]

theorem toNat_ofNat (size n : Nat) : toNat (ofNat size n) = n % 256 ^ size := by
  induction size generalizing n with
  | zero => simp [toNat, ofNat, Nat.mod_one]
  | succ size ih =>
    have low : (UInt8.ofNat n).toNat = n % 256 := by simp [UInt8.toNat_ofNat']
    rw [ofNat, toNat, ih, low, Nat.pow_succ, Nat.mul_comm (256 ^ size) 256, Nat.mod_mul]

end Bytes

/-- The integers that memory is read as. -/
inductive Scalar where
  | u8 | u16 | u32 | u64 | i32 | i64
  deriving DecidableEq, Repr

namespace Scalar

def size : Scalar → Nat
  | u8 => 1
  | u16 => 2
  | u32 | i32 => 4
  | u64 | i64 => 8

def name : Scalar → String
  | u8 => "u8"
  | u16 => "u16"
  | u32 => "u32"
  | u64 => "u64"
  | i32 => "i32"
  | i64 => "i64"

def signed : Scalar → Bool
  | i32 | i64 => true
  | _ => false

/-- The value of exactly as many bytes as the type has. -/
def read? (s : Scalar) (bytes : Bytes) : Option Int :=
  if bytes.length = s.size then
    let n := Bytes.toNat bytes
    some (if s.signed then Int.bmod n (256 ^ s.size) else n)
  else none

def mismatch (s : Scalar) (given : Nat) : String :=
  "Failed to convert " ++ toString given ++ " bytes to " ++ s.name ++ " (expected "
    ++ toString s.size ++ " bytes)"

end Scalar

end SourceDebugger
