import SourceDebugger.Memory.Word
/-!
The registers of a processor: sixteen general ones, the program counter, the flags that conditions
look at, and sixteen registers for floating-point numbers.
-/
namespace SourceDebugger.X86

inductive Register where
  | rax | rcx | rdx | rbx | rsp | rbp | rsi | rdi
  | r8 | r9 | r10 | r11 | r12 | r13 | r14 | r15
  deriving DecidableEq, Repr, Inhabited

/-- Registers are numbered in this order; only four bits count. -/
def Register.ofNumber (n : UInt8) : Register :=
  match n &&& 15 with
  | 0 => .rax
  | 1 => .rcx
  | 2 => .rdx
  | 3 => .rbx
  | 4 => .rsp
  | 5 => .rbp
  | 6 => .rsi
  | 7 => .rdi
  | 8 => .r8
  | 9 => .r9
  | 10 => .r10
  | 11 => .r11
  | 12 => .r12
  | 13 => .r13
  | 14 => .r14
  | _ => .r15

/-- The sizes of operands. -/
inductive Width where
  | byte | word | double | quad
  deriving DecidableEq, Repr, Inhabited

namespace Width

def size : Width → Nat
  | byte => 1
  | word => 2
  | double => 4
  | quad => 8

def bits : Width → UInt64
  | byte => 8
  | word => 16
  | double => 32
  | quad => 64

def mask : Width → UInt64
  | byte => 0xff
  | word => 0xffff
  | double => 0xffffffff
  | quad => 0xffffffffffffffff

/-- The highest bit, which is the sign. -/
def signBit : Width → UInt64
  | byte => 0x80
  | word => 0x8000
  | double => 0x80000000
  | quad => 0x8000000000000000

/-- Repeats the sign up to 64 bits. -/
def extend (w : Width) (a : UInt64) : UInt64 :=
  match w with
  | byte => a.toUInt8.toInt8.toInt64.toUInt64
  | word => a.toUInt16.toInt16.toInt64.toUInt64
  | double => a.toUInt32.toInt32.toInt64.toUInt64
  | quad => a

end Width

/-- What an operation tells of its result. -/
structure Flags where
  carry : Bool
  parity : Bool
  zero : Bool
  sign : Bool
  overflow : Bool
  deriving DecidableEq, Repr, Inhabited

/-- The conditions in the order of their numbers, each second one negated. -/
def Flags.holds (f : Flags) (condition : UInt8) : Bool :=
  let positive := match (condition >>> 1) &&& 7 with
    | 0 => f.overflow
    | 1 => f.carry
    | 2 => f.zero
    | 3 => f.carry || f.zero
    | 4 => f.sign
    | 5 => f.parity
    | 6 => f.sign != f.overflow
    | _ => f.zero || f.sign != f.overflow
  positive != (condition &&& 1 == 1)

/-- The flags as they are saved in memory. -/
def Flags.toWord (f : Flags) : UInt64 :=
  0x202 ||| (if f.carry then 1 else 0) ||| (if f.parity then 4 else 0)
    ||| (if f.zero then 0x40 else 0) ||| (if f.sign then 0x80 else 0) ||| (if f.overflow then 0x800 else 0)

def Flags.ofWord (w : UInt64) : Flags :=
  ⟨w &&& 1 != 0, w &&& 4 != 0, w &&& 0x40 != 0, w &&& 0x80 != 0, w &&& 0x800 != 0⟩

/-- A register of 128 bits in two halves. -/
structure Wide where
  low : UInt64
  high : UInt64
  deriving DecidableEq, Repr, Inhabited

structure Cpu where
  rax : UInt64
  rcx : UInt64
  rdx : UInt64
  rbx : UInt64
  rsp : UInt64
  rbp : UInt64
  rsi : UInt64
  rdi : UInt64
  r8 : UInt64
  r9 : UInt64
  r10 : UInt64
  r11 : UInt64
  r12 : UInt64
  r13 : UInt64
  r14 : UInt64
  r15 : UInt64
  pc : UInt64
  flags : Flags
  floating : Array Wide
  deriving DecidableEq, Repr, Inhabited

namespace Cpu

/-- The state in which a program begins: only the stack and the entry are set. -/
def atEntry (pc sp : UInt64) : Cpu :=
  { rax := 0, rcx := 0, rdx := 0, rbx := 0, rsp := sp, rbp := 0, rsi := 0, rdi := 0
    r8 := 0, r9 := 0, r10 := 0, r11 := 0, r12 := 0, r13 := 0, r14 := 0, r15 := 0
    pc, flags := ⟨false, false, false, false, false⟩, floating := Array.replicate 16 ⟨0, 0⟩ }

def get (c : Cpu) : Register → UInt64
  | .rax => c.rax
  | .rcx => c.rcx
  | .rdx => c.rdx
  | .rbx => c.rbx
  | .rsp => c.rsp
  | .rbp => c.rbp
  | .rsi => c.rsi
  | .rdi => c.rdi
  | .r8 => c.r8
  | .r9 => c.r9
  | .r10 => c.r10
  | .r11 => c.r11
  | .r12 => c.r12
  | .r13 => c.r13
  | .r14 => c.r14
  | .r15 => c.r15

def set (c : Cpu) (r : Register) (w : UInt64) : Cpu :=
  match r with
  | .rax => { c with rax := w }
  | .rcx => { c with rcx := w }
  | .rdx => { c with rdx := w }
  | .rbx => { c with rbx := w }
  | .rsp => { c with rsp := w }
  | .rbp => { c with rbp := w }
  | .rsi => { c with rsi := w }
  | .rdi => { c with rdi := w }
  | .r8 => { c with r8 := w }
  | .r9 => { c with r9 := w }
  | .r10 => { c with r10 := w }
  | .r11 => { c with r11 := w }
  | .r12 => { c with r12 := w }
  | .r13 => { c with r13 := w }
  | .r14 => { c with r14 := w }
  | .r15 => { c with r15 := w }

theorem get_set (c : Cpu) (r : Register) (w : UInt64) : (c.set r w).get r = w := by
  cases r <;> rfl

theorem get_set_of_ne (c : Cpu) {r s : Register} (w : UInt64) (h : s ≠ r) :
    (c.set r w).get s = c.get s := by
  cases r <;> cases s <;> first | rfl | exact absurd rfl h

/-- The low part of a register. -/
def read (c : Cpu) (w : Width) (r : Register) : UInt64 := c.get r &&& w.mask

/-- A result of 32 bits clears the upper half; smaller ones leave the rest alone. -/
def write (c : Cpu) (w : Width) (r : Register) (a : UInt64) : Cpu :=
  match w with
  | .quad => c.set r a
  | .double => c.set r (a &&& 0xffffffff)
  | _ => c.set r ((c.get r &&& ~~~w.mask) ||| (a &&& w.mask))

end Cpu

end SourceDebugger.X86
