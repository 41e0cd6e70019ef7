import SourceDebugger.X86.Encoding
import SourceDebugger.X86.Register
/-!
What instructions do, and which encoding means what. The part of the instruction set that compilers
use for ordinary programs is covered; other encodings have no operation.
-/
namespace SourceDebugger.X86

/-- A place in memory, given by registers. -/
structure Address where
  base : Option Register
  index : Option Register
  scale : UInt64
  displacement : UInt64
  /-- Counted from the following instruction. -/
  relative : Bool
  /-- Only 32 bits of the sum count. -/
  short : Bool
  deriving DecidableEq, Repr, Inhabited

inductive Operand where
  | register (r : Register)
  /-- The second byte of one of the first four registers. -/
  | second (r : Register)
  | memory (a : Address)
  | immediate (w : UInt64)
  deriving DecidableEq, Repr, Inhabited

inductive BinaryOp where
  | add | or | addCarry | subBorrow | and | sub | xor | compare | test
  deriving DecidableEq, Repr, Inhabited

inductive UnaryOp where
  | not | negate | increment | decrement
  deriving DecidableEq, Repr, Inhabited

inductive ShiftOp where
  | rotateLeft | rotateRight | left | right | arithmetic
  deriving DecidableEq, Repr, Inhabited

/-- The two kinds of floating-point numbers. -/
inductive Precision where
  | single | double
  deriving DecidableEq, Repr, Inhabited

inductive FloatOp where
  | add | multiply | subtract | divide | minimum | maximum | squareRoot
  deriving DecidableEq, Repr, Inhabited

inductive StringOp where
  | move | store
  deriving DecidableEq, Repr, Inhabited

/-- A floating-point register or a place in memory. -/
inductive FloatOperand where
  | register (n : Nat)
  | memory (a : Address)
  deriving DecidableEq, Repr, Inhabited

inductive Operation where
  | nothing
  | move (w : Width) (target source : Operand)
  | extend (signed : Bool) (narrow w : Width) (target : Register) (source : Operand)
  | address (w : Width) (target : Register) (a : Address)
  | binary (op : BinaryOp) (w : Width) (target source : Operand)
  | unary (op : UnaryOp) (w : Width) (target : Operand)
  | shift (op : ShiftOp) (w : Width) (target count : Operand)
  | multiply (w : Width) (target : Register) (a b : Operand)
  | multiplyWide (signed : Bool) (w : Width) (source : Operand)
  | divide (signed : Bool) (w : Width) (source : Operand)
  /-- Widens the accumulator in place, to the given width. -/
  | widen (w : Width)
  /-- Fills the data register with the accumulator's sign. -/
  | fillSign (w : Width)
  | exchange (w : Width) (a b : Operand)
  | push (source : Operand)
  | pop (target : Operand)
  | leave
  | call (target : Operand)
  | jump (target : Operand)
  | callBy (offset : UInt64)
  | jumpBy (offset : UInt64)
  | jumpIf (condition : UInt8) (offset : UInt64)
  | return (extra : UInt64)
  | setIf (condition : UInt8) (target : Operand)
  | moveIf (condition : UInt8) (w : Width) (target : Register) (source : Operand)
  | string (op : StringOp) (w : Width) (repeated : Bool)
  | trap
  | systemCall
  /-- Moves so many bytes of a floating-point register; the rest of a target is cleared if the
  source is memory. -/
  | floatMove (size : Nat) (target source : FloatOperand)
  /-- Moves a whole word between a general and a floating-point register. -/
  | floatExchange (toFloat : Bool) (w : Width) (n : Nat) (o : Operand)
  | floatBinary (op : FloatOp) (p : Precision) (target : Nat) (source : FloatOperand)
  | floatCompare (p : Precision) (a : Nat) (b : FloatOperand)
  | floatConvert (source target : Precision) (n : Nat) (o : FloatOperand)
  | floatOfInt (p : Precision) (w : Width) (target : Nat) (source : Operand)
  | intOfFloat (p : Precision) (w : Width) (target : Register) (source : FloatOperand)
  | floatXor (target : Nat) (source : FloatOperand)
  deriving Repr, Inhabited

namespace Encoding

/-- The width of operands other than bytes. -/
def width (e : Encoding) : Width :=
  if e.wide then .quad else if e.prefixes.narrow then .word else .double

/-- The width of the operands of an opcode whose lowest bit is clear for bytes. -/
def widthBy (e : Encoding) : Width := if e.opcode &&& 1 == 0 then .byte else e.width

/-- A register's number, whose fourth bit is in the widening prefix. -/
def numbered (e : Encoding) (n : UInt8) (bit : UInt8) : UInt8 :=
  if e.prefixes.rex &&& bit == 0 then n else n ||| 8

def middleNumber (e : Encoding) : UInt8 := e.numbered e.middle 4

def lowNumber (e : Encoding) : UInt8 := e.numbered e.low 1

/-- The register that the opcode names. -/
def opcodeRegister (e : Encoding) : Register := .ofNumber (e.numbered (e.opcode &&& 7) 1)

def middleRegister (e : Encoding) : Register := .ofNumber e.middleNumber

/-- Four numbers of byte registers mean second bytes, unless there is a widening prefix. -/
def registerOperand (e : Encoding) (w : Width) (n : UInt8) : Operand :=
  if w == .byte && e.prefixes.rex == 0 && 4 ≤ n then .second (.ofNumber (n - 4))
  else .register (.ofNumber n)

def indexed (e : Encoding) : Address :=
  let baseBits := e.sib &&& 7
  let index := e.numbered ((e.sib >>> 3) &&& 7) 2
  { base := if baseBits == 5 && e.mode == 0 then none else some (.ofNumber (e.numbered baseBits 1))
    index := if index == 4 then none else some (.ofNumber index)
    scale := (1 : UInt64) <<< (e.sib >>> 6).toUInt64
    displacement := e.displacement, relative := false, short := e.prefixes.shortAddress }

def addressed (e : Encoding) : Address :=
  if e.low == 4 then e.indexed
  else
    let relative := e.mode == 0 && e.low == 5
    { base := if relative then none else some (.ofNumber e.lowNumber), index := none, scale := 1
      displacement := e.displacement, relative, short := e.prefixes.shortAddress }

/-- The operand that may be in memory. -/
def flexible (e : Encoding) (w : Width) : Operand :=
  if e.mode == 3 then e.registerOperand w e.lowNumber else .memory e.addressed

def fixed (e : Encoding) (w : Width) : Operand := e.registerOperand w e.middleNumber

def flexibleFloat (e : Encoding) : FloatOperand :=
  if e.mode == 3 then .register e.lowNumber.toNat else .memory e.addressed

/-- Operations of the first eight rows, by number. -/
def binaryOp (n : UInt8) : BinaryOp :=
  match n &&& 7 with
  | 0 => .add
  | 1 => .or
  | 2 => .addCarry
  | 3 => .subBorrow
  | 4 => .and
  | 5 => .sub
  | 6 => .xor
  | _ => .compare

def shiftOp? (n : UInt8) : Option ShiftOp :=
  match n with
  | 0 => some .rotateLeft
  | 1 => some .rotateRight
  | 4 | 6 => some .left
  | 5 => some .right
  | 7 => some .arithmetic
  | _ => none

/-- The six forms of an arithmetic operation. -/
def arithmetic (e : Encoding) : Operation :=
  let op := binaryOp (e.opcode >>> 3)
  let w := e.widthBy
  match e.opcode &&& 7 with
  | 0 | 1 => .binary op w (e.flexible w) (e.fixed w)
  | 2 | 3 => .binary op w (e.fixed w) (e.flexible w)
  | _ => .binary op w (.register .rax) (.immediate e.immediate)

/-- Operations on one operand. -/
def group3 (e : Encoding) : Operation :=
  let w := e.widthBy
  let o := e.flexible w
  match e.middle with
  | 0 | 1 => .binary .test w o (.immediate e.immediate)
  | 2 => .unary .not w o
  | 3 => .unary .negate w o
  | 4 => .multiplyWide false w o
  | 5 => .multiplyWide true w o
  | 6 => .divide false w o
  | _ => .divide true w o

def group5? (e : Encoding) : Option Operation :=
  let w := e.widthBy
  match e.middle with
  | 0 => some (.unary .increment w (e.flexible w))
  | 1 => some (.unary .decrement w (e.flexible w))
  | 2 => some (.call (e.flexible .quad))
  | 4 => some (.jump (e.flexible .quad))
  | 6 => some (.push (e.flexible .quad))
  | _ => none

def shifted? (e : Encoding) (count : Operand) : Option Operation :=
  (shiftOp? e.middle).map fun op => .shift op e.widthBy (e.flexible e.widthBy) count

def primaryOperation? (e : Encoding) : Option Operation :=
  let b := e.opcode
  if b < 0x40 then some e.arithmetic
  else if b < 0x58 then some (.push (.register e.opcodeRegister))
  else if b < 0x60 then some (.pop (.register e.opcodeRegister))
  else if b &&& 0xf0 == 0x70 then some (.jumpIf b e.immediate)
  else if 0x91 ≤ b && b < 0x98 then
    some (.exchange e.width (.register .rax) (.register e.opcodeRegister))
  else if b &&& 0xf8 == 0xb0 then
    some (.move .byte (e.registerOperand .byte (e.numbered (b &&& 7) 1)) (.immediate e.immediate))
  else if b &&& 0xf8 == 0xb8 then
    some (.move e.width (.register e.opcodeRegister) (.immediate e.immediate))
  else match b with
    | 0x63 => some (.extend true .double e.width e.middleRegister (e.flexible .double))
    | 0x68 | 0x6a => some (.push (.immediate e.immediate))
    | 0x69 | 0x6b =>
      some (.multiply e.width e.middleRegister (e.flexible e.width) (.immediate e.immediate))
    | 0x80 | 0x81 | 0x83 =>
      some (.binary (binaryOp e.middle) e.widthBy (e.flexible e.widthBy) (.immediate e.immediate))
    | 0x84 | 0x85 => some (.binary .test e.widthBy (e.flexible e.widthBy) (e.fixed e.widthBy))
    | 0x86 | 0x87 => some (.exchange e.widthBy (e.flexible e.widthBy) (e.fixed e.widthBy))
    | 0x88 | 0x89 => some (.move e.widthBy (e.flexible e.widthBy) (e.fixed e.widthBy))
    | 0x8a | 0x8b => some (.move e.widthBy (e.fixed e.widthBy) (e.flexible e.widthBy))
    | 0x8d => some (.address e.width e.middleRegister e.addressed)
    | 0x8f => some (.pop (e.flexible .quad))
    | 0x90 => some .nothing
    | 0x98 => some (.widen e.width)
    | 0x99 => some (.fillSign e.width)
    | 0xa4 | 0xa5 => some (.string .move e.widthBy (e.prefixes.repetition != 0))
    | 0xa8 | 0xa9 => some (.binary .test e.widthBy (.register .rax) (.immediate e.immediate))
    | 0xaa | 0xab => some (.string .store e.widthBy (e.prefixes.repetition != 0))
    | 0xc0 | 0xc1 => e.shifted? (.immediate e.immediate)
    | 0xc2 => some (.return (e.immediate &&& 0xffff))
    | 0xc3 => some (.return 0)
    | 0xc6 | 0xc7 =>
      if e.middle == 0 then
        some (.move e.widthBy (e.flexible e.widthBy) (.immediate e.immediate))
      else none
    | 0xc9 => some .leave
    | 0xcc => some .trap
    | 0xd0 | 0xd1 => e.shifted? (.immediate 1)
    | 0xd2 | 0xd3 => e.shifted? (.register .rcx)
    | 0xe8 => some (.callBy e.immediate)
    | 0xe9 | 0xeb => some (.jumpBy e.immediate)
    | 0xf6 | 0xf7 => some e.group3
    | 0xfe | 0xff => e.group5?
    | _ => none

/-- Instructions on floating-point numbers, told apart by their prefixes. -/
def floatOperation? (e : Encoding) : Option Operation :=
  let n := e.middleNumber.toNat
  let o := e.flexibleFloat
  let scalar : Option Precision := match e.prefixes.repetition with
    | 0xf3 => some .single
    | 0xf2 => some .double
    | _ => none
  let compared : Precision := if e.prefixes.narrow then .double else .single
  let moved := match scalar with
    | some .single => 4
    | some .double => 8
    | none => 16
  let computed := fun (op : FloatOp) => scalar.map fun p => Operation.floatBinary op p n o
  match e.opcode with
  | 0x10 => some (.floatMove moved (.register n) o)
  | 0x11 => some (.floatMove moved o (.register n))
  | 0x28 | 0x6f => some (.floatMove 16 (.register n) o)
  | 0x29 | 0x7f => some (.floatMove 16 o (.register n))
  | 0x2a => scalar.map fun p => .floatOfInt p e.width n (e.flexible e.width)
  | 0x2c => scalar.map fun p => .intOfFloat p e.width e.middleRegister o
  | 0x2e | 0x2f => some (.floatCompare compared n o)
  | 0x51 => computed .squareRoot
  | 0x57 | 0xef => some (.floatXor n o)
  | 0x58 => computed .add
  | 0x59 => computed .multiply
  | 0x5a => scalar.map fun p => .floatConvert p (if p = .single then .double else .single) n o
  | 0x5c => computed .subtract
  | 0x5d => computed .minimum
  | 0x5e => computed .divide
  | 0x5f => computed .maximum
  | 0x6e => some (.floatExchange true e.width n (e.flexible e.width))
  | 0x7e =>
    if scalar = some .single then some (.floatMove 8 (.register n) o)
    else some (.floatExchange false e.width n (e.flexible e.width))
  | 0xd6 => some (.floatMove 8 o (.register n))
  | _ => none

def secondaryOperation? (e : Encoding) : Option Operation :=
  let b := e.opcode
  if b &&& 0xf0 == 0x80 then some (.jumpIf b e.immediate)
  else if b &&& 0xf0 == 0x90 then some (.setIf b (e.flexible .byte))
  else if b &&& 0xf0 == 0x40 then some (.moveIf b e.width e.middleRegister (e.flexible e.width))
  else match b with
    | 0x05 => some .systemCall
    | 0x0d | 0x18 | 0x19 | 0x1a | 0x1b | 0x1c | 0x1d | 0x1e | 0x1f => some .nothing
    | 0xaf =>
      some (.multiply e.width e.middleRegister (.register e.middleRegister) (e.flexible e.width))
    | 0xb6 => some (.extend false .byte e.width e.middleRegister (e.flexible .byte))
    | 0xb7 => some (.extend false .word e.width e.middleRegister (e.flexible .word))
    | 0xbe => some (.extend true .byte e.width e.middleRegister (e.flexible .byte))
    | 0xbf => some (.extend true .word e.width e.middleRegister (e.flexible .word))
    | _ => e.floatOperation?

/-- What an encoding means, if it is covered. -/
def operation? (e : Encoding) : Option Operation :=
  if e.vector then none
  else match e.table with
    | .primary => e.primaryOperation?
    | .secondary => e.secondaryOperation?
    | _ => none

end Encoding

end SourceDebugger.X86
