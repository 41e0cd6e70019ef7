import SourceDebugger.Memory.Word
/-!
How instructions of the x86-64 processor are written: prefixes, an opcode out of one of four tables,
a byte that describes the operands, a displacement and an immediate number. Only the first
instruction of some bytes is read, and what it does is not decided here.
-/
namespace SourceDebugger.X86

/-- The byte at a position; behind the end there are zeros. -/
@[inline] def byteAt (code : ByteArray) (i : Nat) : UInt8 :=
  if h : i < code.size then code[i] else 0

/-- The number that `size` bytes stand for, the lowest byte first. -/
def numberAt (code : ByteArray) (i : Nat) : (size : Nat) → UInt64
  | 0 => 0
  | n + 1 => numberAt code i n ||| ((byteAt code (i + n)).toUInt64 <<< UInt64.ofNat (8 * n))

/-- Repeats the highest of so many bytes' bits up to 64 bits. -/
def extendSign (size : Nat) (w : UInt64) : UInt64 :=
  match size with
  | 1 => w.toUInt8.toInt8.toInt64.toUInt64
  | 2 => w.toUInt16.toInt16.toInt64.toUInt64
  | 4 => w.toUInt32.toInt32.toInt64.toUInt64
  | _ => w

/-- The four tables of opcodes. -/
inductive OpcodeTable where
  | primary
  | secondary
  | extended
  /-- Every opcode of this table has an immediate byte. -/
  | extendedImmediate
  deriving DecidableEq, Repr, Inhabited

/-- The bytes in front of an opcode. -/
structure Prefixes where
  /-- Four bits that widen the operands and the choice of registers. -/
  rex : UInt8
  /-- Operands have 16 bits. -/
  narrow : Bool
  /-- Addresses have 32 bits. -/
  shortAddress : Bool
  /-- The last of the two prefixes for repetition, or 0. -/
  repetition : UInt8
  locked : Bool
  deriving DecidableEq, Repr, Inhabited

structure Encoding where
  prefixes : Prefixes
  /-- Written in the form for vector registers of three operands. -/
  vector : Bool
  table : OpcodeTable
  opcode : UInt8
  modrm : UInt8
  sib : UInt8
  displacement : UInt64
  immediate : UInt64
  length : Nat
  deriving Repr, Inhabited

namespace Encoding

/-- How the operand is addressed; 3 means a register. -/
@[inline] def mode (e : Encoding) : UInt8 := e.modrm >>> 6

/-- A register, or a part of the opcode. -/
@[inline] def middle (e : Encoding) : UInt8 := (e.modrm >>> 3) &&& 7

@[inline] def low (e : Encoding) : UInt8 := e.modrm &&& 7

/-- Operands have 64 bits. -/
@[inline] def wide (e : Encoding) : Bool := e.prefixes.rex &&& 8 != 0

end Encoding

/-- A table in rows of sixteen letters, which say what follows each opcode: `!` is no instruction,
`-` has nothing, `b` a byte, `w` two bytes, `z` four, `v` an immediate of full width, `a` an
address, `e` three bytes, `m` operands, `c` operands and a byte, `y` operands and four bytes,
`t` and `T` operands and, for a test, a byte or four. -/
def opcodeRows (rows : List String) : ByteArray := (String.join rows).toUTF8

def primaryOpcodes : ByteArray := opcodeRows
  [ "mmmmbz!!mmmmbz!!", "mmmmbz!!mmmmbz!!", "mmmmbz!!mmmmbz!!", "mmmmbz!!mmmmbz!!"
  , "!!!!!!!!!!!!!!!!", "----------------", "!!!m!!!!zybc----", "bbbbbbbbbbbbbbbb"
  , "cy!cmmmmmmmmmmmm", "----------!-----", "aaaa----bz------", "bbbbbbbbvvvvvvvv"
  , "ccw-!!cye-w--b!-", "mmmm!!!-mmmmmmmm", "bbbbbbbbzz!b----", "!-!!--tT------mm" ]

def secondaryOpcodes : ByteArray := opcodeRows
  [ "mmmm!-----!-!m-c", "mmmmmmmmmmmmmmmm", "mmmm!!!!mmmmmmmm", "------!-!!!!!!!!"
  , "mmmmmmmmmmmmmmmm", "mmmmmmmmmmmmmmmm", "mmmmmmmmmmmmmmmm", "ccccmmm-mm!!mmmm"
  , "zzzzzzzzzzzzzzzz", "mmmmmmmmmmmmmmmm", "---mcm!!---mcmmm", "mmmmmmmmmmcmmmmm"
  , "mmcmcccm--------", "mmmmmmmmmmmmmmmm", "mmmmmmmmmmmmmmmm", "mmmmmmmmmmmmmmmm" ]

/-- Reads prefixes; the widening one comes last. -/
def prefixesFrom (code : ByteArray) : (most : Nat) → (i : Nat) → Prefixes → Prefixes × Nat
  | 0, i, p => (p, i)
  | n + 1, i, p =>
    let b := byteAt code i
    if b &&& 0xf0 == 0x40 then ({ p with rex := b }, i + 1)
    else if b == 0x66 then prefixesFrom code n (i + 1) { p with narrow := true }
    else if b == 0x67 then prefixesFrom code n (i + 1) { p with shortAddress := true }
    else if b == 0xf0 then prefixesFrom code n (i + 1) { p with locked := true }
    else if b == 0xf2 || b == 0xf3 then prefixesFrom code n (i + 1) { p with repetition := b }
    else if b == 0x2e || b == 0x36 || b == 0x3e || b == 0x26 || b == 0x64 || b == 0x65 then
      prefixesFrom code n (i + 1) p
    else (p, i)

def noPrefixes : Prefixes := ⟨0, false, false, 0, false⟩

def isOperandLetter (letter : Char) : Bool :=
  letter == 'm' || letter == 'c' || letter == 'y' || letter == 't' || letter == 'T'

/-- How many bytes the immediate number has. -/
def immediateSize (letter : Char) (p : Prefixes) (modrm : UInt8) : Nat :=
  let wide := p.rex &&& 8 != 0
  let half := if p.narrow && !wide then 2 else 4
  match letter with
  | 'b' | 'c' => 1
  | 'w' => 2
  | 'z' | 'y' => half
  | 'v' => if wide then 8 else half
  | 'a' => if p.shortAddress then 4 else 8
  | 'e' => 3
  | 't' => if (modrm >>> 3) &&& 7 < 2 then 1 else 0
  | 'T' => if (modrm >>> 3) &&& 7 < 2 then half else 0
  | _ => 0

/-- How many bytes the displacement has. -/
def displacementSize (modrm sib : UInt8) : Nat :=
  match modrm >>> 6 with
  | 0 => if modrm &&& 7 == 5 || (modrm &&& 7 == 4 && sib &&& 7 == 5) then 4 else 0
  | 1 => 1
  | 2 => 4
  | _ => 0

/-- Some opcodes mean something only with some operands. -/
def isDefined (e : Encoding) : Bool :=
  let r := e.middle
  let memory := e.mode != 3
  match e.table with
  | .primary =>
    match e.opcode with
    | 0x8c => r < 6
    | 0x8d => memory
    | 0x8e => r < 6 && r != 1
    | 0x8f => r == 0
    | 0xc6 | 0xc7 => r == 0 || e.modrm == 0xf8
    | 0xfe => r < 2
    | 0xff => r != 7 && (memory || (r != 3 && r != 5))
    | _ => true
  | .secondary =>
    match e.opcode with
    | 0x00 => r < 6
    | 0x71 | 0x72 | 0x73 => !memory
    | 0xb2 | 0xb4 | 0xb5 => memory
    | 0xb8 => e.prefixes.repetition == 0xf3
    | 0xba => 4 ≤ r
    | 0xc3 => memory
    | 0xc7 => if memory then r == 1 || 3 ≤ r else 6 ≤ r
    | _ => true
  | _ => true

/-- Reads what follows an opcode. -/
def Encoding.finish? (code : ByteArray) (start i : Nat) (p : Prefixes) (vector : Bool)
    (table : OpcodeTable) (opcode : UInt8) (letter : Char) : Option Encoding :=
  let operands := isOperandLetter letter
  let modrm := if operands then byteAt code i else 0
  let i := if operands then i + 1 else i
  let indexed := operands && modrm >>> 6 != 3 && modrm &&& 7 == 4
  let sib := if indexed then byteAt code i else 0
  let i := if indexed then i + 1 else i
  let reach := if operands then displacementSize modrm sib else 0
  let size := immediateSize letter p modrm
  let stop := i + reach + size
  let e : Encoding :=
    { prefixes := p, vector, table, opcode, modrm, sib
      displacement := extendSign reach (numberAt code i reach)
      immediate := extendSign size (numberAt code (i + reach) size)
      length := stop - start }
  if letter == '!' || code.size < stop || 15 < stop - start || (operands && !isDefined e) then none
  else some e

def letterOf (opcodes : ByteArray) (opcode : UInt8) : Char :=
  Char.ofNat (byteAt opcodes opcode.toNat).toNat

/-- Reads an opcode of two or three bytes behind its first byte. -/
def Encoding.secondary? (code : ByteArray) (start i : Nat) (p : Prefixes) : Option Encoding :=
  let b := byteAt code i
  if b == 0x38 then finish? code start (i + 2) p false .extended (byteAt code (i + 1)) 'm'
  else if b == 0x3a then
    finish? code start (i + 2) p false .extendedImmediate (byteAt code (i + 1)) 'c'
  else finish? code start (i + 1) p false .secondary b (letterOf secondaryOpcodes b)

/-- Reads an instruction for vector registers, whose table is named by a number. -/
def Encoding.vector? (code : ByteArray) (start i : Nat) (p : Prefixes) (table : UInt8) :
    Option Encoding :=
  let b := byteAt code i
  match table with
  | 1 => finish? code start (i + 1) p true .secondary b (letterOf secondaryOpcodes b)
  | 2 => finish? code start (i + 1) p true .extended b 'm'
  | 3 => finish? code start (i + 1) p true .extendedImmediate b 'c'
  | _ => none

/-- Reads the instruction at a position. There is none if the bytes end too early or mean
nothing. -/
def Encoding.read? (code : ByteArray) (start : Nat) : Option Encoding :=
  let (p, i) := prefixesFrom code 14 start noPrefixes
  let b := byteAt code i
  if b == 0x0f then secondary? code start (i + 1) p
  else if b == 0xc5 then vector? code start (i + 2) p 1
  else if b == 0xc4 then vector? code start (i + 3) p (byteAt code (i + 1) &&& 31)
  else if b == 0x62 then vector? code start (i + 4) p (byteAt code (i + 1) &&& 7)
  else finish? code start (i + 1) p false .primary b (letterOf primaryOpcodes b)

end SourceDebugger.X86
