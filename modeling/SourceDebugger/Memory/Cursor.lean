import SourceDebugger.Memory.Word
/-!
Reading numbers and texts from bytes, one after the other. A reading that needs more bytes than
there are, or finds bytes that mean nothing, is malformed and gives nothing.
-/
namespace SourceDebugger

/-- The bytes still to be read, and how many came before them. -/
structure Cursor where
  position : Nat
  rest : Bytes
  deriving Repr, Inhabited

/-- `none` is a malformed reading. -/
abbrev Reading (α : Type) := StateT Cursor Option α

namespace Reading

/-- Reads from the start of some bytes. -/
def from? {α : Type} (bytes : Bytes) (r : Reading α) : Option α := (r.run ⟨0, bytes⟩).map (·.1)

def malformed {α : Type} : Reading α := fun _ => none

def ofOption {α : Type} : Option α → Reading α
  | some a => pure a
  | none => malformed

def require (condition : Bool) : Reading Unit := if condition then pure () else malformed

def atEnd : Reading Bool := do return (← get).rest.isEmpty

def position : Reading Nat := do return (← get).position

def byte : Reading UInt8 := do
  match ← get with
  | ⟨_, []⟩ => malformed
  | ⟨n, b :: rest⟩ =>
    set (⟨n + 1, rest⟩ : Cursor)
    return b

/-- Splits off exactly `n` bytes. -/
def splitBytes : Nat → Bytes → Option (Bytes × Bytes)
  | 0, rest => some ([], rest)
  | _ + 1, [] => none
  | n + 1, b :: rest => (splitBytes n rest).map fun (taken, rest) => (b :: taken, rest)

def bytes (n : Nat) : Reading Bytes := do
  let c ← get
  match splitBytes n c.rest with
  | none => malformed
  | some (taken, rest) =>
    set (⟨c.position + n, rest⟩ : Cursor)
    return taken

def skip (n : Nat) : Reading Unit := do
  let _ ← bytes n

/-- A number of so many bytes. -/
def number (size : Nat) : Reading Nat := do return Bytes.toNat (← bytes size)

def word : Reading UInt64 := do return UInt64.ofNat (← number 8)

/-- A text up to its end mark, which is the byte 0. -/
def text : Reading Bytes := do
  let c ← get
  let taken := c.rest.takeWhile (· ≠ 0)
  match c.rest.drop taken.length with
  | [] => malformed
  | _ :: rest =>
    set (⟨c.position + taken.length + 1, rest⟩ : Cursor)
    return taken

/-- How many groups of seven bits a 64-bit number may be written in. -/
def maxGroups : Nat := 10

/-- Seven bits from each byte, the lowest first, until a byte has its highest bit clear. The tenth
byte has room for one bit. -/
def unsignedGroups : (left shift : Nat) → Reading Nat
  | 0, _ => malformed
  | n + 1, shift => do
    let b ← byte
    require (shift < 63 || b ≤ 1)
    let low := (b.toNat % 128) <<< shift
    if b < 128 then return low
    return low + (← unsignedGroups n (shift + 7))

/-- A number of variable length. -/
def unsigned : Reading Nat := unsignedGroups maxGroups 0

/-- As for unsigned numbers; bit 6 of the last byte is the sign. -/
def signedGroups : (left shift : Nat) → Reading Int
  | 0, _ => malformed
  | n + 1, shift => do
    let b ← byte
    require (shift < 63 || b = 0 || b = 0x7f)
    let low : Int := ((b.toNat % 128) <<< shift : Nat)
    if b < 128 then return if 64 ≤ b then low - ((128 <<< shift : Nat) : Int) else low
    return low + (← signedGroups n (shift + 7))

/-- A number of variable length that may be negative. -/
def signed : Reading Int := do
  return ((← signedGroups maxGroups 0) + 2 ^ 63) % 2 ^ 64 - 2 ^ 63

/-- A number of variable length that fits into sixteen bits. -/
def unsigned16 : Reading Nat := do
  let n ← unsigned
  require (n < 2 ^ 16)
  return n

end Reading

namespace Bytes

/-- The bytes from an offset on, as many as there are. -/
def after? (bytes : Bytes) (offset : Nat) : Option Bytes :=
  if offset ≤ bytes.length then some (bytes.drop offset) else none

/-- Exactly `size` bytes from an offset on. -/
def slice? (bytes : Bytes) (offset size : Nat) : Option Bytes :=
  if offset + size ≤ bytes.length then some ((bytes.drop offset).take size) else none

end Bytes

end SourceDebugger
