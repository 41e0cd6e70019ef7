import SourceDebugger.CallStack
import SourceDebugger.Config
import SourceDebugger.Text.Utf8
import SourceDebugger.Value.Basic
/-!
Reading values out of a debuggee by their types. A failure to read memory makes the value
unavailable and nothing worse.
-/
namespace SourceDebugger

namespace Value

variable {δ : Type} [Debuggee δ]

/-- Reads exactly so many bytes. -/
def readExactly (d : δ) (address : UInt64) (length : Nat) : Except Fault Bytes := do
  let bytes ← Debuggee.read d address length
  if bytes.length = length then .ok bytes else .error (.shortRead address bytes.length length)

def readNat (d : δ) (address : UInt64) (length : Nat) : Except Fault Nat := do
  .ok (Bytes.toNat (← readExactly d address length))

/-- A pointer and the length stored behind it. -/
def readFat (d : δ) (address : UInt64) : Except Fault (UInt64 × Nat) := do
  let pointer ← readNat d address 8
  if 2 ^ 64 ≤ address.toNat + 8 then .error (.addressOverflow address)
  else .ok (UInt64.ofNat pointer, ← readNat d (address + 8) 8)

/-- Integers of any other width are read in the nearest width there is. -/
def intWidth (size : UInt8) : Nat := min (max size.toNat 1) 8

def readType (d : δ) (config : Config) (generation : Nat) (address : UInt64) :
    ValueType → Except Fault Value
  | .int signed size => do
    let width := intWidth size
    let n ← readNat d address width
    .ok (.primitive (if signed then .int (Int.bmod n (256 ^ width)) else .uint n))
  | .float 4 => do
    .ok (.primitive (.float (Decimal.widen (UInt32.ofNat (← readNat d address 4)))))
  | .float _ => do .ok (.primitive (.float (UInt64.ofNat (← readNat d address 8))))
  | .bool => do .ok (.primitive (.bool ((← readNat d address 1) != 0)))
  | .char => do
    let n ← readNat d address 4
    .ok (if h : n.isValidChar then .primitive (.char (Char.ofNatAux n h))
      else .unavailable ("invalid char " ++ Text.hexMarked n))
  | .text => do
    let (pointer, length) ← readFat d address
    if pointer = 0 then .ok (.null ValueType.text.render)
    else .ok (.text (Text.ofUtf8Lossy (← readExactly d pointer (min length config.maxTextBytes))))
  | .slice element => do
    let (pointer, length) ← readFat d address
    if pointer = 0 then .ok (.null (ValueType.slice element).render)
    else if config.maxElements < length then
      .ok (.unavailable ("array length " ++ toString length ++ " is too large"))
    else .ok (.array ⟨element, pointer, length, generation⟩)
  | .pointer name => do
    let pointer := UInt64.ofNat (← readNat d address 8)
    .ok (if pointer = 0 then .null name else .object name pointer)
  | .unknown name size =>
    .ok (if 0 < size then .object name address else .unavailable ("unsized type " ++ name))

def readAt (d : δ) (config : Config) (generation : Nat) (address : UInt64) (type : ValueType) :
    Value :=
  match readType d config generation address type with
  | .ok v => v
  | .error _ => .unavailable ("unreadable memory at " ++ Text.hexMarked address.toNat)

/-- Where a variable of a frame lies, or why that cannot be said. -/
def addressOf (frame : Frame) : Place → Except String UInt64
  | .frame offset =>
    let base := match frame.base with
      | .framePointer => frame.fp
      | .stackPointer => frame.sp
      | .canonicalAddress => frame.fp + 16
    .ok (base + offset.toUInt64)
  | .address a => .ok a
  | .register _ => .error "register location"
  | .optimizedOut => .error "optimized out"
  | .unsupported => .error "unsupported location"

def readVariable (d : δ) (config : Config) (generation : Nat) (frame : Frame)
    (info : VariableInfo) : Variable :=
  { name := info.name, typeName := info.type.render
    value := match addressOf frame info.place with
      | .ok address => readAt d config generation address info.type
      | .error reason => .unavailable reason }

/-- An element of an array, the index being in range. -/
def readElement (d : δ) (config : Config) (generation : Nat) (a : ArrayValue) (index : Nat) :
    Value :=
  let offset := index * a.element.byteSize.toNat
  if offset < 2 ^ 64 ∧ a.address.toNat + offset < 2 ^ 64 then
    readAt d config generation (a.address + UInt64.ofNat offset) a.element
  else
    .unavailable ("element " ++ toString index ++ " of array at " ++ Text.hexMarked a.address.toNat
      ++ " is out of the address space")

end Value

end SourceDebugger
