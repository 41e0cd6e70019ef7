import SourceDebugger.Machine.Assembly
/-!
The state of a running program: three regions of memory, the registers of its one real thread, and
the events not yet collected. Reading and writing fail outside the regions and never reach from
one into another.
-/
namespace SourceDebugger.Machine

/-- The process and its main thread share a number. -/
def mainThread : ThreadId := 4200

/-- What a machine does when it is looked at next. -/
inductive Motion where
  | stopped
  | running
  | stepping
  | exited
  deriving DecidableEq, Repr, Inhabited

end SourceDebugger.Machine

namespace SourceDebugger

/-- A running program. -/
structure Machine where
  executable : Machine.Executable
  code : Array UInt8
  stack : Array UInt8
  heap : Array UInt8
  registers : Registers
  /-- The arguments set for the next call, in their form in memory. -/
  arguments : Array Bytes
  threads : List ThreadId
  /-- Events in the order in which they will be given out. -/
  pending : List Event
  motion : Machine.Motion
  interruptRequested : Bool
  /-- The signal that ends the program when it is resumed. -/
  pendingSignal : Option Int
  deriving Inhabited

namespace Machine

/-- The events of a program that has just been loaded. -/
def startEvents (e : Executable) : List Event :=
  [.threadStarted mainThread, .moduleLoaded e.path codeBase (UInt64.ofNat e.code.size)] ++
    (e.libraries.mapIdx fun i l => (i, l)).filterMap fun (i, l) =>
      if l.atStart then some (.moduleLoaded l.path (libraryBase i) l.size) else none

/-- The entry function finds the return address 0, at which a program ends. -/
def boot (e : Executable) : Machine :=
  { executable := e, code := e.code
    stack := Array.replicate stackSize.toNat 0, heap := #[]
    registers := ⟨e.entry, stackTop - 8, 0⟩
    arguments := #[], threads := [mainThread], pending := startEvents e
    motion := .stopped, interruptRequested := false, pendingSignal := none }

inductive Region where
  | code
  | stack
  | heap
  deriving DecidableEq, Repr

def region (m : Machine) : Region → Array UInt8
  | .code => m.code
  | .stack => m.stack
  | .heap => m.heap

def Region.base : Region → Nat
  | .code => codeBase.toNat
  | .stack => stackTop.toNat - stackSize.toNat
  | .heap => heapBase.toNat

/-- The region in which a whole stretch lies, and where in it the stretch begins. -/
def locate (m : Machine) (address : UInt64) (length : Nat) : Except Fault (Region × Nat) :=
  let low := address.toNat
  if 2 ^ 64 ≤ low + length then .error (.addressOverflow address)
  else
    let holds := fun r : Region => r.base ≤ low && low + length ≤ r.base + (m.region r).size
    match [Region.code, .stack, .heap].find? holds with
    | some r => .ok (r, low - r.base)
    | none => .error (.unmapped address)

/-- Reading nothing succeeds everywhere. -/
def load (m : Machine) (address : UInt64) (length : Nat) : Except Fault Bytes :=
  if length = 0 then .ok []
  else do
    let (r, offset) ← m.locate address length
    .ok ((m.region r).extract offset (offset + length)).toList

def store (address : UInt64) (bytes : Bytes) : Access Machine Unit := do
  let (r, offset) ← Access.look (locate · address bytes.length)
  modify fun m => match r with
    | .code => { m with code := writeAt m.code offset bytes }
    | .stack => { m with stack := writeAt m.stack offset bytes }
    | .heap => { m with heap := writeAt m.heap offset bytes }

def setPc (pc : UInt64) : Access Machine Unit :=
  modify fun m => { m with registers := { m.registers with pc } }

def setSp (sp : UInt64) : Access Machine Unit :=
  modify fun m => { m with registers := { m.registers with sp } }

def setFp (fp : UInt64) : Access Machine Unit :=
  modify fun m => { m with registers := { m.registers with fp } }

/-- The stack pointer moves before the word is written, also if writing fails. -/
def push (word : UInt64) : Access Machine Unit := do
  let sp := (← get).registers.sp - 8
  setSp sp
  store sp (Bytes.ofWord word)

def pop : Access Machine UInt64 := do
  let sp := (← get).registers.sp
  let bytes ← Access.look (load · sp 8)
  setSp (sp + 8)
  return UInt64.ofNat (Bytes.toNat bytes)

/-- The heap only grows, by whole words. -/
def alloc (bytes : Bytes) : Access Machine UInt64 := do
  let size := (← get).heap.size
  modify fun m =>
    { m with heap := m.heap.appendList (bytes ++ List.replicate ((8 - bytes.length % 8) % 8) 0) }
  return heapBase + UInt64.ofNat size

def fatPointer (address : UInt64) (length : Nat) : Bytes :=
  Bytes.ofWord address ++ Bytes.ofNat 8 length

/-- The form of a datum in a slot; what it points to goes on the heap. -/
def encode : Datum → Access Machine Bytes
  | .int n => return Bytes.ofNat 4 n.toUInt32.toNat
  | .bool b => return [if b then 1 else 0]
  | .text none => return fatPointer 0 0
  | .text (some s) => do
    let bytes := s.toUTF8.data.toList
    return fatPointer (← alloc bytes) bytes.length
  | .ints ns => do
    return fatPointer (← alloc (ns.flatMap fun n => Bytes.ofNat 4 n.toUInt32.toNat)) ns.length
  | .object none => return Bytes.ofWord 0
  | .object (some bytes) => return Bytes.ofWord (← alloc bytes)

def emit (event : Event) : Access Machine Unit :=
  modify fun m => { m with pending := m.pending ++ [event] }

def stopWith (event : Event) : Access Machine Unit := do
  emit event
  modify fun m => { m with motion := .stopped }

def exitWith (code : Int) : Access Machine Unit := do
  emit (.exited code)
  modify fun m => { m with motion := .exited, threads := [] }

end Machine

end SourceDebugger
