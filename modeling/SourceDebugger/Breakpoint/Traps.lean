import SourceDebugger.Breakpoint.Basic
import SourceDebugger.Debuggee.TrapByte
/-!
The traps in a debuggee's code. A trap has owners: breakpoints, and steps on their way to an
address. It is inserted for its first owner and taken out with its last. Whoever reads code through
the table sees the bytes that traps cover.
-/
namespace SourceDebugger

structure Trap where
  byte : TrapByte
  users : List BreakpointId
  /-- How many steps own the trap. -/
  steps : Nat
  deriving DecidableEq, Repr, Inhabited

namespace Trap

def address (t : Trap) : UInt64 := t.byte.address

def isUnused (t : Trap) : Bool := t.users.isEmpty && t.steps == 0

def addUser (id : BreakpointId) (t : Trap) : Trap :=
  { t with users := if t.users.contains id then t.users else id :: t.users }

def removeUser (id : BreakpointId) (t : Trap) : Trap := { t with users := t.users.filter (· ≠ id) }

end Trap

/-- At most one trap for each address. -/
structure Traps where
  entries : List Trap
  deriving DecidableEq, Repr, Inhabited

namespace Traps

def find? (ts : Traps) (address : UInt64) : Option Trap := ts.entries.find? (·.address = address)

def contains (ts : Traps) (address : UInt64) : Bool := (ts.find? address).isSome

def users (ts : Traps) (address : UInt64) : List BreakpointId :=
  ((ts.find? address).map (·.users)).getD []

def update (ts : Traps) (address : UInt64) (f : Trap → Trap) : Traps :=
  ⟨ts.entries.map fun t => if t.address = address then f t else t⟩

def erase (ts : Traps) (address : UInt64) : Traps :=
  ⟨ts.entries.filter (·.address ≠ address)⟩

def insert (ts : Traps) (t : Trap) : Traps := ⟨t :: ts.entries⟩

/-- Drops the traps from `low` up to, not including, `high`: their memory is gone. -/
def forget (ts : Traps) (low high : UInt64) : Traps :=
  ⟨ts.entries.filter fun t => t.address < low || high ≤ t.address⟩

/-- The byte that was at an address before a trap was. -/
def covered (ts : Traps) (address : UInt64) (byte : UInt8) : UInt8 :=
  match ts.find? address with
  | some t => if t.byte.inserted then t.byte.covered else byte
  | none => byte

/-- Undoes the traps in bytes read from an address. The last byte of the address space is left. -/
def mask (ts : Traps) (address : UInt64) : Bytes → Bytes
  | [] => []
  | b :: rest =>
    (if address + 1 = 0 then b else ts.covered address b) :: ts.mask (address + 1) rest

end Traps

/-- A debuggee with the traps in its code. -/
structure Instrumented (δ : Type) where
  traps : Traps
  debuggee : δ

namespace Instrumented

variable {δ : Type} [Debuggee δ]

/-- Carries out an operation on one trap byte and keeps it as it is afterwards. -/
def onByte (t : Trap) (f : TrapByte → StateM δ (TrapByte × Except Fault Unit)) :
    Access (Instrumented δ) Trap := fun s =>
  let traps := s.traps
  let ((byte, r), debuggee) := f t.byte s.debuggee
  match r with
  | .ok () => (.ok { t with byte }, ⟨traps, debuggee⟩)
  | .error e => (.error e, ⟨traps.update t.address fun t => { t with byte }, debuggee⟩)

def setTraps (f : Traps → Traps) : Access (Instrumented δ) Unit :=
  modify fun s => { s with traps := f s.traps }

/-- Makes sure that there is a trap at an address. -/
def acquire (address : UInt64) : Access (Instrumented δ) Unit := do
  if (← get).traps.contains address then pure ()
  else
    let t ← onByte ⟨.new address, [], 0⟩ TrapByte.insert
    setTraps (·.insert t)

/-- Takes a trap out that nobody owns. It is no longer in the table even if that fails. -/
def release (address : UInt64) : Access (Instrumented δ) Unit := do
  match (← get).traps.find? address with
  | none => pure ()
  | some t =>
    if t.isUnused then
      setTraps (·.erase address)
      let _ ← onByte t TrapByte.remove
    else pure ()

def addUser (address : UInt64) (id : BreakpointId) : Access (Instrumented δ) Unit := do
  acquire address
  setTraps (·.update address (.addUser id))

def removeUser (address : UInt64) (id : BreakpointId) : Access (Instrumented δ) Unit := do
  setTraps (·.update address (.removeUser id))
  release address

def addStep (address : UInt64) : Access (Instrumented δ) Unit := do
  acquire address
  setTraps (·.update address fun t => { t with steps := t.steps + 1 })

def removeStep (address : UInt64) : Access (Instrumented δ) Unit := do
  setTraps (·.update address fun t => { t with steps := t.steps - 1 })
  release address

/-- Puts the covered byte back for a moment, so that the instruction can be executed. -/
def lift (address : UInt64) : Access (Instrumented δ) Unit := do
  match (← get).traps.find? address with
  | none => pure ()
  | some t =>
    let t ← onByte t TrapByte.remove
    setTraps (·.update address fun _ => t)

/-- Ends what `lift` began. -/
def restore (address : UInt64) : Access (Instrumented δ) Unit := do
  match (← get).traps.find? address with
  | none => pure ()
  | some t =>
    let t ← onByte t TrapByte.insert
    setTraps (·.update address fun _ => t)

/-- Reads code: sixteen bytes, or half as many as long as that fails. -/
def readCode (d : δ) (address : UInt64) : Except Fault Bytes :=
  attempt [16, 8, 4, 2, 1] .notAttached
where
  attempt : List Nat → Fault → Except Fault Bytes
    | [], e => .error e
    | n :: rest, _ => match Debuggee.read d address n with
      | .ok bytes => .ok bytes
      | .error e => attempt rest e

/-- The instruction at an address, as if there were no traps. -/
def decode (ts : Traps) (d : δ) (address : UInt64) : Except Fault Instruction := do
  Debuggee.decode d address (ts.mask address (← readCode d address))

/-- Binds the breakpoints that a module has a place for and that are not bound yet. One whose trap
cannot be inserted stays unbound. -/
def bindIn (m : LoadedModule) : List Breakpoint → StateM (Instrumented δ) (List Breakpoint)
  | [] => return []
  | b :: rest => do
    let b ← bindOne b
    return b :: (← bindIn m rest)
where
  bindOne (b : Breakpoint) : StateM (Instrumented δ) Breakpoint := do
    if !b.registered || b.binding.isSome then return b
    match Breakpoint.bindingIn m b.location with
    | none => return b
    | some binding =>
      match ← (addUser binding.address b.id : Access (Instrumented δ) Unit) with
      | .ok () => return { b with binding := some binding }
      | .error _ => return b

end Instrumented

end SourceDebugger
