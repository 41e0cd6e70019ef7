import SourceDebugger.Debuggee.Basic
/-!
A trap in code: one byte of an instruction is replaced by the trap instruction, and the byte that
was there is kept so that it can be put back.
-/
namespace SourceDebugger

/-- The instruction `int3`, which is one byte long. -/
def trapByte : UInt8 := 0xCC

structure TrapByte where
  address : UInt64
  covered : UInt8
  inserted : Bool
  deriving DecidableEq, Repr, Inhabited

namespace TrapByte

variable {δ : Type} [Debuggee δ]

def new (address : UInt64) : TrapByte := ⟨address, 0, false⟩

/-- Puts the trap into memory. The byte below it is known from then on, also if writing fails. -/
def insert (t : TrapByte) : StateM δ (TrapByte × Except Fault Unit) := do
  if t.inserted then return (t, .ok ())
  match Debuggee.read (← get) t.address 1 with
  | .error e => return (t, .error e)
  | .ok [] => return (t, .error (.emptyRead t.address))
  | .ok (byte :: _) =>
    let t := { t with covered := byte }
    match ← (Debuggee.write t.address [trapByte] : Access δ Unit) with
    | .ok () => return ({ t with inserted := true }, .ok ())
    | .error e => return (t, .error e)

/-- Puts the covered byte back. -/
def remove (t : TrapByte) : StateM δ (TrapByte × Except Fault Unit) := do
  if !t.inserted then return (t, .ok ())
  match ← (Debuggee.write t.address [t.covered] : Access δ Unit) with
  | .ok () => return ({ t with inserted := false }, .ok ())
  | .error e => return (t, .error e)

/-- The memory is gone, and the trap with it. -/
def forget (t : TrapByte) : TrapByte := { t with inserted := false }

end TrapByte

end SourceDebugger
