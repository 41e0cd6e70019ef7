import SourceDebugger.Debuggee.Event
import SourceDebugger.Memory.Word
/-!
The operations a debugger has on a debuggee. Every operation may fail, and a failing one may still
have changed the debuggee: the state after a failure is part of the meaning. Nothing is assumed
of an instance beyond these types.
-/
namespace SourceDebugger

/-- Why an operation on a debuggee failed. -/
inductive Fault where
  | unmapped (address : UInt64)
  | addressOverflow (address : UInt64)
  | noCode (address : UInt64)
  | noInstruction (address : UInt64)
  | hasExited (pid : Int)
  | cannotStep (thread : ThreadId)
  | unknownThread (thread : ThreadId)
  | noRegisters (thread : ThreadId)
  | executableNotFound (path : String)
  | directoryNotFound (path : String)
  /-- A text with a zero in it cannot be given to a program. -/
  | zeroInText (position : Nat)
  | notStarted (path directory why : String)
  | noThreads (pid : Int)
  | notInterrupted (pid : Int) (why : String)
  | notAttached
  | emptyRead (address : UInt64)
  | shortRead (address : UInt64) (got wanted : Nat)
  | stackAtEnd (sp : UInt64)
  | notStackAddress (fp : UInt64)
  | survivedKill
  | emptyStack
  /-- The debugger gave up following the debuggee. -/
  | unfinished
  /-- A failure described by whoever carried out the operation. -/
  | described (text : String)
  deriving DecidableEq, Repr, Inhabited

def Fault.message : Fault → String
  | .unmapped a => "Unmapped address " ++ Text.hexMarked a.toNat
  | .addressOverflow a => "Address overflow at " ++ Text.hexMarked a.toNat
  | .noCode a => "No code at " ++ Text.hexMarked a.toNat
  | .noInstruction a => "No instruction at " ++ Text.hexMarked a.toNat
  | .hasExited pid => "Process " ++ toString pid ++ " has exited"
  | .cannotStep t => "Thread " ++ toString t ++ " cannot be stepped"
  | .unknownThread t => "Unknown thread " ++ toString t
  | .noRegisters t => "Thread " ++ toString t ++ " has no registers"
  | .executableNotFound path => "Executable not found: " ++ path
  | .directoryNotFound path => "Working directory not found: " ++ path
  | .zeroInText position => "nul byte found in provided data at position: " ++ toString position
  | .notStarted path directory why =>
    "Failed to start " ++ path ++ " in " ++ directory ++ ": " ++ why
  | .noThreads pid => "Process " ++ toString pid ++ " has no threads"
  | .notInterrupted pid why => "Failed to interrupt " ++ toString pid ++ ": " ++ why
  | .notAttached => "No process is attached"
  | .emptyRead a => "Empty read at " ++ Text.hexMarked a.toNat
  | .shortRead a got wanted =>
    "Short read at " ++ Text.hexMarked a.toNat ++ ": " ++ toString got ++ " of " ++ toString wanted
      ++ " bytes"
  | .stackAtEnd sp => "Stack pointer " ++ Text.hexMarked sp.toNat ++ " is at the end of memory"
  | .notStackAddress fp => "Frame pointer " ++ Text.hexMarked fp.toNat ++ " is not a stack address"
  | .survivedKill => "Process did not exit after being killed"
  | .emptyStack => "Empty call stack"
  | .unfinished => "The debuggee did not come to a stop"
  | .described text => text

/-- A computation on a state that keeps its changes when it fails. -/
abbrev Access (σ α : Type) := ExceptT Fault (StateM σ) α

namespace Access

/-- Looks at the state without changing it. -/
def look {σ α : Type} (f : σ → Except Fault α) : Access σ α := do
  match f (← get) with
  | .ok a => return a
  | .error e => throw e

end Access

class Debuggee (δ : Type) where
  pid : δ → Int
  /-- Waits for the next event, at most so many milliseconds. -/
  poll : Nat → Access δ (Option Event)
  resume : ResumeMode → Access δ Unit
  read : δ → UInt64 → Nat → Except Fault Bytes
  write : UInt64 → Bytes → Access δ Unit
  registers : δ → ThreadId → Except Fault Registers
  setRegisters : ThreadId → Registers → Access δ Unit
  /-- Classifies the instruction that the bytes begin with. -/
  decode : δ → UInt64 → Bytes → Except Fault Instruction
  interrupt : Access δ Unit
  terminate : Access δ Unit
  /-- How many milliseconds have passed for the debuggee. One that knows no time stays at 0. -/
  clock : δ → Nat := fun _ => 0

/-- Starts debuggees; the number counts the attempts of one session. -/
abbrev Launch (δ : Type) := Nat → LaunchRequest → Except Fault δ

namespace Debuggee

variable {δ : Type} [Debuggee δ]

/-- Looks for events, each time so many milliseconds, until one ends the run or nothing comes any
more; a failure ends it too, and comes second. -/
def eventsToStop (millis : Nat) : (most : Nat) → StateM δ (List Event × Option Fault)
  | 0 => return ([], none)
  | n + 1 => do
    match ← (poll millis : Access δ (Option Event)) with
    | .ok none => return ([], none)
    | .error fault => return ([], some fault)
    | .ok (some e) =>
      if e.isStop || e.isExit then return ([e], none)
      else
        let (rest, fault) ← eventsToStop millis n
        return (e :: rest, fault)

/-- Reads an integer. -/
def readScalar (d : δ) (kind : Scalar) (address : UInt64) : Except Fault Int := do
  let bytes ← read d address kind.size
  match kind.read? bytes with
  | some v => .ok v
  | none => .error (.described (kind.mismatch bytes.length))

/-- Reads a 64-bit word. -/
def readWord (d : δ) (address : UInt64) : Except Fault UInt64 := do
  .ok (UInt64.ofInt (← readScalar d .u64 address))

end Debuggee

end SourceDebugger
