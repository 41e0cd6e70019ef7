import SourceDebugger.Text.Numeral
/-!
What a debuggee reports, and how it can be resumed. A debuggee that has reported a stop stands
still, with all its threads, until it is resumed; every other report is a notice only.
-/
namespace SourceDebugger

abbrev ThreadId := Int

/-- What made a thread stop at a trap. -/
inductive TrapKind where
  /-- A trap instruction was executed; the program counter stands behind it. -/
  | software
  | singleStep
  /-- The debuggee sent itself a break signal. -/
  | raised
  /-- The debugger asked for the stop. -/
  | interrupt
  deriving DecidableEq, Repr, Inhabited

def TrapKind.name : TrapKind → String
  | .software => "software"
  | .singleStep => "step"
  | .raised => "break"
  | .interrupt => "interrupt"

inductive Event where
  | threadStarted (thread : ThreadId)
  | threadEnded (thread : ThreadId)
  | moduleLoaded (path : String) (base size : UInt64)
  | moduleUnloaded (base : UInt64)
  /-- A piece of output, cut anywhere. -/
  | output (text : String)
  | trap (thread : ThreadId) (pc : UInt64) (kind : TrapKind)
  /-- A signal that will be delivered when the debuggee is resumed. -/
  | signal (thread : ThreadId) (number : Int) (description : String)
  | exited (code : Int)
  deriving DecidableEq, Repr, Inhabited

namespace Event

def isStop : Event → Bool
  | .trap .. | .signal .. => true
  | _ => false

def isExit : Event → Bool
  | .exited _ => true
  | _ => false

/-- Makes pieces of output that follow each other one piece. -/
def joinOutput : List Event → List Event
  | .output a :: rest =>
    match joinOutput rest with
    | .output b :: rest => .output (a ++ b) :: rest
    | rest => .output a :: rest
  | e :: rest => e :: joinOutput rest
  | [] => []

end Event

inductive ResumeMode where
  | continue
  /-- One instruction of one thread, with the others held. -/
  | step (thread : ThreadId)
  deriving DecidableEq, Repr, Inhabited

/-- The registers that unwinding a stack and moving the point of execution need. -/
structure Registers where
  pc : UInt64
  sp : UInt64
  fp : UInt64
  deriving DecidableEq, Repr, Inhabited

inductive InstructionKind where
  | call
  | return
  /-- The first instruction of a function that keeps a frame pointer. -/
  | pushFramePointer
  | other
  deriving DecidableEq, Repr, Inhabited

def InstructionKind.name : InstructionKind → String
  | .call => "Call"
  | .return => "Return"
  | .pushFramePointer => "PushFramePointer"
  | .other => "Other"

structure Instruction where
  address : UInt64
  length : UInt64
  kind : InstructionKind
  deriving DecidableEq, Repr, Inhabited

/-- The address of the following instruction, where a call returns to. -/
def Instruction.next (i : Instruction) : UInt64 := i.address + i.length

/-- What to start, where, and with which arguments. -/
structure LaunchRequest where
  executable : String
  directory : String
  arguments : List String
  deriving DecidableEq, Repr, Inhabited

end SourceDebugger
