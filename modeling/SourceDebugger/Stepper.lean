import SourceDebugger.Debuggee.Event
import SourceDebugger.Symbols.Source
/-!
Stepping by source lines. A step is made of single instructions and of runs to an address; the
stepper only decides which comes next, from where the thread is. It does not touch the debuggee.
-/
namespace SourceDebugger

inductive StepKind where
  | into
  | over
  | out
  deriving DecidableEq, Repr

/-- A place to run to. It is reached only with the stack pointer it names, so that a deeper call of
the same function does not count. -/
structure Target where
  address : UInt64
  sp : UInt64
  deriving DecidableEq, Repr

structure Stepper where
  kind : StepKind
  thread : ThreadId
  /-- The code of the statement the step began in. -/
  origin : Option (UInt64 × UInt64)
  /-- The canonical address of the frame the step began in. -/
  originFrame : UInt64
  /-- Where a run is on its way to. -/
  runningTo : Option Target
  /-- Where the call that was just executed returns to. -/
  pendingCall : Option Target
  deriving DecidableEq, Repr

/-- What to do at an instruction. -/
inductive StepAction where
  | singleStep
  | runTo (target : Target)
  deriving DecidableEq, Repr

/-- What a new position means for the step. -/
inductive Arrival where
  | complete
  | continue
  | runTo (target : Target)
  /-- Code without lines was returned to: the next frame outward is to be left too. -/
  | stepOutAgain
  deriving DecidableEq, Repr

namespace Stepper

def start (kind : StepKind) (thread : ThreadId) (origin : Option CodeRange) (frame : UInt64) :
    Stepper :=
  ⟨kind, thread, origin.map fun r => (r.start, r.stop), frame, none, none⟩

/-- Calls are run over, or followed with their return noted. -/
def nextAction (s : Stepper) (regs : Registers) (i : Instruction) : StepAction × Stepper :=
  if i.kind ≠ .call then (.singleStep, s)
  else
    let back : Target := ⟨i.next, regs.sp⟩
    match s.kind with
    | .over => (.runTo back, s)
    | .into | .out => (.singleStep, { s with pendingCall := some back })

def inOrigin (s : Stepper) (pc : UInt64) : Bool :=
  match s.origin with
  | some (low, high) => low ≤ pc && pc < high
  | none => false

/-- A step outward ends in any code with lines; any other at the start of a statement, which for a
step over calls must not lie in a deeper frame. -/
def judge (s : Stepper) (regs : Registers) (frame : UInt64) (line : Option CodeRange) : Arrival :=
  if s.kind = .out then if line.isSome then .complete else .stepOutAgain
  else if s.inOrigin regs.pc then .continue
  else
    let atStatement := match line with
      | some l => l.start == regs.pc
      | none => false
    let deeper := s.kind == .over && frame < s.originFrame
    if atStatement && !deeper then .complete else .continue

/-- A call into code without lines is run through to its return. -/
def arrived (s : Stepper) (regs : Registers) (frame : UInt64) (line : Option CodeRange)
    (hasLines : Bool) : Arrival × Stepper :=
  let rested := { s with pendingCall := none }
  match s.pendingCall with
  | some back => if hasLines then (rested.judge regs frame line, rested) else (.runTo back, rested)
  | none => (rested.judge regs frame line, rested)

end Stepper

end SourceDebugger
