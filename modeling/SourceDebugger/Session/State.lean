import SourceDebugger.CallStack
import SourceDebugger.Config
import SourceDebugger.Output.LineBuffer
import SourceDebugger.Stepper
/-!
The state of a debugging session, and what it tells the outside. A session outlives the processes it
debugs: breakpoints stay, all else begins anew with each start.
-/
namespace SourceDebugger

inductive PauseReason where
  /-- A trap or signal of the debuggee's own. -/
  | break
  | breakpoint
  | stepComplete
  | exception
  | forcedBreak
  deriving DecidableEq, Repr

def PauseReason.name : PauseReason → String
  | .break => "Break"
  | .breakpoint => "Breakpoint"
  | .stepComplete => "StepComplete"
  | .exception => "Exception"
  | .forcedBreak => "ForcedBreak"

inductive RunState where
  | notStarted
  | running
  | paused (reason : PauseReason) (thread : ThreadId)
  /-- A fault is there if the run ended because the debuggee could not be reached any more. -/
  | exited (code : Option Int) (fault : Option Fault)
  deriving DecidableEq, Repr

namespace RunState

def describe : RunState → String
  | .notStarted => "not started"
  | .running => "running"
  | .paused reason _ => "paused (" ++ reason.name ++ ")"
  | .exited (some code) _ => "exited with code " ++ toString code
  | .exited none (some fault) => "faulted (" ++ fault.message ++ ")"
  | .exited none none => "exited"

def isExited : RunState → Bool
  | .exited .. => true
  | _ => false

def isPaused : RunState → Bool
  | .paused .. => true
  | _ => false

def fault? : RunState → Option Fault
  | .exited _ fault => fault
  | _ => none

end RunState

/-- What a session reports. -/
inductive DebuggerEvent where
  /-- A line of output. -/
  | log (text : String)
  | paused (reason : PauseReason) (thread : ThreadId)
  | exited (code : Option Int)
  deriving DecidableEq, Repr

/-- Operations that ask for a certain run state. -/
inductive Operation where
  | start
  | terminate
  | breakExecution
  | continueExecution
  | step (kind : StepKind)
  | currentThread
  | currentFunction
  | callstack
  | arguments
  | locals
  | arrayElement
  | pausedReason
  | waitForPause
  | waitForExit
  deriving DecidableEq, Repr

namespace Operation

def name : Operation → String
  | .start => "start"
  | .terminate => "terminate"
  | .breakExecution => "break_execution"
  | .continueExecution => "continue_execution"
  | .step .into => "step_into"
  | .step .over => "step_over"
  | .step .out => "step_out"
  | .currentThread => "current_thread"
  | .currentFunction => "current_function"
  | .callstack => "callstack"
  | .arguments => "arguments"
  | .locals => "locals"
  | .arrayElement => "array_element"
  | .pausedReason => "paused_reason"
  | .waitForPause => "wait_for_pause"
  | .waitForExit => "wait_for_process_exit"

/-- The run states an operation is allowed in, in words. -/
def expected : Operation → String
  | .start => "not started or exited"
  | .terminate => "running or paused"
  | .breakExecution => "running"
  | .waitForPause | .waitForExit => "started"
  | _ => "paused"

end Operation

/-- Why a request to the debugger failed. -/
inductive DebuggerError where
  | launch (path : String) (fault : Fault)
  | invalidState (operation : Operation) (actual : RunState)
  | staleFrame (frame current : Nat)
  | channel (fault : Fault)
  /-- An earlier failure has ended the session. -/
  | faulted (fault : Fault)
  | processExited (code : Option Int)
  | unexpectedPause (reason : PauseReason)
  | reentrant
  | disconnected
  | breakpointNotFound (id : BreakpointId)
  | threadNotFound (thread : ThreadId)
  | indexOutOfRange (index length : Nat)
  deriving DecidableEq, Repr

def DebuggerError.message : DebuggerError → String
  | .launch path fault => "Failed to launch " ++ path ++ ": " ++ fault.message
  | .invalidState operation actual =>
    operation.name ++ " requires the debugger to be " ++ operation.expected ++ ", but it is "
      ++ actual.describe
  | .staleFrame frame current =>
    "Frame was read at pause " ++ toString frame ++ " but the debuggee has moved on to "
      ++ toString current
  | .channel fault => "Debug channel failure: " ++ fault.message
  | .faulted fault => "Debugger faulted: " ++ fault.message
  | .processExited (some code) => "Process exited (code Some(" ++ toString code ++ "))"
  | .processExited none => "Process exited (code None)"
  | .unexpectedPause reason =>
    "Debuggee paused (" ++ reason.name ++ ") while waiting for it to exit"
  | .reentrant => "Debugger called from its own event handler on the control thread"
  | .disconnected => "Control thread has stopped"
  | .breakpointNotFound id => "Breakpoint " ++ toString id ++ " not found"
  | .threadNotFound thread => "Thread " ++ toString thread ++ " not found"
  | .indexOutOfRange index length =>
    "Index " ++ toString index ++ " is out of range for an array of length " ++ toString length

/-- One word for the kind of error, for other programs to act on. -/
def DebuggerError.name : DebuggerError → String
  | .launch .. => "Launch"
  | .invalidState .. => "InvalidState"
  | .staleFrame .. => "StaleFrame"
  | .channel _ => "Channel"
  | .faulted _ => "Faulted"
  | .processExited _ => "ProcessExited"
  | .unexpectedPause _ => "UnexpectedPause"
  | .reentrant => "Reentrant"
  | .disconnected => "Disconnected"
  | .breakpointNotFound _ => "BreakpointNotFound"
  | .threadNotFound _ => "ThreadNotFound"
  | .indexOutOfRange .. => "IndexOutOfRange"

/-- What a session is given once: how it is set up, how debuggees are started, and what is known
about modules. -/
structure Host (δ : Type) where
  config : Config
  launch : Launch δ
  symbols : String → Option ModuleSymbols

structure Session (δ : Type) where
  host : Host δ
  /-- How many starts have been tried. -/
  launches : Nat
  debuggee : Option δ
  /-- The debuggees of runs that have ended, as they were at the end, the last one first. -/
  departed : List δ
  roster : Roster
  breakpoints : Breakpoints
  traps : Traps
  state : RunState
  /-- Grows with every pause and every resumption, so that frames and values can be told from stale
  ones. -/
  generation : Nat
  stepper : Option Stepper
  output : LineBuffer
  /-- Events that nobody has collected yet. -/
  outbox : List DebuggerEvent

namespace Session

variable {δ : Type}

def new (host : Host δ) : Session δ :=
  { host, launches := 0, debuggee := none, departed := []
    roster := .empty, breakpoints := .empty, traps := ⟨[]⟩
    state := .notStarted, generation := 0, stepper := none, output := .empty, outbox := [] }

/-- Changes to a session that may meet a fault of the debuggee. -/
abbrev Change (δ α : Type) := Access (Session δ) α

/-- Requests to a session. -/
abbrev Request (δ α : Type) := ExceptT DebuggerError (StateM (Session δ)) α

/-- Carries out an operation on the debuggee. -/
def access {α : Type} (a : Access δ α) : Change δ α := fun s =>
  match s with
  | { debuggee := none, .. } => (.error .notAttached, s)
  | { debuggee := some d, .. } =>
    let s := { s with debuggee := none }
    let (r, d) := a d
    (r, { s with debuggee := some d })

/-- Carries out an operation on the debuggee and its traps. -/
def instrumented {α : Type} (a : Access (Instrumented δ) α) : Change δ α := fun s =>
  match s with
  | { debuggee := none, .. } => (.error .notAttached, s)
  | { debuggee := some d, traps, .. } =>
    let s := { s with debuggee := none }
    let (r, i) := a ⟨traps, d⟩
    (r, { s with debuggee := some i.debuggee, traps := i.traps })

/-- Asks the debuggee something. -/
def ask {α : Type} (f : Session δ → δ → Except Fault α) : Change δ α := do
  let s ← get
  match s.debuggee with
  | none => throw .notAttached
  | some d => match f s d with
    | .ok a => return a
    | .error e => throw e

def report (s : Session δ) (event : DebuggerEvent) : Session δ :=
  { s with outbox := s.outbox ++ [event] }

/-- The debuggee is gone. Only breakpoints outlast it, unbound. -/
def exit (s : Session δ) (code : Option Int) (fault : Option Fault) : Session δ :=
  let s := match s.output.flush with
    | some rest => { s with output := .empty }.report (.log rest)
    | none => s
  { s with
    stepper := none
    traps := s.traps.forget 0 (0 - 1)
    breakpoints := s.breakpoints.unbindWhere fun _ => true
    roster := s.roster.exited code
    debuggee := none
    departed := s.debuggee.toList ++ s.departed
    generation := s.generation + 1
    state := .exited code fault }.report (.exited code)

def pause (s : Session δ) (reason : PauseReason) (thread : ThreadId) : Session δ :=
  { s with
    generation := s.generation + 1
    roster := s.roster.setCurrent thread
    state := .paused reason thread }.report (.paused reason thread)

/-- A fault ends the session's run, unless it has ended already. -/
def fail (s : Session δ) (fault : Fault) : Session δ :=
  if s.state.isExited then s else s.exit none (some fault)

/-- Lets a change's fault end the run. -/
def guarded {α : Type} (a : Change δ α) : Request δ α := fun s =>
  match a s with
  | (.ok a, s) => (.ok a, s)
  | (.error e, s) => (.error (.channel e), s.fail e)

end Session

end SourceDebugger
