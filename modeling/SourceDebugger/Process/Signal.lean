import SourceDebugger.Debuggee.Event
/-!
Signals: their names, what they do to a process that does not handle them, and where one came from.
Only those below 32 have names; the ones from there up to 64 are free for a program's own use.
-/
namespace SourceDebugger

/-- Where a signal came from. -/
inductive SignalCause where
  | sentToProcess
  | sentToThread
  /-- An instruction could not be carried out. -/
  | fault
  /-- A trap instruction was run. -/
  | trapInstruction
  /-- One instruction was run, as the debugger wished. -/
  | singleStep
  /-- A system call that was stepped over is complete. -/
  | callReturned
  /-- A handler is about to be run by a thread that is being stepped. -/
  | handlerEntered
  deriving DecidableEq, Repr, Inhabited

structure Signal where
  number : Nat
  cause : SignalCause
  deriving DecidableEq, Repr, Inhabited

/-- What a signal does if no handler is set. -/
inductive DefaultAction where
  | terminate
  | ignore
  deriving DecidableEq, Repr

namespace Signal

def illegal : Nat := 4
def trap : Nat := 5
def bus : Nat := 7
def arithmetic : Nat := 8
def kill : Nat := 9
def segment : Nat := 11
def child : Nat := 17
def stop : Nat := 19

/-- The highest number. -/
def count : Nat := 64

def names : Array String := #[
    "SIGHUP", "SIGINT", "SIGQUIT", "SIGILL", "SIGTRAP", "SIGABRT", "SIGBUS", "SIGFPE", "SIGKILL",
    "SIGUSR1", "SIGSEGV", "SIGUSR2", "SIGPIPE", "SIGALRM", "SIGTERM", "SIGSTKFLT", "SIGCHLD",
    "SIGCONT", "SIGSTOP", "SIGTSTP", "SIGTTIN", "SIGTTOU", "SIGURG", "SIGXCPU", "SIGXFSZ",
    "SIGVTALRM", "SIGPROF", "SIGWINCH", "SIGIO", "SIGPWR", "SIGSYS"]

def name? (number : Nat) : Option String := if number = 0 then none else names[number - 1]?

/-- Signals that keep a process from going on are ignored too: nothing outside the debugger would
let it go on again. -/
def defaultAction (number : Nat) : DefaultAction :=
  if [17, 18, 19, 20, 21, 22, 23, 28].contains number then .ignore else .terminate

/-- Signals that a debugger passes on without telling its user. -/
def isQuiet (number : Nat) : Bool := [17, 28, 14, 29, 23, 27].contains number

/-- Signals that an instruction causes come before all others. -/
def isSynchronous (s : Signal) : Bool :=
  match s.cause with
  | .fault | .trapInstruction | .singleStep | .callReturned => true
  | _ => false

/-- What a trap signal means to a debugger. -/
def trapKind (s : Signal) : TrapKind :=
  match s.cause with
  | .singleStep => .singleStep
  | .trapInstruction | .callReturned => .software
  | _ => .raised

/-- The code that a handler is given for the cause. -/
def code (s : Signal) : Int :=
  match s.cause with
  | .sentToProcess => 0
  | .sentToThread => -6
  | .trapInstruction => 0x80
  | .singleStep => 2
  | .handlerEntered => 5
  | .fault | .callReturned => 1

end Signal

/-- A set of signals, as programs write it: bit n stands for the signal n + 1. -/
abbrev SignalSet := UInt64

namespace SignalSet

def bit (number : Nat) : SignalSet := (1 : UInt64) <<< UInt64.ofNat (number - 1)

def has (s : SignalSet) (number : Nat) : Bool := s &&& bit number != 0

def erase (s : SignalSet) (number : Nat) : SignalSet := s &&& ~~~bit number

end SignalSet

end SourceDebugger
