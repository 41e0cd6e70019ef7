import SourceDebugger.Debuggee.Event
/-!
What a debugger remembers of a thread that it traces. It may lag behind what the thread does: a
thread that was asked to stop may not have done so yet.
-/
namespace SourceDebugger

inductive ThreadState where
  | running
  | stopped
  /-- It was asked to stop, and has not been seen to. -/
  | stopRequested
  deriving DecidableEq, Repr, Inhabited

def ThreadState.name : ThreadState → String
  | .running => "Running"
  | .stopped => "Stopped"
  | .stopRequested => "StopRequested"

structure TracedThread where
  id : ThreadId
  state : ThreadState
  /-- The signal that will have its effect when the thread goes on. -/
  signal : Option Nat
  deriving DecidableEq, Repr, Inhabited

namespace TracedThread

def new (id : ThreadId) (state : ThreadState) : TracedThread := ⟨id, state, none⟩

/-- The signal is given once. -/
def takeSignal (t : TracedThread) : Option Nat × TracedThread :=
  (t.signal, { t with signal := none })

end TracedThread

end SourceDebugger
