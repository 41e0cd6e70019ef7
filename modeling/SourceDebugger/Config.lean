/-!
What can be set about a debugger before it starts.
-/
namespace SourceDebugger

/-- Who runs the session: a thread of its own, or the caller while it waits. -/
inductive MarshalMode where
  | automatic
  | manual
  deriving DecidableEq, Repr

def MarshalMode.name : MarshalMode → String
  | .automatic => "Automatic"
  | .manual => "Manual"

structure Config where
  mode : MarshalMode
  /-- How long one look for an event may take, in milliseconds. -/
  pollMillis : Nat
  maxFrames : Nat
  /-- How many bytes of a text are read. -/
  maxTextBytes : Nat
  /-- How many elements an array may have. -/
  maxElements : Nat
  /-- How many moves beyond the usual number a session makes before it gives a debuggee up. -/
  extraMoves : Nat
  deriving DecidableEq, Repr

namespace Config

def standard : Config :=
  { mode := .automatic, pollMillis := 10, maxFrames := 256, maxTextBytes := 4096
    maxElements := 1048576, extraMoves := 0 }

/-- A call stack has room for at least one frame. -/
def withMaxFrames (c : Config) (n : Nat) : Config := { c with maxFrames := max n 1 }

end Config

end SourceDebugger
