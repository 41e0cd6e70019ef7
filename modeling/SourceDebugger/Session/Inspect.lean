import SourceDebugger.Session.Control
import SourceDebugger.Value.Reader
/-!
Questions to a paused debuggee. Frames and arrays are good for the pause they were read in and for
no other.
-/
namespace SourceDebugger.Session

variable {δ : Type} [Debuggee δ]

structure ThreadView where
  id : ThreadId
  isCurrent : Bool
  deriving DecidableEq, Repr

def threads (s : Session δ) : List ThreadView :=
  s.roster.threads.map fun t => ⟨t, s.roster.current == some t⟩

def currentThread : Request δ ThreadView := do
  return ⟨← requirePaused .currentThread, true⟩

/-- Asks the debuggee without letting a fault end the run. -/
def inspect {α : Type} (f : Session δ → δ → Except Fault α) : Request δ α := do
  let s ← get
  match s.debuggee with
  | none => throw (.channel .notAttached)
  | some d => match f s d with
    | .ok a => return a
    | .error e => throw (.channel e)

def walk (thread : ThreadId) (maxFrames : Nat) : Request δ (List Frame) :=
  inspect fun s d => CallStack.walk s.traps d s.roster thread maxFrames s.generation

def currentFunction : Request δ Frame := do
  let thread ← requirePaused .currentFunction
  match ← walk thread 1 with
  | frame :: _ => return frame
  | [] => throw (.channel .emptyStack)

def callstack (thread : ThreadId) : Request δ (List Frame) := do
  let _ ← requirePaused .callstack
  let s ← get
  if s.roster.threads.contains thread then walk thread s.host.config.maxFrames
  else throw (.threadNotFound thread)

/-- Something read in an earlier pause is refused before all else. -/
def requireFresh (generation : Nat) (operation : Operation) : Request δ Unit := do
  let s ← get
  if generation ≠ s.generation then throw (.staleFrame generation s.generation)
  let _ ← requirePaused operation

def readVariables (frame : Frame) (operation : Operation)
    (pick : FunctionInfo → List VariableInfo) : Request δ (List Variable) := do
  requireFresh frame.generation operation
  inspect fun s d =>
    .ok (((frame.info.map pick).getD []).map
      (Value.readVariable d s.host.config s.generation frame))

def arguments (frame : Frame) : Request δ (List Variable) :=
  readVariables frame .arguments (·.arguments)

def locals (frame : Frame) : Request δ (List Variable) := readVariables frame .locals (·.locals)

def arrayElement (a : ArrayValue) (index : Nat) : Request δ Value := do
  let _ ← requirePaused .arrayElement
  let s ← get
  if a.generation ≠ s.generation then throw (.staleFrame a.generation s.generation)
  else if a.length ≤ index then throw (.indexOutOfRange index a.length)
  else inspect fun s d => .ok (Value.readElement d s.host.config s.generation a index)

end SourceDebugger.Session
