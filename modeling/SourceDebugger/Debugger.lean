import SourceDebugger.Session.Inspect
/-!
The debugger that its users hold: a session, and the status it has published. A user never sees the
session's own state but the one published last, and a status is published only after the events
that led to it have been delivered.

Whoever watches the events may call the debugger again while they are delivered. The status that
belongs to the outer call is then published after those of the inner calls, although it is older.
-/
namespace SourceDebugger

/-- What is published of a session. -/
structure Status where
  state : RunState
  generation : Nat
  deriving DecidableEq, Repr

def Session.status {δ : Type} (s : Session δ) : Status := ⟨s.state, s.generation⟩

/-- A debugger, with the memory of its watcher. -/
structure Debugger (δ ω : Type) where
  session : Session δ
  published : Status
  watcher : ω
  /-- Events are being delivered. -/
  delivering : Bool

/-- What a watcher does at an event. -/
abbrev Watch (δ ω : Type) := DebuggerEvent → Debugger δ ω → Debugger δ ω

namespace Debugger

variable {δ ω : Type}

/-- Calls to a debugger. -/
abbrev Call (δ ω α : Type) := ExceptT DebuggerError (StateM (Debugger δ ω)) α

def new (host : Host δ) (watcher : ω) : Debugger δ ω :=
  let session := Session.new host
  { session, published := session.status, watcher, delivering := false }

/-- Delivers the events that are waiting in the session, then publishes the status it had before. -/
def deliver (watch : Watch δ ω) (d : Debugger δ ω) : Debugger δ ω :=
  let status := d.session.status
  let quiet := { d with session := { d.session with outbox := [] }, delivering := true }
  let after := d.session.outbox.foldl (fun d e => watch e d) quiet
  { after with published := status, delivering := d.delivering }

/-- A session with a thread of its own cannot be called from that thread, where events are
delivered. -/
def isReentrant (d : Debugger δ ω) : Bool :=
  d.session.host.config.mode == .automatic && d.delivering

/-- Carries out a request. Once a fault has been published, nothing but that fault is answered. -/
def call {α : Type} (watch : Watch δ ω) (request : Session.Request δ α) : Call δ ω α := fun d =>
  match d.published.state.fault? with
  | some fault => (.error (.faulted fault), d)
  | none =>
    if d.isReentrant then (.error .reentrant, d)
    else
      let (r, session) := request d.session
      (r, { d with session }.deliver watch)

/-- Asks the session something that is possible in every state. -/
def query {α : Type} (watch : Watch δ ω) (f : Session δ → α) : Call δ ω α :=
  call watch fun s => (.ok (f s), s)

/-- Turning a breakpoint on or off is possible at any moment, by whoever holds it. -/
def setEnabled (id : BreakpointId) (enabled : Bool) : Call δ ω Unit :=
  modify fun d => { d with session := d.session.setEnabled id enabled }

def pausedReason (d : Debugger δ ω) : Except DebuggerError PauseReason :=
  match d.published.state with
  | .paused reason _ => .ok reason
  | state => .error (.invalidState .pausedReason state)

/-- What waiting for a pause comes to in a state, if it comes to anything. -/
def pauseCheck : RunState → Option (Except DebuggerError Unit)
  | .paused .. => some (.ok ())
  | .running => none
  | .notStarted => some (.error (.invalidState .waitForPause .notStarted))
  | .exited _ (some fault) => some (.error (.faulted fault))
  | .exited code none => some (.error (.processExited code))

/-- What waiting for the exit comes to in a state; a pause on the way is an error. -/
def exitCheck : RunState → Option (Except DebuggerError (Option Int))
  | .exited _ (some fault) => some (.error (.faulted fault))
  | .exited code none => some (.ok code)
  | .running => none
  | .paused reason _ => some (.error (.unexpectedPause reason))
  | .notStarted => some (.error (.invalidState .waitForExit .notStarted))

variable [Debuggee δ]

def clock (s : Session δ) : Nat := (s.debuggee.map Debuggee.clock).getD 0

/-- Looks for events until the published state passes a check or the time, in milliseconds, is used
up. A look that finds nothing is taken to have lasted as long as it was allowed to, one that finds
something as long as time has passed for the debuggee. -/
def waitFor {α : Type} (watch : Watch δ ω) (check : RunState → Option (Except DebuggerError α)) :
    (looks : Nat) → (budget : Option Nat) → StateM (Debugger δ ω) (Option (Except DebuggerError α))
  | 0, _ => return none
  | n + 1, budget => do
    let d ← get
    match check d.published.state with
    | some r => return some r
    | none =>
      if budget = some 0 then return none
      let interval := d.session.host.config.pollMillis
      let millis := (budget.map (min interval)).getD interval
      let (found, session) := Session.pump millis d.session
      set ({ d with session }.deliver watch)
      let spent := if found then clock session - clock d.session else millis
      waitFor watch check n (budget.map (· - spent))

def wait {α : Type} (watch : Watch δ ω) (check : RunState → Option (Except DebuggerError α))
    (budget : Option Nat) : StateM (Debugger δ ω) (Option (Except DebuggerError α)) := do
  if (← get).isReentrant then return some (.error .reentrant)
  waitFor watch check Session.patience budget

/-- Waits without a limit. -/
def await {α : Type} (watch : Watch δ ω) (check : RunState → Option (Except DebuggerError α)) :
    Call δ ω α := do
  match ← (wait watch check none : StateM (Debugger δ ω) _) with
  | some (.ok a) => return a
  | some (.error e) => throw e
  | none => throw .disconnected

def waitForPause (watch : Watch δ ω) : Call δ ω Unit := await watch pauseCheck

def waitForExit (watch : Watch δ ω) : Call δ ω (Option Int) := await watch exitCheck

/-- Waits for a pause for so many milliseconds; whether there was one is the result. -/
def waitForPauseWithin (watch : Watch δ ω) (budget : Option Nat) : Call δ ω Bool := do
  match ← (wait watch pauseCheck budget : StateM (Debugger δ ω) _) with
  | some (.ok ()) => return true
  | some (.error e) => throw e
  | none => return false

end Debugger

end SourceDebugger
