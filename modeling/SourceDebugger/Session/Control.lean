import SourceDebugger.Session.Move
/-!
Requests that make a debuggee run or stop. Each is refused in run states it is not meant for, and a
refused request changes nothing.
-/
namespace SourceDebugger.Session

variable {δ : Type} [Debuggee δ]

def refuse {α : Type} (operation : Operation) : Request δ α := do
  throw (.invalidState operation (← get).state)

def requirePaused (operation : Operation) : Request δ ThreadId := do
  match (← get).state with
  | .paused _ thread => return thread
  | _ => refuse operation

/-- Handles what a new process reports before it runs. A stop among it ends the start early. -/
def runFromEntry : Nat → Change δ Unit
  | 0 => throw .unfinished
  | n + 1 => do
    match ← access (Debuggee.poll 0) with
    | none => access (Debuggee.resume .continue)
    | some event =>
      settle (.handle event)
      if event.isStop || (← get).state ≠ .running then pure () else runFromEntry n

/-- A new process has everything of the session's but its breakpoints begin anew. -/
def attach (s : Session δ) (d : δ) (request : LaunchRequest) : Session δ :=
  { s with
    roster := .ofProcess ⟨Debuggee.pid d, request, false, none⟩
    debuggee := some d, state := .running, stepper := none, output := .empty }

def start (request : LaunchRequest) : Request δ Unit := do
  let s ← get
  match s.state with
  | .notStarted | .exited .. =>
    set { s with launches := s.launches + 1 }
    match s.host.launch s.launches request with
    | .error e => throw (.launch request.executable e)
    | .ok d =>
      modify (·.attach d request)
      guarded (runFromEntry patience)
  | _ => refuse .start

/-- Looks for one event of a running debuggee and handles it; whether there was one is the
result. -/
def pump (millis : Nat) : StateM (Session δ) Bool := do
  if (← get).state ≠ .running then return false
  match ← (access (Debuggee.poll millis) : Change δ (Option Event)) with
  | .error e =>
    modify (·.fail e)
    return true
  | .ok none => return false
  | .ok (some event) =>
    match ← (settle (.handle event) : Change δ Unit) with
    | .ok () => return true
    | .error e =>
      modify (·.fail e)
      return true

/-- Waits for a killed process to end; stops on the way are ignored. -/
def awaitExit : Nat → Request δ Unit
  | 0 => fun s => (.error (.channel .survivedKill), s.fail .survivedKill)
  | n + 1 => do
    let s ← get
    if s.state.isExited then return ()
    match ← guarded (access (Debuggee.poll s.host.config.pollMillis)) with
    | none => awaitExit n
    | some event =>
      if event.isStop then awaitExit n
      else
        guarded (settle (.handle event))
        awaitExit n

def terminate : Request δ Unit := do
  match (← get).state with
  | .running | .paused .. =>
    guarded (access Debuggee.terminate)
    awaitExit patience
  | _ => refuse .terminate

def breakExecution : Request δ Unit := do
  if (← get).state = .running then guarded (access Debuggee.interrupt) else refuse .breakExecution

def continueExecution : Request δ Unit := do
  let thread ← requirePaused .continueExecution
  guarded (settle (.resume thread .continue))

/-- The frame and the statement a step begins in decide where it ends. -/
def beginStep (kind : StepKind) (thread : ThreadId) : Change δ Unit := do
  let regs ← registers thread
  let frame ← frameAddress regs
  modify fun s => { s with stepper := some (.start kind thread (s.roster.lineAt? regs.pc) frame) }
  settle (if kind = .out then .stepOut thread else .act thread)

def step (kind : StepKind) : Request δ Unit := do
  let thread ← requirePaused (.step kind)
  guarded (beginStep kind thread)

/-- Binds unbound breakpoints in all modules, in the order they were loaded. -/
def bindAll (s : Session δ) : Session δ :=
  match s with
  | { debuggee := none, .. } => s
  | { debuggee := some d, traps, .. } =>
    let s := { s with debuggee := none }
    let (items, i) := s.roster.modules.foldl (fun (items, i) m => Instrumented.bindIn m items i)
      (s.breakpoints.items, (⟨traps, d⟩ : Instrumented δ))
    { s with
      debuggee := some i.debuggee, traps := i.traps, breakpoints := { s.breakpoints with items } }

/-- A breakpoint can be added at any time; it is bound as soon as a module has a place for it. -/
def addBreakpoint (location : Location) : Request δ BreakpointId := fun s =>
  let (b, breakpoints) := s.breakpoints.add location
  (.ok b.id, { s with breakpoints }.bindAll)

/-- A breakpoint is no longer registered even if its trap cannot be taken out. -/
def removeBreakpoint (id : BreakpointId) : Request δ Unit := do
  let s ← get
  match s.breakpoints.registered? id with
  | none => throw (.breakpointNotFound id)
  | some b =>
    set { s with breakpoints := s.breakpoints.update id fun b => { b with registered := false } }
    match b.address?, s.debuggee with
    | some address, some _ => releaseTrap address id
    | _, _ => pure ()
    modify fun s => { s with breakpoints := s.breakpoints.update id (·.unbound) }
where
  releaseTrap (address : UInt64) (id : BreakpointId) : Request δ Unit := fun s =>
    match instrumented (Instrumented.removeUser address id) s with
    | (.ok (), s) => (.ok (), s)
    | (.error e, s) => (.error (.channel e), s)

/-- Turning a breakpoint on or off needs no debuggee. -/
def setEnabled (s : Session δ) (id : BreakpointId) (enabled : Bool) : Session δ :=
  { s with breakpoints := s.breakpoints.update id fun b => { b with enabled } }

end SourceDebugger.Session
