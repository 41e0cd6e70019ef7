import SourceDebugger.Session.State
/-!
How a session follows its debuggee. Every decision is one *move*; a move may leave a further one to
be made, and a session has done all it can when none is left. That is how handling a stop can
resume the debuggee, stop again at once and resume again, without one handler calling another.
-/
namespace SourceDebugger.Session

variable {δ : Type} [Debuggee δ]

/-- What remains to be done. -/
inductive Move where
  | handle (event : Event)
  /-- Let a stopped thread go on, over a trap if it stands on one. -/
  | resume (thread : ThreadId) (mode : ResumeMode)
  /-- A thread is executing the instruction under a lifted trap; `notices` came in meanwhile. -/
  | await (thread : ThreadId) (pc : UInt64) (mode : ResumeMode) (notices : List Event)
  /-- A thread has executed one instruction. -/
  | stepped (thread : ThreadId) (pc : UInt64)
  /-- A thread in a step has come somewhere. -/
  | arrived (thread : ThreadId)
  /-- Decide how to go on from the instruction of a thread in a step. -/
  | act (thread : ThreadId)
  | stepOut (thread : ThreadId)
  | runTo (thread : ThreadId) (target : Target)
  deriving DecidableEq, Repr

def registers (thread : ThreadId) : Change δ Registers :=
  ask fun _ d => Debuggee.registers d thread

/-- Takes out the trap a step is running to. -/
def clearTarget : Change δ Unit := do
  match (← get).stepper with
  | none => pure ()
  | some stepper =>
    match stepper.runningTo with
    | none => pure ()
    | some target =>
      modify fun s => { s with stepper := some { stepper with runningTo := none } }
      if (← get).debuggee.isSome then instrumented (Instrumented.removeStep target.address)
      else pure ()

def cancelStep : Change δ Unit := do
  clearTarget
  modify fun s => { s with stepper := none }

def pauseAt (reason : PauseReason) (thread : ThreadId) : Change δ (Option Move) := do
  cancelStep
  modify (·.pause reason thread)
  return none

/-- Symbols are loaded with a module, and breakpoints bound in it. -/
def loadModule (path : String) (base size : UInt64) : Change δ Unit := fun s =>
  let m : LoadedModule := ⟨path, base, size, s.host.symbols path⟩
  let s := { s with roster := s.roster.addModule m }
  match s with
  | { debuggee := none, .. } => (.ok (), s)
  | { debuggee := some d, traps, .. } =>
    let s := { s with debuggee := none }
    let (items, i) := Instrumented.bindIn m s.breakpoints.items ⟨traps, d⟩
    (.ok (), { s with debuggee := some i.debuggee, traps := i.traps
                      breakpoints := { s.breakpoints with items } })

/-- The end of a stretch, which does not reach beyond the last address. -/
def stretchEnd (base size : UInt64) : UInt64 :=
  UInt64.ofNat (min (base.toNat + size.toNat) (2 ^ 64 - 1))

def unloadModule (base : UInt64) : Change δ Unit :=
  modify fun s => match s.roster.moduleBased? base with
    | none => s
    | some m =>
      let stop := stretchEnd m.base m.size
      { s with roster := s.roster.removeModule base
               traps := s.traps.forget m.base stop
               breakpoints := s.breakpoints.unbindWhere fun a => m.base ≤ a && a < stop }

/-- Takes note of an event that stops nothing. -/
def notice : Event → Change δ Unit
  | .threadStarted t => modify fun s => { s with roster := s.roster.addThread t }
  | .threadEnded t => modify fun s => { s with roster := s.roster.removeThread t }
  | .moduleLoaded path base size => loadModule path base size
  | .moduleUnloaded base => unloadModule base
  | .output text => modify fun s =>
    let (lines, output) := s.output.push text
    { s with output, outbox := s.outbox ++ lines.map .log }
  | .trap .. | .signal .. | .exited _ => pure ()

/-- A trap of the debugger's own was executed at an address; the thread already stands on it. -/
def hitTrap (thread : ThreadId) (address : UInt64) : Change δ (Option Move) := do
  let s ← get
  let users := s.traps.users address
  if s.breakpoints.anyEnabled users then
    modify fun s => { s with breakpoints := s.breakpoints.count users }
    pauseAt .breakpoint thread
  else
    let waiting := (s.stepper.filter (·.thread = thread)).bind (·.runningTo)
    match waiting.filter (·.address = address) with
    | none => return some (.resume thread .continue)
    | some target =>
      let regs ← registers thread
      if regs.sp = target.sp then
        clearTarget
        return some (.arrived thread)
      else return some (.resume thread .continue)

def handleTrap (thread : ThreadId) (pc : UInt64) : TrapKind → Change δ (Option Move)
  | .interrupt => pauseAt .forcedBreak thread
  | .raised => pauseAt .break thread
  | .singleStep => return some (.stepped thread pc)
  | .software => do
    let address := pc - 1
    if (← get).traps.contains address then
      let regs ← registers thread
      access (Debuggee.setRegisters thread { regs with pc := address })
      hitTrap thread address
    else pauseAt .break thread

def handleEvent : Event → Change δ (Option Move)
  | .trap thread pc kind => handleTrap thread pc kind
  | .signal thread _ _ => pauseAt .exception thread
  | .exited code => do
    modify (·.exit (some code) none)
    return none
  | event => do
    notice event
    return none

/-- Resuming from a pause makes what was read in it stale. -/
def leavePause (s : Session δ) : Session δ :=
  { s with generation := if s.state.isPaused then s.generation + 1 else s.generation
           state := .running }

def resumeThread (thread : ThreadId) (mode : ResumeMode) : Change δ (Option Move) := do
  modify leavePause
  let pc := (← registers thread).pc
  if (← get).traps.contains pc then
    instrumented (Instrumented.lift pc)
    access (Debuggee.resume (.step thread))
    return some (.await thread pc mode [])
  else
    access (Debuggee.resume mode)
    return none

/-- The instruction under the trap is done, or something else has happened. -/
def afterLift (thread : ThreadId) (pc : UInt64) (mode : ResumeMode) (notices : List Event)
    (stop : Event) : Change δ (Option Move) := do
  if stop.isExit then pure () else instrumented (Instrumented.restore pc)
  notices.forM notice
  let here := match stop with
    | .trap t _ .singleStep => t == thread
    | _ => false
  if here then
    if mode = .step thread then return some (.stepped thread (← registers thread).pc)
    else
      access (Debuggee.resume mode)
      return none
  else return some (.handle stop)

def awaitStop (thread : ThreadId) (pc : UInt64) (mode : ResumeMode) (notices : List Event) :
    Change δ (Option Move) := do
  let millis := (← get).host.config.pollMillis
  match ← access (Debuggee.poll millis) with
  | none => return some (.await thread pc mode notices)
  | some event =>
    if event.isStop || event.isExit then afterLift thread pc mode notices event
    else return some (.await thread pc mode (notices ++ [event]))

def afterStep (thread : ThreadId) (pc : UInt64) : Change δ (Option Move) := do
  let s ← get
  if (s.stepper.filter (·.thread = thread)).isNone then return some (.resume thread .continue)
  else
    let users := s.traps.users pc
    if s.breakpoints.anyEnabled users then
      modify fun s => { s with breakpoints := s.breakpoints.count users }
      pauseAt .breakpoint thread
    else return some (.arrived thread)

def frameAddress (regs : Registers) : Change δ UInt64 :=
  ask fun s d => .ok (CallStack.canonicalAddress s.traps d s.roster regs)

def arrive (thread : ThreadId) : Change δ (Option Move) := do
  let regs ← registers thread
  let frame ← frameAddress regs
  let s ← get
  match s.stepper with
  | none => return none
  | some stepper =>
    let hasLines := ((s.roster.functionAt? regs.pc).map (·.hasLines)).getD false
    let (arrival, stepper) := stepper.arrived regs frame (s.roster.lineAt? regs.pc) hasLines
    modify fun s => { s with stepper := some stepper }
    match arrival with
    | .complete =>
      modify fun s => { s with stepper := none }.pause .stepComplete thread
      return none
    | .continue => return some (.act thread)
    | .runTo target => return some (.runTo thread target)
    | .stepOutAgain => return some (.stepOut thread)

def act (thread : ThreadId) : Change δ (Option Move) := do
  let regs ← registers thread
  let i ← ask fun s d => Instrumented.decode s.traps d regs.pc
  match (← get).stepper with
  | none => return none
  | some stepper =>
    let (action, stepper) := stepper.nextAction regs i
    modify fun s => { s with stepper := some stepper }
    match action with
    | .singleStep => return some (.resume thread (.step thread))
    | .runTo target => return some (.runTo thread target)

/-- Runs to where the current function returns to; without a caller the step is given up. -/
def stepOut (thread : ThreadId) : Change δ (Option Move) := do
  let frames ← ask fun s d => CallStack.walk s.traps d s.roster thread 2 s.generation
  match frames[1]? with
  | some caller => return some (.runTo thread ⟨caller.pc, caller.sp⟩)
  | none =>
    modify fun s => { s with stepper := none }
    return some (.resume thread .continue)

def runTo (thread : ThreadId) (target : Target) : Change δ (Option Move) := do
  instrumented (Instrumented.addStep target.address)
  modify fun s => { s with stepper := s.stepper.map fun p => { p with runningTo := some target } }
  return some (.resume thread .continue)

/-- Makes one move. -/
def advance : Move → Change δ (Option Move)
  | .handle event => handleEvent event
  | .resume thread mode => resumeThread thread mode
  | .await thread pc mode notices => awaitStop thread pc mode notices
  | .stepped thread pc => afterStep thread pc
  | .arrived thread => arrive thread
  | .act thread => act thread
  | .stepOut thread => stepOut thread
  | .runTo thread target => runTo thread target

/-- Makes moves until none is left, at most so many. -/
def drive : Nat → Option Move → Change δ Unit
  | _, none => pure ()
  | 0, some _ => throw .unfinished
  | n + 1, some move => do drive n (← advance move)

/-- So many looks or rounds before the debuggee is given up. -/
def patience : Nat := 1000000

/-- So many moves are usually enough at one stretch. A thread that comes back to the same lifted
trap again and again, as one does whose trap lies on a trap of its own, needs more than any number. -/
def mostMoves : Nat := 100000

def settle (move : Move) : Change δ Unit := do
  drive (mostMoves + (← get).host.config.extraMoves) (some move)

end SourceDebugger.Session
