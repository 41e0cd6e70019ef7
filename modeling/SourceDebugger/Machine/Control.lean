import SourceDebugger.Machine.Step
/-!
The machine as a debuggee. Looking for an event lets a running machine execute a slice of
instructions, but no more than until the next event.
-/
namespace SourceDebugger.Machine

/-- How many instructions one look for an event may execute. -/
def slice : Nat := 1000

/-- Executes at most `n` instructions; a requested interrupt comes before the next one. -/
def runSlice : Nat → Access Machine Unit
  | 0 => pure ()
  | n + 1 => do
    let m ← get
    if m.interruptRequested then
      modify fun m => { m with interruptRequested := false }
      stopWith (.trap mainThread m.registers.pc .interrupt)
    else if ← execute then pure ()
    else if (← get).pending.isEmpty then runSlice n
    else pure ()

/-- The oldest event, which is then no longer pending. -/
def takeEvent : Access Machine (Option Event) := do
  match (← get).pending with
  | [] => return none
  | event :: rest =>
    modify fun m => { m with pending := rest }
    return some event

/-- Lets the machine move as it was told to. -/
def advance : Access Machine Unit := do
  match (← get).motion with
  | .running => runSlice slice
  | .stepping =>
    if ← execute then pure ()
    else stopWith (.trap mainThread (← get).registers.pc .singleStep)
  | .stopped | .exited => pure ()

def poll : Access Machine (Option Event) := do
  match ← takeEvent with
  | some event => return some event
  | none =>
    advance
    takeEvent

/-- A pending signal ends the program instead of letting it run. -/
def resume (mode : ResumeMode) : Access Machine Unit := do
  let m ← get
  if m.motion = .exited then throw (.hasExited mainThread)
  match m.pendingSignal with
  | some signal =>
    modify fun m => { m with pendingSignal := none }
    exitWith (128 + signal)
  | none =>
    match mode with
    | .continue => modify fun m => { m with motion := .running }
    | .step thread =>
      if thread = mainThread then modify fun m => { m with motion := .stepping }
      else throw (.cannotStep thread)

/-- Threads other than the main one exist in name only. -/
def registersOf (m : Machine) (thread : ThreadId) : Except Fault Registers :=
  if thread = mainThread then .ok m.registers
  else if thread ∈ m.threads then .ok ⟨0, 0, 0⟩
  else .error (.unknownThread thread)

def classify (address : UInt64) : Bytes → Except Fault Instruction
  | [] => .error (.noCode address)
  | 0xE8 :: _ => .ok ⟨address, 5, .call⟩
  | 0xC3 :: _ => .ok ⟨address, 1, .return⟩
  | 0x55 :: _ => .ok ⟨address, 1, .pushFramePointer⟩
  | 0xCC :: _ => .ok ⟨address, 1, .other⟩
  | _ :: _ => .ok ⟨address, 4, .other⟩

/-- A killed program reports nothing but its end. -/
def kill : Access Machine Unit := do
  if (← get).motion ≠ .exited then
    modify fun m => { m with pending := [] }
    exitWith (128 + 9)

instance : Debuggee Machine where
  pid _ := mainThread
  poll _ := poll
  resume := resume
  read := load
  write := store
  registers := registersOf
  setRegisters thread registers := do
    if thread = mainThread then modify fun m => { m with registers }
    else throw (.noRegisters thread)
  decode _ := classify
  interrupt := modify fun m =>
    { m with interruptRequested := m.interruptRequested || m.motion == .running }
  terminate := kill

/-- Only the program's own path can be started. -/
def launch (e : Executable) : Launch Machine := fun _ request =>
  if Path.same request.executable e.path then .ok (boot e)
  else .error (.executableNotFound request.executable)

end SourceDebugger.Machine
