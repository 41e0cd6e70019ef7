import SourceDebugger.Process.TracedThread
import SourceDebugger.Process.Tracing
import SourceDebugger.X86.Classify
/-!
A real process as a debuggee. When one of its threads stops and the stop is to be reported, all
others are stopped first, so that a reported process stands still. What happens to them meanwhile is
put aside and handled after the process has been resumed.

A thread begins with a stop that nobody asked for, and one that was found stopped for another reason
still has the stop before it that it was asked for; both are passed over.
-/
namespace SourceDebugger

structure Traced where
  kernel : Kernel
  pid : ThreadId
  threads : List TracedThread
  /-- Threads whose next stop is passed over. -/
  starting : List ThreadId
  /-- News that came while other threads were being stopped. -/
  deferred : List (ThreadId × Notice)
  pending : List Event
  /-- The beginning of a character whose rest has not been written yet. -/
  unfinished : Bytes
  images : List Image
  stepping : Option ThreadId
  interruptRequested : Bool
  hasExited : Bool
  deriving Inhabited

namespace Traced

def push (t : Traced) (e : Event) : Traced := { t with pending := t.pending ++ [e] }

def thread? (t : Traced) (id : ThreadId) : Option TracedThread := t.threads.find? (·.id = id)

def modifyThread (t : Traced) (id : ThreadId) (f : TracedThread → TracedThread) : Traced :=
  { t with threads := t.threads.map fun u => if u.id = id then f u else u }

def setState (t : Traced) (id : ThreadId) (s : ThreadState) : Traced :=
  t.modifyThread id fun u => { u with state := s }

def throwTracing {α : Type} (e : TracingFault) : Access Traced α := throw (.described e.message)

/-- Does something with the kernel that may be refused. -/
def tracing {α : Type} (f : Kernel → Except TracingFault α × Kernel) : Access Traced α := do
  let t ← get
  let (r, kernel) := f t.kernel
  set { t with kernel }
  match r with
  | .ok a => return a
  | .error e => throwTracing e

/-- Asks the kernel something that may be refused. -/
def asking {α : Type} (f : Kernel → Except TracingFault α) : Access Traced α :=
  tracing fun k => (f k, k)

/-! Output. -/

/-- Reports what has been written, as far as it can be read already. -/
def drain (t : Traced) : Traced :=
  if t.hasExited then t
  else
    let (text, unfinished) := Text.takeReadable (t.unfinished ++ t.kernel.output.toList)
    let t := { t with kernel := { t.kernel with output := .empty }, unfinished }
    if text.isEmpty then t else t.push (.output text)

/-- Reports what will not be finished any more. -/
def flush (t : Traced) : Traced :=
  if t.unfinished.isEmpty then t
  else { t with unfinished := [] }.push (.output (Text.ofUtf8Lossy t.unfinished))

/-! Modules. -/

/-- The same file at the same place. -/
def isSameImage (a b : Image) : Bool := Path.same a.path b.path && a.base = b.base

/-- Reports which files are no longer mapped, then which are now. -/
def rescan : Access Traced Unit := do
  let pid := (← get).pid
  let maps ← asking fun k => k.mappingsOf pid
  let images := Image.ofMappings maps
  modify fun t =>
    let gone := t.images.filter fun old => !images.any fun i => isSameImage i old
    let new := images.filter fun i => !t.images.any fun old => isSameImage old i
    { t with
      images
      pending := t.pending ++ gone.map (fun i => .moduleUnloaded i.base)
        ++ new.map fun i => .moduleLoaded i.path i.base i.size }

/-! Threads. -/

def settle (t : Traced) : Traced := { t with kernel := t.kernel.settle }

/-- Lets a thread go on as soon as the kernel settles. -/
def releaseThread (id : ThreadId) (signal : Option Nat) : Access Traced Unit := do
  let stepping := (← get).stepping = some id
  tracing fun k => k.letGo id signal stepping
  modify fun t => t.setState id .running

/-- Lets a thread go on. -/
def resumeThread (id : ThreadId) (signal : Option Nat) : Access Traced Unit := do
  releaseThread id signal
  modify settle

/-- A new thread begins with a stop. -/
def addThread (t : Traced) (id : ThreadId) : Traced :=
  if (t.thread? id).isSome then t
  else
    { t with
      threads := t.threads ++ [TracedThread.new id .stopRequested]
      starting := id :: t.starting }.push (.threadStarted id)

def isStarting (t : Traced) (id : ThreadId) : Bool := t.starting.contains id

def passOver (t : Traced) (id : ThreadId) : Traced :=
  { t with starting := t.starting.filter (· ≠ id) }

/-- Asks a thread to stop. -/
def askToStop (t : Traced) (id : ThreadId) : Traced :=
  if (t.kernel.task? id).isNone then t
  else
    { t with kernel := t.kernel.sendToTask id ⟨Signal.stop, .sentToThread⟩ }.setState
      id .stopRequested

/-- How long a thread is given to stop, in milliseconds. -/
def patience : Nat := 1000000

/-- Waits for a thread that was asked to stop. -/
def awaitStop (id : ThreadId) : Access Traced Unit := do
  match ← tracing fun k => k.newsOf id patience with
  | none => throw .unfinished
  | some (_, .stopped n) =>
    if n = Signal.stop then modify fun t => t.setState id .stopped else defer (.stopped n)
  | some (_, .ended how) => modify fun t => { t with deferred := t.deferred ++ [(id, .ended how)] }
  | some (_, other) => defer other
where
  /-- The thread stands still for another reason. -/
  defer (n : Notice) : Access Traced Unit :=
    modify fun t =>
      { t.setState id .stopped with
        starting := id :: t.starting
        deferred := t.deferred ++ [(id, n)] }

/-- Stops all threads but one. -/
def stopOthers (id : ThreadId) : Access Traced Unit := do
  let others := ((← get).threads.filter fun u => u.id ≠ id && u.state = .running).map (·.id)
  modify fun t => (others.foldl askToStop t).settle
  others.forM awaitStop

/-! What has happened. -/

/-- Reports a stop of the whole process. -/
def reportStop (id : ThreadId) (event : UInt64 → Event) : Access Traced Unit := do
  stopOthers id
  rescan
  modify drain
  let cpu ← asking fun k => k.cpuOf id
  modify fun t => t.push (event cpu.pc)

/-- A stop signal is either one that is passed over, or the interrupt that was asked for, or of no
concern. -/
def onStopSignal (id : ThreadId) : Access Traced Unit := do
  let t ← get
  if t.isStarting id then
    set (t.passOver id)
    resumeThread id none
  else if (t.thread? id).isNone then
    set ((t.addThread id).passOver id)
    resumeThread id none
  else if t.interruptRequested then
    set { t with interruptRequested := false }
    reportStop id fun pc => .trap id pc .interrupt
  else resumeThread id none

def onTrapSignal (id : ThreadId) : Access Traced Unit := do
  match (← get).kernel.signalHolding? id with
  | none => throwTracing .noTask
  | some s =>
    modify fun t => { t with stepping := if t.stepping = some id then none else t.stepping }
    reportStop id fun pc => .trap id pc s.trapKind

def onSignal (id : ThreadId) (n : Nat) : Access Traced Unit := do
  modify fun t => t.setState id .stopped
  if n = Signal.stop then onStopSignal id
  else if n = Signal.trap then onTrapSignal id
  else if Signal.isQuiet n then resumeThread id (some n)
  else
    modify fun t => { t.modifyThread id fun u => { u with signal := some n } with stepping := none }
    reportStop id fun _ => .signal id n ((Signal.name? n).getD "")

def onEnd (id : ThreadId) (code : Int) : Access Traced Unit :=
  modify fun t =>
    let t := { t with threads := t.threads.filter (·.id ≠ id) }
    if id ≠ t.pid then t.push (.threadEnded id)
    else { t.drain.flush with hasExited := true, threads := [] }.push (.exited code)

/-- The code of a process that a signal has ended. -/
def codeOf : Ending → Int
  | .exited code => code
  | .killed signal => 128 + signal

def handle : ThreadId × Notice → Access Traced Unit
  | (id, .ended how) => onEnd id (codeOf how)
  | (id, .stopped n) => onSignal id n
  | (id, .cloned thread) => do
    match (← get).kernel.held? id with
    | none => throwTracing .noTask
    | some _ =>
      modify fun t => t.addThread thread
      resumeThread id none

/-! The debuggee's operations. -/

/-- How often the kernel is asked again while waiting, in milliseconds. -/
def waitSlice : Nat := 5

/-- Waits for an event. The first bound is on how often something is handled or waited for. -/
def pollTimes : (turns millis : Nat) → Access Traced (Option Event)
  | 0, _ => return none
  | turns + 1, millis => do
    let t ← get
    match t.pending, t.deferred with
    | e :: pending, _ =>
      set { t with pending }
      return some e
    | [], news :: deferred =>
      set { t with deferred }
      handle news
      pollTimes turns millis
    | [], [] =>
      if t.hasExited then return none
      set t.drain
      if !(← get).pending.isEmpty then pollTimes turns millis
      else if (← get).kernel.tracedTasks.isEmpty then return none
      else
        match ← tracing Kernel.newsOfAny with
        | some news =>
          handle news
          pollTimes turns millis
        | none =>
          if millis = 0 then return none
          let nap := min waitSlice millis
          modify fun t => { t with kernel := t.kernel.pass nap }
          pollTimes turns (millis - nap)

def poll (millis : Nat) : Access Traced (Option Event) := pollTimes patience millis

def resume (mode : ResumeMode) : Access Traced Unit := do
  let t ← get
  if t.hasExited then throw (.hasExited t.pid)
  match mode with
  | .step id =>
    match t.thread? id with
    | none => throw (.unknownThread id)
    | some u =>
      set { t.modifyThread id fun u => u.takeSignal.2 with stepping := some id }
      resumeThread id u.signal
  | .continue =>
    set { t with stepping := none }
    let waiting := t.deferred.map (·.1)
    let free := t.threads.filter fun u => u.state = .stopped && !waiting.contains u.id
    free.forM fun u => do
      modify fun t => t.modifyThread u.id fun u => u.takeSignal.2
      releaseThread u.id u.signal
    modify settle

/-- The first thread is asked to stop, or another one if it is gone. -/
def interrupt : Access Traced Unit := do
  let t ← get
  if t.hasExited then return ()
  let first := if (t.thread? t.pid).isSome then some t.pid else t.threads.head?.map (·.id)
  match first with
  | none => throw (.noThreads t.pid)
  | some id =>
    if (t.kernel.task? id).isNone then
      set { t with interruptRequested := true }
      throw (.notInterrupted t.pid Errno.noProcess.numbered)
    else
      let kernel := (t.kernel.sendToTask id ⟨Signal.stop, .sentToThread⟩).settle
      set { t with interruptRequested := true, kernel }

def terminate : Access Traced Unit := do
  let t ← get
  if t.hasExited then return ()
  if (t.kernel.process? t.pid).isNone then throwTracing .noTask
  set { t with kernel := (t.kernel.sendToProcess t.pid ⟨Signal.kill, .sentToProcess⟩).settle }

def readMemory (t : Traced) (address : UInt64) (size : Nat) : Except Fault Bytes :=
  (t.kernel.readMemory t.pid address size).mapError fun e => .described e.message

def registers (t : Traced) (id : ThreadId) : Except Fault Registers :=
  match t.kernel.cpuOf id with
  | .ok c => .ok ⟨c.pc, c.rsp, c.rbp⟩
  | .error e => .error (.described e.message)

def setRegisters (id : ThreadId) (r : Registers) : Access Traced Unit := do
  let _ ← asking fun k => k.cpuOf id
  modify fun t =>
    { t with
      kernel := t.kernel.modifyCpu id fun c => { c with pc := r.pc, rsp := r.sp, rbp := r.fp } }

instance : Debuggee Traced where
  pid t := t.pid
  poll := poll
  resume := resume
  read := readMemory
  write address bytes := do
    let pid := (← get).pid
    tracing fun k => k.writeMemory pid address bytes
  registers := registers
  setRegisters := setRegisters
  decode _ := X86.classify
  interrupt := interrupt
  terminate := terminate
  clock t := t.kernel.clock / 1000000

/-- A program's arguments, of which the first is its path as it was given. -/
def argumentsOf (r : LaunchRequest) : List Bytes :=
  (r.executable :: r.arguments).map fun a => a.toUTF8.toList

/-- The position of a zero in one of several texts. -/
def zeroIn? (texts : List Bytes) : Option Nat := texts.findSome? fun b => b.findIdx? (· = 0)

/-- Starts a program from a tree of files. Relative paths are looked up in a directory: that of the
program in the debugger's, and again, when it is started, in its own. -/
def launch (files : FileTree) (home : List String) : Launch Traced := fun attempt r => do
  if !files.isFile home r.executable then throw (.executableNotFound r.executable)
  let directory ← match files.resolve home r.directory with
    | .ok (place, .directory) => pure place
    | _ => throw (.directoryNotFound r.directory)
  if let some position := zeroIn? (argumentsOf r) then throw (.zeroInText position)
  match execute directory (attempt * loadsBetweenLaunches) r with
  | .error e => throw (.notStarted r.executable r.directory e.description)
  | .ok kernel =>
    match rescan (attached kernel) with
    | (.ok (), t) => .ok t
    | (.error e, _) => .error e
where
  execute (directory : List String) (loads : Nat) (r : LaunchRequest) : Except Errno Kernel := do
    match ← files.resolve directory r.executable with
    | (_, .directory) => throw .accessDenied
    | (place, .file contents) => Kernel.start files place directory contents (argumentsOf r) loads
  attached (kernel : Kernel) : Traced :=
    { kernel, pid := Kernel.firstId, threads := [.new Kernel.firstId .stopped], starting := []
      deferred := [], pending := [.threadStarted Kernel.firstId], unfinished := [], images := []
      stepping := none, interruptRequested := false, hasExited := false }
  /-- A process that replaces its program less often than this never shares a place with the next
  one of the same session. -/
  loadsBetweenLaunches : Nat := 64

end Traced

end SourceDebugger
