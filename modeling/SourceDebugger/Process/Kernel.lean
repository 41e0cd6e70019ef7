import SourceDebugger.Process.FileTree
import SourceDebugger.Process.Signal
import SourceDebugger.X86.Execute
/-!
What a system knows of the processes that run on it: processes own memory, files and signal
handlers; tasks, which are threads of execution, own a processor's state. One family of processes
is kept, that of a program being debugged. Its first process and all threads of that are traced by
the debugger; processes that these start with a fork are not.
-/
namespace SourceDebugger

/-- How a task or a process came to its end. -/
inductive Ending where
  | exited (code : Nat)
  | killed (signal : Nat)
  deriving DecidableEq, Repr, Inhabited

/-- What a task in a system call waits for. -/
inductive Waiting where
  /-- Any signal. -/
  | signal
  /-- A moment, in nanoseconds, and where to say how much was left. -/
  | time (deadline : Nat)
  /-- The end of a child, or of any child; and where its status goes. -/
  | child (id : Option Int) (status : UInt64)
  deriving DecidableEq, Repr, Inhabited

/-- What is told to a debugger about one of its tasks. -/
inductive Notice where
  | stopped (signal : Nat)
  /-- The task has started another thread. -/
  | cloned (thread : ThreadId)
  | ended (how : Ending)
  deriving DecidableEq, Repr, Inhabited

/-- Where a task that its debugger holds will go on. -/
inductive Hold where
  /-- The signal was taken off its queue but has not had its effect. -/
  | delivery (s : Signal)
  /-- Within a system call whose result is already set. -/
  | call
  /-- At the first instruction of a handler. -/
  | handler
  deriving DecidableEq, Repr, Inhabited

inductive Activity where
  | running
  | waiting (w : Waiting)
  | held (h : Hold)
  /-- Its debugger has let it go on, with a signal perhaps, but it has not begun to. -/
  | released (h : Hold) (signal : Option Nat)
  | ended (how : Ending)
  deriving DecidableEq, Repr, Inhabited

/-- A system call that a signal has interrupted. It is made again unless a handler runs. -/
structure Interrupted where
  /-- The number of the call that continues it. -/
  call : UInt64
  wait : Waiting
  deriving DecidableEq, Repr, Inhabited

structure Task where
  id : ThreadId
  process : ThreadId
  cpu : X86.Cpu
  activity : Activity
  pending : List Signal
  blocked : SignalSet
  interrupted : Option Interrupted
  /-- The deadline of an interrupted sleep, for the call that continues it. -/
  resumedDeadline : Nat
  stepping : Bool
  /-- What its debugger has not yet been told. -/
  notice : Option Notice
  deriving Inhabited

namespace Task

def isAlive (t : Task) : Bool :=
  match t.activity with
  | .ended _ => false
  | _ => true

/-- Whether a signal would reach the task at once. -/
def isAttentive (t : Task) : Bool :=
  match t.activity with
  | .running | .waiting _ => true
  | _ => false

end Task

/-- What a process wants done at a signal. Handlers 0 and 1 are the default and nothing. -/
structure SignalAction where
  handler : UInt64
  flags : UInt64
  restorer : UInt64
  mask : SignalSet
  deriving DecidableEq, Repr, Inhabited

def SignalAction.default : SignalAction := ⟨0, 0, 0, 0⟩

structure OpenFile where
  path : String
  contents : ByteArray
  deriving Inhabited

structure Process where
  id : ThreadId
  parent : ThreadId
  traced : Bool
  memory : AddressSpace
  actions : Array SignalAction
  pending : List Signal
  directory : List String
  opened : List (Nat × OpenFile)
  /-- The whole process has been ended. -/
  ending : Option Ending
  deriving Inhabited

namespace Process

def action (p : Process) (signal : Nat) : SignalAction := (p.actions[signal]?).getD .default

/-- Whether a signal would have no effect. -/
def ignores (p : Process) (signal : Nat) : Bool :=
  let a := p.action signal
  a.handler == 1 || (a.handler == 0 && Signal.defaultAction signal == .ignore)

end Process

structure Kernel where
  files : FileTree
  processes : Array Process
  /-- In the order in which they were started. -/
  tasks : Array Task
  /-- Nanoseconds since the first process was started. -/
  clock : Nat
  /-- What was written and has not been read by the debugger. -/
  output : ByteArray
  nextId : ThreadId
  /-- How many programs were loaded; each goes to a place of its own. -/
  loads : Nat
  deriving Inhabited

namespace Kernel

def task? (k : Kernel) (id : ThreadId) : Option Task := k.tasks.find? (·.id == id)

def activity? (k : Kernel) (id : ThreadId) : Option Activity := (k.task? id).map (·.activity)

def process? (k : Kernel) (id : ThreadId) : Option Process := k.processes.find? (·.id == id)

def modifyTask (k : Kernel) (id : ThreadId) (f : Task → Task) : Kernel :=
  match k.tasks.findIdx? (·.id == id) with
  | some i => { k with tasks := k.tasks.modify i f }
  | none => k

def modifyProcess (k : Kernel) (id : ThreadId) (f : Process → Process) : Kernel :=
  match k.processes.findIdx? (·.id == id) with
  | some i => { k with processes := k.processes.modify i f }
  | none => k

def setActivity (k : Kernel) (id : ThreadId) (a : Activity) : Kernel :=
  k.modifyTask id fun t => { t with activity := a }

def modifyCpu (k : Kernel) (id : ThreadId) (f : X86.Cpu → X86.Cpu) : Kernel :=
  k.modifyTask id fun t => { t with cpu := f t.cpu }

def tasksOf (k : Kernel) (process : ThreadId) : List Task :=
  k.tasks.toList.filter (·.process == process)

def isTraced (k : Kernel) (process : ThreadId) : Bool := (k.process? process).any (·.traced)

/-- Holds a task until its debugger lets it go on. -/
def hold (k : Kernel) (id : ThreadId) (h : Hold) (n : Notice) : Kernel :=
  k.modifyTask id fun t => { t with activity := .held h, notice := some n }

/-- One task is at its end. -/
def endTask (k : Kernel) (id : ThreadId) (how : Ending) : Kernel :=
  k.modifyTask id fun t =>
    { t with activity := .ended how, notice := some (.ended how), pending := [] }

/-- Adds a signal to a queue, unless it has a name and is already there. -/
def enqueue (queue : List Signal) (s : Signal) : List Signal :=
  if s.number < 32 && queue.any (·.number == s.number) then queue else queue ++ [s]

/-- All of a process is at its end; its parent is told. -/
def endProcess (k : Kernel) (process : ThreadId) (how : Ending) : Kernel :=
  match k.process? process with
  | none => k
  | some p =>
    if p.ending.isSome then k
    else
      let k := (k.tasksOf process).foldl (fun k t => if t.isAlive then k.endTask t.id how else k) k
      let k := k.modifyProcess process fun p => { p with ending := some how, memory := ⟨#[]⟩ }
      k.modifyProcess p.parent fun q =>
        if q.traced || !q.ignores Signal.child then
          { q with pending := enqueue q.pending ⟨Signal.child, .sentToProcess⟩ }
        else q

/-- Ends one thread; with the last one the process ends as its first thread did. -/
def exitTask (k : Kernel) (id : ThreadId) (code : Nat) : Kernel :=
  match k.task? id with
  | none => k
  | some t =>
    let k := k.endTask id (.exited code)
    if (k.tasksOf t.process).any (·.isAlive) then k
    else
      let first := (k.task? t.process).bind fun t => match t.activity with
        | .ended how => some how
        | _ => none
      k.endProcess t.process (first.getD (.exited code))

/-- Sends a signal to one thread. -/
def sendToTask (k : Kernel) (id : ThreadId) (s : Signal) : Kernel :=
  match k.task? id with
  | none => k
  | some t =>
    if s.number = Signal.kill then k.endProcess t.process (.killed Signal.kill)
    else if !t.isAlive then k
    else if !k.isTraced t.process && !t.blocked.has s.number
        && (k.process? t.process).any (·.ignores s.number) then k
    else k.modifyTask id fun t => { t with pending := enqueue t.pending s }

/-- Sends a thread a signal that it caused itself. This one cannot be put off or ignored: whatever
the thread wished for it gives way. -/
def force (k : Kernel) (id : ThreadId) (s : Signal) : Kernel :=
  match k.task? id with
  | none => k
  | some t =>
    let isIgnored := (k.process? t.process).any fun p => (p.action s.number).handler == 1
    let k := if t.blocked.has s.number || isIgnored then
        k.modifyProcess t.process fun p =>
          { p with
            actions := p.actions.setIfInBounds s.number { p.action s.number with handler := 0 } }
      else k
    (k.modifyTask id fun t => { t with blocked := t.blocked.erase s.number }).sendToTask id s

/-- Sends a signal to a process; any of its threads may take it. -/
def sendToProcess (k : Kernel) (id : ThreadId) (s : Signal) : Kernel :=
  match k.process? id with
  | none => k
  | some p =>
    if s.number = Signal.kill then k.endProcess id (.killed Signal.kill)
    else if p.ending.isSome || (!p.traced && p.ignores s.number) then k
    else k.modifyProcess id fun p => { p with pending := enqueue p.pending s }

end Kernel

end SourceDebugger
