import SourceDebugger.Process.Schedule
/-!
What a debugger can ask of the processes that it traces: what has happened to their threads, to let
a held thread go on, and to look at registers and memory. Registers can be seen of held threads
only, memory at any time. All requests refer to threads by number, and a number that means
nothing, or nothing any more, is an error of its own.
-/
namespace SourceDebugger

/-- Why a request was refused. -/
inductive TracingFault where
  /-- There is no such thread, or it is not held. -/
  | noTask
  /-- Something happened that has no name. -/
  | unnamedSignal
  | noChild
  | registersUnreadable (thread : ThreadId)
  | memoryGone (process : ThreadId)
  | memoryGoneForWriting (process : ThreadId)
  | mappingsGone (process : ThreadId)
  /-- The address is taken for the number of an error. -/
  | seek (e : Errno)
  | seekForWriting (address : UInt64) (e : Errno)
  /-- The address and the size together leave the address space. -/
  | tooLarge
  | wordUnreadable (address : UInt64)
  | wordUnreachable (address : UInt64)
  | endOfMemory
  | write (size : Nat) (address : UInt64) (why : String)
  deriving DecidableEq, Repr

namespace TracingFault

/-- What is said of a thread that is not there. -/
def noTaskText : String := "ESRCH: " ++ Errno.noProcess.description

def memoryPath (process : ThreadId) : String := "/proc/" ++ toString process ++ "/mem"

def message : TracingFault → String
  | noTask => noTaskText
  | unnamedSignal => "EINVAL: " ++ Errno.invalid.description
  | noChild => "ECHILD: " ++ Errno.noChild.description
  | registersUnreadable t => "Failed to read registers of " ++ toString t ++ ": " ++ noTaskText
  | memoryGone p => "Failed to open " ++ memoryPath p ++ ": " ++ Errno.notFound.numbered
  | memoryGoneForWriting p =>
    "Failed to open " ++ memoryPath p ++ " for writing: " ++ Errno.notFound.numbered
  | mappingsGone p => "Failed to read /proc/" ++ toString p ++ "/maps: " ++ Errno.notFound.numbered
  | seek e => e.numbered
  | seekForWriting a e =>
    "Failed to seek to address " ++ Text.hexMarked a.toNat ++ ": " ++ e.numbered
  | tooLarge => Errno.tooLarge.numbered
  | wordUnreadable a =>
    "Failed to read via ptrace at " ++ Text.hexMarked a.toNat ++ ": EIO: I/O error"
  | wordUnreachable a =>
    "Failed to read via ptrace at " ++ Text.hexMarked a.toNat ++ ": " ++ noTaskText
  | endOfMemory => "failed to fill whole buffer"
  | write size a why =>
    "Failed to write " ++ toString size ++ " bytes to " ++ Text.hexMarked a.toNat ++ ": " ++ why

end TracingFault

namespace Kernel

/-! What has happened. -/

/-- What can be told of a task now. The end of a process is told last: after the ends of all its
other threads have been. -/
def tidings? (k : Kernel) (t : Task) : Option Notice :=
  match t.notice with
  | some (.ended how) =>
    if t.id ≠ t.process then some (.ended how)
    else if 1 < (k.tasksOf t.process).length then none
    else some (.ended (((k.process? t.process).bind (·.ending)).getD how))
  | other => other

/-- A notice is given once. What has ended is then forgotten. -/
def collect (k : Kernel) (t : Task) : Notice → Kernel
  | .ended _ =>
    if t.id = t.process then k.reap t.process
    else { k with tasks := k.tasks.filter (·.id ≠ t.id) }
  | _ => k.modifyTask t.id fun t => { t with notice := none }

/-- The traced tasks: first threads come first, the others with the newest at the front. -/
def tracedTasks (k : Kernel) : List Task :=
  let traced := k.tasks.toList.filter fun t => k.isTraced t.process
  traced.filter (fun t => t.id = t.process) ++ (traced.filter (fun t => t.id ≠ t.process)).reverse

def isNamed : Notice → Bool
  | .stopped n | .ended (.killed n) => n < 32
  | _ => true

/-- Collects the first news of some tasks. News without a name are lost. -/
def collectFirst (k : Kernel) (ts : List Task) :
    Except TracingFault (Option (ThreadId × Notice)) × Kernel :=
  match ts.findSome? fun t => (k.tidings? t).map fun n => (t, n) with
  | none => (.ok none, k)
  | some (t, n) =>
    (if isNamed n then .ok (some (t.id, n)) else .error .unnamedSignal, k.collect t n)

/-- News of any traced task, if there are any. -/
def newsOfAny (k : Kernel) : Except TracingFault (Option (ThreadId × Notice)) × Kernel :=
  match k.tracedTasks with
  | [] => (.error .noChild, k)
  | ts => k.collectFirst ts

/-- Waits for news of one task, at most so many milliseconds. -/
def newsOf (id : ThreadId) : (millis : Nat) → Kernel →
    Except TracingFault (Option (ThreadId × Notice)) × Kernel
  | 0, k => (.ok none, k)
  | n + 1, k =>
    match k.tracedTasks.find? (·.id = id) with
    | none => (.error .noChild, k)
    | some t =>
      match k.collectFirst [t] with
      | (.ok none, k) => newsOf id n (k.pass 1)
      | found => found

/-! Letting threads go on. -/

/-- Where a traced task is held, if it is. -/
def held? (k : Kernel) (id : ThreadId) : Option Hold := do
  let t ← k.task? id
  match t.activity with
  | .held h => if k.isTraced t.process then some h else none
  | _ => none

/-- The signal that holds a task, with its cause. -/
def signalHolding? (k : Kernel) (id : ThreadId) : Option Signal :=
  match k.held? id with
  | some (.delivery s) => some s
  | some .handler => some ⟨Signal.trap, .handlerEntered⟩
  | _ => none

/-- Lets a held task go on, for one instruction only if it is to be stepped. It begins to when the
kernel settles. -/
def letGo (k : Kernel) (id : ThreadId) (signal : Option Nat) (stepping : Bool) :
    Except TracingFault Unit × Kernel :=
  match k.held? id with
  | none => (.error .noTask, k)
  | some h =>
    (.ok (), k.modifyTask id fun t =>
      { t with activity := .released h signal, stepping, notice := none })

/-! Looking at registers. -/

def cpuOf (k : Kernel) (id : ThreadId) : Except TracingFault X86.Cpu :=
  match k.held? id, k.task? id with
  | some _, some t => .ok t.cpu
  | _, _ => .error (.registersUnreadable id)

/-! Looking at memory. It belongs to the first thread: when that has ended, nothing of it is left to
be seen. -/

/-- The memory of a process; none for a process whose first thread has ended. -/
def memoryOf? (k : Kernel) (process : ThreadId) : Option AddressSpace :=
  (k.process? process).map fun p =>
    if (k.task? process).any (·.isAlive) then p.memory else ⟨#[]⟩

def hasMemory (k : Kernel) (process : ThreadId) : Bool := (k.task? process).any (·.isAlive)

/-- The highest addresses are taken for negated error numbers. -/
def seekFault? (address : UInt64) : Option Errno :=
  let distance := (0 - address).toNat
  if 0 < distance && distance < 4096 then some ⟨distance⟩ else none

/-- A stretch of memory that does not end below the end of the address space. -/
def isTooLarge (address : UInt64) (size : Nat) : Bool :=
  2 ^ 63 ≤ address.toNat && 2 ^ 64 ≤ address.toNat + size

/-- Bytes in a word. -/
def wordSize : Nat := 8

/-- Reads a stretch word by word, each of them whole. -/
def readByWords (k : Kernel) (process : ThreadId) (address : UInt64) :
    (size : Nat) → Except TracingFault Bytes
  | 0 => .ok []
  | n + 1 =>
    match k.held? process with
    | none => .error (.wordUnreachable address)
    | some _ =>
      let word := ((k.memoryOf? process).getD ⟨#[]⟩).peek address wordSize
      if word.length < wordSize then .error (.wordUnreadable address)
      else match readByWords k process (address + UInt64.ofNat wordSize) (n + 1 - wordSize) with
        | .ok rest => .ok (word.take (n + 1) ++ rest)
        | .error e => .error e
termination_by size => size
decreasing_by simp only [wordSize]; omega

/-- Reads a stretch of memory. If a part of it cannot be read, it is tried again word by word, which
tells where the part begins. -/
def readMemory (k : Kernel) (process : ThreadId) (address : UInt64) (size : Nat) :
    Except TracingFault Bytes :=
  match k.memoryOf? process with
  | none => .error (.memoryGone process)
  | some m =>
    match seekFault? address with
    | some e => if e = .inputOutput then k.readByWords process address size else .error (.seek e)
    | none =>
      if size = 0 then .ok []
      else if isTooLarge address size then .error .tooLarge
      else if !k.hasMemory process then .error .endOfMemory
      else
        let bytes := m.peek address size
        if bytes.length < size then k.readByWords process address size else .ok bytes

/-- Writes a stretch of memory, also where the program itself may not. What comes before a part that
is not there has been written. -/
def writeMemory (k : Kernel) (process : ThreadId) (address : UInt64) (bytes : Bytes) :
    Except TracingFault Unit × Kernel :=
  let fault := TracingFault.write bytes.length address
  match k.memoryOf? process with
  | none => (.error (.memoryGoneForWriting process), k)
  | some m =>
    match seekFault? address with
    | some e => (.error (.seekForWriting address e), k)
    | none =>
      if bytes.isEmpty then (.ok (), k)
      else if isTooLarge address bytes.length then (.error (fault Errno.tooLarge.numbered), k)
      else if !k.hasMemory process then (.error (fault "failed to write whole buffer"), k)
      else
        let (memory, n) := m.poke address bytes
        (if n < bytes.length then .error (fault Errno.inputOutput.numbered) else .ok (),
          k.modifyProcess process fun p => { p with memory })

def mappingsOf (k : Kernel) (process : ThreadId) : Except TracingFault (List Mapping) :=
  match k.memoryOf? process with
  | some m => .ok m.mappings
  | none => .error (.mappingsGone process)

/-! Starting. -/

/-- The number of the first process; lower ones are taken to be in use. -/
def firstId : ThreadId := 4000001

/-- Starts a program that is held before its first instruction, in a directory that exists. -/
def start (files : FileTree) (place directory : List String) (contents : ByteArray)
    (arguments : List Bytes) (loads : Nat) : Except Errno Kernel := do
  let (memory, cpu) ← Loading.load (FileTree.render place) contents arguments loads
  let process : Process :=
    { id := firstId, parent := 0, traced := true, memory, directory, pending := [], opened := []
      actions := Array.replicate (Signal.count + 1) .default, ending := none }
  let task : Task :=
    { newTask firstId firstId cpu 0 with
      activity := .held (.delivery ⟨Signal.trap, .sentToProcess⟩) }
  .ok { files, processes := #[process], tasks := #[task], clock := 0, output := .empty
        nextId := firstId + 1, loads := loads + 1 }

end Kernel

end SourceDebugger
