import SourceDebugger.Process.Delivery
import SourceDebugger.Process.Loading
import SourceDebugger.Text.Utf8
/-!
The calls that programs make. The number of a call is in the first register, its arguments are in
six others, and its result comes back in the first; a failure is a negated error number. Calls
that are not listed fail as not implemented.
-/
namespace SourceDebugger.Kernel

/-- What a call comes to. -/
inductive Outcome where
  | result (w : UInt64)
  | failure (e : Errno)
  /-- The task waits; its result comes later. -/
  | waits (w : Waiting)
  /-- Nothing is put into the result register. -/
  | gone

/-- The arguments of a call. -/
structure Arguments where
  first : UInt64
  second : UInt64
  third : UInt64
  fourth : UInt64
  fifth : UInt64
  sixth : UInt64

def argumentsOf (c : X86.Cpu) : Arguments := ⟨c.rdi, c.rsi, c.rdx, c.r10, c.r8, c.r9⟩

/-- Numbers of 32 bits are signed. -/
def intOf (w : UInt64) : Int := w.toUInt32.toInt32.toInt

/-- The longest text that a call reads. -/
def longestText : Nat := 4096

/-- A text in a program's memory, up to its end mark. -/
def textAt? (m : AddressSpace) (a : UInt64) : Option Bytes :=
  let bytes := m.peek a longestText
  let text := bytes.takeWhile (· ≠ 0)
  if text.length < bytes.length then some text else none

/-- The texts that a list of addresses leads to; the list ends with 0. -/
def textsAt? (m : AddressSpace) (a : UInt64) : (most : Nat) → Option (List Bytes)
  | 0 => none
  | n + 1 => do
    let place ← readWord? m a
    if place = 0 then some []
    else return (← textAt? m place) :: (← textsAt? m (a + 8) n)

/-- The most arguments that a program can be given. -/
def mostTexts : Nat := 1024

/-- A call's work on the process of the task that makes it. -/
abbrev Call := Task → Process → Arguments → Kernel → Outcome × Kernel

def failing (e : Errno) (k : Kernel) : Outcome × Kernel := (.failure e, k)

/-- Writes bytes into the process's memory, or fails. -/
def answer (p : Process) (a : UInt64) (bytes : Bytes) (result : UInt64) (k : Kernel) :
    Outcome × Kernel :=
  let (memory, n) := p.memory.poke a bytes
  if n < bytes.length then failing .badAddress k
  else (.result result, k.modifyProcess p.id fun p => { p with memory })

/-- Only the standard output is kept; what goes to the standard error output is not. -/
def write : Call := fun _ p a k =>
  let bytes := p.memory.peek a.second a.third.toNat
  if a.first != 1 && a.first != 2 then failing .badFile k
  else if bytes.isEmpty && a.third != 0 then failing .badAddress k
  else
    let output := if a.first == 1 then k.output ++ ⟨bytes.toArray⟩ else k.output
    (.result (UInt64.ofNat bytes.length), { k with output })

/-- The lowest number that is not in use. -/
def freeNumber (opened : List (Nat × OpenFile)) : Nat :=
  ((List.range (opened.length + 1)).map (· + 3)).find? (fun n => (opened.lookup n).isNone) |>.getD 3

def openFile : Call := fun _ p a k =>
  match textAt? p.memory a.first with
  | none => failing .badAddress k
  | some path =>
    match k.files.resolve p.directory (Text.ofUtf8Lossy path) with
    | .error e => failing e k
    | .ok (_, .directory) => failing .isDirectory k
    | .ok (place, .file contents) =>
      let n := freeNumber p.opened
      (.result (UInt64.ofNat n), k.modifyProcess p.id fun p =>
        { p with opened := (n, ⟨FileTree.render place, contents⟩) :: p.opened })

def closeFile : Call := fun _ p a k =>
  let n := a.first.toNat
  if n < 3 then (.result 0, k)
  else if (p.opened.lookup n).isNone then failing .badFile k
  else (.result 0, k.modifyProcess p.id fun p => { p with opened := p.opened.filter (·.1 ≠ n) })

/-- New mappings go below this address. -/
def mappingTop : UInt64 := 0x7f8000000000

/-- The highest free place for so many bytes. -/
def freePlace (m : AddressSpace) (size : UInt64) : UInt64 :=
  m.regions.foldr (fun r place =>
    if r.start < place + size && place < r.stop then r.start - size else place) (mappingTop - size)

def protectionOf (w : UInt64) : Protection := ⟨w &&& 1 != 0, w &&& 2 != 0, w &&& 4 != 0⟩

/-- A flag that makes the address of a mapping more than a wish. -/
def fixedPlace : UInt64 := 0x10

def noFile : UInt64 := 0x20

/-- The largest mapping, in pages. -/
def mostPages : Nat := 65536

def mapMemory : Call := fun _ p a k =>
  let count := Loading.pagesFor a.second.toNat
  let size := UInt64.ofNat (count * pageSize)
  if count = 0 || a.sixth &&& 0xfff != 0 || a.fourth &&& 3 == 0 then failing .invalid k
  else if mostPages < count then failing .noMemory k
  else
    let place := if a.fourth &&& fixedPlace != 0 then a.first else freePlace p.memory size
    let put := fun (file : Option (String × UInt64)) pages =>
      let r : MemoryRegion := ⟨place, protectionOf a.third, file, false, pages⟩
      (Outcome.result place, k.modifyProcess p.id fun p =>
        { p with memory := (p.memory.remove place (place + size)).insert r })
    if a.fourth &&& noFile != 0 then put none (Loading.zeroPages count)
    else match p.opened.lookup (intOf a.fifth).toNat with
      | none => failing .badFile k
      | some f =>
        put (some (f.path, a.sixth)) (Loading.filePages f.contents a.sixth.toNat count)

def unmapMemory : Call := fun _ p a k =>
  let size := UInt64.ofNat (Loading.pagesFor a.second.toNat * pageSize)
  if a.first &&& 0xfff != 0 || size == 0 then failing .invalid k
  else (.result 0, k.modifyProcess p.id fun p =>
    { p with memory := p.memory.remove a.first (a.first + size) })

/-- Two signals can be neither handled nor ignored. -/
def setAction : Call := fun _ p a k =>
  let n := (intOf a.first).toNat
  if n = 0 || Signal.count < n || (a.second != 0 && (n = Signal.kill || n = Signal.stop)) then
    failing .invalid k
  else
    let old := p.action n
    let k := if a.second == 0 then some k
      else do
        let handler ← readWord? p.memory a.second
        let flags ← readWord? p.memory (a.second + 8)
        let restorer ← readWord? p.memory (a.second + 16)
        let mask ← readWord? p.memory (a.second + 24)
        some (k.modifyProcess p.id fun p =>
          { p with actions := p.actions.setIfInBounds n ⟨handler, flags, restorer, mask⟩ })
    match k with
    | none => failing .badAddress (k.getD default)
    | some k =>
      if a.third == 0 then (.result 0, k)
      else match k.process? p.id with
        | none => (.gone, k)
        | some p => answer p a.third
            ([old.handler, old.flags, old.restorer, old.mask].flatMap Bytes.ofWord) 0 k

def returnFromHandler : Call := fun t p _ k =>
  match leaveHandler? p.memory t.cpu (t.cpu.rsp - 8) with
  | none => (.gone, k.endProcess p.id (.killed Signal.segment))
  | some (cpu, blocked) => (.gone, k.modifyTask t.id fun t => { t with cpu, blocked })

/-- Nanoseconds in a second. -/
def second : Nat := 1000000000

def sleep : Call := fun _ p a k =>
  match readWord? p.memory a.first, readWord? p.memory (a.first + 8) with
  | some seconds, some nanos =>
    if second ≤ nanos.toNat || 2 ^ 63 ≤ seconds.toNat then failing .invalid k
    else (.waits (.time (k.clock + seconds.toNat * second + nanos.toNat)), k)
  | _, _ => failing .badAddress k

def newTask (id process : ThreadId) (cpu : X86.Cpu) (blocked : SignalSet) : Task :=
  { id, process, cpu, blocked, activity := .running, pending := [], interrupted := none
    resumedDeadline := 0, stepping := false, notice := none }

/-- A flag of a call that starts a thread rather than a process. -/
def sharesProcess : UInt64 := 0x10000

/-- A thread of a traced process begins with a stop, and the call that started it is reported. -/
def startThread : Call := fun t p a k =>
  let id := k.nextId
  let cpu := { t.cpu with rax := 0, rsp := if a.second == 0 then t.cpu.rsp else a.second }
  let new := newTask id p.id cpu t.blocked
  let new := if p.traced then { new with pending := [⟨Signal.stop, .sentToProcess⟩] } else new
  let k := { k with nextId := id + 1, tasks := k.tasks.push new }
  let k := k.modifyCpu t.id fun c => { c with rax := UInt64.ofInt id }
  (.gone, if p.traced then k.hold t.id .call (.cloned id) else k)

/-- A forked process is a copy that nobody traces. -/
def fork : Call := fun t p _ k =>
  let id := k.nextId
  let child := { p with id, parent := p.id, traced := false, pending := [] }
  (.result (UInt64.ofInt id),
    { k with nextId := id + 1, processes := k.processes.push child
             tasks := k.tasks.push (newTask id id { t.cpu with rax := 0 } t.blocked) })

def clone : Call := fun t p a k =>
  if a.first &&& sharesProcess != 0 then startThread t p a k else fork t p a k

/-- Replaces a process's program. Handlers do not outlive it; a debugger is told by a signal. -/
def replaceProgram : Call := fun t p a k =>
  match textAt? p.memory a.first, textsAt? p.memory a.second mostTexts with
  | some path, some arguments =>
    match k.files.resolve p.directory (Text.ofUtf8Lossy path) with
    | .error e => failing e k
    | .ok (_, .directory) => failing .accessDenied k
    | .ok (place, .file contents) =>
      match Loading.load (FileTree.render place) contents arguments k.loads with
      | .error e => failing e k
      | .ok (memory, cpu) =>
        let k := { k with loads := k.loads + 1 }
        let k := k.modifyProcess p.id fun p =>
          { p with
            memory, actions := p.actions.map fun a => if a.handler == 1 then a else .default }
        let k := k.modifyTask t.id fun t => { t with cpu }
        (.gone, if p.traced then k.sendToTask t.id ⟨Signal.trap, .sentToProcess⟩ else k)
  | _, _ => failing .badAddress k

def waitForChild : Call := fun t p a k =>
  let wanted := if intOf a.first = -1 then none else some (intOf a.first)
  if !k.processes.any (fun c => c.parent == p.id && wanted.all (· == c.id)) then failing .noChild k
  else match k.endedChild? p.id wanted with
    | some child =>
      let (k, r) := k.collectChild t a.second child
      (.result r, k)
    | none => if a.third &&& 1 != 0 then (.result 0, k) else (.waits (.child wanted a.second), k)

/-- A signal of number 0 only asks whether the receiver exists. -/
def sendSignal (exists_ : Bool) (number : Int) (send : Nat → Kernel → Kernel) (k : Kernel) :
    Outcome × Kernel :=
  if number < 0 || (Signal.count : Int) < number then failing .invalid k
  else if !exists_ then failing .noProcess k
  else (.result 0, if number = 0 then k else send number.toNat k)

def kill : Call := fun _ _ a k =>
  let id := intOf a.first
  sendSignal (k.process? id).isSome (intOf a.second)
    (fun n k => k.sendToProcess id ⟨n, .sentToProcess⟩) k

def killThread : Call := fun _ _ a k =>
  let id := intOf a.second
  sendSignal ((k.task? id).any fun t => t.process == intOf a.first && t.isAlive) (intOf a.third)
    (fun n k => k.sendToTask id ⟨n, .sentToThread⟩) k

/-- The directory's name with its end mark; its size is the result. -/
def currentDirectory : Call := fun _ p a k =>
  let bytes := (FileTree.render p.directory).toUTF8.toList ++ [0]
  if a.second.toNat < bytes.length then failing .outOfRange k
  else answer p a.first bytes (UInt64.ofNat bytes.length) k

/-- Only the lowest byte of a code is told to others. -/
def exitCode (a : Arguments) : Nat := (a.first &&& 0xff).toNat

def callNumbered (number : UInt64) : Call := fun t p a k =>
  match number with
  | 1 => write t p a k
  | 2 => openFile t p a k
  | 3 => closeFile t p a k
  | 9 => mapMemory t p a k
  | 11 => unmapMemory t p a k
  | 13 => setAction t p a k
  | 15 => returnFromHandler t p a k
  | 24 => (.result 0, k)
  | 34 => (.waits .signal, k)
  | 35 => sleep t p a k
  | 39 => (.result (UInt64.ofInt p.id), k)
  | 56 => clone t p a k
  | 57 => fork t p a k
  | 59 => replaceProgram t p a k
  | 60 => (.gone, k.exitTask t.id (exitCode a))
  | 61 => waitForChild t p a k
  | 62 => kill t p a k
  | 79 => currentDirectory t p a k
  | 110 => (.result (UInt64.ofInt p.parent), k)
  | 186 => (.result (UInt64.ofInt t.id), k)
  | 219 => (.waits (.time t.resumedDeadline), k)
  | 231 => (.gone, k.endProcess p.id (.exited (exitCode a)))
  | 234 => killThread t p a k
  | _ => failing .notImplemented k

/-- Carries out the call that a task has asked for. -/
def systemCall (k : Kernel) (id : ThreadId) : Kernel :=
  match k.task? id with
  | none => k
  | some t =>
    match k.process? t.process with
    | none => k
    | some p =>
      let done := fun (w : UInt64) (k : Kernel) =>
        (k.modifyCpu id fun c =>
          { c with rax := w, rcx := c.pc, r11 := c.flags.toWord }).leaveCall id
      match callNumbered t.cpu.rax t p (argumentsOf t.cpu) k with
      | (.result w, k) => done w k
      | (.failure e, k) => done e.result k
      | (.waits w, k) => k.setActivity id (.waiting w)
      | (.gone, k) => if (k.task? id).any (·.activity == .running) then k.leaveCall id else k

end SourceDebugger.Kernel
