import SourceDebugger.Process.Kernel
/-!
How signals take effect. A task attends to its signals whenever it is about to go on with its
program: the debugger is shown each one first, and may let it have its effect or not. A system
call that waits is broken off by a signal; it is made again unless a handler runs.
-/
namespace SourceDebugger.Kernel

/-! What a handler finds on the stack: a return address, the registers as they were, the set of
blocked signals, a description of the signal and the floating-point registers. -/

/-- Registers in the order in which they are saved. -/
def savedRegisters : List X86.Register :=
  [.r8, .r9, .r10, .r11, .r12, .r13, .r14, .r15, .rdi, .rsi, .rbp, .rbx, .rdx, .rax, .rcx, .rsp]

/-- Where the saved registers begin. -/
def registersOffset : UInt64 := 48

/-- What stands before them: which parts there are, no further context, and no stack of its own. -/
def contextHead : List UInt64 := [7, 0, 0, 2, 0]

def programCounterOffset : UInt64 := registersOffset + 128

def flagsOffset : UInt64 := registersOffset + 136

def maskOffset : UInt64 := 304

def descriptionOffset : UInt64 := 312

def frameSize : UInt64 := 440

/-- The floating-point area begins at a multiple of 64; its registers come after 160 bytes. -/
def floatingArea : UInt64 := 512

def floatingOffset : UInt64 := 160

/-- Writes numbers of eight bytes one after the other; `none` if there is no memory for them. -/
def writeWords (m : AddressSpace) (a : UInt64) : List UInt64 → Option AddressSpace
  | [] => some m
  | w :: rest =>
    match m.store a w 8 with
    | .ok m => writeWords m (a + 8) rest
    | .error _ => none

def readWord? (m : AddressSpace) (a : UInt64) : Option UInt64 := (m.load a 8).toOption

/-- Prepares a task's stack and registers for a handler. -/
def enterHandler? (m : AddressSpace) (cpu : X86.Cpu) (blocked : SignalSet) (a : SignalAction)
    (s : Signal) : Option (AddressSpace × X86.Cpu) := do
  let floating := ((cpu.rsp - 128 - floatingArea) >>> 6) <<< 6
  let frame := (((floating - frameSize) >>> 4) <<< 4) - 8
  let m ← writeWords m frame ([a.restorer] ++ contextHead)
  let m ← writeWords m (frame + registersOffset)
    (savedRegisters.map cpu.get ++ [cpu.pc, cpu.flags.toWord])
  let m ← writeWords m (frame + maskOffset) [blocked]
  let m ← writeWords m (frame + descriptionOffset)
    [UInt64.ofNat s.number, UInt64.ofInt s.code &&& 0xffffffff]
  let m ← writeWords m (floating + floatingOffset)
    (cpu.floating.toList.flatMap fun v => [v.low, v.high])
  some (m, { cpu with
    rdi := UInt64.ofNat s.number, rsi := frame + descriptionOffset, rdx := frame + 8, rax := 0
    rsp := frame, pc := a.handler })

/-- Restores what was saved at a frame. -/
def leaveHandler? (m : AddressSpace) (cpu : X86.Cpu) (frame : UInt64) :
    Option (X86.Cpu × SignalSet) := do
  let words ← (List.range savedRegisters.length).mapM fun i =>
    readWord? m (frame + registersOffset + 8 * UInt64.ofNat i)
  let cpu := (savedRegisters.zip words).foldl (fun cpu (r, w) => cpu.set r w) cpu
  let pc ← readWord? m (frame + programCounterOffset)
  let flags ← readWord? m (frame + flagsOffset)
  some ({ cpu with pc, flags := .ofWord flags }, ← readWord? m (frame + maskOffset))

/-- Flags of a signal's action. -/
def restartsCalls : UInt64 := 0x10000000

def staysUnblocked : UInt64 := 0x40000000

def isUsedOnce : UInt64 := 0x80000000

/-- A handler's program goes on behind an interrupted call, which has then failed; only waiting for
a child can be made again. -/
def breakOff (a : SignalAction) (t : Task) : Task :=
  match t.interrupted with
  | none => t
  | some i =>
    let again := match i.wait with
      | .child .. => a.flags &&& restartsCalls != 0
      | _ => false
    let cpu := if again then { t.cpu with pc := t.cpu.pc - 2, rax := i.call }
      else { t.cpu with rax := Errno.interrupted.result }
    { t with cpu, interrupted := none }

/-- Runs a handler in a task, or ends the process if its stack has no room. -/
def handle (k : Kernel) (id : ThreadId) (a : SignalAction) (s : Signal) : Kernel :=
  let k := k.modifyTask id (breakOff a)
  match k.task? id with
  | none => k
  | some t =>
    match k.process? t.process with
    | none => k
    | some p =>
      match enterHandler? p.memory t.cpu t.blocked a s with
      | none => k.endProcess p.id (.killed Signal.segment)
      | some (memory, cpu) =>
        let own := if a.flags &&& staysUnblocked == 0 then SignalSet.bit s.number else 0
        let k := k.modifyProcess p.id fun p =>
          { p with memory
                   actions := if a.flags &&& isUsedOnce == 0 then p.actions
                     else p.actions.setIfInBounds s.number .default }
        let k := k.modifyTask id fun t => { t with cpu, blocked := t.blocked ||| a.mask ||| own }
        if t.stepping then k.hold id .handler (.stopped Signal.trap) else k

/-- Lets a signal have its effect on a task. -/
def take (k : Kernel) (id : ThreadId) (s : Signal) : Kernel :=
  match k.task? id with
  | none => k
  | some t =>
    match k.process? t.process with
    | none => k
    | some p =>
      if t.blocked.has s.number && s.number != Signal.kill then
        k.modifyTask id fun t => { t with pending := enqueue t.pending s }
      else if s.number == Signal.kill then k.endProcess p.id (.killed s.number)
      else if p.ignores s.number then k
      else
        let a := p.action s.number
        if a.handler == 0 then k.endProcess p.id (.killed s.number) else k.handle id a s

/-- The position of the signal that comes first: those that an instruction caused, then by
number. -/
def firstOf (queue : List Signal) (blocked : SignalSet) : Option Signal :=
  let free := queue.filter fun s => !blocked.has s.number || s.number = Signal.kill
  match free.find? (·.isSynchronous) with
  | some s => some s
  | none => free.foldl (fun best s => match best with
      | some b => if s.number < b.number then some s else best
      | none => some s) none

/-- Takes the next signal of a task off its queue, or else off that of its process. -/
def dequeue (k : Kernel) (t : Task) : Option (Signal × Kernel) :=
  match firstOf t.pending t.blocked with
  | some s => some (s, k.modifyTask t.id fun t => { t with pending := t.pending.erase s })
  | none =>
    match (k.process? t.process).bind fun p => firstOf p.pending t.blocked with
    | some s => some (s, k.modifyProcess t.process fun p => { p with pending := p.pending.erase s })
    | none => none

/-- A signal breaks off what a task waits for. -/
def interrupt (t : Task) : Task :=
  match t.activity with
  | .waiting w =>
    let call : UInt64 := match w with
      | .signal => 34
      | .time _ => 219
      | .child .. => 61
    { t with activity := .running, interrupted := some ⟨call, w⟩ }
  | _ => t

/-- Makes an interrupted call again: the program counter goes back to the instruction for it. -/
def callAgain (t : Task) : Task :=
  match t.interrupted with
  | none => t
  | some i =>
    let deadline := match i.wait with
      | .time d => d
      | _ => t.resumedDeadline
    { t with interrupted := none, resumedDeadline := deadline
             cpu := { t.cpu with pc := t.cpu.pc - 2, rax := i.call } }

/-- Lets a task attend to its signals, at most so many of them. A traced task is held at each
one. -/
def attend (id : ThreadId) : (most : Nat) → Kernel → Kernel
  | 0, k => k
  | n + 1, k =>
    match k.task? id with
    | none => k
    | some t =>
      if !t.isAttentive then k
      else match k.dequeue t with
        | none => if t.activity = .running then k.modifyTask id callAgain else k
        | some (s, k) =>
          let k := k.modifyTask id interrupt
          if k.isTraced t.process then k.hold id (.delivery s) (.stopped s.number)
          else attend id n (k.take id s)

/-- More signals than a task can have waiting. -/
def signalsAtOnce : Nat := 256

/-- A task leaves a system call: if it is being stepped, the debugger is told. -/
def leaveCall (k : Kernel) (id : ThreadId) : Kernel :=
  if (k.task? id).any (·.stepping) then k.force id ⟨Signal.trap, .callReturned⟩ else k

/-- Ends a task's waiting with a result. -/
def finishWaiting (k : Kernel) (id : ThreadId) (result : UInt64) : Kernel :=
  (k.modifyTask id fun t =>
    { t with activity := .running, cpu := { t.cpu with rax := result } }).leaveCall id

/-- The status of a process that has ended, as its parent is given it. -/
def statusWord : Ending → UInt64
  | .exited code => UInt64.ofNat (code % 256) <<< 8
  | .killed signal => UInt64.ofNat signal

/-- A child of a process that has ended, if there is one to be waited for. -/
def endedChild? (k : Kernel) (parent : ThreadId) (wanted : Option Int) :
    Option (Process × Ending) :=
  k.processes.toList.findSome? fun p =>
    if p.parent == parent && wanted.all (· == p.id) then p.ending.map fun e => (p, e) else none

/-- Removes all that is left of a process. -/
def reap (k : Kernel) (process : ThreadId) : Kernel :=
  { k with processes := k.processes.filter (·.id != process)
           tasks := k.tasks.filter (·.process != process) }

/-- Gives a child's status to a process that waits for it. -/
def collectChild (k : Kernel) (t : Task) (status : UInt64) (child : Process × Ending) :
    Kernel × UInt64 :=
  let k := k.reap child.1.id
  let result := UInt64.ofInt child.1.id
  if status == 0 then (k, result)
  else match k.process? t.process with
    | none => (k, result)
    | some p =>
      match p.memory.store status (statusWord child.2) 4 with
      | .ok memory => (k.modifyProcess p.id fun p => { p with memory }, result)
      | .error _ => (k, Errno.badAddress.result)

/-- Ends the waiting of a task whose time has come or whose child has ended. -/
def awaken (k : Kernel) (t : Task) : Kernel :=
  match t.activity with
  | .waiting (.time deadline) => if deadline ≤ k.clock then k.finishWaiting t.id 0 else k
  | .waiting (.child wanted status) =>
    match k.endedChild? t.process wanted with
    | none => k
    | some child =>
      let (k, result) := k.collectChild t status child
      k.finishWaiting t.id result
  | _ => k

/-- Lets a task go on that its debugger has released. The signal that held it has its effect only if
it was given. -/
def goOn (k : Kernel) (id : ThreadId) : Kernel :=
  match k.activity? id with
  | some (.released h signal) =>
    let k := k.setActivity id .running
    match h, signal with
    | .delivery s, some n => k.take id (if s.number = n then s else ⟨n, .sentToThread⟩)
    | .call, _ => k.leaveCall id
    | _, _ => k
  | _ => k

/-- Lets a task notice what has happened. -/
def settleTask (k : Kernel) (id : ThreadId) : Kernel :=
  let k := k.goOn id
  match k.task? id with
  | none => k
  | some t => attend id signalsAtOnce (k.awaken t)

/-- Lets every task notice what has happened. The end of one may awaken another. -/
def settleTimes : Nat → Kernel → Kernel
  | 0, k => k
  | n + 1, k => settleTimes n (k.tasks.toList.foldl (fun k t => k.settleTask t.id) k)

def settle (k : Kernel) : Kernel := settleTimes 2 k

end SourceDebugger.Kernel
