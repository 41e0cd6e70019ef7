import SourceDebugger.Process.SystemCall
/-!
Time passes in slices of a millisecond. In each slice every running task runs so many instructions,
one task after the other, unless it comes to wait or is held.
-/
namespace SourceDebugger.Kernel

/-- The signal that an instruction which cannot be carried out brings about. -/
def faultSignal : X86.Fault → Nat
  | .access .noPage _ => Signal.bus
  | .access _ _ => Signal.segment
  | .divide => Signal.arithmetic
  | .undefined => Signal.illegal

/-- A stack grows when it is used below its end; any other fault is a signal. -/
def onFault (k : Kernel) (id process : ThreadId) (memory : AddressSpace) (f : X86.Fault) : Kernel :=
  let grown := match f with
    | .access .unmapped a => memory.growTo? a
    | _ => none
  match grown with
  | some memory => k.modifyProcess process fun p => { p with memory }
  | none => k.force id ⟨faultSignal f, .fault⟩

/-- Puts back what running has changed. -/
def putBack (k : Kernel) (id process : ThreadId) (c : X86.Core) : Kernel :=
  (k.modifyTask id fun t => { t with cpu := c.cpu }).modifyProcess process fun p =>
    { p with memory := c.memory }

/-- Runs a task until it is no longer running, or has used up its instructions. The first bound is
on the number of interruptions by system calls and faults. -/
def runTask (id : ThreadId) : (turns instructions : Nat) → Kernel → Kernel
  | 0, _, k => k
  | turns + 1, n, k =>
    match k.task? id with
    | none => k
    | some t =>
      if n = 0 || t.activity != .running then k
      else match k.process? t.process with
        | none => k
        | some p =>
          match X86.Core.runFor n ⟨t.cpu, p.memory⟩ with
          | .ok (.none, _) c => k.putBack id p.id c
          | .ok (.trap, left) c =>
            let k := (k.putBack id p.id c).force id ⟨Signal.trap, .trapInstruction⟩
            runTask id turns left k.settle
          | .ok (.systemCall, left) c =>
            runTask id turns left ((k.putBack id p.id c).systemCall id).settle
          | .error f c =>
            runTask id turns (n - 1) ((k.putBack id p.id c).onFault id p.id c.memory f).settle

/-- Runs one instruction of a task that is being stepped. A call tells by itself that it is
complete, and a trap is a stop of its own. -/
def stepTask (id : ThreadId) (k : Kernel) : Kernel :=
  match k.task? id with
  | none => k
  | some t =>
    if t.activity != .running then k
    else match k.process? t.process with
      | none => k
      | some p =>
        match X86.Core.runFor 1 ⟨t.cpu, p.memory⟩ with
        | .ok (.none, _) c =>
          ((k.putBack id p.id c).force id ⟨Signal.trap, .singleStep⟩).settle
        | .ok (.trap, _) c =>
          ((k.putBack id p.id c).force id ⟨Signal.trap, .trapInstruction⟩).settle
        | .ok (.systemCall, _) c => ((k.putBack id p.id c).systemCall id).settle
        | .error f c => ((k.putBack id p.id c).onFault id p.id c.memory f).settle

/-- How many instructions a task runs in a slice. -/
def instructionsPerSlice : Nat := 1000

/-- The length of a slice in nanoseconds. -/
def sliceLength : Nat := 1000000

def runSlice (k : Kernel) (id : ThreadId) : Kernel :=
  if (k.task? id).any (·.stepping) then k.stepTask id
  else runTask id instructionsPerSlice instructionsPerSlice k

/-- Lets a slice of time pass. -/
def slice (k : Kernel) : Kernel :=
  let k := { k with clock := k.clock + sliceLength }.settle
  k.tasks.toList.foldl (fun k t => k.runSlice t.id) k

/-- Lets so many milliseconds pass. -/
def pass : Nat → Kernel → Kernel
  | 0, k => k
  | n + 1, k => pass n k.slice

end SourceDebugger.Kernel
