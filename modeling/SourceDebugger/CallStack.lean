import SourceDebugger.Breakpoint.Traps
/-!
Unwinding the call stack. Frames are linked by the frame pointer: at it lies the caller's frame
pointer, and above that the return address. While a function is being entered or left it has no
such frame; then the return address is found by the stack pointer.

A walk reads whatever is in memory. It ends where memory ends, where a return address is 0, or where
the chain of frame pointers stops rising.
-/
namespace SourceDebugger

structure Frame where
  /-- 0 is the innermost. -/
  index : Nat
  thread : ThreadId
  function : String
  moduleName : Option String
  segment : Option Segment
  pc : UInt64
  sp : UInt64
  fp : UInt64
  base : FrameBase
  info : Option FunctionInfo
  /-- The pause in which the frame was read. -/
  generation : Nat
  deriving DecidableEq, Repr

/-- How far the innermost function has set up its frame. -/
inductive FrameState where
  /-- At the first instruction or at the return: the return address lies on top of the stack. -/
  | absent
  /-- The caller's frame pointer has been pushed on top of it. -/
  | pushed
  | complete
  deriving DecidableEq, Repr

namespace CallStack

variable {δ : Type} [Debuggee δ]

/-- What is known about the code at an address. -/
structure Site where
  loaded : Option LoadedModule
  info : Option FunctionInfo

def siteAt (r : Roster) (address : UInt64) : Site :=
  let loaded := r.moduleAt? address
  ⟨loaded, loaded.bind (·.functionAt? address)⟩

def decodesTo (ts : Traps) (d : δ) (address : UInt64) (test : Instruction → Bool) : Bool :=
  match Instrumented.decode ts d address with
  | .ok i => test i
  | .error _ => false

/-- At a return there is no frame any more. -/
def stateByInstruction (ts : Traps) (d : δ) (pc : UInt64) : FrameState :=
  if decodesTo ts d pc (·.kind = .return) then .absent else .complete

def innermostState (ts : Traps) (d : δ) (site : Site) (pc : UInt64) : FrameState :=
  match site.loaded, site.info with
  | some m, some f =>
    let entry := m.base + f.low
    if pc = entry then .absent
    else if decodesTo ts d entry fun i => i.kind = .pushFramePointer && i.next = pc then .pushed
    else stateByInstruction ts d pc
  | _, _ => stateByInstruction ts d pc

/-- The stack pointer as it was before the call of the current function. It stays the same from the
function's first instruction to its last, so it tells frames apart. -/
def canonicalAddress (ts : Traps) (d : δ) (r : Roster) (regs : Registers) : UInt64 :=
  match innermostState ts d (siteAt r regs.pc) regs.pc with
  | .absent => regs.sp + 8
  | .pushed => regs.sp + 16
  | .complete => regs.fp + 16

/-- The return address is on top of the stack. -/
def unwindFrameless (d : δ) (sp fp : UInt64) : Except Fault Registers :=
  if 2 ^ 64 ≤ sp.toNat + 8 then .error (.stackAtEnd sp)
  else do .ok ⟨← Debuggee.readWord d sp, sp + 8, fp⟩

/-- The caller's frame pointer lies at the frame pointer, the return address above it. -/
def unwindFramed (d : δ) (fp : UInt64) : Except Fault Registers :=
  if 2 ^ 64 ≤ fp.toNat + 16 then .error (.notStackAddress fp)
  else do
    let pc ← Debuggee.readWord d (fp + 8)
    let callerFp ← Debuggee.readWord d fp
    .ok ⟨pc, fp + 16, callerFp⟩

/-- What the state of the frame says about the caller. -/
def unwind? (d : δ) (state : FrameState) (regs : Registers) : Option Registers :=
  match state with
  | .absent => (unwindFrameless d regs.sp regs.fp).toOption
  | .pushed => (unwindFramed d regs.sp).toOption
  | .complete => if regs.fp = 0 then none else (unwindFramed d regs.fp).toOption

/-- The registers of the caller, if the walk goes on. -/
def caller? (d : δ) (state : FrameState) (regs : Registers) : Option Registers :=
  (unwind? d state regs).filter fun c =>
    c.pc != 0 && !(state == .complete && c.fp != 0 && c.fp ≤ regs.fp)

/-- A frame from its registers. Callers are looked up inside the call, since the return address may
belong to the next statement. -/
def frameAt (ts : Traps) (d : δ) (r : Roster) (thread : ThreadId) (generation index : Nat)
    (regs : Registers) : Frame × FrameState :=
  let lookup := if index = 0 || regs.pc = 0 then regs.pc else regs.pc - 1
  let site := siteAt r lookup
  let state := if index = 0 then innermostState ts d site regs.pc else .complete
  let fp := match state with
    | .absent => regs.sp - 8
    | .pushed => regs.sp
    | .complete => regs.fp
  ({ index, thread, generation, pc := regs.pc, sp := regs.sp, fp, info := site.info
     function := match site.info with
       | some f => f.name
       | none => "<unknown " ++ Text.hexMarked regs.pc.toNat ++ ">"
     moduleName := site.loaded.map (·.name)
     segment := (site.loaded.bind (·.lineAt? lookup)).map (·.segment)
     base := (site.info.map (·.frameBase)).getD .framePointer }, state)

/-- At most so many frames from given registers outward. -/
def framesFrom (ts : Traps) (d : δ) (r : Roster) (thread : ThreadId) (generation : Nat) :
    (room index : Nat) → Registers → List Frame
  | 0, _, _ => []
  | room + 1, index, regs =>
    let (frame, state) := frameAt ts d r thread generation index regs
    match caller? d state regs with
    | none => [frame]
    | some c => frame :: framesFrom ts d r thread generation room (index + 1) c

/-- The frames of a thread, innermost first. -/
def walk (ts : Traps) (d : δ) (r : Roster) (thread : ThreadId) (maxFrames generation : Nat) :
    Except Fault (List Frame) := do
  .ok (framesFrom ts d r thread generation maxFrames 0 (← Debuggee.registers d thread))

end CallStack

end SourceDebugger
