import SourceDebugger.CallStack
import SourceDebugger.Proofs.Parallel
/-!
A debuggee seen through a view. If every operation on the debuggee can be carried out on what is seen
of it, then so can everything that is done to its traps, and everything that is read from it.
-/
namespace SourceDebugger

open Effect

/-- The frame, had it been read so many generations later. -/
def Frame.later (more : Nat) (f : Frame) : Frame := { f with generation := f.generation + more }

section

variable {δ ε : Type}

/-- What is seen of a debuggee. -/
def Viewed (view : δ → ε) (d : δ) (e : ε) : Prop := e = view d

/-- What is seen of a debuggee with traps: its traps are its own. -/
def Instrumented.through (view : δ → ε) (i : Instrumented δ) : Instrumented ε :=
  ⟨i.traps, view i.debuggee⟩

def Instrumented.Viewed (view : δ → ε) (i : Instrumented δ) (j : Instrumented ε) : Prop :=
  j = i.through view

variable [Debuggee δ] [Debuggee ε]

/-- Operations on a debuggee do to what is seen of it what they would do there, and answer the same. -/
structure Faithful (view : δ → ε) : Prop where
  pid (d : δ) : Debuggee.pid (view d) = Debuggee.pid d
  poll (millis : Nat) : Parallel (Viewed view) (Debuggee.poll millis) (Debuggee.poll millis)
  resume (mode : ResumeMode) : Parallel (Viewed view) (Debuggee.resume mode) (Debuggee.resume mode)
  read (d : δ) (address : UInt64) (length : Nat) :
    Debuggee.read (view d) address length = Debuggee.read d address length
  write (address : UInt64) (bytes : Bytes) :
    Parallel (Viewed view) (Debuggee.write address bytes) (Debuggee.write address bytes)
  registers (d : δ) (thread : ThreadId) :
    Debuggee.registers (view d) thread = Debuggee.registers d thread
  setRegisters (thread : ThreadId) (regs : Registers) : Parallel (Viewed view)
    (Debuggee.setRegisters thread regs) (Debuggee.setRegisters thread regs)
  decode (d : δ) (address : UInt64) (bytes : Bytes) :
    Debuggee.decode (view d) address bytes = Debuggee.decode d address bytes
  interrupt : Parallel (Viewed view) Debuggee.interrupt Debuggee.interrupt
  terminate : Parallel (Viewed view) Debuggee.terminate Debuggee.terminate

omit [Debuggee ε] in
theorem Faithful.refl : Faithful (fun d : δ => d) where
  pid _ := rfl
  poll _ := .refl
  resume _ := .refl
  read _ _ _ := rfl
  write _ _ := .refl
  registers _ _ := rfl
  setRegisters _ _ := .refl
  decode _ _ _ := rfl
  interrupt := .refl
  terminate := .refl

variable {view : δ → ε}

section Bytes

theorem insert_viewed (faithful : Faithful view) (t : TrapByte) (d : δ) :
    t.insert (view d) = ((t.insert d).1, view (t.insert d).2) := by
  obtain ⟨answer, after⟩ := faithful.write t.address [trapByte] d _ rfl
  cases inserted : t.inserted with
  | true => simp only [TrapByte.insert, inserted, if_true]; rfl
  | false =>
    simp only [TrapByte.insert, inserted, Bool.false_eq_true, if_false]
    rw [certain_bind, certain_bind, certain_get, certain_get]
    dsimp only
    rw [faithful.read]
    rcases Debuggee.read d t.address 1 with e | _ | ⟨byte, rest⟩
    · rfl
    · rfl
    · dsimp only
      rw [certain_bind, certain_bind, answer, after]
      rcases (Debuggee.write t.address [trapByte] : Access δ Unit) d with ⟨_ | _, _⟩ <;> rfl

theorem remove_viewed (faithful : Faithful view) (t : TrapByte) (d : δ) :
    t.remove (view d) = ((t.remove d).1, view (t.remove d).2) := by
  obtain ⟨answer, after⟩ := faithful.write t.address [t.covered] d _ rfl
  cases inserted : t.inserted with
  | false => simp only [TrapByte.remove, inserted, Bool.not_false, if_true]; rfl
  | true =>
    simp only [TrapByte.remove, inserted, Bool.not_true, Bool.false_eq_true, if_false]
    rw [certain_bind, certain_bind, answer, after]
    rcases (Debuggee.write t.address [t.covered] : Access δ Unit) d with ⟨_ | _, _⟩ <;> rfl

end Bytes

namespace Instrumented

section Owners

variable {address : UInt64} {id : BreakpointId}

omit [Debuggee δ] [Debuggee ε] in
theorem onByte_viewed (t : Trap) {f : TrapByte → StateM δ (TrapByte × Except Fault Unit)}
    {g : TrapByte → StateM ε (TrapByte × Except Fault Unit)}
    (same : ∀ b d, g b (view d) = ((f b d).1, view (f b d).2)) :
    Parallel (Viewed view) (onByte t f) (onByte t g) := by
  rintro i _ rfl
  simp only [onByte, through, same]
  rcases f t.byte i.debuggee with ⟨⟨byte, _ | _⟩, d⟩ <;> exact ⟨rfl, rfl⟩

omit [Debuggee δ] [Debuggee ε] in
theorem setTraps_viewed (f : Traps → Traps) :
    Parallel (Viewed view) (setTraps f) (setTraps f) :=
  .change fun _ _ same => by rw [Viewed] at same; rw [same]; rfl

theorem acquire_viewed (faithful : Faithful view) (address : UInt64) :
    Parallel (Viewed view) (acquire address) (acquire address) := by
  refine .look ?_
  rintro i _ rfl
  exact .branch .rfl (fun _ => .answer _) fun _ =>
    .seq (onByte_viewed _ (insert_viewed faithful)) fun t => setTraps_viewed _

theorem release_viewed (faithful : Faithful view) (address : UInt64) :
    Parallel (Viewed view) (release address) (release address) := by
  refine .look ?_
  rintro i _ rfl
  rw [show (i.through view).traps = i.traps from rfl]
  cases i.traps.find? address with
  | none => exact .answer _
  | some t =>
    exact .branch .rfl (fun _ => .seq (setTraps_viewed _) fun _ =>
      .seq (onByte_viewed _ (remove_viewed faithful)) fun _ => .answer _) fun _ => .answer _

theorem addUser_viewed (faithful : Faithful view) (address : UInt64) (id : BreakpointId) :
    Parallel (Viewed view) (addUser address id) (addUser address id) :=
  .seq (acquire_viewed faithful _) fun _ => setTraps_viewed _

theorem removeUser_viewed (faithful : Faithful view) (address : UInt64) (id : BreakpointId) :
    Parallel (Viewed view) (removeUser address id) (removeUser address id) :=
  .seq (setTraps_viewed _) fun _ => release_viewed faithful _

theorem addStep_viewed (faithful : Faithful view) (address : UInt64) :
    Parallel (Viewed view) (addStep address) (addStep address) :=
  .seq (acquire_viewed faithful _) fun _ => setTraps_viewed _

theorem removeStep_viewed (faithful : Faithful view) (address : UInt64) :
    Parallel (Viewed view) (removeStep address) (removeStep address) :=
  .seq (setTraps_viewed _) fun _ => release_viewed faithful _

theorem lift_viewed (faithful : Faithful view) (address : UInt64) :
    Parallel (Viewed view) (lift address) (lift address) := by
  refine .look ?_
  rintro i _ rfl
  rw [show (i.through view).traps = i.traps from rfl]
  cases i.traps.find? address with
  | none => exact .answer _
  | some t => exact .seq (onByte_viewed _ (remove_viewed faithful)) fun _ => setTraps_viewed _

theorem restore_viewed (faithful : Faithful view) (address : UInt64) :
    Parallel (Viewed view) (restore address) (restore address) := by
  refine .look ?_
  rintro i _ rfl
  rw [show (i.through view).traps = i.traps from rfl]
  cases i.traps.find? address with
  | none => exact .answer _
  | some t => exact .seq (onByte_viewed _ (insert_viewed faithful)) fun _ => setTraps_viewed _

end Owners

section Code

theorem readCode_viewed (faithful : Faithful view) (d : δ) (address : UInt64) :
    readCode (view d) address = readCode d address := by
  have attempts (sizes : List Nat) (e : Fault) :
      readCode.attempt (view d) address sizes e = readCode.attempt d address sizes e := by
    induction sizes generalizing e with
    | nil => rfl
    | cons n rest ih =>
      rw [readCode.attempt, readCode.attempt, faithful.read]
      cases Debuggee.read d address n with
      | ok bytes => rfl
      | error e => exact ih e
  exact attempts _ _

theorem decode_viewed (faithful : Faithful view) (ts : Traps) (d : δ) (address : UInt64) :
    decode ts (view d) address = decode ts d address := by
  simp only [decode, readCode_viewed faithful, faithful.decode]

end Code

end Instrumented

namespace CallStack

theorem decodesTo_viewed (faithful : Faithful view) (ts : Traps) (d : δ) (address : UInt64)
    (test : Instruction → Bool) :
    decodesTo ts (view d) address test = decodesTo ts d address test := by
  rw [decodesTo, decodesTo, Instrumented.decode_viewed faithful]

theorem innermostState_viewed (faithful : Faithful view) (ts : Traps) (d : δ) (site : Site)
    (pc : UInt64) : innermostState ts (view d) site pc = innermostState ts d site pc := by
  simp only [innermostState, stateByInstruction, decodesTo_viewed faithful]

theorem canonicalAddress_viewed (faithful : Faithful view) (ts : Traps) (d : δ) (r : Roster)
    (regs : Registers) : canonicalAddress ts (view d) r regs = canonicalAddress ts d r regs := by
  rw [canonicalAddress, canonicalAddress, innermostState_viewed faithful]

theorem readWord_viewed (faithful : Faithful view) (d : δ) (address : UInt64) :
    Debuggee.readWord (view d) address = Debuggee.readWord d address := by
  simp only [Debuggee.readWord, Debuggee.readScalar, faithful.read]

theorem caller?_viewed (faithful : Faithful view) (d : δ) (state : FrameState) (regs : Registers) :
    caller? (view d) state regs = caller? d state regs := by
  simp only [caller?, unwind?, unwindFrameless, unwindFramed, readWord_viewed faithful]

theorem frameAt_viewed (faithful : Faithful view) (ts : Traps) (d : δ) (r : Roster)
    (thread : ThreadId) (generation index more : Nat) (regs : Registers) :
    frameAt ts (view d) r thread (generation + more) index regs =
      ((frameAt ts d r thread generation index regs).1.later more,
        (frameAt ts d r thread generation index regs).2) := by
  simp only [frameAt, innermostState_viewed faithful]
  rfl

theorem framesFrom_viewed (faithful : Faithful view) (ts : Traps) (d : δ) (r : Roster)
    (thread : ThreadId) (generation more room index : Nat) (regs : Registers) :
    framesFrom ts (view d) r thread (generation + more) room index regs =
      (framesFrom ts d r thread generation room index regs).map (·.later more) := by
  induction room generalizing index regs with
  | zero => rfl
  | succ room ih =>
    rw [framesFrom, framesFrom, frameAt_viewed faithful]
    dsimp only
    rw [caller?_viewed faithful]
    cases caller? d (frameAt ts d r thread generation index regs).2 regs with
    | none => rfl
    | some c => rw [List.map_cons, ← ih]

theorem walk_viewed (faithful : Faithful view) (ts : Traps) (d : δ) (r : Roster)
    (thread : ThreadId) (most generation more : Nat) :
    walk ts (view d) r thread most (generation + more) =
      (walk ts d r thread most generation).map (List.map (·.later more)) := by
  rw [walk, walk, faithful.registers]
  cases Debuggee.registers d thread with
  | error e => rfl
  | ok regs => exact congrArg Except.ok (framesFrom_viewed faithful _ _ _ _ _ _ _ _ _)

end CallStack

end

end SourceDebugger
