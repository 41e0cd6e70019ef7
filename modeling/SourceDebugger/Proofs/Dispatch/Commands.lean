import SourceDebugger.Proofs.Dispatch.Threads
import SourceDebugger.Proofs.Session.Freshness
/-!
What users ask of a session makes commands: the actions, adding a breakpoint, and the questions, which
leave a session as it is.
-/
namespace SourceDebugger.Dispatch

open Session Effect

variable {δ α β : Type}

/-- A request that only looks. -/
def Still (request : Request δ α) : Prop := ∀ s, (request s).2 = s

section Commands

variable [Debuggee δ]

def Command.act (action : Action) : Command δ Unit where
  request s := s.respond action
  orderly _ orderly := (respond_lawful orderly action).orderly
  passes _ orderly := (respond_lawful orderly action).passes.mono fun _ => trivial

def Command.add (location : Location) : Command δ BreakpointId where
  request := addBreakpoint location
  orderly _ orderly := add_goes orderly location
  passes s _ := (add_hushed location s).1.record ▸ .refl

omit [Debuggee δ] in
def Command.ask (request : Request δ α) (still : Still request) : Command δ α where
  request := request
  orderly s orderly := (still s).symm ▸ orderly
  passes s _ := (still s).symm ▸ .refl

end Commands

section Questions

theorem Still.pure (a : α) : Still (Pure.pure a : Request δ α) := fun _ => rfl

theorem Still.throw (e : DebuggerError) : Still (throw e : Request δ α) := fun _ => rfl

theorem Still.bind {request : Request δ α} {next : α → Request δ β} (first : Still request)
    (rest : ∀ a, Still (next a)) : Still (request >>= next) := by
  intro s
  rw [bind_run]
  have same := first s
  rcases asked : request s with ⟨e | a, t⟩ <;> rw [asked] at same
  · exact same
  · exact (rest a t).trans same

theorem inspect_still (f : Session δ → δ → Except Fault α) : Still (inspect f) := by
  intro s
  rw [inspect_run]
  cases s.debuggee with
  | none => rfl
  | some d =>
    dsimp only
    cases f s d <;> rfl

theorem requirePaused_still (operation : Operation) :
    Still (requirePaused operation : Request δ ThreadId) := by
  intro s
  rw [requirePaused_run]
  cases s.state <;> rfl

theorem currentThread_still : Still (currentThread : Request δ ThreadView) :=
  (requirePaused_still _).bind fun _ => .pure _

variable [Debuggee δ]

theorem walk_still (thread : ThreadId) (maxFrames : Nat) :
    Still (walk thread maxFrames : Request δ (List Frame)) := inspect_still _

theorem currentFunction_still : Still (currentFunction : Request δ Frame) := by
  refine (requirePaused_still _).bind fun thread => (walk_still thread 1).bind fun frames => ?_
  cases frames with
  | nil => exact .throw _
  | cons frame _ => exact .pure frame

theorem callstack_still (thread : ThreadId) : Still (callstack thread : Request δ (List Frame)) := by
  refine (requirePaused_still _).bind fun _ => Still.bind (fun _ => rfl) fun s => ?_
  split
  · exact walk_still thread s.host.config.maxFrames
  · exact .throw _

omit [Debuggee δ] in
theorem requireFresh_still (generation : Nat) (operation : Operation) :
    Still (requireFresh generation operation : Request δ Unit) := by
  refine Still.bind (fun _ => rfl) fun s => ?_
  split
  · exact .throw _
  · exact (requirePaused_still _).bind fun _ => .pure _

theorem readVariables_still (frame : Frame) (operation : Operation)
    (pick : FunctionInfo → List VariableInfo) :
    Still (readVariables frame operation pick : Request δ (List Variable)) :=
  (requireFresh_still _ _).bind fun _ => inspect_still _

theorem arrayElement_still (a : ArrayValue) (index : Nat) :
    Still (arrayElement a index : Request δ Value) := by
  refine (requirePaused_still _).bind fun _ => Still.bind (fun _ => rfl) fun s => ?_
  split
  · exact .throw _
  · split
    · exact .throw _
    · exact inspect_still _

end Questions

end SourceDebugger.Dispatch
