import SourceDebugger.Proofs.Keeping
import SourceDebugger.Proofs.Session.Held
import SourceDebugger.Proofs.Session.Lifecycle
import SourceDebugger.Proofs.Session.Persistence
/-!
What makes no sound. Except for taking note of output and for the end of a run, nothing that a session
does adds to its output, in the buffer or in the log; and the last it tells of a pause is the pause.
-/
namespace SourceDebugger

/-- The lines of output among events. -/
def DebuggerEvent.logs (events : List DebuggerEvent) : List String := events.filterMap fun
  | .log text => some text
  | _ => none

/-- What is kept of a debuggee whatever is done to it, looks and its end apart. -/
structure Bears {δ : Type} [Debuggee δ] (Q : δ → δ → Prop) : Prop extends Onwards Q where
  write (address : UInt64) (bytes : Bytes) : Keeps Q (Debuggee.write address bytes : Access δ Unit)
  resume (mode : ResumeMode) : Keeps Q (Debuggee.resume mode : Access δ Unit)
  setRegisters (thread : ThreadId) (regs : Registers) :
    Keeps Q (Debuggee.setRegisters thread regs : Access δ Unit)
  interrupt : Keeps Q (Debuggee.interrupt : Access δ Unit)

namespace Session

open Effect DebuggerEvent

variable {δ : Type} {Q : δ → δ → Prop} {s t u : Session δ}

/-- Who is in a pause has been told of it last. -/
def Announced (s : Session δ) : Prop :=
  ∀ reason thread, s.state = .paused reason thread →
    s.outbox.getLast? = some (.paused reason thread)

/-- No output comes up, in the buffer or in the log. -/
structure Mute (Q : δ → δ → Prop) (s t : Session δ) : Prop where
  host : t.host = s.host
  output : t.output = s.output
  logs : logs t.outbox = logs s.outbox
  debuggee : Option.Rel Q s.debuggee t.debuggee
  announced : s.Announced → t.Announced

theorem rel_refl (onwards : Onwards Q) (d : Option δ) : Option.Rel Q d d := by
  cases d with
  | none => exact .none
  | some d => exact .some (onwards.refl d)

theorem mute_onwards (onwards : Onwards Q) : Onwards (Mute Q) where
  refl s := ⟨rfl, rfl, rfl, rel_refl onwards _, id⟩
  trans {s t u} first second := by
    refine ⟨second.host.trans first.host, second.output.trans first.output,
      second.logs.trans first.logs, ?_, second.announced ∘ first.announced⟩
    have one := first.debuggee
    have two := second.debuggee
    cases h : t.debuggee with
    | none =>
      rw [h] at one two
      generalize s.debuggee = a at one ⊢
      generalize u.debuggee = b at two ⊢
      cases one
      cases two
      exact .none
    | some d =>
      rw [h] at one two
      generalize s.debuggee = a at one ⊢
      generalize u.debuggee = b at two ⊢
      cases one with
      | some one =>
        cases two with
        | some two => exact .some (onwards.trans one two)

section Plain

variable (onwards : Onwards Q)

include onwards

/-- A change that has to do with neither output nor events nor the run state. -/
theorem mute_aside (host : t.host = s.host) (output : t.output = s.output)
    (outbox : t.outbox = s.outbox) (debuggee : t.debuggee = s.debuggee) (state : t.state = s.state) :
    Mute Q s t where
  host := host
  output := output
  logs := congrArg _ outbox
  debuggee := debuggee ▸ rel_refl onwards _
  announced before reason thread paused := by
    rw [outbox]
    exact before reason thread (state ▸ paused)

theorem pause_mute (s : Session δ) (reason : PauseReason) (thread : ThreadId) :
    Mute Q s (s.pause reason thread) where
  host := rfl
  output := rfl
  logs := by simp [pause, report, DebuggerEvent.logs]
  debuggee := rel_refl onwards _
  announced _ r u paused := by
    cases paused
    exact List.getLast?_concat ..

theorem leavePause_mute (s : Session δ) : Mute Q s (leavePause s) where
  host := rfl
  output := rfl
  logs := rfl
  debuggee := rel_refl onwards _
  announced _ _ _ paused := by cases paused

theorem access_mute {α : Type} {a : Access δ α} (keeps : Keeps Q a) : Keeps (Mute Q) (access a) := by
  intro s
  cases present : s.debuggee with
  | none =>
    obtain ⟨_, _, _, _, _, _, _, _, _, _, _, _⟩ := s
    cases present
    exact (mute_onwards onwards).refl _
  | some d =>
    rw [access_run present]
    exact ⟨rfl, rfl, rfl, by rw [present]; exact .some (keeps d), id⟩

theorem instrumented_mute {α : Type} {a : Access (Instrumented δ) α}
    (keeps : Keeps (Instrumented.Kept Q) a) : Keeps (Mute Q) (instrumented a) := by
  intro s
  cases present : s.debuggee with
  | none =>
    obtain ⟨_, _, _, _, _, _, _, _, _, _, _, _⟩ := s
    cases present
    exact (mute_onwards onwards).refl _
  | some d =>
    rw [instrumented_run present]
    exact ⟨rfl, rfl, rfl, by rw [present]; exact .some (keeps ⟨s.traps, d⟩), id⟩

end Plain

variable [Debuggee δ]

section Notices

variable (onwards : Onwards Q)
  (write : ∀ address bytes, Keeps Q (Debuggee.write address bytes : Access δ Unit))

include onwards write

theorem loadModule_mute (path : String) (base size : UInt64) :
    Keeps (Mute Q) (loadModule path base size) := by
  rintro ⟨host, launches, debuggee, departed, roster, breakpoints, traps, state, generation, stepper,
    output, outbox⟩
  cases debuggee with
  | none => exact ⟨rfl, rfl, rfl, .none, id⟩
  | some d =>
    exact ⟨rfl, rfl, rfl, .some (Instrumented.bindIn_keeps onwards write _ breakpoints.items ⟨traps, d⟩), id⟩

theorem bindAll_mute (s : Session δ) : Mute Q s s.bindAll := by
  obtain ⟨host, launches, debuggee, departed, roster, breakpoints, traps, state, generation, stepper,
    output, outbox⟩ := s
  cases debuggee with
  | none => exact ⟨rfl, rfl, rfl, .none, id⟩
  | some d =>
    have folds (mods : List LoadedModule) (r : List Breakpoint × Instrumented δ) :
        Instrumented.Kept Q r.2
          (mods.foldl (fun r m => Instrumented.bindIn m r.1 r.2) r).2 := by
      induction mods generalizing r with
      | nil => exact onwards.refl _
      | cons l rest ih =>
        exact onwards.trans (Instrumented.bindIn_keeps onwards write l r.1 r.2) (ih _)
    exact ⟨rfl, rfl, rfl, .some (folds roster.modules (breakpoints.items, ⟨traps, d⟩)), id⟩

/-- Only output is heard when note is taken of an event. -/
theorem notice_mute {e : Event} (other : ∀ text, e ≠ .output text) : Keeps (Mute Q) (notice e) := by
  cases e with
  | threadStarted | threadEnded => exact .change fun s => mute_aside onwards rfl rfl rfl rfl rfl
  | moduleLoaded path base size => exact loadModule_mute onwards write path base size
  | moduleUnloaded base =>
    refine .change fun s => ?_
    cases s.roster.moduleBased? base with
    | none => exact (mute_onwards onwards).refl s
    | some m => exact mute_aside onwards rfl rfl rfl rfl rfl
  | output text => exact absurd rfl (other text)
  | trap | signal | exited => exact .answer (mute_onwards onwards) _

end Notices

/-- Whatever moves do besides taking note and ending the run makes no sound. -/
theorem mute_bides (bears : Bears Q) : Bides (Mute Q) where
  toOnwards := mute_onwards bears.toOnwards
  stepper _ _ := mute_aside bears.toOnwards rfl rfl rfl rfl rfl
  count _ _ := mute_aside bears.toOnwards rfl rfl rfl rfl rfl
  pause s reason thread _ := pause_mute bears.toOnwards s reason thread
  mark s thread := pause_mute bears.toOnwards s .breakpoint thread
  leavePause := leavePause_mute bears.toOnwards
  resume mode := access_mute bears.toOnwards (bears.resume mode)
  setRegisters thread regs := access_mute bears.toOnwards (bears.setRegisters thread regs)
  addStep address := instrumented_mute bears.toOnwards
    (Instrumented.addStep_keeps bears.toOnwards bears.write address)
  removeStep address := instrumented_mute bears.toOnwards
    (Instrumented.removeStep_keeps bears.toOnwards bears.write address)
  lift address := instrumented_mute bears.toOnwards
    (Instrumented.lift_keeps bears.toOnwards bears.write address)
  restore address := instrumented_mute bears.toOnwards
    (Instrumented.restore_keeps bears.toOnwards bears.write address)

section Requests

variable (bears : Bears Q)

include bears

theorem add_mute (location : Location) (s : Session δ) : Mute Q s (addBreakpoint location s).2 :=
  (mute_onwards bears.toOnwards).trans
    (mute_aside (t := { s with breakpoints := (s.breakpoints.add location).2 }) bears.toOnwards rfl rfl
      rfl rfl rfl) (bindAll_mute bears.toOnwards bears.write _)

theorem remove_mute (id : BreakpointId) (s : Session δ) : Mute Q s (removeBreakpoint id s).2 := by
  have mute := mute_onwards bears.toOnwards
  have aside (s : Session δ) (bs : Breakpoints) : Mute Q s { s with breakpoints := bs } :=
    mute_aside bears.toOnwards rfl rfl rfl rfl rfl
  cases found : s.breakpoints.registered? id with
  | none =>
    rw [removeBreakpoint, bind_ok (get_run s), found]
    exact mute.refl s
  | some b =>
    by_cases placed : b.address? = none ∨ s.debuggee = none
    · rw [remove_unplaced found placed]
      exact aside s _
    · obtain ⟨bound, attached⟩ := not_or.mp placed
      obtain ⟨address, bound⟩ := Option.ne_none_iff_exists'.mp bound
      have released := instrumented_mute bears.toOnwards
        (Instrumented.removeUser_keeps bears.toOnwards bears.write address id) (s.unlisted id)
      rw [remove_bound found bound (Option.isSome_iff_ne_none.mpr attached),
        removeBreakpoint.releaseTrap]
      refine mute.trans (aside s _ : Mute Q s (s.unlisted id)) ?_
      rcases run : instrumented (Instrumented.removeUser address id) (s.unlisted id) with ⟨e | _, t⟩ <;>
        rw [run] at released
      · exact released
      · exact mute.trans released (aside t _)

end Requests

end Session

end SourceDebugger
