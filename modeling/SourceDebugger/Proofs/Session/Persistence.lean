import SourceDebugger.Proofs.Keeping
import SourceDebugger.Proofs.Session.Lifecycle
/-!
What lasts. A relation between states of a session that its single changes keep is kept by every move
that is not about the end of the run or about a notice; and one that ends and notices keep as well is
kept by every request.
-/
namespace SourceDebugger.Session

open Effect

variable {δ : Type} [Debuggee δ]

/-- What is kept by all that moves do to a session, notices, the end of the run and reaching a breakpoint
apart. -/
structure Remains (P : Session δ → Session δ → Prop) : Prop extends Onwards P where
  stepper (s : Session δ) (stepper : Option Stepper) : P s { s with stepper }
  pause (s : Session δ) (reason : PauseReason) (thread : ThreadId) :
    reason ≠ .breakpoint → P s (s.pause reason thread)
  leavePause (s : Session δ) : P s (leavePause s)
  resume (mode : ResumeMode) : Keeps P (access (Debuggee.resume mode) : Change δ Unit)
  setRegisters (thread : ThreadId) (regs : Registers) :
    Keeps P (access (Debuggee.setRegisters thread regs) : Change δ Unit)
  addStep (address : UInt64) :
    Keeps P (instrumented (Instrumented.addStep address) : Change δ Unit)
  removeStep (address : UInt64) :
    Keeps P (instrumented (Instrumented.removeStep address) : Change δ Unit)
  lift (address : UInt64) : Keeps P (instrumented (Instrumented.lift address) : Change δ Unit)
  restore (address : UInt64) : Keeps P (instrumented (Instrumented.restore address) : Change δ Unit)

/-- What is kept also where a breakpoint is reached. -/
structure Bides (P : Session δ → Session δ → Prop) : Prop extends Remains P where
  count (s : Session δ) (users : List BreakpointId) :
    P s { s with breakpoints := s.breakpoints.count users }
  mark (s : Session δ) (thread : ThreadId) : P s (s.pause .breakpoint thread)

/-- What is kept by everything that happens between two requests about breakpoints, except where a breakpoint
is reached. -/
structure Attends (P : Session δ → Session δ → Prop) : Prop extends Remains P where
  poll (millis : Nat) : Keeps P (access (Debuggee.poll millis) : Change δ (Option Event))
  notice (e : Event) : Keeps P (notice e : Change δ Unit)
  exit (s : Session δ) (code : Option Int) (fault : Option Fault) : P s (s.exit code fault)
  interrupt : Keeps P (access Debuggee.interrupt : Change δ Unit)
  kill : Keeps P (access Debuggee.terminate : Change δ Unit)
  counted (s : Session δ) : P s { s with launches := s.launches + 1 }
  attach (s : Session δ) (n : Nat) (request : LaunchRequest) (d : δ) :
    s.host.launch n request = .ok d → P s (s.attach d request)

/-- What is kept by everything that happens between two requests about breakpoints. -/
structure Endures (P : Session δ → Session δ → Prop) : Prop extends Bides P, Attends P

variable {P : Session δ → Session δ → Prop}

omit [Debuggee δ] in
theorem ask_keeps (onwards : Onwards P) {α : Type} (f : Session δ → δ → Except Fault α) :
    Keeps P (ask f) := by
  refine .look fun s => ?_
  cases s.debuggee with
  | none => exact .fault onwards _
  | some d =>
    dsimp only
    cases f s d with
    | ok a => exact .answer onwards _
    | error e => exact .fault onwards _

theorem registers_keeps (onwards : Onwards P) (thread : ThreadId) :
    Keeps P (registers thread : Change δ Registers) := ask_keeps onwards _

namespace Remains

variable (remains : Remains P)

include remains

theorem clearTarget : Keeps P (clearTarget : Change δ Unit) := by
  refine .look fun s => ?_
  cases s.stepper with
  | none => exact .answer remains.toOnwards _
  | some stepper =>
    dsimp only
    cases stepper.runningTo with
    | none => exact .answer remains.toOnwards _
    | some target =>
      exact .seq remains.toOnwards (.change fun s => remains.stepper s _) fun _ =>
        .look fun _ => .branch (remains.removeStep _) (.answer remains.toOnwards _)

theorem cancelStep : Keeps P (cancelStep : Change δ Unit) :=
  .seq remains.toOnwards remains.clearTarget fun _ => .change fun s => remains.stepper s none

theorem pauseAt {reason : PauseReason} (other : reason ≠ .breakpoint) (thread : ThreadId) :
    Keeps P (pauseAt reason thread : Change δ (Option Move)) :=
  .seq remains.toOnwards remains.cancelStep fun _ => .seq remains.toOnwards
    (.change fun s => remains.pause s reason thread other) fun _ => .answer remains.toOnwards _

theorem resumeThread (thread : ThreadId) (mode : ResumeMode) :
    Keeps P (resumeThread thread mode : Change δ (Option Move)) :=
  .seq remains.toOnwards (.change remains.leavePause) fun _ =>
    .seq remains.toOnwards (registers_keeps remains.toOnwards thread) fun _ => .look fun _ => .branch
      (.seq remains.toOnwards (remains.lift _) fun _ =>
        .seq remains.toOnwards (remains.resume _) fun _ => .answer remains.toOnwards _)
      (.seq remains.toOnwards (remains.resume _) fun _ => .answer remains.toOnwards _)

theorem arrive (thread : ThreadId) : Keeps P (arrive thread : Change δ (Option Move)) := by
  refine .seq remains.toOnwards (registers_keeps remains.toOnwards thread) fun regs =>
    .seq remains.toOnwards (ask_keeps remains.toOnwards _) fun frame => .look fun s => ?_
  cases s.stepper with
  | none => exact .answer remains.toOnwards _
  | some stepper =>
    dsimp only
    generalize stepper.arrived regs frame (s.roster.lineAt? regs.pc)
      (((s.roster.functionAt? regs.pc).map (·.hasLines)).getD false) = outcome
    obtain ⟨arrival, after⟩ := outcome
    refine .seq remains.toOnwards (.change fun s => remains.stepper s _) fun _ => ?_
    cases arrival with
    | complete =>
      exact .seq remains.toOnwards (.change fun s => remains.trans (remains.stepper s none)
        (remains.pause _ _ _ (by simp))) fun _ => .answer remains.toOnwards _
    | «continue» | runTo | stepOutAgain => exact .answer remains.toOnwards _

theorem act (thread : ThreadId) : Keeps P (act thread : Change δ (Option Move)) := by
  refine .seq remains.toOnwards (registers_keeps remains.toOnwards thread) fun regs =>
    .seq remains.toOnwards (ask_keeps remains.toOnwards _) fun i => .look fun s => ?_
  cases s.stepper with
  | none => exact .answer remains.toOnwards _
  | some stepper =>
    dsimp only
    rcases stepper.nextAction regs i with ⟨action, after⟩
    refine .seq remains.toOnwards (.change fun s => remains.stepper s _) fun _ => ?_
    cases action <;> exact .answer remains.toOnwards _

theorem stepOut (thread : ThreadId) : Keeps P (stepOut thread : Change δ (Option Move)) := by
  refine .seq remains.toOnwards (ask_keeps remains.toOnwards _) fun frames => ?_
  cases frames[1]? with
  | some caller => exact .answer remains.toOnwards _
  | none =>
    exact .seq remains.toOnwards (.change fun s => remains.stepper s none) fun _ =>
      .answer remains.toOnwards _

theorem runTo (thread : ThreadId) (target : Target) :
    Keeps P (runTo thread target : Change δ (Option Move)) :=
  .seq remains.toOnwards (remains.addStep _) fun _ =>
    .seq remains.toOnwards (.change fun s => remains.stepper s _) fun _ => .answer remains.toOnwards _

end Remains

namespace Bides

variable (bides : Bides P)

include bides

theorem markAt (thread : ThreadId) :
    Keeps P (Session.pauseAt .breakpoint thread : Change δ (Option Move)) :=
  .seq bides.toOnwards bides.cancelStep fun _ => .seq bides.toOnwards
    (.change fun s => bides.mark s thread) fun _ => .answer bides.toOnwards _

theorem hitTrap (thread : ThreadId) (address : UInt64) :
    Keeps P (hitTrap thread address : Change δ (Option Move)) := by
  refine .look fun s => .branch ?_ ?_
  · exact .seq bides.toOnwards (.change fun s => bides.count s _) fun _ => bides.markAt _
  · dsimp only
    cases ((s.stepper.filter (·.thread = thread)).bind (·.runningTo)).filter (·.address = address) with
    | none => exact .answer bides.toOnwards _
    | some target =>
      exact .seq bides.toOnwards (registers_keeps bides.toOnwards thread) fun _ => .branch
        (.seq bides.toOnwards bides.clearTarget fun _ => .answer bides.toOnwards _)
        (.answer bides.toOnwards _)

theorem handleTrap (thread : ThreadId) (pc : UInt64) (kind : TrapKind) :
    Keeps P (handleTrap thread pc kind : Change δ (Option Move)) := by
  cases kind with
  | interrupt | raised => exact bides.pauseAt (by simp) _
  | singleStep => exact .answer bides.toOnwards _
  | software =>
    exact .look fun _ => .branch
      (.seq bides.toOnwards (registers_keeps bides.toOnwards thread) fun _ =>
        .seq bides.toOnwards (bides.setRegisters _ _) fun _ => bides.hitTrap _ _) (bides.pauseAt (by simp) _)

theorem afterStep (thread : ThreadId) (pc : UInt64) :
    Keeps P (afterStep thread pc : Change δ (Option Move)) :=
  .look fun _ => .branch (.answer bides.toOnwards _) (.branch
    (.seq bides.toOnwards (.change fun s => bides.count s _) fun _ => bides.markAt _)
    (.answer bides.toOnwards _))

end Bides

/-- The events that a move has in hand. -/
def Move.carries : Option Move → List Event
  | some (.handle e) => [e]
  | some (.await _ _ _ notices) => notices
  | _ => []

/-- A move with nothing in hand. -/
def Move.Idle (next : Option Move) : Prop := carries next = []

section Idle

theorem pauseAt_idle (reason : PauseReason) (thread : ThreadId) :
    Yields Move.Idle (pauseAt reason thread : Change δ (Option Move)) :=
  .seq fun _ => .seq fun _ => .answer rfl

theorem hitTrap_idle (thread : ThreadId) (address : UInt64) :
    Yields Move.Idle (hitTrap thread address : Change δ (Option Move)) := by
  refine .seq fun s => .branch (.seq fun _ => pauseAt_idle _ _) ?_
  dsimp only
  cases ((s.stepper.filter (·.thread = thread)).bind (·.runningTo)).filter (·.address = address) with
  | none => exact .answer rfl
  | some target => exact .seq fun _ => .branch (.seq fun _ => .answer rfl) (.answer rfl)

theorem handleTrap_idle (thread : ThreadId) (pc : UInt64) (kind : TrapKind) :
    Yields Move.Idle (handleTrap thread pc kind : Change δ (Option Move)) := by
  cases kind with
  | interrupt | raised => exact pauseAt_idle _ _
  | singleStep => exact .answer rfl
  | software =>
    exact .seq fun _ => .branch (.seq fun _ => .seq fun _ => hitTrap_idle _ _) (pauseAt_idle _ _)

theorem resumeThread_idle (thread : ThreadId) (mode : ResumeMode) :
    Yields Move.Idle (resumeThread thread mode : Change δ (Option Move)) :=
  .seq fun _ => .seq fun _ => .seq fun _ => .branch (.seq fun _ => .seq fun _ => .answer rfl)
    (.seq fun _ => .answer rfl)

theorem afterStep_idle (thread : ThreadId) (pc : UInt64) :
    Yields Move.Idle (afterStep thread pc : Change δ (Option Move)) :=
  .seq fun _ => .branch (.answer rfl) (.branch (.seq fun _ => pauseAt_idle _ _) (.answer rfl))

theorem arrive_idle (thread : ThreadId) :
    Yields Move.Idle (arrive thread : Change δ (Option Move)) := by
  refine .seq fun regs => .seq fun frame => .seq fun s => ?_
  cases s.stepper with
  | none => exact .answer rfl
  | some stepper =>
    dsimp only
    generalize stepper.arrived regs frame (s.roster.lineAt? regs.pc)
      (((s.roster.functionAt? regs.pc).map (·.hasLines)).getD false) = outcome
    obtain ⟨arrival, after⟩ := outcome
    refine .seq fun _ => ?_
    cases arrival with
    | complete => exact .seq fun _ => .answer rfl
    | «continue» | runTo | stepOutAgain => exact .answer rfl

theorem act_idle (thread : ThreadId) : Yields Move.Idle (act thread : Change δ (Option Move)) := by
  refine .seq fun regs => .seq fun i => .seq fun s => ?_
  cases s.stepper with
  | none => exact .answer rfl
  | some stepper =>
    dsimp only
    rcases stepper.nextAction regs i with ⟨action, after⟩
    refine .seq fun _ => ?_
    cases action <;> exact .answer rfl

theorem stepOut_idle (thread : ThreadId) :
    Yields Move.Idle (stepOut thread : Change δ (Option Move)) := by
  refine .seq fun frames => ?_
  cases frames[1]? with
  | some caller => exact .answer rfl
  | none => exact .seq fun _ => .answer rfl

theorem runTo_idle (thread : ThreadId) (target : Target) :
    Yields Move.Idle (runTo thread target : Change δ (Option Move)) :=
  .seq fun _ => .seq fun _ => .answer rfl

end Idle

namespace Attends

variable (attends : Attends P)

include attends

theorem notices (notices : List Event) : Keeps P (notices.forM Session.notice : Change δ PUnit) := by
  induction notices with
  | nil => exact .answer attends.toOnwards _
  | cons e rest ih => exact .seq attends.toOnwards (attends.notice e) fun _ => ih

theorem afterLift (thread : ThreadId) (pc : UInt64) (mode : ResumeMode) (notices : List Event)
    (stop : Event) : Keeps P (afterLift thread pc mode notices stop : Change δ (Option Move)) := by
  have settles (here : Bool) : Keeps P (notices.forM Session.notice >>= fun _ =>
      if here then
        if mode = .step thread then registers thread >>= fun regs =>
          pure (some (.stepped thread regs.pc))
        else access (Debuggee.resume mode) >>= fun _ => pure none
      else pure (some (.handle stop)) : Change δ (Option Move)) :=
    .seq attends.toOnwards (attends.notices notices) fun _ => .branch (.branch
      (.seq attends.toOnwards (registers_keeps attends.toOnwards thread) fun _ =>
        .answer attends.toOnwards _)
      (.seq attends.toOnwards (attends.resume mode) fun _ => .answer attends.toOnwards _))
      (.answer attends.toOnwards _)
  unfold Session.afterLift
  exact .branch (settles _) (.seq attends.toOnwards (attends.restore pc) fun _ => settles _)

theorem awaitStop (thread : ThreadId) (pc : UInt64) (mode : ResumeMode) (notices : List Event) :
    Keeps P (awaitStop thread pc mode notices : Change δ (Option Move)) := by
  refine .look fun s => .seq attends.toOnwards (attends.poll _) fun event => ?_
  cases event with
  | none => exact .answer attends.toOnwards _
  | some event =>
    exact .branch (attends.afterLift thread pc mode notices event) (.answer attends.toOnwards _)

theorem handle_aside {e : Event} (aside : e.isStop = false) :
    Keeps P (handleEvent e : Change δ (Option Move)) := by
  cases e with
  | trap | signal => cases aside
  | exited code =>
    exact .seq attends.toOnwards (.change fun s => attends.exit s _ _) fun _ =>
      .answer attends.toOnwards _
  | threadStarted | threadEnded | moduleLoaded | moduleUnloaded | output =>
    exact .seq attends.toOnwards (attends.notice _) fun _ => .answer attends.toOnwards _

/-- After an event that is no stop there is nothing more to do. -/
theorem settle_aside {e : Event} (aside : e.isStop = false) :
    Keeps P (settle (.handle e) : Change δ Unit) := by
  have last : Yields (· = none) (handleEvent e : Change δ (Option Move)) := by
    cases e with
    | trap | signal => cases aside
    | exited | threadStarted | threadEnded | moduleLoaded | moduleUnloaded | output =>
      exact .seq fun _ => .answer rfl
  refine .look fun s => ?_
  generalize mostMoves + s.host.config.extraMoves = most
  cases most with
  | zero => exact .fault attends.toOnwards _
  | succ most =>
    intro t
    have kept := attends.handle_aside aside t
    rw [drive, bind_run, advance]
    rcases done : handleEvent e t with ⟨f | next, u⟩ <;> rw [done] at kept
    · exact kept
    · cases last t next u done
      dsimp only
      rw [drive_none]
      exact kept

theorem fail (s : Session δ) (fault : Fault) : P s (s.fail fault) := by
  rw [Session.fail]
  split
  · exact attends.refl s
  · exact attends.exit s _ _

theorem guarded {α : Type} {a : Change δ α} (keeps : Keeps P a) : Keeps P (guarded a) := by
  intro s
  have kept := keeps s
  rw [Session.guarded]
  rcases run : a s with ⟨e | x, t⟩ <;> rw [run] at kept
  · exact attends.trans kept (attends.fail t e)
  · exact kept

theorem awaitExit (most : Nat) : Keeps P (awaitExit most : Request δ Unit) := by
  induction most with
  | zero => exact fun s => attends.fail s .survivedKill
  | succ most ih =>
    refine .look fun s => .branch (.answer attends.toOnwards _) ?_
    refine .seq attends.toOnwards (attends.guarded (attends.poll _)) fun event => ?_
    cases event with
    | none => exact ih
    | some event =>
      dsimp only
      split
      · exact ih
      · rename_i aside
        exact .seq attends.toOnwards (attends.guarded (attends.settle_aside (by simpa using aside)))
          fun _ => ih

theorem terminate : Keeps P (Session.terminate : Request δ Unit) := by
  have kills : Keeps P (Session.guarded (access Debuggee.terminate) >>= fun _ =>
      Session.awaitExit patience : Request δ Unit) :=
    .seq attends.toOnwards (attends.guarded attends.kill) fun _ => attends.awaitExit patience
  intro s
  rw [Session.terminate, bind_ok (get_run s)]
  cases state : s.state with
  | running | paused => exact kills s
  | notStarted | exited =>
    dsimp only
    rw [refuse, bind_ok (get_run s)]
    exact attends.refl s

theorem breakExecution : Keeps P (Session.breakExecution : Request δ Unit) := by
  refine .look fun s => .branch (attends.guarded attends.interrupt) ?_
  exact .look fun _ => .fault attends.toOnwards _

end Attends

omit [Debuggee δ] in
theorem paused_keeps (onwards : Onwards P) {α : Type} (operation : Operation)
    {request : ThreadId → Request δ α} (keeps : ∀ thread, Keeps P (request thread)) :
    Keeps P (requirePaused operation >>= request) := by
  intro s
  rw [bind_run, requirePaused_run]
  cases s.state with
  | paused reason thread => exact keeps thread s
  | notStarted | running | exited => exact onwards.refl s

namespace Endures

variable (endures : Endures P)

include endures

theorem handle (e : Event) : Keeps P (handleEvent e : Change δ (Option Move)) := by
  cases e with
  | trap thread pc kind => exact endures.handleTrap thread pc kind
  | signal thread number description => exact endures.pauseAt (by simp) _
  | exited | threadStarted | threadEnded | moduleLoaded | moduleUnloaded | output =>
    exact endures.handle_aside rfl

theorem advance (move : Move) : Keeps P (advance move : Change δ (Option Move)) := by
  cases move with
  | handle e => exact endures.handle e
  | resume thread mode => exact endures.resumeThread thread mode
  | await thread pc mode notices => exact endures.awaitStop thread pc mode notices
  | stepped thread pc => exact endures.afterStep thread pc
  | arrived thread => exact endures.arrive thread
  | act thread => exact endures.act thread
  | stepOut thread => exact endures.stepOut thread
  | runTo thread target => exact endures.runTo thread target

theorem drive (most : Nat) (move : Option Move) : Keeps P (drive most move : Change δ Unit) := by
  induction most generalizing move with
  | zero =>
    cases move with
    | none => exact .answer endures.toOnwards _
    | some move => exact .fault endures.toOnwards _
  | succ most ih =>
    cases move with
    | none => exact .answer endures.toOnwards _
    | some move => exact .seq endures.toOnwards (endures.advance move) fun next => ih next

theorem settle (move : Move) : Keeps P (settle move : Change δ Unit) :=
  .look fun _ => endures.drive _ _

theorem runFromEntry (most : Nat) : Keeps P (runFromEntry most : Change δ Unit) := by
  induction most with
  | zero => exact .fault endures.toOnwards _
  | succ most ih =>
    refine .seq endures.toOnwards (endures.poll 0) fun event => ?_
    cases event with
    | none => exact endures.resume .continue
    | some event =>
      exact .seq endures.toOnwards (endures.settle (.handle event)) fun _ => .look fun _ =>
        .branch (.answer endures.toOnwards _) ih

theorem start (request : LaunchRequest) (s : Session δ) : P s (start request s).2 := by
  cases live : s.state.isLive with
  | true =>
    rw [start_refused live]
    exact endures.refl s
  | false =>
    rw [start_run live]
    cases launched : s.host.launch s.launches request with
    | error e => exact endures.counted s
    | ok d =>
      have attached := endures.attach { s with launches := s.launches + 1 } s.launches request d launched
      exact endures.trans (endures.counted s)
        (endures.trans attached (endures.guarded (endures.runFromEntry patience) _))

theorem pump (millis : Nat) (s : Session δ) : P s (pump millis s).2 := by
  rw [pump_run]
  split
  · have looked := endures.poll millis s
    rcases run : (access (Debuggee.poll millis) : Change δ (Option Event)) s with ⟨e | _ | event, t⟩ <;>
      rw [run] at looked
    · exact endures.trans looked (endures.fail t e)
    · exact looked
    · have handled := endures.settle (.handle event) t
      dsimp only
      rcases done : (Session.settle (.handle event) : Change δ Unit) t with ⟨e | _, u⟩ <;>
        rw [done] at handled
      · exact endures.trans looked (endures.trans handled (endures.fail u e))
      · exact endures.trans looked handled
  · exact endures.refl s

theorem beginStep (kind : StepKind) (thread : ThreadId) :
    Keeps P (beginStep kind thread : Change δ Unit) :=
  .seq endures.toOnwards (registers_keeps endures.toOnwards thread) fun _ =>
    .seq endures.toOnwards (ask_keeps endures.toOnwards _) fun _ =>
      .seq endures.toOnwards (.change fun s => endures.stepper s _) fun _ => endures.settle _

/-- Only the requests about breakpoints are left to be looked at. -/
theorem perform {s : Session δ} {action : Action}
    (add : ∀ location, action = .add location → P s (addBreakpoint location s).2)
    (remove : ∀ id, action = .remove id → P s (removeBreakpoint id s).2)
    (setEnabled : ∀ id enabled, action = .setEnabled id enabled → P s (s.setEnabled id enabled)) :
    P s (s.perform action) := by
  cases action with
  | start request => exact endures.start request s
  | pump millis => exact endures.pump millis s
  | «continue» => exact paused_keeps endures.toOnwards _ (fun _ => endures.guarded (endures.settle _)) s
  | step kind =>
    exact paused_keeps endures.toOnwards _ (fun thread => endures.guarded (endures.beginStep kind thread)) s
  | «break» => exact endures.breakExecution s
  | terminate => exact endures.terminate s
  | add location => exact add location rfl
  | remove id => exact remove id rfl
  | setEnabled id enabled => exact setEnabled id enabled rfl

end Endures

end SourceDebugger.Session
