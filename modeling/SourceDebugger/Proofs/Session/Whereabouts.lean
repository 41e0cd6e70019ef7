import SourceDebugger.Proofs.Session.Requests
/-!
Who is running, the session or its debuggee: a session that runs has a debuggee to wait for, one
that is paused has a debuggee that stands still, at a breakpoint if that is the reason. What the
program does is of no importance for it.
-/
namespace SourceDebugger

open Machine Traps

/-- A sight of a program in which nothing is asked of it. -/
def Machine.Executable.anywhere (e : Executable) (config : Config) : Sight where
  host := e.host config
  program := e
  site _ := True
  sees _ _ _ := True

theorem Machine.Executable.anywhere_lasting (e : Executable) (config : Config) :
    (e.anywhere config).Lasting where
  entry _ := True.intro
  paint _ _ := True.intro
  drive _ _ _ _ := True.intro
  alter _ _ _ := True.intro
  execute _ _ _ _ := .inr (.inr True.intro)
  load _ _ := True.intro
  bind _ _ := True.intro
  call _ _ := True.intro
  caller _ _ _ _ := True.intro

namespace Session

open Effect

variable {w : Sight} {s t : Session Machine} {m : Machine} {j : Instrumented Machine} {a : UInt64}

/-- The session stands where a breakpoint is bound that is enabled. -/
def AtBreakpoint (s : Session Machine) : Prop :=
  ∃ m, s.debuggee = some m ∧
    ∃ b ∈ s.breakpoints.registered, b.enabled = true ∧ b.address? = some m.registers.pc

/-- A pause for a breakpoint is one at a breakpoint. -/
def Marked (s : Session Machine) : Prop :=
  ∀ thread, s.state = .paused .breakpoint thread → s.AtBreakpoint

section Marked

theorem marked_of_state (state : RunState) (same : t.state = state)
    (other : ∀ thread, state ≠ .paused .breakpoint thread) : t.Marked := by
  intro thread paused
  exact absurd (same.symm.trans paused) (other thread)

/-- The breakpoints that own a trap are bound where it is. -/
theorem exists_enabled {ts : Traps} {bs : Breakpoints} {target : Option UInt64}
    (tidy : Tidy bs ts target) (enabled : bs.anyEnabled (ts.users a) = true) :
    ∃ b ∈ bs.items, b.registered = true ∧ b.enabled = true ∧ b.address? = some a := by
  obtain ⟨b, member, found⟩ := List.any_eq_true.mp enabled
  simp only [Bool.and_eq_true, List.contains_iff_mem] at found
  obtain ⟨⟨registered, enabled⟩, user⟩ := found
  obtain ⟨o, owned, user⟩ := Traps.mem_users.mp user
  obtain ⟨c, there, same, _, bound⟩ := tidy.users a o owned b.id user
  cases tidy.unique there member same
  exact ⟨b, member, registered, enabled, bound⟩

/-- Counting hits leaves breakpoints where they are. -/
theorem marked_counted (tidy : Tidy s.breakpoints s.traps (s.goal.map (·.address)))
    (enabled : s.breakpoints.anyEnabled (s.traps.users a) = true) (here : j.debuggee.registers.pc = a) :
    ((({ s with breakpoints := s.breakpoints.count (s.traps.users a) } : Session Machine).stepless.holding
      j).pause .breakpoint mainThread).Marked := by
  intro thread _
  obtain ⟨b, member, registered, on, bound⟩ := exists_enabled tidy enabled
  have counted (c : Breakpoint) (same : c = if b.registered && b.enabled &&
      (s.traps.users a).contains b.id then { b with hits := b.hits + 1 } else b) :
      c.registered = true ∧ c.enabled = true ∧ c.address? = some a := by
    subst same
    split <;> exact ⟨registered, on, bound⟩
  obtain ⟨still, stays, there⟩ := counted _ rfl
  refine ⟨j.debuggee, rfl, _, List.mem_filter.mpr ⟨List.mem_map.mpr ⟨b, member, rfl⟩, still⟩, stays, ?_⟩
  rw [here]
  exact there

end Marked

section Moves

theorem hitTrap_marked (sound : Sound w s m none) (here : m.registers.pc = a)
    (done : hitTrap mainThread a s = (.ok none, t)) : t.Marked := by
  by_cases enabled : s.breakpoints.anyEnabled (s.traps.users a) = true
  · obtain ⟨j, hit, kept⟩ := hitTrap_enabled sound.toHeld enabled
    cases hit.symm.trans done
    exact marked_counted sound.tidy enabled (by rw [(driven kept.paint).2.2.2, here])
  · replace enabled : s.breakpoints.anyEnabled (s.traps.users a) = false := by simpa using enabled
    by_cases back : ∃ target, s.goal = some target ∧ target.address = a ∧
        m.registers.sp = target.sp
    · obtain ⟨target, aim, address, sp⟩ := back
      obtain ⟨j, hit, _⟩ := hitTrap_goal sound.toHeld enabled aim address sp
      cases hit.symm.trans done
    · have elsewhere : ∀ target, s.goal = some target → target.address = a →
          m.registers.sp ≠ target.sp :=
        fun target aim address sp => back ⟨target, aim, address, sp⟩
      cases (hitTrap_through sound.toHeld enabled elsewhere).symm.trans done

theorem stop_marked {e : Event} (stop : Stop w s m e)
    (done : advance (.handle e) s = (.ok none, t)) : t.Marked := by
  have other {reason : PauseReason} (sound : Sound w s m none) (reasons : reason ≠ .breakpoint)
      (done : pauseAt reason mainThread s = (.ok none, t)) : t.Marked := by
    obtain ⟨j, paused, _⟩ := pauseAt_spec sound.toHeld reason mainThread
    cases paused.symm.trans done
    exact marked_of_state (.paused reason mainThread) rfl (by simp [reasons])
  cases stop with
  | interrupt pc sound =>
    rw [handle_interrupt] at done
    exact other sound (by simp) done
  | signal number description sound =>
    rw [handle_signal] at done
    exact other sound (by simp) done
  | own free sound =>
    rw [handle_break free] at done
    exact other sound (by simp) done
  | hit laid attached sound =>
    rw [handle_hit attached laid] at done
    exact hitTrap_marked sound rfl done

/-- A move that ends in a pause for a breakpoint ends at one. -/
theorem advance_marked {move : Move} (ready : Ready w s (some move))
    (done : advance move s = (.ok none, t)) : t.Marked := by
  cases ready with
  | notice known sound running =>
    obtain ⟨u, j, noted, noticed, _⟩ := handle_notice sound.toHeld known
    cases noted.symm.trans done
    exact marked_of_state _ (noticed.unmoved.state.trans running) (by simp)
  | stop stop => exact stop_marked stop done
  | single sound => cases done
  | exit code held =>
    rw [handle_exit] at done
    cases done
    exact marked_of_state _ (exit_state s _ _) (by simp)
  | @resume m mode sound rest live fit =>
    have main : ∀ t, mode = .step t → t = mainThread := fun t h => (fit t h).1
    by_cases trapped : s.traps.contains m.registers.pc = true
    · obtain ⟨j, lifted, _⟩ := resume_trapped mode sound.toHeld rest.alive trapped
      cases lifted.symm.trans done
    · rw [resume_free sound.attached rest.alive main (by simpa using trapped)] at done
      cases done
      exact marked_of_state .running rfl (by simp)
  | @await m pc mode notices sound moving fresh here running =>
    have is_open : s.Open (.await mainThread pc mode notices) :=
      ⟨by rw [sound.attached]; rfl, .inl running⟩
    have goes := advance_goes is_open
    rw [done] at goes
    intro thread paused
    have halts := goes.2.2 (by rw [paused]; rfl)
    cases halts
  | @stepped m sound rest live stepping =>
    obtain ⟨q, stepper, _⟩ := stepping
    by_cases enabled : s.breakpoints.anyEnabled (s.traps.users m.registers.pc) = true
    · obtain ⟨j, hit, kept⟩ := stepped_enabled sound.toHeld stepper enabled
      cases hit.symm.trans done
      exact marked_counted sound.tidy enabled (by rw [(driven kept.paint).2.2.2])
    · cases (stepped_disabled sound.toHeld stepper (by simpa using enabled)).symm.trans done
  | arrived sound rest live stepping =>
    obtain ⟨q, stepper, _⟩ := stepping
    rw [arrived_run sound.attached stepper] at done
    cases judgement : (s.judged _ q).1 with
    | complete =>
      rw [judgement, if_pos rfl] at done
      cases done
      exact marked_of_state (.paused .stepComplete mainThread) rfl (by simp)
    | «continue» | runTo target | stepOutAgain =>
      rw [judgement] at done
      cases done
  | @act m sound rest live stepping =>
    obtain ⟨q, stepper, _⟩ := stepping
    cases decoded : Instrumented.decode s.traps m m.registers.pc with
    | error e => cases (act_failure sound.attached decoded).symm.trans done
    | ok i => cases (act_run sound.attached stepper decoded).symm.trans done
  | @stepOut m sound =>
    rw [stepOut_run sound.attached] at done
    cases found : (s.twoFrames m)[1]? <;> rw [found] at done <;> cases done
  | @runTo m target sound rest live stepping =>
    obtain ⟨q, stepper, aimless⟩ := stepping
    rcases runTo_spec target sound.toHeld stepper aimless with ⟨e, _, failed, _⟩ | ⟨j, run, _⟩
    · cases failed.symm.trans done
    · cases run.symm.trans done

theorem drive_marked (lasting : w.Lasting) (most : Nat) {move : Move}
    (ready : Ready w s (some move)) (done : drive most (some move) s = (.ok (), t)) : t.Marked := by
  induction most generalizing s move with
  | zero => cases done
  | succ most ih =>
    have fares := advance_ready lasting ready
    rw [drive, bind_run] at done
    rcases advanced : advance move s with ⟨e | _ | next, u⟩ <;> rw [advanced] at done fares
    · cases done
    · have still : (drive most none : Change Machine Unit) u = (.ok (), u) := by cases most <;> rfl
      cases still.symm.trans done
      exact advance_marked ready advanced
    · exact ih fares done

theorem settle_marked (lasting : w.Lasting) {move : Move} (ready : Ready w s (some move))
    (done : settle move s = (.ok (), t)) : t.Marked := by
  rw [settle, bind_ok (get_run s)] at done
  exact drive_marked lasting _ ready done

end Moves

section Requests

theorem guarded_marked {a : Change Machine Unit} (fails : ∀ e u, a s = (.error e, u) → u.Live)
    (does : ∀ u, a s = (.ok (), u) → u.Marked) : (guarded a s).2.Marked := by
  rw [guarded]
  rcases run : a s with ⟨e | _, u⟩
  · have state : (u.fail e).state = .exited none (some e) := by
      rw [fail, (fails e u run).not_exited, if_neg (by simp), exit_state]
    exact marked_of_state _ state (by simp)
  · exact does u run

theorem settle_guarded_marked (lasting : w.Lasting) {move : Move} (ready : Ready w s (some move)) :
    (guarded (settle move) s).2.Marked := by
  have ends := settle_ready lasting ready
  refine guarded_marked (fun e u run => ?_) fun u run => settle_marked lasting ready run
  rw [run] at ends
  exact ends.2.1

theorem pump_marked (lasting : w.Lasting) (ready : Ready w s none)
    (running : s.state = .running) (millis : Nat) : (pump millis s).2.Marked := by
  obtain ⟨m, sound, moving⟩ := ready.on running
  have sees := poll_ready lasting.toSteady sound running moving
  have looked : access (Debuggee.poll millis) s =
      ((poll m).1, { s with debuggee := some (poll m).2 }) := access_run sound.attached _
  rw [pump_run, if_pos running, looked]
  rcases polled : poll m with ⟨e | event, n⟩ <;> rw [polled] at sees
  · have failed : ({ s with debuggee := some n } : Session Machine).fail e =
        exit { s with debuggee := some n } none (some e) := by
      rw [fail, Live.not_exited (.inl running), if_neg (by simp)]
    dsimp only
    rw [failed]
    exact marked_of_state _ (exit_state _ _ _) (by simp)
  · cases event with
    | none => exact marked_of_state .running running (by simp)
    | some event =>
      have told : Ready w { s with debuggee := some n } (some (.handle event)) := sees
      have marked := settle_guarded_marked lasting told
      rw [guarded] at marked
      dsimp only
      rcases settled : settle (.handle event) { s with debuggee := some n } with ⟨e | _, u⟩ <;>
        rw [settled] at marked <;> exact marked

theorem start_marked (steady : w.Steady) (launches : w.host.launch = launch w.program)
    (ready : Ready w s none) (unpaused : s.state.isPaused = false) (request : LaunchRequest) :
    (start request s).2.Marked := by
  have same {u : Session Machine} (state : u.state = s.state) : u.Marked :=
    marked_of_state _ state fun thread paused => by rw [paused] at unpaused; cases unpaused
  rcases ready.cases with ⟨detached, host, idle⟩ | ⟨m, sound⟩
  · have counted : Detached { s with launches := s.launches + 1 } :=
      ⟨detached.gone, detached.stepless, detached.empty, detached.tidy⟩
    have answer : s.host.launch s.launches request = launch w.program s.launches request := by
      rw [host, launches]
    rw [start_run (not_live_of_idle idle), answer, launch]
    by_cases path : Path.same request.executable w.program.path = true
    · rw [if_pos path]
      have two : patience = patience - 2 + 2 := by decide
      have begins := boot_ready steady.toStill counted host request (patience - 2)
      rw [← two] at begins
      refine guarded_marked (fun e u run => ?_) fun u run => ?_ <;> rw [run] at begins
      · cases begins with
        | unfinished _ failing => exact failing.2.1
      · cases begins with
        | on _ begun => exact marked_of_state _ begun.running (by simp)
    · rw [if_neg path]
      exact same rfl
  · rw [start_refused (isLive_of_live (ready.live sound))]
    exact same rfl

theorem paused_marked (operation : Operation) (request : ThreadId → Request Machine Unit)
    (ready : Ready w s none)
    (does : ∀ m, Sound w s m none → Resting m → s.stepper = none →
      (∃ reason, s.state = .paused reason mainThread) → (request mainThread s).2.Marked) :
    ((requirePaused operation >>= request) s).2 = s ∨
      ((requirePaused operation >>= request) s).2.Marked := by
  rw [bind_run, requirePaused_run]
  cases state : s.state with
  | paused reason thread =>
    obtain ⟨rfl, m, sound, rest, stepless⟩ := ready.still state
    exact .inr (does m sound rest stepless ⟨reason, state⟩)
  | notStarted | running | exited => exact .inl rfl

theorem terminate_marked (ready : Ready w s none) :
    (terminate s).2 = s ∨ (terminate s).2.Marked := by
  rcases ready.cases with ⟨_, _, idle⟩ | ⟨m, sound⟩
  · rw [terminate_refused (not_live_of_idle idle)]
    exact .inl rfl
  · have active : s.Active :=
      ⟨by rw [sound.attached]; rfl, isLive_of_live (ready.live sound)⟩
    obtain ⟨⟨_, _, exited⟩, _⟩ := terminate_over active
    refine .inr fun thread paused => ?_
    rw [paused] at exited
    cases exited

theorem break_marked (ready : Ready w s none) :
    (breakExecution s).2 = s ∨ (breakExecution s).2.Marked := by
  rw [breakExecution, bind_ok (get_run s), ite_run]
  split
  · rename_i running
    obtain ⟨m, sound, _⟩ := ready.on running
    refine .inr (guarded_marked (fun e u run => ?_) fun u run => ?_) <;>
      rw [access_run sound.attached] at run <;> cases run
    exact marked_of_state .running running (by simp)
  · exact .inl rfl

/-- A request that comes to a pause for a breakpoint comes to a breakpoint. -/
theorem perform_marked (lasting : w.Lasting) (launches : w.host.launch = launch w.program)
    (ready : Ready w s none) (action : Action) :
    (s.perform action).record = s.record ∨ (s.perform action).Marked := by
  have unchanged {t : Session Machine} (marked : t = s ∨ t.Marked) :
      t.record = s.record ∨ t.Marked := marked.imp_left (congrArg record)
  cases action with
  | start request =>
    cases paused : s.state.isPaused with
    | false => exact .inr (start_marked lasting.toSteady launches ready paused request)
    | true =>
      have live : s.state.isLive = true := by
        cases state : s.state <;> simp [state, RunState.isPaused, RunState.isLive] at paused ⊢
      refine unchanged (.inl ?_)
      change (start request s).2 = s
      rw [start_refused live]
  | pump millis =>
    by_cases running : s.state = .running
    · exact .inr (pump_marked lasting ready running millis)
    · refine unchanged (.inl ?_)
      change (pump millis s).2 = s
      rw [pump_run, if_neg running]
  | «continue» =>
    refine unchanged (paused_marked .continueExecution _ ready fun m sound rest _ paused => ?_)
    exact settle_guarded_marked lasting (.resume sound rest (.inr paused) fun t h => by cases h)
  | step kind =>
    refine unchanged (paused_marked (.step kind) _ ready fun m sound rest stepless paused => ?_)
    have begun := settle_guarded_marked lasting (begun_ready sound rest stepless (.inr paused) kind
      (s.roster.lineAt? m.registers.pc)
      (CallStack.canonicalAddress s.traps m s.roster m.registers))
    rw [guarded] at begun ⊢
    rw [beginStep_run sound.attached]
    exact begun
  | «break» => exact unchanged (break_marked ready)
  | terminate => exact unchanged (terminate_marked ready)
  | add location => exact .inl (add_hushed location s).1.record
  | remove id => exact .inl (remove_hushed id s).1.record
  | setEnabled id enabled => exact .inl rfl

end Requests

/-- Who is running, by what the session knows and by what its debuggee does. -/
structure Follows (s : Session Machine) : Prop where
  /-- There is something to wait for. -/
  running : s.state = .running → ∃ m, s.debuggee = some m ∧
    (m.motion = .running ∨ m.motion = .stepping ∨
      ∃ e ∈ m.pending, e.isStop = true ∨ e.isExit = true)
  /-- The debuggee stands still, and has nothing to tell. -/
  paused : s.state.isPaused = true → ∃ m, s.debuggee = some m ∧ m.motion = .stopped ∧ m.pending = []

theorem Ready.follows (ready : Ready w s none) : s.Follows := by
  cases ready with
  | idle detached host idle =>
    have idle := not_live_of_idle idle
    constructor <;> intro live <;> cases state : s.state <;>
      simp [state, RunState.isLive, RunState.isPaused] at idle live
  | @paused m reason sound rest stepless state =>
    refine ⟨fun running => ?_, fun _ => ⟨m, sound.attached, rest.motion, rest.quiet⟩⟩
    rw [state] at running
    cases running
  | @running m sound running moving =>
    refine ⟨fun _ => ⟨m, sound.attached, ?_⟩, fun paused => ?_⟩
    · cases moving with
      | going motion => exact .inl motion
      | stepping motion => exact .inr (.inl motion)
      | stepped _ pending | ended code _ pending =>
        refine .inr (.inr ⟨_, by rw [pending]; exact List.mem_singleton_self _, ?_⟩)
        simp [Event.isStop, Event.isExit]
    · rw [running] at paused
      cases paused

/-- Whatever a program does and whatever is asked of its session, they agree on who is running, and
a request that comes to a pause for a breakpoint comes to one. -/
theorem follows_after (e : Executable) (config : Config) (actions : List Action) (action : Action) :
    let s := after (e.host config) actions
    let t := s.perform action
    s.Follows ∧ t.Follows ∧
      ∀ thread, t.state = .paused .breakpoint thread →
        s.state.isPaused = false ∨ t.generation ≠ s.generation → t.AtBreakpoint := by
  intro s t
  have lasting := e.anywhere_lasting config
  have ready : Ready (e.anywhere config) s none := after_ready lasting rfl actions
  refine ⟨ready.follows, (perform_ready lasting rfl ready action).follows, fun thread paused fresh => ?_⟩
  rcases perform_marked lasting rfl ready action with same | marked
  · have state : t.state = s.state := congrArg Record.state same
    have generation : t.generation = s.generation := congrArg Record.generation same
    rw [← state, paused] at fresh
    exact absurd fresh (by simp [RunState.isPaused, generation])
  · exact marked thread paused

end Session

end SourceDebugger
