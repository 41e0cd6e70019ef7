import SourceDebugger.Proofs.Session.Lifecycle
import SourceDebugger.Proofs.Session.Ready
/-!
Requests keep a session ready. A request is a look at the debuggee or a first move, and the moves
that follow from it; whatever fails on the way ends the session.
-/
namespace SourceDebugger

open Machine Traps

namespace Session

open Effect

variable {w : Sight} {s t u : Session Machine} {m n : Machine} {lifted : Option UInt64}

section Drive

theorem Stop.held {e : Event} (stop : Stop w s m e) : Held s m none ∧ s.host = w.host := by
  cases stop with
  | interrupt pc sound => exact ⟨sound.toHeld, sound.host⟩
  | signal number description sound => exact ⟨sound.toHeld, sound.host⟩
  | own free sound => exact ⟨sound.toHeld, sound.host⟩
  | hit laid attached sound =>
    have onward : Onward (standing m (m.registers.pc - 1)) m :=
      ⟨rfl, rfl, rfl, Nat.le_refl _, rfl⟩
    exact ⟨(sound.toHeld.machine onward).restate attached rfl rfl rfl, sound.host⟩

/-- A session with something left to be done may still fail. -/
theorem Ready.failing {move : Move} (ready : Ready w s (some move)) : Failing w s := by
  cases ready with
  | notice known sound running moving => exact ⟨sound.host, .inl running, _, _, sound.toHeld⟩
  | stop stop rest running => exact ⟨stop.held.2, .inl running, _, _, stop.held.1⟩
  | single sound rest running => exact ⟨sound.host, .inl running, _, _, sound.toHeld⟩
  | exit code held host live => exact ⟨host, live, _, _, held⟩
  | await sound moving fresh here running => exact ⟨sound.host, .inl running, _, _, sound.toHeld⟩
  | resume sound rest live | stepped sound rest live | arrived sound rest live
  | act sound rest live | stepOut sound rest live | runTo sound rest live =>
    exact ⟨sound.host, live, _, _, sound.toHeld⟩

/-- What a change without further moves may come to. -/
def Ends (w : Sight) {α : Type} : Except Fault α × Session Machine → Prop
  | (.ok _, s) => Ready w s none
  | (.error _, s) => Failing w s

theorem drive_ready (lasting : w.Lasting) (most : Nat) {move : Option Move}
    (ready : Ready w s move) : Ends w (drive most move s) := by
  induction most generalizing s move with
  | zero =>
    cases move with
    | none => exact ready
    | some move => exact ready.failing
  | succ most ih =>
    cases move with
    | none => exact ready
    | some move =>
      have fares := advance_ready lasting ready
      rw [drive, bind_run]
      rcases advanced : advance move s with ⟨e | next, t⟩
      · rw [advanced] at fares
        exact fares
      · rw [advanced] at fares
        exact ih fares

theorem settle_ready (lasting : w.Lasting) {move : Move} (ready : Ready w s (some move)) :
    Ends w (settle move s) := by
  rw [settle, bind_ok (get_run s)]
  exact drive_ready lasting _ ready

theorem fail_ready (failing : Failing w s) (fault : Fault) : Ready w (s.fail fault) none := by
  obtain ⟨host, live, m, lifted, held⟩ := failing
  rw [fail, live.not_exited, if_neg (by simp)]
  refine .idle (exit_spec held.seated held.tidy none (some fault)) ?_ (exit_idle s none _)
  rw [← host, exit]
  cases s.output.flush <;> rfl

theorem guarded_ready {α : Type} {a : Change Machine α} (ends : Ends w (a s)) :
    Ready w (guarded a s).2 none := by
  rw [guarded]
  rcases run : a s with ⟨e | x, t⟩
  · rw [run] at ends
    exact fail_ready ends e
  · rw [run] at ends
    exact ends

end Drive

section Look

theorem Sound.quiet {k : Nat} (steady : w.Steady) (sound : Sound w s m lifted)
    (quiet : Quiet k m n) (none : m.pending = []) :
    Sound w { s with debuggee := some n } n lifted := by
  induction quiet generalizing s with
  | refl m =>
    rw [with_debuggee sound.attached]
    exact sound
  | @step k m n l done silent _ ih =>
    have next := (sound.execute steady done (by simp [silent]) []).resolve_left (by
      rintro ⟨rfl, _⟩
      simp [trapped] at silent)
    have same : { n with pending := [] } = n := by rw [← silent]
    rw [same] at next
    exact ih (s := { s with debuggee := some n }) next silent

/-- What a look at the debuggee may come to. -/
def Sees (w : Sight) : Except Fault (Option Event) × Session Machine → Prop
  | (.ok none, s) => Ready w s none
  | (.ok (some e), s) => Ready w s (some (.handle e))
  | (.error _, s) => Failing w s

theorem heard_ready {b : Bool} {e : Event} (sound : Sound w s m none)
    (heard : Heard w s m none n b e) (running : s.state = .running)
    (free : n.interruptRequested = false) (quiet : n.pending = [])
    (moving : b = false → Moving s.Stepping n) :
    Ready w { s with debuggee := some n } (some (.handle e)) := by
  cases heard with
  | notice known motion after => exact .notice known after running (moving rfl)
  | trap stopped back behind ahead =>
    refine .stop ?_ ⟨stopped, quiet, free⟩ running
    by_cases laid : s.traps.contains (n.registers.pc - 1) = true
    · exact .hit laid rfl behind
    · refine .own (by simpa using laid) (ahead fun t found => ?_)
      rw [← back] at found
      exact absurd (contains_iff.mpr ⟨t, found⟩) laid
  | signal number description stopped after =>
    exact .stop (.signal number description after) ⟨stopped, quiet, free⟩ running
  | exit code exited after => exact .exit code after sound.host (.inl running)

theorem poll_ready (steady : w.Steady) (sound : Sound w s m none) (running : s.state = .running)
    (moving : Moving s.Stepping m) : Sees w ((poll m).1, { s with debuggee := some (poll m).2 }) := by
  cases moving with
  | ended code exited pending =>
    rw [poll_pending pending]
    exact .exit code
      (sound.drive steady [] m.motion m.interruptRequested m.pendingSignal m.threads).toHeld
      sound.host (.inl running)
  | stepped stopped pending free stepping =>
    rw [poll_pending pending]
    exact Ready.single (m := { m with pending := [] })
      (sound.drive steady [] m.motion m.interruptRequested m.pendingSignal m.threads)
      ⟨stopped, rfl, free⟩ running stepping
  | going motion quiet =>
    have polled := poll_running motion quiet
    rcases looked : poll m with ⟨r, n⟩
    rw [looked] at polled
    generalize slice = most at polled
    cases polled with
    | idle silent =>
      have moved := silent.motion quiet
      exact .running (sound.quiet steady silent quiet) running
        (.going (moved.2.trans motion) moved.1)
    | @interrupt _ k n silent requested =>
      have after := (sound.quiet steady silent quiet).drive steady [] .stopped false
        n.pendingSignal n.threads
      exact .stop (.interrupt n.registers.pc after) ⟨rfl, rfl, rfl⟩ running
    | @failure _ k n l e silent free failed =>
      have onward := onward_execute n
      rw [failed] at onward
      exact ⟨sound.host, .inl running, _, _,
        (sound.quiet steady silent quiet).toHeld.machine onward⟩
    | @report _ k n l b e silent free done one =>
      have moved := silent.motion quiet
      have there := sound.quiet steady silent quiet
      have onward := onward_execute n
      rw [done] at onward
      have told := heard (s := { s with debuggee := some n }) steady there moved.1 done one
      refine heard_ready (s := { s with debuggee := some n }) there told running
        (onward.interrupt.trans free) rfl fun going => ?_
      rcases execute_pending done moved.1 with ⟨_, _, same⟩ | ⟨_, same, _⟩ | ⟨stop, _⟩
      · exact .going (same.trans (moved.2.trans motion)) rfl
      · exact .going (same.trans (moved.2.trans motion)) rfl
      · simp [going] at stop
  | stepping motion quiet free stepping =>
    have onward := onward_execute m
    have polled := poll_stepping motion quiet
    rcases looked : poll m with ⟨r, n⟩
    rw [looked] at polled
    cases polled with
    | failure failed =>
      rw [failed] at onward
      exact (sound.onward onward).mpr (.inl running)
    | @nothing l done none =>
      rw [done] at onward
      have next := (sound.execute steady done (by simp [none]) []).resolve_left (by
        rintro ⟨rfl, _⟩
        simp [trapped] at none)
      exact Ready.single (m := { l with pending := [], motion := .stopped })
        (next.drive steady [] .stopped l.interruptRequested l.pendingSignal l.threads)
        ⟨rfl, rfl, onward.interrupt.trans free⟩ running stepping
    | @notice l e done notice one =>
      rw [done] at onward
      have next := (sound.execute steady done (by
        intro code exits
        rw [one, quiet] at exits
        cases List.singleton_inj.mp exits
        cases notice) []).resolve_left (by
          rintro ⟨rfl, _⟩
          rw [trapped, quiet] at one
          cases (List.cons.inj one).1
          cases notice)
      exact .notice (sound.executable ▸ notice)
        (next.drive steady [.trap mainThread l.registers.pc .singleStep] .stopped
          l.interruptRequested l.pendingSignal l.threads) running
        (.stepped rfl rfl (onward.interrupt.trans free) stepping)
    | @stop l e done one =>
      rw [done] at onward
      exact heard_ready sound (heard steady sound quiet done one) running
        (onward.interrupt.trans free) rfl fun h => by cases h

end Look

section Requests

theorem Ready.on (ready : Ready w s none) (running : s.state = .running) :
    ∃ m, Sound w s m none ∧ Moving s.Stepping m := by
  cases ready with
  | idle detached host idle => rcases idle with h | h <;> simp [running, RunState.isExited] at h
  | paused sound rest stepless paused => simp [running] at paused
  | running sound running moving => exact ⟨_, sound, moving⟩

theorem Ready.still (ready : Ready w s none) {reason : PauseReason} {thread : ThreadId}
    (state : s.state = .paused reason thread) :
    thread = mainThread ∧ ∃ m, Sound w s m none ∧ Resting m ∧ s.stepper = none := by
  cases ready with
  | idle detached host idle => rcases idle with h | h <;> simp [state, RunState.isExited] at h
  | paused sound rest stepless paused =>
    rw [state] at paused
    exact ⟨(RunState.paused.inj paused).2, _, sound, rest, stepless⟩
  | running sound running moving => simp [state] at running

theorem pump_ready (lasting : w.Lasting) (ready : Ready w s none) (millis : Nat) :
    Ready w (pump millis s).2 none := by
  rw [pump_run]
  split
  · rename_i running
    obtain ⟨m, sound, moving⟩ := ready.on running
    have sees := poll_ready lasting.toSteady sound running moving
    have looked : access (Debuggee.poll millis) s =
        ((poll m).1, { s with debuggee := some (poll m).2 }) := access_run sound.attached _
    rw [looked]
    rcases polled : poll m with ⟨e | event, n⟩ <;> rw [polled] at sees
    · exact fail_ready sees e
    · cases event with
      | none => exact sees
      | some event =>
        have told : Ready w { s with debuggee := some n } (some (.handle event)) := sees
        have ends := settle_ready lasting told
        dsimp only
        rcases settled : settle (.handle event) { s with debuggee := some n } with ⟨e | _, u⟩
        · rw [settled] at ends
          exact fail_ready ends e
        · rw [settled] at ends
          exact ends
  · exact ready

/-- A request for a paused session changes no other. -/
theorem paused_ready {α : Type} (operation : Operation) (request : ThreadId → Request Machine α)
    (ready : Ready w s none)
    (does : ∀ m, Sound w s m none → Resting m → s.stepper = none →
      (∃ reason, s.state = .paused reason mainThread) → Ready w (request mainThread s).2 none) :
    Ready w ((requirePaused operation >>= request) s).2 none := by
  rw [bind_run, requirePaused_run]
  cases state : s.state with
  | paused reason thread =>
    obtain ⟨rfl, m, sound, rest, stepless⟩ := ready.still state
    exact does m sound rest stepless ⟨reason, state⟩
  | notStarted | running | exited => exact ready

theorem continue_ready (lasting : w.Lasting) (ready : Ready w s none) :
    Ready w (continueExecution s).2 none := by
  refine paused_ready .continueExecution _ ready fun m sound rest stepless paused => ?_
  exact guarded_ready (settle_ready lasting (.resume sound rest (.inr paused) fun t h => by cases h))

/-- A step begins with what is seen of the innermost frame. -/
theorem beginStep_run (attached : s.debuggee = some m) (kind : StepKind) :
    beginStep kind mainThread s = settle (if kind = .out then .stepOut mainThread else .act mainThread)
      { s with stepper := some (.start kind mainThread (s.roster.lineAt? m.registers.pc)
        (CallStack.canonicalAddress s.traps m s.roster m.registers)) } := by
  rw [beginStep, bind_ok (registers_run attached), bind_ok (frameAddress_run attached _),
    bind_ok (modify_run _ s)]

theorem begun_ready (sound : Sound w s m none) (rest : Resting m) (stepless : s.stepper = none)
    (live : s.Live) (kind : StepKind) (line : Option CodeRange) (frame : UInt64) :
    Ready w { s with stepper := some (.start kind mainThread line frame) }
      (some (if kind = .out then .stepOut mainThread else .act mainThread)) := by
  have goal : s.goal = none := by simp [Session.goal, stepless]
  have next : Sound w { s with stepper := some (.start kind mainThread line frame) } m none := by
    refine sound.step goal.symm ?_ ?_
    · rintro q ⟨⟩
      rfl
    · rintro q target ⟨⟩ pending
      cases pending
  split
  · exact .stepOut next rest live ⟨_, rfl, rfl⟩
  · exact .act next rest live ⟨_, rfl, rfl⟩

theorem step_ready (lasting : w.Lasting) (ready : Ready w s none) (kind : StepKind) :
    Ready w (step kind s).2 none := by
  refine paused_ready (.step kind) _ ready fun m sound rest stepless paused => guarded_ready ?_
  rw [beginStep_run sound.attached]
  exact settle_ready lasting (begun_ready sound rest stepless (.inr paused) kind _ _)

theorem break_ready (steady : w.Steady) (ready : Ready w s none) :
    Ready w (breakExecution s).2 none := by
  rw [breakExecution, bind_ok (get_run s), ite_run]
  split
  · rename_i running
    obtain ⟨m, sound, moving⟩ := ready.on running
    refine guarded_ready ?_
    rw [access_run sound.attached]
    have asked := sound.drive steady m.pending m.motion
      (m.interruptRequested || m.motion == .running) m.pendingSignal m.threads
    refine .running asked running ?_
    cases moving with
    | going motion quiet => exact .going motion quiet
    | stepping motion quiet free stepping =>
      exact .stepping motion quiet (by simp [motion, free]) stepping
    | stepped stopped pending free stepping =>
      exact .stepped stopped pending (by simp [stopped, free]) stepping
    | ended code exited pending => exact .ended code exited pending
  · rw [refuse, bind_ok (get_run s)]
    exact ready

theorem setEnabled_ready (ready : Ready w s none) (id : BreakpointId) (enabled : Bool) :
    Ready w (s.setEnabled id enabled) none := by
  have tidied {ts : Traps} {target : Option UInt64} (tidy : Tidy s.breakpoints ts target) :
      Tidy (s.breakpoints.update id fun b => { b with enabled }) ts target :=
    tidy.alike (fun b => by split <;> rfl) (fun b => by split <;> rfl) fun b => by split <;> rfl
  have kept {m : Machine} (sound : Sound w s m none) :
      Sound w (s.setEnabled id enabled) m none :=
    { sound with
      attached := sound.attached, seated := sound.seated, tidy := tidied sound.tidy
      main := sound.main, seen := sound.seen, modules := sound.modules, aims := sound.aims
      bindings := fun b member a bound => by
        obtain ⟨c, before, rfl⟩ := List.mem_map.mp member
        refine sound.bindings c before a ?_
        split at bound <;> exact bound }
  cases ready with
  | idle detached host idle =>
    exact .idle ⟨detached.gone, detached.stepless, detached.empty, tidied detached.tidy⟩ host idle
  | paused sound rest stepless paused => exact .paused (kept sound) rest stepless paused
  | running sound running moving => exact .running (kept sound) running moving

theorem settle_exit {δ : Type} [Debuggee δ] (code : Int) (s : Session δ) :
    settle (.handle (.exited code)) s = (.ok (), s.exit (some code) none) := settle_one rfl

theorem kill_run (m : Machine) : kill m = (.ok (), if m.motion = .exited then m else
    { m with pending := [.exited (128 + 9)], motion := .exited, threads := [] }) := by
  rw [kill, bind_ok (get_run m), ite_run]
  by_cases exited : m.motion = .exited
  · rw [if_neg (by simpa using exited), if_pos exited, pure_run]
  · rw [if_pos exited, if_neg exited, bind_ok (modify_run _ m), exitWith_run]
    rfl

/-- A debuggee that has ended tells so at the next look. -/
theorem awaitExit_ended {δ : Type} [Debuggee δ] {s : Session δ} {d d' : δ} {code : Int}
    (attached : s.debuggee = some d) (live : s.state.isExited = false)
    (ended : ∀ millis, (Debuggee.poll millis : Access δ (Option Event)) d = (.ok (some (.exited code)), d'))
    (most : Nat) : awaitExit (most + 2) s =
      (.ok (), { s with debuggee := some d' }.exit (some code) none) := by
  have looked : guarded (access (Debuggee.poll s.host.config.pollMillis)) s =
      (.ok (some (.exited code)), { s with debuggee := some d' }) := by
    rw [guarded, access_run attached, ended]
  have handled : guarded (settle (.handle (.exited code))) { s with debuggee := some d' } =
      (.ok (), { s with debuggee := some d' }.exit (some code) none) := by
    rw [guarded, settle_exit]
  rw [awaitExit_run, live, if_neg (by simp), looked]
  dsimp only
  rw [if_neg (by simp [Event.isStop]), bind_ok handled, awaitExit_run, exit_state]
  rfl

/-- A program that has ended in a session that is ready has only its end to tell. -/
theorem Ready.ended (ready : Ready w s none) (sound : Sound w s m none) (exited : m.motion = .exited) :
    ∃ code, m.pending = [.exited code] := by
  have only {n : Machine} (other : Sound w s n none) : n = m :=
    Option.some.inj (other.attached.symm.trans sound.attached)
  cases ready with
  | idle detached => exact absurd (detached.gone.symm.trans sound.attached) (by simp)
  | paused other rest =>
    cases only other
    exact absurd (exited.symm.trans rest.motion) (by simp)
  | running other _ moving =>
    cases only other
    cases moving with
    | ended code _ pending => exact ⟨code, pending⟩
    | going motion | stepping motion | stepped motion => simp [exited] at motion

/-- A killed program has only its end to tell. -/
theorem kill_pending (ended : m.motion = .exited → ∃ code, m.pending = [.exited code]) :
    ∃ code, (kill m).2.pending = [.exited code] := by
  rw [kill_run]
  by_cases exited : m.motion = .exited
  · rw [if_pos exited]
    exact ended exited
  · rw [if_neg exited]
    exact ⟨_, rfl⟩

theorem onward_kill (m : Machine) : Onward m (kill m).2 := by
  rw [kill_run]
  dsimp only
  split
  · exact .refl m
  · exact ⟨rfl, rfl, rfl, Nat.le_refl _, rfl⟩

theorem terminate_ready (ready : Ready w s none) : Ready w (terminate s).2 none := by
  have kills {m : Machine} (sound : Sound w s m none) (live : s.Live) :
      Ready w ((guarded (access Debuggee.terminate) >>= fun _ => awaitExit patience) s).2 none := by
    have killed : guarded (access Debuggee.terminate) s =
        (.ok (), { s with debuggee := some (kill m).2 }) := by
      have done : (Debuggee.terminate : Access Machine Unit) m = _ := kill_run m
      rw [guarded, access_run sound.attached, done, kill_run]
    obtain ⟨code, pending⟩ := kill_pending (ready.ended sound)
    have two : patience = patience - 2 + 2 := by decide
    rw [bind_ok killed, two,
      awaitExit_ended (s := { s with debuggee := some (kill m).2 }) rfl live.not_exited
        (fun _ => poll_pending pending)]
    have held := (sound.toHeld.machine (onward_kill m)).machine
      (n := { (kill m).2 with pending := [] }) ⟨rfl, rfl, rfl, Nat.le_refl _, rfl⟩
    refine .idle (exit_spec held.seated held.tidy (some code) none) ?_ (exit_idle _ _ _)
    rw [← sound.host, exit]
    cases s.output.flush <;> rfl
  rw [terminate, bind_ok (get_run s)]
  cases state : s.state with
  | running =>
    obtain ⟨m, sound, _⟩ := ready.on state
    exact kills sound (.inl state)
  | paused reason thread =>
    obtain ⟨rfl, m, sound, _, _⟩ := ready.still state
    exact kills sound (.inr ⟨reason, state⟩)
  | notStarted | exited =>
    dsimp only
    rw [refuse, bind_ok (get_run s)]
    exact ready

/-- A breakpoint that is bound owns the trap where it is bound, and no other. -/
theorem registered_elsewhere {bs : Breakpoints} {ts : Traps} {target : Option UInt64}
    (tidy : Tidy bs ts target) {b : Breakpoint} (member : b ∈ bs.items) {a : UInt64} {o : Owners}
    (other : b.address? ≠ some a) (owned : ts.owners a = some o) : b.id ∉ o.1 := by
  intro user
  obtain ⟨c, there, same, _, bound⟩ := tidy.users a o owned b.id user
  cases tidy.unique there member same
  exact other bound

theorem registered?_some {bs : Breakpoints} {id : BreakpointId} {b : Breakpoint}
    (found : bs.registered? id = some b) : b ∈ bs.items ∧ b.id = id ∧ b.registered = true := by
  obtain ⟨there, registered⟩ := Option.filter_eq_some_iff.mp found
  exact ⟨List.mem_of_find?_eq_some there, by simpa using List.find?_some there, registered⟩

theorem dropped_items (bs : Breakpoints) (id : BreakpointId) : (dropped bs id).items =
    bs.items.map fun b => if b.id = id then { b with registered := false, binding := none } else b := by
  simp only [dropped, Breakpoints.update, List.map_map]
  refine List.map_congr_left fun b _ => ?_
  by_cases same : b.id = id <;> simp [same, Breakpoint.unbound]

theorem dropped_tidy {bs : Breakpoints} {ts us : Traps} {target : Option UInt64}
    {id : BreakpointId} (tidy : Tidy bs ts target)
    (owners : ∀ c, us.owners c = (ts.owners c).bind fun o => (o.withoutUser id).remaining) :
    Tidy (dropped bs id) us target := by
  have removed := tidy.remove
    (g := fun b => if b.id = id then { b with registered := false, binding := none } else b)
    (fun b => by split <;> rfl) (fun b other => if_neg other) (fun b same => by rw [if_pos same]; exact ⟨rfl, rfl⟩)
    owners
  have same : dropped bs id = { bs with items := (dropped bs id).items } := rfl
  rw [same, dropped_items]
  exact removed

theorem remove_placed {b : Breakpoint} {id : BreakpointId} {a : UInt64} {j : Instrumented Machine}
    (found : s.breakpoints.registered? id = some b) (placed : b.address? = some a)
    (attached : s.debuggee = some m)
    (released : Instrumented.removeUser a id ⟨s.traps, m⟩ = (.ok (), j)) :
    removeBreakpoint id s =
      (.ok (), holding { s with breakpoints := dropped s.breakpoints id } j) := by
  have release : removeBreakpoint.releaseTrap a id (s.unlisted id) =
      (.ok (), (s.unlisted id).holding j) := by
    rw [removeBreakpoint.releaseTrap, instrumented_run (s := s.unlisted id) attached,
      show (s.unlisted id).traps = s.traps from rfl, released]
    rfl
  obtain ⟨_, _, _, _, _, _, _, _, _, _, _, _⟩ := s
  cases attached
  rw [removeBreakpoint, bind_ok (get_run _)]
  dsimp only at found ⊢
  rw [found]
  dsimp only
  rw [bind_ok (set_run _ _), placed]
  exact bind_ok release

/-- The parts of being ready that have to do with breakpoints. -/
theorem Ready.rebind {j : Instrumented Machine} (bs : Breakpoints) (steady : w.Steady)
    (ready : Ready w s none) (sound : Sound w s m none)
    (paint : Repaint ⟨s.traps, m⟩ j) (seated : Seated j none)
    (tidy : Tidy bs j.traps (s.goal.map (·.address)))
    (bindings : ∀ b ∈ bs.items, ∀ a, b.address? = some a → w.site a) :
    Ready w (holding { s with breakpoints := bs } j) none := by
  obtain ⟨_, _, _, same⟩ := paint.rest
  have after : Sound w (holding { s with breakpoints := bs } j) j.debuggee none :=
    ⟨⟨rfl, seated, tidy, sound.main⟩, sound.host, same ▸ sound.executable, sound.modules,
      steady.paint paint sound.seen, bindings, sound.aims⟩
  have only {n : Machine} (other : Sound w s n none) : n = m :=
    Option.some.inj (other.attached.symm.trans sound.attached)
  cases ready with
  | idle detached => exact absurd (detached.gone.symm.trans sound.attached) (by simp)
  | paused other rest stepless paused =>
    cases only other
    exact .paused after (rest.painted paint) stepless paused
  | running other running moving =>
    cases only other
    exact .running after running (moving.painted paint)

theorem Ready.cases (ready : Ready w s none) :
    (Detached s ∧ s.host = w.host ∧ s.Idle) ∨ ∃ m, Sound w s m none := by
  cases ready with
  | idle detached host idle => exact .inl ⟨detached, host, idle⟩
  | paused sound => exact .inr ⟨_, sound⟩
  | running sound => exact .inr ⟨_, sound⟩

theorem remove_ready (steady : w.Steady) (ready : Ready w s none) (id : BreakpointId) :
    Ready w (removeBreakpoint id s).2 none := by
  cases found : s.breakpoints.registered? id with
  | none =>
    rw [removeBreakpoint, bind_ok (get_run s), found]
    exact ready
  | some b =>
    obtain ⟨member, rfl, registered⟩ := registered?_some found
    rcases ready.cases with ⟨detached, host, idle⟩ | ⟨m, sound⟩
    · rw [remove_unplaced found (.inr detached.gone)]
      refine .idle ⟨detached.gone, detached.stepless, detached.empty, ?_⟩ host idle
      exact dropped_tidy detached.tidy fun c => by simp [detached.empty]
    · have bindings : ∀ c ∈ (dropped s.breakpoints b.id).items, ∀ a, c.address? = some a →
          w.site a := by
        intro c there a bound
        rw [dropped_items] at there
        obtain ⟨d, before, rfl⟩ := List.mem_map.mp there
        split at bound
        · simp [Breakpoint.address?] at bound
        · exact sound.bindings d before a bound
      have elsewhere {c : UInt64} (other : b.address? ≠ some c) :
          s.traps.owners c = (s.traps.owners c).bind fun o => (o.withoutUser b.id).remaining := by
        cases owned : s.traps.owners c with
        | none => rfl
        | some o =>
          exact (sound.tidy.withoutUser_other owned
            (registered_elsewhere sound.tidy member other owned)).symm
      cases placed : b.address? with
      | none =>
        rw [remove_unplaced found (.inl placed)]
        have after := ready.rebind (dropped s.breakpoints b.id) (j := ⟨s.traps, m⟩) steady
          sound (.refl _) sound.seated (dropped_tidy sound.tidy fun c => elsewhere (by simp [placed]))
          bindings
        rwa [holding_self (s := { s with breakpoints := dropped s.breakpoints b.id })
          sound.attached] at after
      | some a =>
        obtain ⟨j, released, paint, seated, owners⟩ :=
          Instrumented.removeUser_spec (a := a) b.id sound.seated
        rw [remove_placed found placed sound.attached released]
        refine ready.rebind _ steady sound paint seated (dropped_tidy sound.tidy fun c => ?_) bindings
        rw [owners]
        split
        · rename_i same
          rw [same]
        · rename_i other
          exact elsewhere (by simp [placed, Ne.symm other])

/-- Breakpoints looked at in one more module. -/
def bindMore (r : List Breakpoint × Instrumented Machine) (l : LoadedModule) :
    List Breakpoint × Instrumented Machine := Instrumented.bindIn l r.1 r.2

/-- Breakpoints are bound module by module. -/
theorem bindAll_spec {n : BreakpointId} {target : Option UInt64} (steady : w.Steady)
    (mods : List LoadedModule) (known : ∀ l ∈ mods, w.Known l) {items : List Breakpoint}
    {i : Instrumented Machine} (seated : Seated i none) (tidy : Tidy ⟨items, n⟩ i.traps target)
    (bindings : ∀ b ∈ items, ∀ a, b.address? = some a → w.site a) :
    ∃ after j, mods.foldl bindMore (items, i) = (after, j) ∧ Repaint i j ∧ Seated j none ∧
      Tidy ⟨after, n⟩ j.traps target ∧ ∀ b ∈ after, ∀ a, b.address? = some a → w.site a := by
  induction mods generalizing items i with
  | nil => exact ⟨items, i, rfl, .refl i, seated, tidy, bindings⟩
  | cons l rest ih =>
    obtain ⟨after, j, first, paint, seated, tidy, each⟩ := bindIn_spec (l := l) items [] seated tidy
    have bindings : ∀ b ∈ after, ∀ a, b.address? = some a → w.site a := by
      intro c member a bound
      obtain ⟨b, before, now⟩ := origin_of_forall₂ each c member
      cases now with
      | same => exact bindings c before a bound
      | now binding registered unbound found =>
        cases Option.some.inj bound
        exact steady.bind (known l List.mem_cons_self) found
    obtain ⟨last, k, others, more, seated, tidy, bindings⟩ :=
      ih (fun l member => known l (List.mem_cons_of_mem _ member)) seated tidy bindings
    refine ⟨last, k, ?_, paint.trans more, seated, tidy, bindings⟩
    rw [List.foldl_cons, bindMore, first]
    exact others

theorem bindAll_attached (attached : s.debuggee = some m) :
    s.bindAll =
      let r := s.roster.modules.foldl bindMore (s.breakpoints.items, ⟨s.traps, m⟩)
      holding { s with breakpoints := { s.breakpoints with items := r.1 } } r.2 :=
  bindAll_run attached

theorem add_ready (steady : w.Steady) (ready : Ready w s none) (location : Location) :
    Ready w (addBreakpoint location s).2 none := by
  have news : ∀ b ∈ (s.breakpoints.add location).2.items, b ∈ s.breakpoints.items ∨
      b.address? = none := by
    intro b member
    rcases List.mem_append.mp member with before | last
    · exact .inl before
    · cases List.mem_singleton.mp last
      exact .inr rfl
  show Ready w (bindAll { s with breakpoints := (s.breakpoints.add location).2 }) none
  rcases ready.cases with ⟨detached, host, idle⟩ | ⟨m, sound⟩
  · rw [bindAll_detached (s := { s with breakpoints := (s.breakpoints.add location).2 })
      detached.gone]
    exact .idle ⟨detached.gone, detached.stepless, detached.empty, detached.tidy.add location⟩ host
      idle
  · have bindings : ∀ b ∈ (s.breakpoints.add location).2.items, ∀ a, b.address? = some a →
        w.site a := by
      intro b member a bound
      rcases news b member with before | unbound
      · exact sound.bindings b before a bound
      · simp [unbound] at bound
    have added : Tidy ⟨(s.breakpoints.add location).2.items, (s.breakpoints.add location).2.nextId⟩
      s.traps (s.goal.map (·.address)) := sound.tidy.add location
    obtain ⟨items, j, bound, paint, seated, tidy, bindings⟩ := bindAll_spec steady
      s.roster.modules sound.modules sound.seated added bindings
    rw [bindAll_attached (s := { s with breakpoints := (s.breakpoints.add location).2 })
      sound.attached]
    dsimp only
    rw [bound]
    exact ready.rebind _ steady sound paint seated tidy bindings

end Requests

section Start

theorem settle_notice {p : Executable} {e : Event} (held : Held s m none) (known : Notice p e) :
    ∃ t j, settle (.handle e) s = (.ok (), t.holding j) ∧ Noticed s e t ∧ Kept s m t j none := by
  obtain ⟨t, j, done, noticed, kept⟩ := handle_notice held known
  have moves : mostMoves + s.host.config.extraMoves =
      (mostMoves - 1 + s.host.config.extraMoves) + 1 := by simp only [mostMoves]; omega
  refine ⟨t, j, ?_, noticed, kept⟩
  rw [settle, bind_ok (get_run s), moves, drive, bind_ok done]
  cases mostMoves - 1 + s.host.config.extraMoves <;> rfl

theorem look_run {e : Event} {rest : List Event} (attached : s.debuggee = some m) (millis : Nat)
    (pending : m.pending = e :: rest) : access (Debuggee.poll millis) s =
      (.ok (some e), { s with debuggee := some { m with pending := rest } }) := by
  have polled : (Debuggee.poll millis : Access Machine _) m = _ := poll_pending pending
  rw [access_run attached, polled]

/-- A process that has not run yet. -/
structure Waiting (s : Session Machine) (m : Machine) : Prop where
  running : s.state = .running
  motion : m.motion = .stopped
  free : m.interruptRequested = false
  signal : m.pendingSignal = none

theorem entry_notice {e : Event} {rest : List Event} {p : Executable} (held : Held s m none)
    (waiting : Waiting s m) (pending : m.pending = e :: rest) (known : Notice p e) (most : Nat) :
    ∃ t j, runFromEntry (most + 1) s = runFromEntry most (t.holding j) ∧
      Noticed { s with debuggee := some { m with pending := rest } } e t ∧
      Kept { s with debuggee := some { m with pending := rest } } { m with pending := rest } t j
        none ∧ Waiting (t.holding j) j.debuggee ∧ j.debuggee.pending = rest := by
  have looked := look_run held.attached 0 pending
  have still := held.machine (n := { m with pending := rest }) ⟨rfl, rfl, rfl, Nat.le_refl _, rfl⟩
  obtain ⟨t, j, done, noticed, kept⟩ := settle_notice still known
  have running : (t.holding j).state = .running := noticed.unmoved.state.trans waiting.running
  obtain ⟨motion, left, interrupt, _⟩ :=
    driven (s := { s with debuggee := some { m with pending := rest } }) kept.paint
  have signal : j.debuggee.pendingSignal = none := by
    obtain ⟨_, _, _, same⟩ := kept.paint.rest
    rw [same]
    exact waiting.signal
  refine ⟨t, j, ?_, noticed, kept,
    ⟨running, motion.trans waiting.motion, interrupt.trans waiting.free, signal⟩, left⟩
  rw [runFromEntry, bind_ok looked]
  dsimp only
  rw [bind_ok done, bind_ok (get_run _), ite_run, if_neg (by simp [known.not_stop.1, running])]

/-- A process that has been told to run and has not executed anything yet. -/
structure Begun (w : Sight) (s : Session Machine) (m : Machine) : Prop where
  sound : Sound w s m none
  running : s.state = .running
  stepless : s.stepper = none
  motion : m.motion = .running
  quiet : m.pending = []
  free : m.interruptRequested = false
  signal : m.pendingSignal = none

theorem Begun.ready (begun : Begun w s m) : Ready w s none :=
  .running begun.sound begun.running (.going begun.motion begun.quiet)

/-- Nothing has been said, and no breakpoint has come or gone. -/
structure Silent (s t : Session Machine) : Prop where
  output : t.output = s.output
  outbox : t.outbox = s.outbox
  items : t.breakpoints.items.length = s.breakpoints.items.length

theorem Silent.trans (first : Silent s t) (second : Silent t u) : Silent s u :=
  ⟨second.output.trans first.output, second.outbox.trans first.outbox,
    second.items.trans first.items⟩

/-- What the beginning of a run comes to. It is given up only if there is too much to be told. -/
inductive Begins (w : Sight) (s : Session Machine) (few : Prop) :
    Except Fault Unit × Session Machine → Prop
  | on {t : Session Machine} {m : Machine} : few → Begun w t m → Silent s t →
      Begins w s few (.ok (), t)
  | unfinished {t : Session Machine} : ¬ few → Failing w t →
      Begins w s few (.error .unfinished, t)

theorem Begins.ends {few : Prop} {x : Except Fault Unit × Session Machine}
    (begins : Begins w s few x) : Ends w x := by
  cases begins with
  | on _ begun => exact begun.ready
  | unfinished _ failing => exact failing

theorem Begins.congr {few few' : Prop} {x : Except Fault Unit × Session Machine}
    (begins : Begins w t few x) (silent : Silent s t) (same : few ↔ few') : Begins w s few' x := by
  cases begins with
  | on is_few begun quiet => exact .on (same.mp is_few) begun (silent.trans quiet)
  | unfinished many failing => exact .unfinished (mt same.mpr many) failing

theorem Noticed.silent {e : Event} (noticed : Noticed s e t) (other : ∀ text, e ≠ .output text) :
    Silent s t := by
  cases noticed with
  | output text => exact absurd rfl (other text)
  | threadStarted | threadEnded => exact ⟨rfl, rfl, rfl⟩
  | moduleLoaded path base size m items _ each => exact ⟨rfl, rfl, each.length_eq.symm⟩

theorem entry_ready (still : w.Still) (most : Nat) (sound : Sound w s m none)
    (waiting : Waiting s m) (stepless : s.stepper = none)
    (events : ∀ e ∈ m.pending, Notice w.program e ∧ ∀ text, e ≠ .output text) :
    Begins w s (m.pending.length < most) (runFromEntry most s) := by
  induction most generalizing s m with
  | zero => exact .unfinished (Nat.not_lt_zero _) ⟨sound.host, .inl waiting.running, m, none, sound.toHeld⟩
  | succ most ih =>
    cases pending : m.pending with
    | nil =>
      have looked : access (Debuggee.poll 0) s = (.ok none, s) := by
        have polled : (Debuggee.poll 0 : Access Machine _) m = _ :=
          poll_resting (.inl waiting.motion) pending
        rw [access_run sound.attached, polled, with_debuggee sound.attached]
      have alive : m.motion ≠ .exited := by rw [waiting.motion]; simp
      have resumed := access_resume .continue sound.attached alive fun t h => by cases h
      have driven := sound.driven still [] .running false
      have same : m.resumed (modeMotion .continue) =
          { m with pending := [], motion := .running, interruptRequested := false } := by
        rw [Machine.resumed, waiting.signal, ← pending, ← waiting.free]
        rfl
      rw [runFromEntry, bind_ok looked]
      dsimp only
      rw [resumed, same]
      exact .on (Nat.zero_lt_succ most) ⟨driven, waiting.running, stepless, rfl, rfl, rfl, waiting.signal⟩
        ⟨rfl, rfl, rfl⟩
    | cons e rest =>
      obtain ⟨known, other⟩ := events e (by simp [pending])
      obtain ⟨t, j, run, noticed, kept, after, left⟩ :=
        entry_notice sound.toHeld waiting pending known most
      have driven := sound.driven still rest m.motion m.interruptRequested
      have informed := noticed.informed still known driven.informed
      obtain ⟨_, _, _, same⟩ := kept.paint.rest
      have next : Sound w (t.holding j) j.debuggee none :=
        ⟨kept.held, informed.host, same ▸ sound.executable, informed.modules,
          still.paint kept.paint informed.seen, informed.bindings,
          noticed.unmoved.stepper ▸ driven.aims⟩
      have begins : Begins w (t.holding j) (rest.length < most) (runFromEntry most (t.holding j)) := by
        have ends := ih next after (noticed.unmoved.stepper.trans stepless)
        rw [left] at ends
        exact ends fun d member => events d (by simp [pending, member])
      have silent := noticed.silent other
      rw [run]
      exact begins.congr ⟨silent.output, silent.outbox, silent.items⟩ (by simp)

theorem known_startEvents (e : Executable) :
    ∀ event ∈ startEvents e, Notice e event ∧ ∀ text, event ≠ .output text := by
  intro event member
  simp only [startEvents, List.mem_append, List.mem_cons, List.mem_filterMap, List.mem_mapIdx,
    List.not_mem_nil, or_false] at member
  rcases member with (rfl | rfl) | ⟨⟨i, l⟩, ⟨k, inside, same⟩, told⟩
  · exact ⟨.threadStarted mainThread, fun text same => by cases same⟩
  · exact ⟨.program, fun text same => by cases same⟩
  · obtain ⟨rfl, rfl⟩ := Prod.mk.inj same
    dsimp only at told
    split at told
    · rw [← Option.some.inj told]
      exact ⟨.library k _ (List.getElem?_eq_getElem inside), fun text same => by cases same⟩
    · cases told

theorem Detached.unbound (detached : Detached s) :
    ∀ b ∈ s.breakpoints.items, b.address? = none := by
  intro b member
  by_cases registered : b.registered = true
  · cases bound : b.address? with
    | none => rfl
    | some a =>
      obtain ⟨o, owned, _⟩ := detached.tidy.bound b member registered a bound
      simp [detached.empty] at owned
  · simp [Breakpoint.address?, detached.tidy.idle b member (by simpa using registered)]

theorem Detached.attach (detached : Detached s) (m : Machine) (request : LaunchRequest) :
    Held (s.attach m request) m none where
  attached := rfl
  seated := by
    have none : ∀ a, s.traps.find? a = none := fun a => by simpa [owners] using detached.empty a
    exact ⟨fun a t found => by simp [Session.attach, none] at found,
      fun a t found => by simp [Session.attach, none] at found, fun a up => by cases up⟩
  tidy := detached.tidy
  main p h := by cases h

/-- The module that a program is itself. -/
def own (w : Sight) : LoadedModule :=
  w.loaded w.program.path codeBase (UInt64.ofNat w.program.code.size)

theorem known_own (w : Sight) : w.Known (own w) := ⟨_, _, _, .program, rfl⟩

/-- A process that has not told of its own module yet. -/
structure Bare (w : Sight) (s : Session Machine) (m : Machine) : Prop extends Held s m none where
  host : s.host = w.host
  executable : m.executable = w.program
  modules : s.roster.modules = []
  unbound : ∀ b ∈ s.breakpoints.items, b.address? = none
  stepless : s.stepper = none
  seen : w.sees [own w] s.traps m

section Bare

variable {rest : List Event} {j : Instrumented Machine}

theorem Bare.painted (still : w.Still) (bare : Bare w s m)
    (paint : Repaint ⟨s.traps, { m with pending := rest }⟩ j) :
    j.debuggee.executable = w.program ∧ w.sees [own w] j.traps j.debuggee := by
  obtain ⟨_, _, _, same⟩ := paint.rest
  exact ⟨same ▸ bare.executable, still.paint paint (still.drive rest m.motion
    m.interruptRequested bare.seen)⟩

theorem Bare.thread {k : ThreadId} (still : w.Still) (bare : Bare w s m)
    (noticed : Noticed { s with debuggee := some { m with pending := rest } } (.threadStarted k) t)
    (kept : Kept { s with debuggee := some { m with pending := rest } } { m with pending := rest } t
      j none) : Bare w (t.holding j) j.debuggee := by
  obtain ⟨executable, seen⟩ := bare.painted still kept.paint
  have held := kept.held
  cases noticed
  exact ⟨held, bare.host, executable, bare.modules, bare.unbound, bare.stepless, seen⟩

theorem Bare.loaded (still : w.Still) (bare : Bare w s m)
    (noticed : Noticed { s with debuggee := some { m with pending := rest } }
      (.moduleLoaded w.program.path codeBase (UInt64.ofNat w.program.code.size)) t)
    (kept : Kept { s with debuggee := some { m with pending := rest } } { m with pending := rest } t
      j none) : Sound w (t.holding j) j.debuggee none := by
  obtain ⟨executable, seen⟩ := bare.painted still kept.paint
  have held := kept.held
  cases noticed with
  | moduleLoaded path base size _ items _ each =>
    have same : (⟨w.program.path, codeBase, UInt64.ofNat w.program.code.size,
        s.host.symbols w.program.path⟩ : LoadedModule) = own w := by
      rw [bare.host]
      rfl
    have modules : s.roster.modules.filter (·.base ≠ codeBase) ++
        [⟨w.program.path, codeBase, UInt64.ofNat w.program.code.size,
          s.host.symbols w.program.path⟩] = [own w] := by
      rw [bare.modules, same]
      rfl
    refine ⟨held, bare.host, executable, ?_, ?_, ?_, fun q target h => ?_⟩
    · show ∀ l ∈ s.roster.modules.filter (·.base ≠ codeBase) ++ _, w.Known l
      rw [modules]
      intro l member
      cases List.mem_singleton.mp member
      exact known_own w
    · show w.sees (s.roster.modules.filter (·.base ≠ codeBase) ++ _) j.traps j.debuggee
      rw [modules]
      exact seen
    · intro c member a bound
      obtain ⟨b, before, now⟩ := origin_of_forall₂ each c member
      cases now with
      | same => simp [bare.unbound c before] at bound
      | now binding registered unbound found =>
        cases Option.some.inj bound
        exact still.bind (known_own w) (same ▸ found)
    · exact absurd (bare.stepless.symm.trans h) (by simp)

end Bare

/-- The first two events of a process are its thread and its own module. -/
theorem boot_ready (still : w.Still) (detached : Detached s) (host : s.host = w.host)
    (request : LaunchRequest) (most : Nat) :
    Begins w (s.attach (boot w.program) request) ((startEvents w.program).length < most + 2)
      (runFromEntry (most + 2) (s.attach (boot w.program) request)) := by
  have bare : Bare w (s.attach (boot w.program) request) (boot w.program) :=
    ⟨detached.attach _ request, host, rfl, rfl, detached.unbound, rfl, still.entry detached.empty⟩
  have waiting : Waiting (s.attach (boot w.program) request) (boot w.program) := ⟨rfl, rfl, rfl, rfl⟩
  obtain ⟨t, j, first, noticed, kept, waiting, left⟩ :=
    entry_notice bare.toHeld waiting rfl (Notice.threadStarted (p := w.program) mainThread) (most + 1)
  have silent := noticed.silent fun text same => by cases same
  replace bare := bare.thread still noticed kept
  obtain ⟨u, k, second, noticed, more, waiting, rest⟩ :=
    entry_notice kept.held waiting left (Notice.program (p := w.program)) most
  have quiet := noticed.silent fun text same => by cases same
  have sound := bare.loaded still noticed more
  have stepless : u.stepper = none := noticed.unmoved.stepper.trans bare.stepless
  have begins := entry_ready still most sound waiting stepless (by
    rw [rest]
    exact fun e member => known_startEvents w.program e (List.mem_append_right _ member))
  rw [rest] at begins
  rw [first, second]
  exact begins.congr ⟨quiet.output.trans silent.output, quiet.outbox.trans silent.outbox,
    quiet.items.trans silent.items⟩ (Nat.add_lt_add_iff_right (k := 2)).symm

theorem Ready.live (ready : Ready w s none) (sound : Sound w s m none) : s.Live := by
  cases ready with
  | idle detached => exact absurd (detached.gone.symm.trans sound.attached) (by simp)
  | paused _ _ _ paused => exact .inr ⟨_, paused⟩
  | running _ running => exact .inl running

theorem not_live_of_idle (idle : s.Idle) : s.state.isLive = false := by
  rcases idle with state | exited
  · rw [state]
    rfl
  · cases state : s.state <;> simp [state, RunState.isExited, RunState.isLive] at exited ⊢

theorem isLive_of_live (live : s.Live) : s.state.isLive = true := by
  rcases live with state | ⟨reason, state⟩ <;> rw [state] <;> rfl

theorem start_ready (steady : w.Steady) (launches : w.host.launch = launch w.program)
    (ready : Ready w s none) (request : LaunchRequest) : Ready w (start request s).2 none := by
  rcases ready.cases with ⟨detached, host, idle⟩ | ⟨m, sound⟩
  · have counted : Detached { s with launches := s.launches + 1 } :=
      ⟨detached.gone, detached.stepless, detached.empty, detached.tidy⟩
    have answer : s.host.launch s.launches request = launch w.program s.launches request := by
      rw [host, launches]
    rw [start_run (not_live_of_idle idle), answer, launch]
    by_cases same : Path.same request.executable w.program.path = true
    · have two : patience = patience - 2 + 2 := by decide
      rw [if_pos same]
      refine guarded_ready ?_
      rw [two]
      exact (boot_ready steady.toStill counted host request _).ends
    · rw [if_neg same]
      exact .idle counted host idle
  · rw [start_refused (isLive_of_live (ready.live sound))]
    exact ready

end Start

theorem perform_ready (lasting : w.Lasting) (launches : w.host.launch = launch w.program)
    (ready : Ready w s none) (action : Action) : Ready w (s.perform action) none := by
  cases action with
  | start request => exact start_ready lasting.toSteady launches ready request
  | pump millis => exact pump_ready lasting ready millis
  | «continue» => exact continue_ready lasting ready
  | step kind => exact step_ready lasting ready kind
  | «break» => exact break_ready lasting.toSteady ready
  | terminate => exact terminate_ready ready
  | add location => exact add_ready lasting.toSteady ready location
  | remove id => exact remove_ready lasting.toSteady ready id
  | setEnabled id enabled => exact setEnabled_ready ready id enabled

theorem new_ready (w : Sight) : Ready w (new w.host) none := by
  refine .idle ⟨rfl, rfl, fun a => rfl, ?_⟩ rfl (.inl rfl)
  exact ⟨List.nodup_nil, (by simp [new, Breakpoints.empty]), (by simp [new, Breakpoints.empty]),
    (by simp [new, owners, find?]), (by simp [new, Breakpoints.empty]),
    (by simp [new, owners, find?]), (by simp), (by simp [new, owners, find?])⟩

/-- Whatever is done from the beginning, the session is ready for the next request. -/
theorem after_ready (lasting : w.Lasting) (launches : w.host.launch = launch w.program)
    (actions : List Action) : Ready w (after w.host actions) none := by
  have keeps : ∀ s, Ready w s none → Ready w (actions.foldl perform s) none := by
    induction actions with
    | nil => exact fun s ready => ready
    | cons action rest ih => exact fun s ready => ih _ (perform_ready lasting launches ready action)
  exact keeps _ (new_ready w)

end Session

end SourceDebugger
