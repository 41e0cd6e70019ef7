import SourceDebugger.Proofs.Session.Sight
/-!
A session stays ready. Every move of a ready session leaves it ready for what is left to be done, or
meets a fault while breakpoints and traps still agree.
-/
namespace SourceDebugger

open Machine Traps

namespace Session

open Effect

variable {w : Sight} {s t : Session Machine} {m n : Machine} {j : Instrumented Machine}
  {lifted : Option UInt64}

/-- A repaint leaves alone how a machine is driven. -/
theorem driven (paint : Repaint ⟨s.traps, m⟩ j) :
    j.debuggee.motion = m.motion ∧ j.debuggee.pending = m.pending ∧
      j.debuggee.interruptRequested = m.interruptRequested ∧
        j.debuggee.registers = m.registers := by
  obtain ⟨_, _, _, same⟩ := paint.rest
  rw [same]
  exact ⟨rfl, rfl, rfl, rfl⟩

theorem Resting.painted (rest : Resting m) (paint : Repaint ⟨s.traps, m⟩ j) :
    Resting j.debuggee := by
  obtain ⟨motion, pending, interrupt, _⟩ := driven paint
  exact ⟨motion.trans rest.motion, pending.trans rest.quiet, interrupt.trans rest.free⟩

theorem Moving.painted {stepping : Prop} (moving : Moving stepping m)
    (paint : Repaint ⟨s.traps, m⟩ j) : Moving stepping j.debuggee := by
  obtain ⟨motion, pending, interrupt, registers⟩ := driven paint
  cases moving with
  | going h₁ h₂ => exact .going (motion.trans h₁) (pending.trans h₂)
  | stepping h₁ h₂ h₃ h₄ =>
    exact .stepping (motion.trans h₁) (pending.trans h₂) (interrupt.trans h₃) h₄
  | stepped h₁ h₂ h₃ h₄ =>
    exact .stepped (motion.trans h₁) (by rw [pending, h₂, registers]) (interrupt.trans h₃) h₄
  | ended code h₁ h₂ => exact .ended code (motion.trans h₁) (pending.trans h₂)

theorem Moving.mono {p q : Prop} (moving : Moving p m) (more : p → q) : Moving q m := by
  cases moving with
  | going h₁ h₂ => exact .going h₁ h₂
  | stepping h₁ h₂ h₃ h₄ => exact .stepping h₁ h₂ h₃ (more h₄)
  | stepped h₁ h₂ h₃ h₄ => exact .stepped h₁ h₂ h₃ (more h₄)
  | ended code h₁ h₂ => exact .ended code h₁ h₂

theorem Live.not_exited (live : s.Live) : s.state.isExited = false := by
  rcases live with running | ⟨reason, paused⟩
  · rw [running]; rfl
  · rw [paused]; rfl

/-- A machine told to go on moves, or ends at once if a signal is waiting for it. -/
theorem moving_resumed (mode : ResumeMode) {stepping : Prop} (rest : Resting m)
    (step : ∀ t, mode = .step t → stepping) : Moving stepping (m.resumed (modeMotion mode)) := by
  obtain ⟨_, quiet, free⟩ := rest
  cases signal : m.pendingSignal with
  | some number =>
    refine .ended (128 + number) ?_ ?_ <;> simp [resumed, signal, quiet]
  | none =>
    cases mode with
    | «continue» => exact .going (by simp [resumed, signal, modeMotion]) (by simp [resumed, signal, quiet])
    | step t =>
      refine .stepping ?_ ?_ ?_ (step t rfl) <;> simp [resumed, signal, quiet, free, modeMotion]

theorem resumed_not_running : (m.resumed .stepping).motion ≠ .running := by
  cases signal : m.pendingSignal <;> simp [resumed, signal]

theorem resumed_registers (motion : Motion) : (m.resumed motion).registers = m.registers := by
  cases signal : m.pendingSignal <;> simp [resumed, signal]

section Sound

/-- What a session says and counts, and how its machine is driven, is all the same. -/
theorem Sound.restate (sound : Sound w s m lifted) (host : t.host = s.host)
    (debuggee : t.debuggee = some n) (traps : t.traps = s.traps) (onward : Onward m n)
    (roster : t.roster.modules = s.roster.modules) (seen : w.sees t.roster.modules t.traps n)
    (items : t.breakpoints = s.breakpoints) (stepper : t.stepper = s.stepper) :
    Sound w t n lifted where
  toHeld := (sound.toHeld.machine onward).restate debuggee traps stepper items
  host := host.trans sound.host
  executable := onward.executable.trans sound.executable
  modules := roster ▸ sound.modules
  seen := seen
  bindings := items ▸ sound.bindings
  aims := stepper ▸ sound.aims

/-- How a machine is driven does not show. -/
theorem Sound.driven (still : w.Still) (sound : Sound w s m lifted) (pending : List Event)
    (motion : Motion) (interrupt : Bool) :
    let n := { m with pending, motion, interruptRequested := interrupt }
    Sound w { s with debuggee := some n } n lifted where
  attached := rfl
  seated := ⟨sound.seated.located, sound.seated.inserted, sound.seated.present⟩
  tidy := sound.tidy
  main := sound.main
  host := sound.host
  executable := sound.executable
  modules := sound.modules
  seen := still.drive pending motion interrupt sound.seen
  bindings := sound.bindings
  aims := sound.aims

/-- Nor does what waits for it. -/
theorem Sound.drive (steady : w.Steady) (sound : Sound w s m lifted) (pending : List Event)
    (motion : Motion) (interrupt : Bool) (signal : Option Int) (threads : List ThreadId) :
    let n := { m with pending, motion, interruptRequested := interrupt
                      pendingSignal := signal, threads }
    Sound w { s with debuggee := some n } n lifted where
  attached := rfl
  seated := ⟨sound.seated.located, sound.seated.inserted, sound.seated.present⟩
  tidy := sound.tidy
  main := sound.main
  host := sound.host
  executable := sound.executable
  modules := sound.modules
  seen := steady.alter signal threads (steady.drive pending motion interrupt sound.seen)
  bindings := sound.bindings
  aims := sound.aims

theorem resumed_drive (m : Machine) (motion : Motion) : ∃ pending motion' signal threads,
    m.resumed motion = { m with pending, motion := motion', interruptRequested := m.interruptRequested
                                pendingSignal := signal, threads } := by
  obtain ⟨_, _, _, _, _, _, _, _, _, _, signal⟩ := m
  cases signal <;> exact ⟨_, _, _, _, rfl⟩

theorem Sound.resumed (steady : w.Steady) (sound : Sound w s m lifted) (motion : Motion) :
    Sound w { s with debuggee := some (m.resumed motion) } (m.resumed motion) lifted := by
  obtain ⟨pending, motion', signal, threads, same⟩ := resumed_drive m motion
  rw [same]
  exact sound.drive steady pending motion' _ signal threads

theorem Sound.leave (sound : Sound w s m lifted) : Sound w (leavePause s) m lifted :=
  { sound with toHeld := sound.toHeld.restate rfl rfl rfl rfl }

/-- The step may be given up or go on, as long as it runs to where it ran before. -/
theorem Sound.step (sound : Sound w s m lifted) {stepper : Option Stepper}
    (goal : stepper.bind (·.runningTo) = s.goal)
    (main : ∀ q, stepper = some q → q.thread = mainThread)
    (aims : ∀ q target, stepper = some q → q.pendingCall = some target → w.site target.address) :
    Sound w { s with stepper } m lifted where
  attached := sound.attached
  seated := sound.seated
  tidy := by
    show Tidy s.breakpoints s.traps ((stepper.bind (·.runningTo)).map (·.address))
    rw [goal]
    exact sound.tidy
  main := main
  host := sound.host
  executable := sound.executable
  modules := sound.modules
  seen := sound.seen
  bindings := sound.bindings
  aims q target known aim := by
    replace known : stepper = some q := known
    rcases aim with running | pending
    · have same : s.goal = some target := by rw [← goal, known]; exact running
      obtain ⟨p, before, running⟩ := Option.bind_eq_some_iff.mp same
      exact sound.aims p target before (.inl running)
    · exact aims q target known pending

theorem Sound.count (sound : Sound w s m lifted) (ids : List BreakpointId) :
    Sound w { s with breakpoints := s.breakpoints.count ids } m lifted where
  toHeld := sound.toHeld.count ids
  host := sound.host
  executable := sound.executable
  modules := sound.modules
  seen := sound.seen
  bindings b member a bound := by
    obtain ⟨c, before, rfl⟩ := List.mem_map.mp member
    refine sound.bindings c before a ?_
    split at bound <;> exact bound
  aims := sound.aims

end Sound

section Pause

/-- A session that pauses gives up its step, and the trap that the step was running to. -/
theorem Sound.pause (steady : w.Steady) (sound : Sound w s m none) (rest : Resting m)
    (kept : Kept s m s.stepless j none) (reason : PauseReason) :
    Ready w ((s.stepless.holding j).pause reason mainThread) none := by
  have stepless : Sound w (s.stepless.holding j) j.debuggee none :=
    sound.kept steady kept rfl rfl (fun b member => ⟨b, member, rfl⟩) fun q _ h => by cases h
  refine .paused ?_ (rest.painted kept.paint) rfl (show _ = RunState.paused reason _ from rfl)
  exact { stepless with toHeld := stepless.toHeld.restate rfl rfl rfl rfl }

theorem pauseAt_ready (steady : w.Steady) (sound : Sound w s m none) (rest : Resting m)
    (reason : PauseReason) : Fares w (pauseAt reason mainThread s) := by
  obtain ⟨j, done, kept⟩ := pauseAt_spec sound.toHeld reason mainThread
  rw [done]
  exact sound.pause steady rest kept reason

end Pause

section Notices

/-- Notices change neither how a session runs nor its step. -/
structure Unmoved (s t : Session Machine) : Prop where
  host : t.host = s.host
  state : t.state = s.state
  stepper : t.stepper = s.stepper

theorem Noticed.unmoved {e : Event} (noticed : Noticed s e t) : Unmoved s t := by
  cases noticed <;> exact ⟨rfl, rfl, rfl⟩

/-- What is known of the modules, the breakpoints and the machine of a session. -/
structure Informed (w : Sight) (s : Session Machine) (ts : Traps) (m : Machine) : Prop where
  host : s.host = w.host
  modules : ∀ l ∈ s.roster.modules, w.Known l
  bindings : ∀ b ∈ s.breakpoints.items, ∀ a, b.address? = some a → w.site a
  seen : w.sees s.roster.modules ts m

theorem Sound.informed (sound : Sound w s m lifted) : Informed w s s.traps m :=
  ⟨sound.host, sound.modules, sound.bindings, sound.seen⟩

theorem Noticed.informed {e : Event} {ts : Traps} (still : w.Still) (noticed : Noticed s e t)
    (known : Notice w.program e) (informed : Informed w s ts m) : Informed w t ts m := by
  cases noticed with
  | threadStarted | threadEnded | output =>
    exact ⟨informed.host, informed.modules, informed.bindings, informed.seen⟩
  | moduleLoaded path base size _ items _ each =>
    have loaded : w.Known ⟨path, base, size, s.host.symbols path⟩ :=
      ⟨path, base, size, known, by rw [Sight.loaded, ← informed.host]⟩
    refine ⟨informed.host, fun l member => ?_, fun c member a bound => ?_,
      still.load loaded informed.seen⟩
    · rcases List.mem_append.mp member with before | last
      · exact informed.modules l (List.mem_filter.mp before).1
      · cases List.mem_singleton.mp last
        exact loaded
    · obtain ⟨b, before, now⟩ := origin_of_forall₂ each c member
      cases now with
      | same => exact informed.bindings c before a bound
      | now binding registered unbound found =>
        cases Option.some.inj bound
        exact still.bind loaded found

theorem Noted.unmoved {notices : List Event} (noted : Noted s notices t) : Unmoved s t := by
  induction noted with
  | none s => exact ⟨rfl, rfl, rfl⟩
  | next j noticed _ ih =>
    have first := noticed.unmoved
    exact ⟨ih.host.trans first.host, ih.state.trans first.state, ih.stepper.trans first.stepper⟩

theorem Noted.informed {notices : List Event} {ts : Traps} (steady : w.Steady)
    (noted : Noted s notices t) (known : ∀ e ∈ notices, Notice w.program e)
    (informed : Informed w s ts m) : Informed w t ts m := by
  induction noted with
  | none s => exact informed
  | @next s t u e rest j noticed _ ih =>
    have after := noticed.informed steady.toStill (known e List.mem_cons_self) informed
    exact ih (fun e member => known e (List.mem_cons_of_mem _ member))
      ⟨after.host, after.modules, after.bindings, after.seen⟩

theorem Unmoved.stepping (unmoved : Unmoved s t) : t.Stepping ↔ s.Stepping := by
  rw [Stepping, Stepping, unmoved.stepper]

theorem Unmoved.fit (unmoved : Unmoved s t) {mode : ResumeMode} (fit : s.Fit mode) : t.Fit mode :=
  fun u h => ⟨(fit u h).1, unmoved.stepping.mpr (fit u h).2⟩

/-- Notices that have been taken, after which all traps are back in their places. -/
structure Settled (w : Sight) (s : Session Machine) (m : Machine) (t : Session Machine)
    (n : Machine) : Prop where
  sound : Sound w t n none
  unmoved : Unmoved s t
  paint : Repaint ⟨s.traps, m⟩ ⟨t.traps, n⟩

/-- The machine may be another one by now than the one that took the notices. -/
theorem settled {u : Session Machine} {pc : UInt64} {notices : List Event} (steady : w.Steady)
    (sound : Sound w s m (some pc)) (known : ∀ e ∈ notices, Notice w.program e)
    (noted : Noted (s.holding j) notices u) (paint : Repaint ⟨s.traps, m⟩ ⟨u.traps, n⟩)
    (held : Held { u with debuggee := some n } n none) :
    Settled w s m { u with debuggee := some n } n := by
  have informed := noted.informed steady known ⟨sound.host, sound.modules, sound.bindings, sound.seen⟩
  obtain ⟨host, state, stepper⟩ := noted.unmoved
  obtain ⟨_, _, _, same⟩ := paint.rest
  refine ⟨⟨held, informed.host, ?_, informed.modules, steady.paint paint informed.seen,
    informed.bindings, ?_⟩, ⟨host, state, stepper⟩, paint⟩
  · rw [show n = _ from same]
    exact sound.executable
  · show ∀ q target, u.stepper = some q → _
    rw [stepper]
    exact sound.aims

theorem with_debuggee (attached : t.debuggee = some n) : { t with debuggee := some n } = t := by
  rw [← attached]

end Notices

section Moves

theorem handle_notice_ready {e : Event} (steady : w.Steady) (known : Notice w.program e)
    (sound : Sound w s m none) (running : s.state = .running) (moving : Moving s.Stepping m) :
    Fares w (advance (.handle e) s) := by
  obtain ⟨t, j, done, noticed, kept⟩ := handle_notice sound.toHeld known
  have unmoved := noticed.unmoved
  obtain ⟨_, _, _, same⟩ := kept.paint.rest
  have informed := noticed.informed steady.toStill known sound.informed
  have after : Sound w (t.holding j) j.debuggee none := by
    refine ⟨kept.held, informed.host, same ▸ sound.executable, informed.modules,
      steady.paint kept.paint informed.seen, informed.bindings, ?_⟩
    show ∀ q target, t.stepper = some q → _
    rw [unmoved.stepper]
    exact sound.aims
  rw [done]
  exact .running after (unmoved.state.trans running)
    ((moving.painted kept.paint).mono unmoved.stepping.mpr)

theorem hitTrap_ready {a : UInt64} (steady : w.Steady) (sound : Sound w s m none)
    (rest : Resting m) (running : s.state = .running) : Fares w (hitTrap mainThread a s) := by
  by_cases enabled : s.breakpoints.anyEnabled (s.traps.users a) = true
  · obtain ⟨j, done, kept⟩ := hitTrap_enabled sound.toHeld enabled
    rw [done]
    exact (sound.count _).pause steady rest ⟨kept.paint, kept.held⟩ .breakpoint
  · replace enabled : s.breakpoints.anyEnabled (s.traps.users a) = false := by simpa using enabled
    by_cases here : ∃ target, s.goal = some target ∧ target.address = a ∧
        m.registers.sp = target.sp
    · obtain ⟨target, aim, address, sp⟩ := here
      obtain ⟨q, stepper, running'⟩ := Option.bind_eq_some_iff.mp aim
      obtain ⟨j, done, kept⟩ := hitTrap_goal sound.toHeld enabled aim address sp
      have aimless : s.aimless.stepper = some { q with runningTo := none } := by
        simp [Session.aimless, stepper]
      have after : Sound w (s.aimless.holding j) j.debuggee none := by
        refine sound.kept steady kept rfl rfl (fun b member => ⟨b, member, rfl⟩) ?_
        intro p target known aim
        rw [aimless] at known
        cases known
        exact sound.aims q target stepper (.inr (aim.resolve_left (by simp)))
      rw [done]
      exact .arrived after (rest.painted kept.paint) (.inl running) ⟨_, aimless, rfl⟩
    · have elsewhere : ∀ target, s.goal = some target → target.address = a →
          m.registers.sp ≠ target.sp :=
        fun target aim address sp => here ⟨target, aim, address, sp⟩
      rw [hitTrap_through sound.toHeld enabled elsewhere]
      exact .resume sound rest (.inl running) fun t h => by cases h

theorem handle_stop_ready {e : Event} (steady : w.Steady) (stop : Stop w s m e)
    (rest : Resting m) (running : s.state = .running) : Fares w (advance (.handle e) s) := by
  cases stop with
  | interrupt pc sound =>
    rw [handle_interrupt]
    exact pauseAt_ready steady sound rest .forcedBreak
  | signal number description sound =>
    rw [handle_signal]
    exact pauseAt_ready steady sound rest .exception
  | own none sound =>
    rw [handle_break none]
    exact pauseAt_ready steady sound rest .break
  | hit laid attached sound =>
    rw [handle_hit attached laid]
    exact hitTrap_ready steady sound ⟨rest.motion, rest.quiet, rest.free⟩ running

theorem exit_idle (s : Session Machine) (code : Option Int) (fault : Option Fault) :
    (s.exit code fault).Idle := by
  right
  rw [exit]
  cases s.output.flush <;> rfl

theorem handle_exit_ready (code : Int) (held : Held s m lifted) (host : s.host = w.host) :
    Fares w (advance (.handle (.exited code)) s) := by
  rw [handle_exit]
  refine .idle (exit_spec held.seated held.tidy (some code) none) ?_ ?_
  · rw [← host, exit]
    cases s.output.flush <;> rfl
  · exact exit_idle s (some code) none

theorem Resting.alive (rest : Resting m) : m.motion ≠ .exited := by
  rw [rest.motion]
  decide

theorem resume_ready {mode : ResumeMode} (steady : w.Steady) (sound : Sound w s m none)
    (rest : Resting m) (fit : s.Fit mode) : Fares w (advance (.resume mainThread mode) s) := by
  have main : ∀ t, mode = .step t → t = mainThread := fun t h => (fit t h).1
  by_cases trapped : s.traps.contains m.registers.pc = true
  · obtain ⟨j, done, kept⟩ := resume_trapped mode sound.toHeld rest.alive trapped
    have lifted : Sound w ((leavePause s).holding j) j.debuggee (some m.registers.pc) :=
      sound.leave.kept steady ⟨kept.paint, kept.held⟩ rfl rfl (fun b member => ⟨b, member, rfl⟩) sound.aims
    have moving := moving_resumed (.step mainThread) (rest.painted kept.paint)
      fun t _ => True.intro
    have here : (j.debuggee.resumed .stepping).registers.pc = m.registers.pc := by
      rw [resumed_registers, (driven kept.paint).2.2.2]
    rw [done]
    exact .await (lifted.resumed steady .stepping) moving resumed_not_running (fun _ => here) rfl
      (by simp) fit
  · rw [resume_free sound.attached rest.alive main (by simpa using trapped)]
    exact .running (sound.leave.resumed steady _) rfl (moving_resumed mode rest fun t h => (fit t h).2)

/-- What an instruction has reported, and what is known of the machine afterwards. -/
inductive Heard (w : Sight) (s : Session Machine) (m : Machine) (lifted : Option UInt64)
    (n : Machine) : Bool → Event → Prop
  | notice {e : Event} : Notice w.program e → n.motion = m.motion →
      Sound w { s with debuggee := some n } n lifted → Heard w s m lifted n false e
  | trap : n.motion = .stopped → n.registers.pc - 1 = m.registers.pc →
      Sound w { s with debuggee := some (standing n (n.registers.pc - 1)) }
        (standing n (n.registers.pc - 1)) lifted →
      ((∀ t, s.traps.find? m.registers.pc = some t → t.byte.inserted = false) →
        Sound w { s with debuggee := some n } n lifted) →
      Heard w s m lifted n true (.trap mainThread n.registers.pc .software)
  | signal (number : Int) (description : String) : n.motion = .stopped →
      Sound w { s with debuggee := some n } n lifted →
      Heard w s m lifted n true (.signal mainThread number description)
  | exit (code : Int) : n.motion = .exited → Held { s with debuggee := some n } n lifted →
      Heard w s m lifted n true (.exited code)

theorem Sound.execute {b : Bool} {l : Machine} (steady : w.Steady) (sound : Sound w s m lifted)
    (done : execute m = (.ok b, l)) (going : ∀ code, l.pending ≠ m.pending ++ [.exited code])
    (pending : List Event) :
    (l = m.trapped ∧ ∃ t, s.traps.find? m.registers.pc = some t ∧ t.byte.inserted = true) ∨
      Sound w { s with debuggee := some { l with pending } } { l with pending } lifted := by
  have seated (a : UInt64) (present : s.traps.contains a = true) :
      w.site a ∧ ∃ spot, m.locate a 1 = .ok spot := by
    obtain ⟨t, found⟩ := contains_iff.mp present
    exact ⟨sound.site present, sound.seated.located a t found⟩
  refine (steady.execute sound.executable seated sound.seen done).imp id fun seen => ?_
  replace seen := seen.resolve_left fun ⟨code, exits⟩ => going code exits
  have onward := onward_execute m
  rw [done] at onward
  exact (sound.restate (t := { s with debuggee := some l }) rfl rfl rfl onward rfl seen rfl rfl).drive
    steady pending l.motion l.interruptRequested l.pendingSignal l.threads

theorem heard {b : Bool} {l : Machine} {e : Event} (steady : w.Steady)
    (sound : Sound w s m lifted) (quiet : m.pending = []) (done : execute m = (.ok b, l))
    (one : l.pending = [e]) : Heard w s m lifted { l with pending := [] } b e := by
  have onward : Onward m { l with pending := [] } := by
    have onward := onward_execute m
    rw [done] at onward
    exact ⟨onward.executable, onward.code, onward.stack, onward.heap, onward.interrupt⟩
  have next (going : ∀ code, e ≠ .exited code) := sound.execute steady done (by
    intro code exits
    rw [one, quiet] at exits
    exact going code (List.singleton_inj.mp exits)) []
  rcases execute_report done with ⟨rfl, rfl⟩ | report
  · cases (List.append_eq_singleton_iff.mp one).elim And.right (by simp [quiet])
    have back : (m.trapped.registers.pc - 1) = m.registers.pc := by simp [trapped]
    refine .trap rfl back ?_ fun up => (next (by simp)).resolve_left ?_
    · have same : standing { m.trapped with pending := [] } (m.trapped.registers.pc - 1) =
          { m with pending := [], motion := .stopped } := by
        rw [back]
        rfl
      show Sound w { s with debuggee := some (standing { m.trapped with pending := [] } _) } _ _
      rw [same]
      exact sound.drive steady [] .stopped m.interruptRequested m.pendingSignal m.threads
    · rintro ⟨_, t, found, inserted⟩
      simp [up t found] at inserted
  · cases report with
    | nothing none motion => simp [none, quiet] at one
    | notice e' known pending motion =>
      cases (by simpa [pending, quiet] using one : e' = e)
      refine .notice (sound.executable ▸ known) motion ((next ?_).resolve_left ?_)
      · intro code
        cases known <;> simp
      rintro ⟨rfl, _⟩
      have event := List.append_cancel_left pending
      cases known <;> simp at event
    | signal number description pending _ motion =>
      cases (by simpa [pending, quiet] using one : Event.signal mainThread number description = e)
      refine .signal number description motion ((next (by simp)).resolve_left ?_)
      rintro ⟨rfl, _⟩
      have event := List.append_cancel_left pending
      simp at event
    | exit code pending motion =>
      cases (by simpa [pending, quiet] using one : Event.exited code = e)
      exact .exit code motion (sound.toHeld.machine onward)

section Lifted

variable {pc : UInt64} {mode : ResumeMode} {notices : List Event}

theorem afterLift_single_ready (steady : w.Steady) (sound : Sound w s m (some pc))
    (rest : Resting m) (running : s.state = .running) (known : ∀ e ∈ notices, Notice w.program e)
    (fit : s.Fit mode) (at_ : UInt64) :
    Fares w (afterLift mainThread pc mode notices (.trap mainThread at_ .singleStep) s) := by
  obtain ⟨j, u, n, noted, paint, held, done⟩ := afterLift_single mode known sound.toHeld at_
  have whole := with_debuggee held.attached
  have after := settled steady sound known noted paint (whole.symm ▸ held)
  rw [whole] at after
  have still : u.state = .running := after.unmoved.state.trans running
  have calm := rest.painted after.paint
  have fits := after.unmoved.fit fit
  rw [done]
  by_cases single : mode = .step mainThread
  · rw [if_pos single]
    exact .stepped after.sound calm (.inl still) (fits mainThread single).2
  · have resumed := access_resume mode held.attached calm.alive fun t h => (fit t h).1
    rw [if_neg single, bind_ok resumed, pure_run]
    exact .running (after.sound.resumed steady _) still
      (moving_resumed mode calm fun t h => absurd ((fit t h).1 ▸ h) single)

/-- Putting a thread somewhere is no painting. -/
theorem repaint_standing {ts us : Traps} (paint : Repaint ⟨ts, m⟩ ⟨us, n⟩) (a : UInt64) :
    Repaint ⟨ts, standing m a⟩ ⟨us, standing n a⟩ := by
  obtain ⟨⟨code, stack, heap, same⟩, sizes, laid⟩ := paint
  replace same : n = { m with code, stack, heap } := same
  refine ⟨⟨code, stack, heap, by rw [same]; rfl⟩, fun r => ?_, fun d x worn painted => ?_⟩
  · have size := sizes r
    cases r <;> exact size
  · have before : m = d.on { x with registers := m.registers } := by
      obtain ⟨_, _, _, _, _, _, _, _, _, _, _⟩ := m
      obtain ⟨_, _, _, _, _, _, _, _, _, _, _⟩ := x
      simp only [standing, Dress.on, Machine.mk.injEq] at worn ⊢
      simp_all
    obtain ⟨spots, after, laid⟩ := laid d _ before ⟨painted.spot_iff, painted.covered⟩
    replace worn : standing m a = d.on x := worn
    have registers : (standing m a).registers = x.registers := by rw [worn]; rfl
    refine ⟨spots, ?_, ⟨laid.spot_iff, laid.covered⟩⟩
    replace after : n = Dress.on { d with spots } { x with registers := m.registers } := after
    show standing n a = _
    rw [after]
    simp only [standing, Dress.on, Machine.mk.injEq, and_self, true_and, and_true]
    exact registers

theorem held_standing (held : Held s m lifted) (a : UInt64) :
    Held { s with debuggee := some (standing m a) } (standing m a) lifted :=
  held.machine ⟨rfl, rfl, rfl, Nat.le_refl _, rfl⟩

theorem afterLift_trap_ready (steady : w.Steady)
    (behind : Sound w { s with debuggee := some n } n (some pc))
    (back : Sound w { s with debuggee := some (standing n (n.registers.pc - 1)) }
      (standing n (n.registers.pc - 1)) (some pc)) (rest : Resting n)
    (running : s.state = .running) (known : ∀ e ∈ notices, Notice w.program e) :
    Fares w (afterLift mainThread pc mode notices (.trap mainThread n.registers.pc .software)
      { s with debuggee := some n }) := by
  obtain ⟨j, u, k, noted, paint, held, done⟩ := afterLift_stop mode
    (e := .trap mainThread n.registers.pc .software) known behind.toHeld rfl (by simp)
  have whole := with_debuggee held.attached
  have after := settled steady behind known noted paint (whole.symm ▸ held)
  rw [whole] at after
  have pc : k.registers.pc = n.registers.pc :=
    congrArg Registers.pc (driven (s := { s with debuggee := some n }) paint).2.2.2
  have there := settled (s := { s with debuggee := some (standing n (n.registers.pc - 1)) })
    steady back known noted (repaint_standing paint _) (held_standing held (n.registers.pc - 1))
  rw [done, ← pc]
  refine .stop ?_ (rest.painted paint) (after.unmoved.state.trans running)
  by_cases laid : u.traps.contains (k.registers.pc - 1) = true
  · exact .hit laid held.attached (by rw [pc]; exact there.sound)
  · exact .own (by simpa using laid) after.sound

theorem afterLift_signal_ready (steady : w.Steady) (sound : Sound w s m (some pc))
    (rest : Resting m) (running : s.state = .running) (known : ∀ e ∈ notices, Notice w.program e)
    (number : Int) (description : String) :
    Fares w (afterLift mainThread pc mode notices (.signal mainThread number description) s) := by
  obtain ⟨j, u, n, noted, paint, held, done⟩ := afterLift_stop mode
    (e := .signal mainThread number description) known sound.toHeld rfl (by simp)
  have whole := with_debuggee held.attached
  have after := settled steady sound known noted paint (whole.symm ▸ held)
  rw [whole] at after
  rw [done]
  exact .stop (.signal number description after.sound) (rest.painted paint)
    (after.unmoved.state.trans running)

theorem afterLift_exit_ready (held : Held s m (some pc)) (host : s.host = w.host)
    (running : s.state = .running) (known : ∀ e ∈ notices, Notice w.program e) (code : Int) :
    Fares w (afterLift mainThread pc mode notices (.exited code) s) := by
  obtain ⟨u, n, noted, paint, after, done⟩ := afterLift_exit mode known held code
  rw [done]
  exact .exit code after (noted.unmoved.host.trans host) (.inl (noted.unmoved.state.trans running))

theorem Sound.onward (sound : Sound w s m lifted) (onward : Onward m n) :
    Failing w { s with debuggee := some n } ↔ s.Live :=
  ⟨fun failing => failing.2.1, fun live => ⟨sound.host, live, n, lifted, sound.toHeld.machine onward⟩⟩

theorem await_ready (steady : w.Steady) (sound : Sound w s m (some pc)) (moving : Moving True m)
    (fresh : m.motion ≠ .running) (here : m.motion = .stepping → m.registers.pc = pc)
    (running : s.state = .running) (known : ∀ e ∈ notices, Notice w.program e)
    (fit : s.Fit mode) : Fares w (advance (.await mainThread pc mode notices) s) := by
  have up : m.motion = .stepping →
      ∀ t, s.traps.find? m.registers.pc = some t → t.byte.inserted = false := by
    intro stepping t found
    rw [here stepping] at found
    simpa using sound.seated.inserted pc t found
  cases moving with
  | going running' => exact absurd running' fresh
  | stepped stopped pending free =>
    rw [await_stop sound.attached (poll_pending pending) rfl]
    exact afterLift_single_ready steady
      (sound.drive steady [] m.motion m.interruptRequested m.pendingSignal m.threads)
      ⟨stopped, rfl, free⟩ running known fit m.registers.pc
  | ended code exited pending =>
    rw [await_stop sound.attached (poll_pending pending) rfl]
    exact afterLift_exit_ready (w := w)
      (sound.drive steady [] m.motion m.interruptRequested m.pendingSignal m.threads).toHeld
      sound.host running known code
  | stepping motion quiet free =>
    have onward := onward_execute m
    have polled := poll_stepping motion quiet
    rcases looked : poll m with ⟨r, n⟩
    rw [looked] at polled
    cases polled with
    | failure failed =>
      rw [failed] at onward
      rw [await_failure sound.attached looked]
      exact (sound.onward onward).mpr (.inl running)
    | @nothing l done none =>
      rw [done] at onward
      rw [await_stop sound.attached looked rfl]
      have next := (sound.execute steady done (by simp [none]) []).resolve_left (by
        rintro ⟨rfl, _⟩
        simp [trapped] at none)
      exact afterLift_single_ready steady
        (next.drive steady [] .stopped l.interruptRequested l.pendingSignal l.threads)
        ⟨rfl, rfl, onward.interrupt.trans free⟩ running known fit l.registers.pc
    | @notice l e done notice one =>
      rw [done] at onward
      rw [await_notice sound.attached looked notice.not_stop.1 notice.not_stop.2]
      have next := (sound.execute steady done (by
        intro code exits
        rw [one, quiet] at exits
        cases List.singleton_inj.mp exits
        cases notice) []).resolve_left (by
          rintro ⟨rfl, _⟩
          rw [trapped, quiet] at one
          cases List.cons.inj one |>.1
          cases notice)
      have stepped := next.drive steady [.trap mainThread l.registers.pc .singleStep] .stopped
        l.interruptRequested l.pendingSignal l.threads
      refine .await stepped (.stepped rfl rfl (onward.interrupt.trans free) True.intro) ?_ ?_
        running ?_ fit
      · simp
      · simp
      · intro d member
        rcases List.mem_append.mp member with before | last
        · exact known d before
        · cases List.mem_singleton.mp last
          exact sound.executable ▸ notice
    | @stop l e done one =>
      rw [done] at onward
      have free : l.interruptRequested = false := onward.interrupt.trans free
      cases heard steady sound quiet done one with
      | trap stopped back behind ahead =>
        rw [await_stop sound.attached looked rfl]
        exact afterLift_trap_ready steady (ahead (up motion)) behind ⟨stopped, rfl, free⟩ running
          known
      | signal number description stopped after =>
        rw [await_stop sound.attached looked rfl]
        exact afterLift_signal_ready steady after ⟨stopped, rfl, free⟩ running known number
          description
      | exit code exited after =>
        rw [await_stop sound.attached looked rfl]
        exact afterLift_exit_ready after sound.host running known code

end Lifted

section Steps

theorem stepped_ready (steady : w.Steady) (sound : Sound w s m none) (rest : Resting m)
    (live : s.Live) (stepping : s.Stepping) (pc : UInt64) :
    Fares w (advance (.stepped mainThread pc) s) := by
  obtain ⟨q, stepper, aimless⟩ := stepping
  by_cases enabled : s.breakpoints.anyEnabled (s.traps.users pc) = true
  · obtain ⟨j, done, kept⟩ := stepped_enabled sound.toHeld stepper enabled
    rw [done]
    exact (sound.count _).pause steady rest ⟨kept.paint, kept.held⟩ .breakpoint
  · rw [stepped_disabled sound.toHeld stepper (by simpa using enabled)]
    exact .arrived sound rest live ⟨q, stepper, aimless⟩

/-- A judgement forgets the call that was noted, and nothing else. -/
theorem judged_stepper (s : Session Machine) (m : Machine) (q : Stepper) :
    (s.judged m q).2 = { q with pendingCall := none } := by
  rw [judged, Stepper.arrived]
  cases q.pendingCall with
  | none => rfl
  | some back =>
    dsimp only
    split <;> rfl

/-- Only a noted call leads to a run. -/
theorem judged_run {q : Stepper} {target : Target} (run : (s.judged m q).1 = .runTo target) :
    q.pendingCall = some target := by
  rw [judged, Stepper.arrived] at run
  have never (rested : Stepper) (regs : Registers) (frame : UInt64) (line : Option CodeRange) :
      rested.judge regs frame line ≠ .runTo target := by
    rw [Stepper.judge.eq_def]
    split
    · split <;> simp
    · split
      · simp
      · cases line with
        | none => simp
        | some l =>
          dsimp only
          split <;> simp
  cases pending : q.pendingCall with
  | none => rw [pending] at run; exact absurd run (never _ _ _ _)
  | some back =>
    rw [pending] at run
    dsimp only at run
    split at run
    · exact absurd run (never _ _ _ _)
    · exact congrArg some (Arrival.runTo.inj run)

theorem arrived_ready (sound : Sound w s m none) (rest : Resting m)
    (live : s.Live) (stepping : s.Stepping) : Fares w (advance (.arrived mainThread) s) := by
  obtain ⟨q, stepper, aimless⟩ := stepping
  have goal : s.goal = none := by simp [Session.goal, stepper, aimless]
  have main := sound.main q stepper
  rw [arrived_run sound.attached stepper]
  have rested := judged_stepper s m q
  have next : Sound w { s with stepper := some (s.judged m q).2 } m none := by
    refine sound.step ?_ ?_ ?_
    · rw [goal, rested]
      exact aimless
    · rintro p ⟨⟩
      rw [rested]
      exact main
    · rintro p target ⟨⟩ pending
      rw [rested] at pending
      cases pending
  have going : Stepping { s with stepper := some (s.judged m q).2 } :=
    ⟨_, rfl, by rw [rested]; exact aimless⟩
  cases judgement : (s.judged m q).1 with
  | complete =>
    have stepless : Sound w s.stepless m none :=
      sound.step goal.symm (fun p h => by cases h) fun p _ h => by cases h
    exact .paused { stepless with toHeld := stepless.toHeld.restate rfl rfl rfl rfl } rest rfl
      (show _ = RunState.paused .stepComplete _ from rfl)
  | «continue» => exact .act next rest live going
  | runTo target =>
    exact .runTo next rest live going (sound.aims q target stepper (.inr (judged_run judgement)))
  | stepOutAgain => exact .stepOut next rest live going

theorem act_ready (lasting : w.Lasting) (sound : Sound w s m none) (rest : Resting m)
    (live : s.Live) (stepping : s.Stepping) : Fares w (advance (.act mainThread) s) := by
  obtain ⟨q, stepper, aimless⟩ := stepping
  cases decoded : Instrumented.decode s.traps m m.registers.pc with
  | error e =>
    rw [act_failure sound.attached decoded]
    exact ⟨sound.host, live, m, none, sound.toHeld⟩
  | ok i =>
    have back : w.site i.next := lasting.call sound.seen decoded
    rw [act_run sound.attached stepper decoded]
    have next (p : Stepper) (running : p.runningTo = q.runningTo) (thread : p.thread = q.thread)
        (pending : p.pendingCall = q.pendingCall ∨ p.pendingCall = some ⟨i.next, m.registers.sp⟩) :
        Sound w { s with stepper := some p } m none := by
      refine sound.step ?_ ?_ ?_
      · simp [Session.goal, stepper, running]
      · rintro _ ⟨⟩
        exact thread.trans (sound.main q stepper)
      · rintro _ target ⟨⟩ noted
        rcases pending with same | fresh
        · exact sound.aims q target stepper (.inr (same ▸ noted))
        · cases fresh.symm.trans noted
          exact back
    have single (p : Stepper) (running : p.runningTo = q.runningTo) (thread : p.thread = q.thread)
        (pending : p.pendingCall = q.pendingCall ∨ p.pendingCall = some ⟨i.next, m.registers.sp⟩) :
        Fares w (.ok (some (.resume mainThread (.step mainThread))), { s with stepper := some p }) :=
      .resume (next p running thread pending) rest live fun t h =>
        ⟨by cases h; rfl, p, rfl, running.trans aimless⟩
    by_cases call : i.kind = .call
    · cases kind : q.kind with
      | «over» =>
        simp only [Stepper.nextAction, call, kind, ne_eq, not_true_eq_false, if_false]
        exact .runTo (next q rfl rfl (.inl rfl)) rest live ⟨q, rfl, aimless⟩ back
      | into | out =>
        simp only [Stepper.nextAction, call, kind, ne_eq, not_true_eq_false, if_false]
        exact single _ rfl rfl (.inr rfl)
    · simp only [Stepper.nextAction, ne_eq, call, not_false_eq_true, if_true]
      exact single q rfl rfl (.inl rfl)

theorem stepOut_ready (lasting : w.Lasting) (sound : Sound w s m none) (rest : Resting m)
    (live : s.Live) (stepping : s.Stepping) : Fares w (advance (.stepOut mainThread) s) := by
  obtain ⟨q, stepper, aimless⟩ := stepping
  have goal : s.goal = none := by simp [Session.goal, stepper, aimless]
  rw [stepOut_run sound.attached]
  cases found : (s.twoFrames m)[1]? with
  | none =>
    exact .resume (sound.step goal.symm (fun p h => by cases h) fun p _ h => by cases h) rest live
      fun t h => by cases h
  | some caller =>
    exact .runTo sound rest live ⟨q, stepper, aimless⟩ (lasting.caller sound.modules (fun a h => sound.site h) sound.seen found)

theorem runTo_ready {target : Target} (steady : w.Steady) (sound : Sound w s m none)
    (rest : Resting m) (live : s.Live) (stepping : s.Stepping) (site : w.site target.address) :
    Fares w (advance (.runTo mainThread target) s) := by
  obtain ⟨q, stepper, aimless⟩ := stepping
  rcases runTo_spec target sound.toHeld stepper aimless with
    ⟨e, _, failed, _⟩ | ⟨j, done, kept⟩
  · rw [failed]
    exact ⟨sound.host, live, m, none, sound.toHeld⟩
  · rw [done]
    refine .resume ?_ (rest.painted kept.paint) live fun t h => by cases h
    refine sound.kept steady kept rfl rfl (fun b member => ⟨b, member, rfl⟩) ?_
    rintro p aim ⟨⟩ (run | pending)
    · cases run
      exact site
    · exact sound.aims q aim stepper (.inr pending)

end Steps

end Moves

/-- Every move of a ready session leaves it ready, or meets a fault. -/
theorem advance_ready {move : Move} (lasting : w.Lasting) (ready : Ready w s (some move)) :
    Fares w (advance move s) := by
  cases ready with
  | notice known sound running moving => exact handle_notice_ready lasting.toSteady known sound running moving
  | stop stop rest running => exact handle_stop_ready lasting.toSteady stop rest running
  | single sound rest running stepping =>
    rw [handle_singleStep]
    exact .stepped sound rest (.inl running) stepping
  | exit code held host live => exact handle_exit_ready code held host
  | resume sound rest live fit => exact resume_ready lasting.toSteady sound rest fit
  | await sound moving fresh here running known fit =>
    exact await_ready lasting.toSteady sound moving fresh here running known fit
  | stepped sound rest live stepping => exact stepped_ready lasting.toSteady sound rest live stepping _
  | arrived sound rest live stepping => exact arrived_ready sound rest live stepping
  | act sound rest live stepping => exact act_ready lasting sound rest live stepping
  | stepOut sound rest live stepping => exact stepOut_ready lasting sound rest live stepping
  | runTo sound rest live stepping site => exact runTo_ready lasting.toSteady sound rest live stepping site

end Session

end SourceDebugger
