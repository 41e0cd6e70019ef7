import SourceDebugger.Proofs.Session.Held
/-!
The moves of a session that holds a machine, one by one. Each either fails in a way that is named,
or its result is written out: what is left to be done, and the session up to a repaint.
-/
namespace SourceDebugger

namespace Session

open Effect Machine Traps

variable {s : Session Machine} {m : Machine}

theorem Held.machine {n : Machine} {lifted : Option UInt64} (held : Held s m lifted)
    (onward : Onward m n) : Held { s with debuggee := some n } n lifted where
  attached := rfl
  seated := ⟨fun a t found => (held.seated.located a t found).imp fun _ => locate_onward onward,
    held.seated.inserted, held.seated.present⟩
  tidy := held.tidy
  main := held.main

/-- Nothing a session says or counts matters for what it holds. -/
theorem Held.restate {t : Session Machine} {lifted : Option UInt64} (held : Held s m lifted)
    (debuggee : t.debuggee = s.debuggee) (traps : t.traps = s.traps)
    (stepper : t.stepper = s.stepper) (breakpoints : t.breakpoints = s.breakpoints) :
    Held t m lifted where
  attached := debuggee.trans held.attached
  seated := traps ▸ held.seated
  tidy := by rw [breakpoints, traps, goal, stepper]; exact held.tidy
  main := stepper ▸ held.main

/-- Hits are counted without a trace in the bindings. -/
theorem Held.count {lifted : Option UInt64} (held : Held s m lifted) (ids : List BreakpointId) :
    Held { s with breakpoints := s.breakpoints.count ids } m lifted where
  attached := held.attached
  seated := held.seated
  tidy := held.tidy.alike (fun b => by split <;> rfl) (fun b => by split <;> rfl)
    fun b => by split <;> rfl
  main := held.main

theorem handle_notice {p : Executable} {e : Event} (held : Held s m none) (known : Notice p e) :
    ∃ t j, advance (.handle e) s = (.ok none, t.holding j) ∧ Noticed s e t ∧ Kept s m t j none := by
  obtain ⟨t, j, done, noticed, kept⟩ := notice_spec held known
  refine ⟨t, j, ?_, noticed, kept⟩
  cases known <;>
  · rw [advance, handleEvent, bind_ok done]
    · rfl
    all_goals simp

theorem handle_exit (code : Int) :
    advance (.handle (.exited code)) s = (.ok none, s.exit (some code) none) := rfl

theorem handle_singleStep (thread : ThreadId) (pc : UInt64) :
    advance (.handle (.trap thread pc .singleStep)) s = (.ok (some (.stepped thread pc)), s) := rfl

theorem handle_interrupt (thread : ThreadId) (pc : UInt64) :
    advance (.handle (.trap thread pc .interrupt)) s = pauseAt .forcedBreak thread s := rfl

theorem handle_signal (thread : ThreadId) (number : Int) (description : String) :
    advance (.handle (.signal thread number description)) s = pauseAt .exception thread s := rfl

/-- A trap instruction of the program's own. -/
theorem handle_break {pc : UInt64} (own : s.traps.contains (pc - 1) = false) :
    advance (.handle (.trap mainThread pc .software)) s = pauseAt .break mainThread s := by
  rw [advance, handleEvent, handleTrap, bind_ok (get_run s), ite_run, if_neg (by simp [own])]

/-- The machine with its thread put somewhere. -/
def standing (m : Machine) (pc : UInt64) : Machine :=
  { m with registers := { m.registers with pc } }

/-- Where a trap was hit, the thread is put back onto it. -/
theorem handle_hit {pc : UInt64} (attached : s.debuggee = some m)
    (laid : s.traps.contains (pc - 1) = true) :
    advance (.handle (.trap mainThread pc .software)) s =
      hitTrap mainThread (pc - 1) { s with debuggee := some (standing m (pc - 1)) } := by
  have put : access (Debuggee.setRegisters mainThread { m.registers with pc := pc - 1 }) s =
      (.ok (), { s with debuggee := some (standing m (pc - 1)) }) := by
    rw [access_run attached]
    rfl
  rw [advance, handleEvent, handleTrap, bind_ok (get_run s), ite_run, if_pos laid,
    bind_ok (registers_run attached), bind_ok put]

theorem waiting_eq (main : ∀ p, s.stepper = some p → p.thread = mainThread) :
    (s.stepper.filter (·.thread = mainThread)).bind (·.runningTo) = s.goal := by
  cases h : s.stepper with
  | none => simp [goal, h]
  | some p =>
    have kept : (some p).filter (fun p => decide (p.thread = mainThread)) = some p := by
      simp [Option.filter_some, main p h]
    rw [kept, goal, h]

theorem hitTrap_enabled {a : UInt64} (held : Held s m none)
    (enabled : s.breakpoints.anyEnabled (s.traps.users a) = true) :
    let t := { s with breakpoints := s.breakpoints.count (s.traps.users a) }
    ∃ j, hitTrap mainThread a s = (.ok none, (t.stepless.holding j).pause .breakpoint mainThread) ∧
      Kept s m t.stepless j none := by
  intro t
  obtain ⟨j, done, paint, after⟩ := pauseAt_spec (held.count (s.traps.users a)) .breakpoint mainThread
  refine ⟨j, ?_, paint, after⟩
  rw [hitTrap, bind_ok (get_run s), ite_run, if_pos enabled, bind_ok (modify_run _ s)]
  exact done

theorem hitTrap_through {a : UInt64} (held : Held s m none)
    (disabled : s.breakpoints.anyEnabled (s.traps.users a) = false)
    (elsewhere : ∀ target, s.goal = some target → target.address = a →
      m.registers.sp ≠ target.sp) :
    hitTrap mainThread a s = (.ok (some (.resume mainThread .continue)), s) := by
  rw [hitTrap, bind_ok (get_run s), ite_run, if_neg (by simp [disabled])]
  rw [waiting_eq held.main]
  cases aim : s.goal with
  | none => rfl
  | some target =>
    by_cases here : target.address = a
    · have other := elsewhere target aim here
      simp only [Option.filter_some, here, decide_true, if_true]
      rw [bind_ok (registers_run held.attached), ite_run, if_neg other, pure_run]
    · simp only [Option.filter_some, here, decide_false, Bool.false_eq_true, if_false]
      rfl

theorem hitTrap_goal {a : UInt64} {target : Target} (held : Held s m none)
    (disabled : s.breakpoints.anyEnabled (s.traps.users a) = false)
    (aim : s.goal = some target) (here : target.address = a) (sp : m.registers.sp = target.sp) :
    ∃ j, hitTrap mainThread a s = (.ok (some (.arrived mainThread)), s.aimless.holding j) ∧
      Kept s m s.aimless j none := by
  obtain ⟨j, done, kept⟩ := clearTarget_spec held
  refine ⟨j, ?_, kept⟩
  rw [hitTrap, bind_ok (get_run s), ite_run, if_neg (by simp [disabled])]
  rw [waiting_eq held.main, aim]
  simp only [Option.filter_some, here, decide_true, if_true]
  rw [bind_ok (registers_run held.attached), ite_run, if_pos sp, bind_ok done, pure_run]

theorem access_resume (mode : ResumeMode) (attached : s.debuggee = some m)
    (alive : m.motion ≠ .exited) (main : ∀ t, mode = .step t → t = mainThread) :
    access (Debuggee.resume mode) s =
      (.ok (), { s with debuggee := some (m.resumed (modeMotion mode)) }) := by
  have run : (Debuggee.resume mode : Access Machine Unit) m = _ := resume_run alive main
  rw [access_run attached, run]

/-- A thread that stands on no trap goes on at once. -/
theorem resume_free {mode : ResumeMode} (attached : s.debuggee = some m)
    (alive : m.motion ≠ .exited) (main : ∀ t, mode = .step t → t = mainThread)
    (free : s.traps.contains m.registers.pc = false) :
    advance (.resume mainThread mode) s = (.ok none,
      { leavePause s with debuggee := some (m.resumed (modeMotion mode)) }) := by
  have left : (leavePause s).debuggee = some m := attached
  have clear : (leavePause s).traps.contains m.registers.pc = false := free
  rw [advance, resumeThread, bind_ok (modify_run _ s), bind_ok (registers_run left),
    bind_ok (get_run _), ite_run, if_neg (by simp [clear]), bind_ok (access_resume mode left alive main),
    pure_run]

/-- A thread that stands on a trap is stepped over it first. -/
theorem resume_lifted (mode : ResumeMode) {j : Instrumented Machine} (attached : s.debuggee = some m)
    (trapped : s.traps.contains m.registers.pc = true)
    (done : Instrumented.lift m.registers.pc ⟨s.traps, m⟩ = (.ok (), j))
    (alive : j.debuggee.motion ≠ .exited) :
    advance (.resume mainThread mode) s =
      (.ok (some (.await mainThread m.registers.pc mode [])),
        (leavePause s).holding ⟨j.traps, j.debuggee.resumed .stepping⟩) := by
  have left : (leavePause s).debuggee = some m := attached
  have still : (leavePause s).traps.contains m.registers.pc = true := trapped
  have lifted : instrumented (Instrumented.lift m.registers.pc) (leavePause s) =
      (.ok (), (leavePause s).holding j) := by
    rw [instrumented_run left]
    show ((Instrumented.lift m.registers.pc ⟨s.traps, m⟩).1, _) = _
    rw [show (leavePause s).traps = s.traps from rfl, done]
    rfl
  have resumed := access_resume (s := (leavePause s).holding j) (.step mainThread) rfl
    alive (by rintro t ⟨⟩; rfl)
  rw [advance, resumeThread, bind_ok (modify_run _ s), bind_ok (registers_run left),
    bind_ok (get_run _), ite_run, if_pos still, bind_ok lifted, bind_ok resumed, pure_run]
  rfl

theorem resume_trapped (mode : ResumeMode) (held : Held s m none) (alive : m.motion ≠ .exited)
    (trapped : s.traps.contains m.registers.pc = true) :
    ∃ j, advance (.resume mainThread mode) s =
        (.ok (some (.await mainThread m.registers.pc mode [])),
          (leavePause s).holding ⟨j.traps, j.debuggee.resumed .stepping⟩) ∧
      Kept s m (leavePause s) j (some m.registers.pc) := by
  obtain ⟨j, done, paint, seated, owners⟩ := Instrumented.lift_spec held.seated trapped
  obtain ⟨code, stack, heap, same⟩ := paint.rest
  have moving : j.debuggee.motion ≠ .exited := by rw [same]; exact alive
  exact ⟨j, resume_lifted mode held.attached trapped done moving, paint,
    ⟨rfl, seated, held.tidy.congr owners, held.main⟩⟩

/-- Notices taken one after the other. -/
inductive Noted : Session Machine → List Event → Session Machine → Prop
  | none (s : Session Machine) : Noted s [] s
  | next {s t u : Session Machine} {e : Event} {rest : List Event} (j : Instrumented Machine) :
      Noticed s e t → Noted (t.holding j) rest u → Noted s (e :: rest) u

theorem notices_spec {p : Executable} {lifted : Option UInt64} (notices : List Event)
    (known : ∀ e ∈ notices, Notice p e) (held : Held s m lifted) :
    ∃ u n, notices.forM notice s = (.ok (), u) ∧ Noted s notices u ∧
      Repaint ⟨s.traps, m⟩ ⟨u.traps, n⟩ ∧ Held u n lifted := by
  induction notices generalizing s m with
  | nil => exact ⟨s, m, rfl, .none s, .refl _, held⟩
  | cons e rest ih =>
    obtain ⟨t, j, done, noticed, kept⟩ := notice_spec held (known e List.mem_cons_self)
    obtain ⟨u, n, run, noted, paint, after⟩ :=
      ih (fun e member => known e (List.mem_cons_of_mem _ member)) kept.held
    refine ⟨u, n, ?_, .next j noticed noted, kept.paint.trans paint, after⟩
    show (notice e >>= fun _ => rest.forM notice) s = _
    rw [bind_ok done]
    exact run

/-- The trap is put back, and what came in meanwhile is taken note of. -/
theorem settled_spec {p : Executable} {pc : UInt64} {notices : List Event}
    (known : ∀ e ∈ notices, Notice p e) (held : Held s m (some pc)) :
    ∃ j u n, instrumented (Instrumented.restore pc) s = (.ok (), s.holding j) ∧
      notices.forM notice (s.holding j) = (.ok (), u) ∧ Noted (s.holding j) notices u ∧
      Repaint ⟨s.traps, m⟩ ⟨u.traps, n⟩ ∧ Held u n none := by
  obtain ⟨j, done, paint, seated, owners⟩ := Instrumented.restore_spec held.seated
  have restored : Held (s.holding j) j.debuggee none :=
    ⟨rfl, seated, held.tidy.congr owners, held.main⟩
  obtain ⟨u, n, run, noted, more, after⟩ := notices_spec notices known restored
  refine ⟨j, u, n, ?_, run, noted, paint.trans more, after⟩
  rw [instrumented_run held.attached, done]
  rfl

section AfterLift

variable {p : Executable} {pc : UInt64} {notices : List Event} (mode : ResumeMode)

theorem afterLift_single (known : ∀ e ∈ notices, Notice p e) (held : Held s m (some pc))
    (at_ : UInt64) :
    ∃ j u n, Noted (s.holding j) notices u ∧ Repaint ⟨s.traps, m⟩ ⟨u.traps, n⟩ ∧ Held u n none ∧
      afterLift mainThread pc mode notices (.trap mainThread at_ .singleStep) s =
        if mode = .step mainThread then (.ok (some (.stepped mainThread n.registers.pc)), u)
        else (access (Debuggee.resume mode) >>= fun _ => pure none : Change Machine (Option Move)) u := by
  obtain ⟨j, u, n, restored, run, noted, paint, after⟩ := settled_spec known held
  refine ⟨j, u, n, noted, paint, after, ?_⟩
  rw [afterLift, ite_run, if_neg (by simp [Event.isExit]), bind_ok restored]
  dsimp only
  rw [bind_ok run, ite_run, if_pos (by simp)]
  simp only [ite_run]
  split
  · rw [bind_ok (registers_run after.attached), pure_run]
  · rfl

theorem afterLift_stop (known : ∀ e ∈ notices, Notice p e) (held : Held s m (some pc))
    {e : Event} (stop : e.isExit = false) (other : ∀ t at_, e ≠ .trap t at_ .singleStep) :
    ∃ j u n, Noted (s.holding j) notices u ∧ Repaint ⟨s.traps, m⟩ ⟨u.traps, n⟩ ∧ Held u n none ∧
      afterLift mainThread pc mode notices e s = (.ok (some (.handle e)), u) := by
  obtain ⟨j, u, n, restored, run, noted, paint, after⟩ := settled_spec known held
  refine ⟨j, u, n, noted, paint, after, ?_⟩
  rw [afterLift, ite_run, if_neg (by simp [stop]), bind_ok restored]
  · dsimp only
    rw [bind_ok run, ite_run, if_neg (by simp), pure_run]
  · exact other

/-- A program that has ended has no memory to put the trap back into. -/
theorem afterLift_exit (known : ∀ e ∈ notices, Notice p e) (held : Held s m (some pc))
    (code : Int) :
    ∃ u n, Noted s notices u ∧ Repaint ⟨s.traps, m⟩ ⟨u.traps, n⟩ ∧ Held u n (some pc) ∧
      afterLift mainThread pc mode notices (.exited code) s =
        (.ok (some (.handle (.exited code))), u) := by
  obtain ⟨u, n, run, noted, paint, after⟩ := notices_spec notices known held
  refine ⟨u, n, noted, paint, after, ?_⟩
  rw [afterLift, ite_run, if_pos (by simp [Event.isExit])]
  · dsimp only
    rw [bind_ok run, ite_run, if_neg (by simp), pure_run]
  · simp

end AfterLift

section Await

variable {pc : UInt64} {mode : ResumeMode} {notices : List Event} {n : Machine}

theorem await_notice (attached : s.debuggee = some m) {e : Event}
    (polled : poll m = (.ok (some e), n)) (quiet : e.isStop = false) (alive : e.isExit = false) :
    advance (.await mainThread pc mode notices) s =
      (.ok (some (.await mainThread pc mode (notices ++ [e]))), { s with debuggee := some n }) := by
  have run : access (Debuggee.poll s.host.config.pollMillis) s =
      (.ok (some e), { s with debuggee := some n }) := by
    rw [access_run attached]
    show ((poll m).1, _) = _
    rw [show (Debuggee.poll s.host.config.pollMillis : Access Machine _) m = poll m from rfl, polled]
  rw [advance, awaitStop, bind_ok (get_run s), bind_ok run]
  dsimp only
  rw [ite_run, if_neg (by simp [quiet, alive]), pure_run]

theorem await_stop (attached : s.debuggee = some m) {e : Event}
    (polled : poll m = (.ok (some e), n)) (stop : (e.isStop || e.isExit) = true) :
    advance (.await mainThread pc mode notices) s =
      afterLift mainThread pc mode notices e { s with debuggee := some n } := by
  have run : access (Debuggee.poll s.host.config.pollMillis) s =
      (.ok (some e), { s with debuggee := some n }) := by
    rw [access_run attached]
    show ((poll m).1, _) = _
    rw [show (Debuggee.poll s.host.config.pollMillis : Access Machine _) m = poll m from rfl, polled]
  rw [advance, awaitStop, bind_ok (get_run s), bind_ok run]
  dsimp only
  rw [ite_run, if_pos stop]

theorem await_failure (attached : s.debuggee = some m) {e : Fault} (polled : poll m = (.error e, n)) :
    advance (.await mainThread pc mode notices) s =
      (.error e, { s with debuggee := some n }) := by
  have run : access (Debuggee.poll s.host.config.pollMillis) s =
      (.error e, { s with debuggee := some n }) := by
    rw [access_run attached]
    show ((poll m).1, _) = _
    rw [show (Debuggee.poll s.host.config.pollMillis : Access Machine _) m = poll m from rfl, polled]
  rw [advance, awaitStop, bind_ok (get_run s), bind_error run]

end Await

section Stepping

theorem stepped_enabled {pc : UInt64} {p : Stepper} (held : Held s m none)
    (stepper : s.stepper = some p) (enabled : s.breakpoints.anyEnabled (s.traps.users pc) = true) :
    let t := { s with breakpoints := s.breakpoints.count (s.traps.users pc) }
    ∃ j, advance (.stepped mainThread pc) s =
        (.ok none, (t.stepless.holding j).pause .breakpoint mainThread) ∧
      Kept s m t.stepless j none := by
  intro t
  obtain ⟨j, done, paint, after⟩ :=
    pauseAt_spec (held.count (s.traps.users pc)) .breakpoint mainThread
  refine ⟨j, ?_, paint, after⟩
  have there : ¬ (s.stepper.filter (·.thread = mainThread)).isNone = true := by
    simp [stepper, Option.filter_some, held.main p stepper]
  rw [advance, afterStep, bind_ok (get_run s), ite_run, if_neg there, ite_run, if_pos enabled,
    bind_ok (modify_run _ s)]
  exact done

theorem stepped_disabled {pc : UInt64} {p : Stepper} (held : Held s m none)
    (stepper : s.stepper = some p) (disabled : s.breakpoints.anyEnabled (s.traps.users pc) = false) :
    advance (.stepped mainThread pc) s = (.ok (some (.arrived mainThread)), s) := by
  have there : ¬ (s.stepper.filter (·.thread = mainThread)).isNone = true := by
    simp [stepper, Option.filter_some, held.main p stepper]
  rw [advance, afterStep, bind_ok (get_run s), ite_run, if_neg there, ite_run,
    if_neg (by simp [disabled]), pure_run]

theorem frameAddress_run (attached : s.debuggee = some m) (regs : Registers) :
    frameAddress regs s = (.ok (CallStack.canonicalAddress s.traps m s.roster regs), s) := by
  rw [frameAddress, ask_run attached]

/-- How the stepper of a session judges where its machine is. -/
def judged (s : Session Machine) (m : Machine) (p : Stepper) : Arrival × Stepper :=
  p.arrived m.registers (CallStack.canonicalAddress s.traps m s.roster m.registers)
    (s.roster.lineAt? m.registers.pc)
    (((s.roster.functionAt? m.registers.pc).map (·.hasLines)).getD false)

/-- What remains to be done after an arrival that does not complete a step. -/
def afterArrival : Arrival → Option Move
  | .complete => none
  | .continue => some (.act mainThread)
  | .runTo target => some (.runTo mainThread target)
  | .stepOutAgain => some (.stepOut mainThread)

theorem arrived_run {p : Stepper} (attached : s.debuggee = some m) (stepper : s.stepper = some p) :
    advance (.arrived mainThread) s = (.ok (afterArrival (s.judged m p).1),
      if (s.judged m p).1 = .complete then s.stepless.pause .stepComplete mainThread
      else { s with stepper := some (s.judged m p).2 }) := by
  rw [advance, arrive, bind_ok (registers_run attached), bind_ok (frameAddress_run attached _),
    bind_ok (get_run s), stepper]
  rcases judgement : s.judged m p with ⟨arrival, q⟩
  rw [judged] at judgement
  dsimp only
  rw [judgement]
  dsimp only
  rw [bind_ok (modify_run _ s)]
  cases arrival <;> rfl

theorem act_run {p : Stepper} {i : Instruction} (attached : s.debuggee = some m)
    (stepper : s.stepper = some p) (decoded : Instrumented.decode s.traps m m.registers.pc = .ok i) :
    advance (.act mainThread) s = (.ok (some (match (p.nextAction m.registers i).1 with
        | .singleStep => .resume mainThread (.step mainThread)
        | .runTo target => .runTo mainThread target)),
      { s with stepper := some (p.nextAction m.registers i).2 }) := by
  have decode : ask (fun s d => Instrumented.decode s.traps d m.registers.pc) s = (.ok i, s) := by
    rw [ask_run attached, decoded]
  rw [advance, act, bind_ok (registers_run attached), bind_ok decode, bind_ok (get_run s), stepper]
  dsimp only
  rw [bind_ok (modify_run _ s)]
  cases (p.nextAction m.registers i).1 <;> rfl

theorem act_failure {e : Fault} (attached : s.debuggee = some m)
    (failed : Instrumented.decode s.traps m m.registers.pc = .error e) :
    advance (.act mainThread) s = (.error e, s) := by
  have decode : ask (fun s d => Instrumented.decode s.traps d m.registers.pc) s = (.error e, s) := by
    rw [ask_run attached, failed]
  rw [advance, act, bind_ok (registers_run attached), bind_error decode]

/-- The frames of the machine, innermost first, as many as a step outward looks at. -/
def twoFrames (s : Session Machine) (m : Machine) : List Frame :=
  CallStack.framesFrom s.traps m s.roster mainThread s.generation 2 0 m.registers

theorem stepOut_run (attached : s.debuggee = some m) :
    advance (.stepOut mainThread) s = match (s.twoFrames m)[1]? with
      | some caller => (.ok (some (.runTo mainThread ⟨caller.pc, caller.sp⟩)), s)
      | none => (.ok (some (.resume mainThread .continue)), s.stepless) := by
  have walk : ask (fun s d => CallStack.walk s.traps d s.roster mainThread 2 s.generation) s =
      (.ok (s.twoFrames m), s) := by
    rw [ask_run attached]
    rfl
  rw [advance, stepOut, bind_ok walk]
  cases (s.twoFrames m)[1]? <;> rfl

theorem runTo_spec {p : Stepper} (target : Target) (held : Held s m none)
    (stepper : s.stepper = some p) (aimless : p.runningTo = none) :
    (∃ e f, advance (.runTo mainThread target) s = (.error e, s) ∧
        m.locate target.address 1 = .error f) ∨
      let t := { s with stepper := some { p with runningTo := some target } }
      ∃ j, advance (.runTo mainThread target) s =
          (.ok (some (.resume mainThread .continue)), t.holding j) ∧ Kept s m t j none := by
  rcases Instrumented.addStep_spec (a := target.address) held.seated with
    ⟨e, failed⟩ | ⟨j, done, paint, seated, owners⟩
  · obtain ⟨f, nowhere⟩ := Instrumented.addStep_nowhere failed
    refine .inl ⟨e, f, ?_, nowhere⟩
    have run : instrumented (Instrumented.addStep target.address) s = (.error e, s) := by
      rw [instrumented_run held.attached, failed]
      exact congrArg _ (holding_self held.attached)
    rw [advance, runTo, bind_error run]
  · refine .inr ⟨j, ?_, paint, ⟨rfl, seated, ?_, ?_⟩⟩
    · have run : instrumented (Instrumented.addStep target.address) s = (.ok (), s.holding j) := by
        rw [instrumented_run held.attached, done]
        rfl
      rw [advance, runTo, bind_ok run, bind_ok (modify_run _ _), pure_run]
      simp only [holding, stepper, Option.map_some]
    · have tidy := held.tidy
      rw [show s.goal = none by simp [goal, stepper, aimless]] at tidy
      exact tidy.addStep owners
    · intro q h
      cases h
      exact held.main p stepper

end Stepping

end Session

end SourceDebugger
