import SourceDebugger.Proofs.Session.Progress
/-!
The moves of a session beside the steps of an observer. A move that handles an arrival is a step of the
observer or two, and so is one that lets the program go on; any other is none.
-/
namespace SourceDebugger.Session

open Machine Traps Effect

variable {p : Program} {o : Observer} {rs : List Routine} {config : Config} {s t u : Session Machine}
  {m n : Machine} {j : Instrumented Machine} {now : Moment} {w : Watch} {e : Event}
  {allowed : Prop}

section Notices

theorem Noticed.voice (noticed : Noticed s e t) : t.voice = s.voice.hear e := by
  cases noticed <;> rfl

theorem break_low (asm : Assembled p o.program rs) (compact : p.Compact) {a : UInt64} {i : Instr}
    (own : o.program.instrAt? a = some i) : a.toNat < heapBase.toNat := by
  obtain ⟨r, member, k, there, rfl⟩ := asm.instrAt_iff.mp own
  have inside := asm.offset_inside member there
  have below := code_below asm compact
  have base : codeBase.toNat = 0x400000 := rfl
  omega

/-- A library that is loaded later brings no breakpoint into the program. -/
theorem Noticed.posted (asm : Assembled p o.program rs) (compact : p.Compact)
    (noticed : Noticed s e t) (remark : Remark o.program e) (host : s.host = o.program.host config)
    (posted : Posted o s.breakpoints) : Posted o t.breakpoints := by
  cases noticed with
  | threadStarted | threadEnded | output => exact posted
  | moduleLoaded path base size m items _ each =>
    have high (b : Breakpoint) (binding : Binding) (found : Breakpoint.bindingIn
        ⟨path, base, size, s.host.symbols path⟩ b.location = some binding) :
        heapBase.toNat ≤ binding.address.toNat := by
      have order : heapBase.toNat ≤ stackTop.toNat := by decide
      have known := remark.notice
      rw [host] at found
      generalize same : Event.moduleLoaded path base size = e at known
      cases known with
      | threadStarted | threadEnded | output => cases same
      | program => exact absurd same (remark.other _ _)
      | library index l there =>
        cases same
        exact Nat.le_trans order (binding_library asm there found)
    constructor
    · intro a low
      rw [posted.stops a low]
      constructor
      · rintro ⟨b, member, registered, enabled, bound⟩
        obtain ⟨c, there, now⟩ := outcome_of_forall₂ each b member
        cases now with
        | same => exact ⟨b, there, registered, enabled, bound⟩
        | now binding _ unbound => simp [Breakpoint.address?, unbound] at bound
      · rintro ⟨c, member, registered, enabled, bound⟩
        obtain ⟨b, before, now⟩ := origin_of_forall₂ each c member
        cases now with
        | same => exact ⟨c, before, registered, enabled, bound⟩
        | now binding _ _ found =>
          cases Option.some.inj bound
          exact absurd low (Nat.not_lt.mpr (high b binding found))
    · intro c member registered a bound own
      obtain ⟨b, before, now⟩ := origin_of_forall₂ each c member
      cases now with
      | same => exact posted.apart c before registered a bound own
      | now binding _ _ found =>
        cases Option.some.inj bound
        exact absurd (break_low asm compact own) (Nat.not_lt.mpr (high b binding found))

theorem Noted.voice {notices : List Event} (noted : Noted s notices t) :
    t.voice = s.voice.hearAll notices := by
  induction noted with
  | none => rfl
  | next j noticed _ ih => exact ih.trans (congrArg (Voice.hearAll · _) noticed.voice)

theorem Noted.posted (asm : Assembled p o.program rs) (compact : p.Compact) {notices : List Event}
    (noted : Noted s notices t) (remarks : ∀ e ∈ notices, Remark o.program e)
    (host : s.host = o.program.host config) (posted : Posted o s.breakpoints) :
    Posted o t.breakpoints := by
  induction noted with
  | none => exact posted
  | next j noticed _ ih =>
    have first := noticed.posted asm compact (remarks _ List.mem_cons_self) host posted
    exact ih (fun e member => remarks e (List.mem_cons_of_mem _ member))
      (noticed.unmoved.host.trans host) first

end Notices

section Endings

/-- A session that pauses shows the program where it stands. -/
theorem Scene.pauses (sound : Sound (o.program.sight config) s m none) (scene : Scene o s m now)
    (reason : PauseReason) : ∃ t, pauseAt reason mainThread s = (.ok none, t) ∧
      Stage o t none (.done (.paused reason) now) s.voice ∧ t.stepper = none := by
  obtain ⟨j, done, kept⟩ := pauseAt_spec sound.toHeld reason mainThread
  refine ⟨_, done, .paused reason rfl ?_ rfl rfl rfl, rfl⟩
  exact scene.painted kept.paint scene.posted fun q none => by cases none

theorem exit_parts (attached : s.debuggee = some m) (code : Option Int) (fault : Option Fault) :
    (s.exit code fault).state = .exited code fault ∧
      (s.exit code fault).departed.head? = some m ∧ (s.exit code fault).stepper = none ∧
        (s.exit code fault).voice = s.voice.exit code := by
  have parts : (s.exit code fault).state = .exited code fault ∧
      (s.exit code fault).departed = s.debuggee.toList ++ s.departed ∧
        (s.exit code fault).stepper = none ∧ (s.exit code fault).voice = s.voice.exit code := by
    rw [exit, Voice.exit]
    dsimp only [Session.voice]
    cases s.output.flush <;> exact ⟨rfl, rfl, rfl, by simp [report]⟩
  obtain ⟨state, departed, stepless, voice⟩ := parts
  exact ⟨state, by rw [departed, attached]; rfl, stepless, voice⟩

end Endings

section Moves

/-- What is claimed of a move. -/
def Advances (allowed : Prop) (o : Observer) (s : Session Machine) (move : Move) (d : Due) (v : Voice) : Prop :=
  Proceeds allowed o d v (Owes (some move) d) (s.Outward allowed ∧ ¬ Loops (some move) d) (rank (some move) d)
    (advance move s)

theorem notice_advances (asm : Assembled p o.program rs) (compact : p.Compact) {mode : ResumeMode}
    (sound : Sound (o.program.sight config) s m none)
    (scene : Scene o s m now) (signal : now.machine.pendingSignal = none) (carried : Carried m mode)
    (coming : Coming now w s.stepper mode) (remark : Remark o.program e) :
    Advances allowed o s (.handle e) (.come w now) (s.voice.hear e) := by
  obtain ⟨t, j, done, noticed, kept⟩ := handle_notice sound.toHeld remark.notice
  obtain ⟨motion, pending, _, registers⟩ := driven kept.paint
  have stepper : (t.holding j).stepper = s.stepper := noticed.unmoved.stepper
  have posted := noticed.posted asm compact remark sound.host scene.posted
  have after : Scene o (t.holding j) j.debuggee now :=
    scene.painted kept.paint posted (by rw [stepper]; exact scene.origin)
  have carried : Carried j.debuggee mode := by
    cases carried with
    | on h₁ h₂ => exact .on (motion.trans h₁) (pending.trans h₂)
    | tread h₁ h₂ => exact .tread (motion.trans h₁) (by rw [pending, h₂, registers])
  have stage : Stage o (t.holding j) none (.come w now) (t.holding j).voice :=
    .coming mode rfl after signal carried (stepper ▸ coming)
  rw [show (t.holding j).voice = s.voice.hear e from noticed.voice] at stage
  rw [Advances, done]
  refine .on (.refl _) stage (fun owes => ?_) fun calm => ⟨?_, Nat.zero_lt_succ 8⟩
  · cases remark.notice <;> exact owes.elim
  · intro q known
    exact calm.1 q (stepper ▸ known)

theorem exit_advances (attached : s.debuggee = some m) {ts : Traps} {code : Int}
    (covering : ts.Covering heapBase.toNat now.machine m) :
    Advances allowed o s (.handle (.exited code)) (.done (.exited code) now) s.voice := by
  obtain ⟨state, departed, stepless, voice⟩ := exit_parts attached (some code) none
  rw [Advances, handle_exit]
  refine .on (.refl _) (.exited code state departed covering voice) False.elim
    fun calm => ⟨?_, by simp [rank]⟩
  intro q known
  rw [stepless] at known
  cases known

theorem pause_advances {d : Due} (sound : Sound (o.program.sight config) s m none)
    (scene : Scene o s m now) {reason : PauseReason}
    (handles : advance (.handle e) s = pauseAt reason mainThread s)
    (done : d = .done (.paused reason) now) : Advances allowed o s (.handle e) d s.voice := by
  subst done
  obtain ⟨t, paused, stage, stepless⟩ := scene.pauses sound reason
  rw [Advances, handles, paused]
  refine .on (.refl _) stage (fun owes => ?_) fun calm => ⟨?_, by simp [rank]⟩
  · cases e <;> exact owes.elim
  · intro q known
    rw [stepless] at known
    cases known

section Hits

variable (asm : Assembled p o.program rs) (typed : p.WellTyped) (compact : p.Compact)

include asm typed compact

/-- While the activation that a step waits for lasts, the stack pointer is not where it waits. -/
theorem Away.elsewhere (away : Away now.calls w s.stepper) (scene : Scene o s m now) :
    ∀ target, s.goal = some target → m.registers.sp ≠ target.sp := by
  intro target aim same
  have framed := scene.framed asm typed compact
  rw [goal] at aim
  generalize s.stepper = stepper at away aim
  cases away with
  | alone => cases aim
  | inside running _ inside =>
    obtain ⟨inner, c, rest, a, split, _, rfl, _, _⟩ := inside.split
    cases running.symm.trans aim
    have below := framed.below asm compact c (by rw [split]; simp)
    rw [scene.overlaid.registers] at same
    rw [same] at below
    exact absurd below (Nat.lt_irrefl _)

/-- A trap that was hit is a breakpoint's, or the goal of a step, or is passed over. -/
theorem hit_advances (attached : s.debuggee = some m) (here : now.pc = m.registers.pc - 1)
    (sound : Sound (o.program.sight config)
      { s with debuggee := some (standing m (m.registers.pc - 1)) }
      (standing m (m.registers.pc - 1)) none)
    (scene : Scene o s (standing m (m.registers.pc - 1)) now)
    (present : s.traps.contains (m.registers.pc - 1) = true) (reaching : Reaching now w s.stepper) :
    Advances allowed o s (.handle (.trap mainThread m.registers.pc .software)) (.come w now) s.voice := by
  rw [Advances, handle_hit attached present]
  generalize standing m (m.registers.pc - 1) = k at sound scene
  rw [← here]
  have stops := scene.posted.stops_eq sound.tidy (scene.low asm typed compact)
  by_cases enabled : s.breakpoints.anyEnabled (s.traps.users now.pc) = true
  · obtain ⟨j, done, kept⟩ := hitTrap_enabled sound.toHeld enabled
    rw [done]
    refine .on (Observer.leads_stop (stops.trans enabled))
      (.paused .breakpoint rfl (scene.painted kept.paint (scene.posted.count _) ?_) rfl rfl rfl)
      (fun _ => .inl (Nat.le_refl 1)) fun calm => ⟨?_, Nat.zero_lt_succ 8⟩ <;>
    · intro q none
      cases none
  · replace enabled : s.breakpoints.anyEnabled (s.traps.users now.pc) = false := by
      simpa using enabled
    have look := Observer.leads_look (w := w) (stops.trans enabled)
    have through (away : Away now.calls w s.stepper) : Proceeds allowed o (.come w now) s.voice
        (Owes (some (.handle (.trap mainThread m.registers.pc .software))) (.come w now))
        (s.Outward allowed ∧ ¬ Loops (some (.handle (.trap mainThread m.registers.pc .software))) (.come w now))
        (rank (some (.handle (.trap mainThread m.registers.pc .software))) (.come w now))
        (hitTrap mainThread now.pc { s with debuggee := some k }) := by
      rw [hitTrap_through sound.toHeld enabled
        fun target aim _ => away.elsewhere asm typed compact scene target aim]
      exact .on (look.trans (Observer.leads_go (away.asleep scene.depth)))
        (.resume rfl (scene.congr rfl rfl rfl) (.on (.away away))) (fun _ => .inl (by decide))
        fun calm => ⟨calm.1, by simp [rank]⟩
    rcases reaching.split with away | ⟨q, target, stepper, running, pending, back⟩
    · exact through away
    · have aim : Session.goal { s with debuggee := some k } = some target := by
        rw [goal]
        show s.stepper.bind _ = _
        rw [stepper]
        exact running
      have sp : k.registers.sp = target.sp := by rw [scene.overlaid.registers]; exact back.sp
      obtain ⟨j, done, kept⟩ := hitTrap_goal sound.toHeld enabled aim back.address.symm sp
      have aimless : Session.stepper (aimless { s with debuggee := some k }) =
          some { q with runningTo := none } := by
        show s.stepper.map _ = _
        rw [stepper]
        rfl
      rw [done]
      refine .on look (.arrived rfl (scene.painted kept.paint scene.posted ?_) aimless rfl
        (back.heeds pending)) (fun _ => .inl (Nat.le_refl 1)) fun calm => ⟨?_, by simp [rank]⟩
      · intro r known
        cases aimless.symm.trans known
        exact scene.origin q stepper
      · intro r known
        cases aimless.symm.trans known
        exact calm.1 q stepper

/-- A trap of the program's own that is not where the step is to end is passed over, and met again. -/
theorem again_advances (attached : s.debuggee = some m) (here : now.pc = m.registers.pc - 1)
    (sound : Sound (o.program.sight config)
      { s with debuggee := some (standing m (m.registers.pc - 1)) }
      (standing m (m.registers.pc - 1)) none)
    (scene : Scene o s (standing m (m.registers.pc - 1)) now)
    (present : s.traps.contains (m.registers.pc - 1) = true) (away : Away now.calls w s.stepper)
    (own : now.machine.executable.instrAt? now.pc = some .break) :
    Advances allowed o s (.handle (.trap mainThread m.registers.pc .software)) (.turn w now) s.voice := by
  rw [Advances, handle_hit attached present]
  generalize standing m (m.registers.pc - 1) = k at sound scene
  rw [← here]
  have disabled : s.breakpoints.anyEnabled (s.traps.users now.pc) = false := by
    rw [← scene.posted.stops_eq sound.tidy (scene.low asm typed compact)]
    by_contra stops
    obtain ⟨b, member, registered, _, bound⟩ :=
      (scene.posted.stops now.pc (scene.low asm typed compact)).mp (by simpa using stops)
    rw [(scene.framed asm typed compact).executable] at own
    exact scene.posted.apart b member registered _ bound own
  rw [hitTrap_through sound.toHeld disabled
    fun target aim _ => away.elsewhere asm typed compact scene target aim]
  exact .on (.refl _) (.resume rfl (scene.congr rfl rfl rfl) (.on (.away away)))
    (fun owes => owes.elim) fun calm => absurd trivial calm.2

end Hits

section Resumption

theorem resumed_free {motion : Motion} (signal : m.pendingSignal = none) :
    m.resumed motion = { m with motion } := by
  rw [resumed, signal]

theorem resumed_signal {motion : Motion} {number : Int} (signal : m.pendingSignal = some number) :
    m.resumed motion = { m with pendingSignal := none, pending := m.pending ++ [.exited (128 + number)]
                                motion := .exited, threads := [] } := by
  rw [resumed, signal]

theorem Scene.signal (scene : Scene o s m now) : m.pendingSignal = now.machine.pendingSignal := by
  obtain ⟨d, rfl, _⟩ := scene.overlaid
  rfl

/-- A signal that waits ends the program before its next instruction. -/
theorem Scene.ends (scene : Scene o s m now) {lifted : Option UInt64}
    (sound : Sound (o.program.sight config) s m lifted) (motion : Motion) (quiet : m.pending = [])
    {number : Int} (signal : now.machine.pendingSignal = some number) :
    ∃ last, o.Leads 1 (.turn w now) [] (.done (.exited (128 + number)) last) ∧
      s.traps.Covering heapBase.toNat last.machine { m.resumed motion with pending := [] } ∧
        (m.resumed motion).motion = .exited ∧
          (m.resumed motion).pending = [.exited (128 + number)] := by
  refine ⟨_, Observer.leads_halt (Moment.turn_signal signal), ?_, ?_⟩
  · have overlaid := scene.overlaid.drive [] .exited m.interruptRequested none []
    rw [scene.lived.calm_eq] at overlaid
    rw [resumed_signal (scene.signal.trans signal)]
    exact covers sound overlaid
  · rw [resumed_signal (scene.signal.trans signal)]
    exact ⟨rfl, by rw [quiet]; rfl⟩

theorem resume_advances (asm : Assembled p o.program rs) (typed : p.WellTyped)
    (compact : p.Compact) {mode : ResumeMode} (sound : Sound (o.program.sight config) s m none)
    (rest : Resting m) (scene : Scene o s m now) (going : Going now w s.stepper mode) :
    Advances allowed o s (.resume mainThread mode) (.turn w now) s.voice := by
  have main : ∀ t, mode = .step t → t = mainThread := by
    intro t same
    subst same
    cases going
    rfl
  have calm {t : Session Machine} {next : Option Move} {d' : Due} (same : t.stepper = s.stepper)
      (low : rank next d' < 5) : s.Outward allowed ∧ ¬ Loops (some (.resume mainThread mode)) (.turn w now) →
        t.Outward allowed ∧ rank next d' < 5 :=
    fun calm => ⟨fun q known => calm.1 q (same ▸ known), low⟩
  by_cases trapped : s.traps.contains m.registers.pc = true
  · obtain ⟨j, done, kept⟩ := resume_trapped mode sound.toHeld rest.alive trapped
    have after : Scene o ((leavePause s).holding j) j.debuggee now :=
      scene.painted kept.paint scene.posted scene.origin
    have lifted : Sound (o.program.sight config) ((leavePause s).holding j) j.debuggee
        (some m.registers.pc) :=
      sound.leave.kept (sight_steady asm typed compact config) ⟨kept.paint, kept.held⟩ rfl rfl
        (fun b member => ⟨b, member, rfl⟩) sound.aims
    have quiet := (rest.painted kept.paint).quiet
    rw [Advances, done]
    cases signal : now.machine.pendingSignal with
    | none =>
      rw [resumed_free (after.signal.trans signal), scene.pc]
      exact .on (.refl _) (.await rfl ((after.driven _ .stepping).congr rfl rfl rfl) signal rfl quiet going)
        (fun owes => owes.elim) (calm rfl (by simp [rank]))
    | some number =>
      obtain ⟨last, leads, covering, ended, pending⟩ := after.ends (w := w) lifted .stepping quiet signal
      exact .on leads (.awaitEnded _ rfl covering ended pending) (fun owes => owes.elim)
        (calm rfl (by simp [rank]))
  · rw [Advances, resume_free sound.attached rest.alive main (by simpa using trapped)]
    have after : Scene o (leavePause s) m now := scene.congr rfl rfl rfl
    cases signal : now.machine.pendingSignal with
    | none =>
      rw [resumed_free (scene.signal.trans signal)]
      exact .on (.refl _) (.starting mode rfl ((after.driven _ (modeMotion mode)).congr rfl rfl rfl)
        signal rfl rest.quiet (show s.traps.contains m.registers.pc = false by simpa using trapped)
        going) (fun owes => owes.elim)
        (calm rfl (by simp [rank]))
    | some number =>
      obtain ⟨last, leads, covering, ended, pending⟩ :=
        after.ends (w := w) sound.leave (modeMotion mode) rest.quiet signal
      exact .on leads (.ended _ rfl covering ended pending) (fun owes => owes.elim)
        (calm rfl (by simp [rank]))

end Resumption

section Lifted

variable {pc : UInt64} {mode : ResumeMode} {notices : List Event}

/-- Once the trap is back, the notices have been said and the program stands where it stood. -/
theorem Scene.settled (asm : Assembled p o.program rs) (compact : p.Compact)
    (scene : Scene o s m now) (host : s.host = o.program.host config)
    (remarks : ∀ e ∈ notices, Remark o.program e) (noted : Noted (s.holding j) notices u)
    (paint : Repaint ⟨s.traps, m⟩ ⟨u.traps, n⟩) :
    Scene o u n now ∧ u.voice = s.voice.hearAll notices ∧ u.stepper = s.stepper := by
  have stepper : u.stepper = s.stepper := noted.unmoved.stepper
  refine ⟨scene.painted paint ?_ (by rw [stepper]; exact scene.origin), noted.voice, stepper⟩
  exact noted.posted asm compact remarks host scene.posted

/-- The instruction under a lifted trap has been executed. -/
theorem lifted_proceeds (asm : Assembled p o.program rs) (compact : p.Compact)
    (sound : Sound (o.program.sight config) s m (some pc)) (scene : Scene o s m now)
    (signal : now.machine.pendingSignal = none) (rest : Resting m)
    (coming : Coming now w s.stepper mode) (remarks : ∀ e ∈ notices, Remark o.program e)
    (at_ : UInt64) : ∃ next t,
      afterLift mainThread pc mode notices (.trap mainThread at_ .singleStep) s = (.ok next, t) ∧
        Stage o t next (.come w now) (s.voice.hearAll notices) ∧
          (s.Outward allowed → t.Outward allowed ∧ next = none) := by
  obtain ⟨j, u, n, noted, paint, held, done⟩ := afterLift_single mode
    (fun e member => (remarks e member).notice) sound.toHeld at_
  obtain ⟨after, voice, stepper⟩ := scene.settled asm compact sound.host remarks noted paint
  have calm := rest.painted paint
  rw [done, ← voice]
  rcases coming.split with ⟨rfl, reaching⟩ | ⟨rfl, q, known, aimless, kind, heeds⟩
  · rw [if_neg (by simp), bind_ok (access_resume .continue held.attached calm.alive (by simp)),
      pure_run, resumed_free (after.signal.trans signal)]
    refine ⟨_, _, rfl, .coming .continue rfl ((after.driven n.pending .running).congr rfl rfl rfl)
      signal (.on rfl calm.quiet) (.on (stepper ▸ reaching)), fun outward => ⟨?_, rfl⟩⟩
    exact fun q known => outward q (stepper ▸ known)
  · rw [if_pos rfl]
    exact ⟨_, _, rfl, .stepped held.attached after signal (stepper.trans known) aimless kind heeds,
      fun outward => absurd (outward q known).2 kind⟩

end Lifted

section Awaiting

variable (asm : Assembled p o.program rs) (typed : p.WellTyped) (compact : p.Compact)
  {mode : ResumeMode}

include asm typed compact

theorem awaited_advances {pc : UInt64} {notices : List Event}
    (sound : Sound (o.program.sight config) s m (some pc)) (scene : Scene o s m now)
    (signal : now.machine.pendingSignal = none) (stopped : m.motion = .stopped)
    (pending : m.pending = [.trap mainThread m.registers.pc .singleStep])
    (coming : Coming now w s.stepper mode) (remarks : ∀ e ∈ notices, Remark o.program e) :
    Advances allowed o s (.await mainThread pc mode notices) (.come w now) (s.voice.hearAll notices) := by
  have ready := sound.drive (sight_steady asm typed compact config) [] m.motion
    m.interruptRequested m.pendingSignal m.threads
  obtain ⟨next, t, done, stage, calm⟩ := lifted_proceeds (m := { m with pending := [] }) asm compact
    ready ((scene.driven [] m.motion).congr rfl rfl rfl) signal ⟨stopped, rfl, scene.free⟩ coming
    remarks m.registers.pc
  rw [Advances, await_stop sound.attached (poll_pending pending) rfl]
  refine (congrArg (Proceeds allowed o _ _ _ _ _) done).mpr
    (.on (.refl _) stage (fun owes => owes.elim) fun quiet => ?_)
  obtain ⟨outward, rfl⟩ := calm quiet.1
  exact ⟨outward, by simp [rank]⟩

/-- The instruction under a lifted trap is executed. A trap of the program's own there is one that a
step runs to, deeper down than it is to end. -/
theorem await_advances (sound : Sound (o.program.sight config) s m (some now.pc))
    (scene : Scene o s m now) (signal : now.machine.pendingSignal = none)
    (stepping : m.motion = .stepping) (quiet : m.pending = [])
    (going : Going now w s.stepper mode) :
    Advances allowed o s (.await mainThread now.pc mode []) (.turn w now) s.voice := by
  have steady := sight_steady asm typed compact config
  have framed := scene.framed asm typed compact
  have present : s.traps.contains now.pc = true := sound.seated.present now.pc rfl
  have held {b : Bool} {l : Machine} (done : Machine.execute m = (.ok b, l)) :
      Held { s with debuggee := some { l with pending := [] } } { l with pending := [] }
        (some now.pc) := by
    have onward := onward_execute m
    rw [done] at onward
    exact sound.toHeld.machine
      ⟨onward.executable, onward.code, onward.stack, onward.heap, onward.interrupt⟩
  have nothing : ∀ e ∈ ([] : List Event), Notice o.program e := by simp
  have executes := scene.executes asm typed compact sound signal quiet
  have polled := poll_stepping stepping quiet
  have calm {l : Machine} {next : Option Move} {d' : Due} (low : rank next d' < 4) :
      s.Outward allowed ∧ ¬ Loops (some (.await mainThread now.pc mode [])) (.turn w now) →
        Outward allowed { s with debuggee := some l } ∧ rank next d' < 4 :=
    fun calm => ⟨calm.1, low⟩
  rcases looked : poll m with ⟨r, n⟩
  rw [looked] at polled
  rw [Advances]
  cases polled with
  | @failure l f failed =>
    rw [failed] at executes
    rw [await_failure sound.attached looked]
    cases executes with
    | fault turned bare overlaid =>
      have covering := covers sound overlaid
      exact .fault (Observer.leads_halt turned) rfl covering rfl
  | @nothing l done silent =>
    rw [done] at executes
    rw [await_stop sound.attached looked rfl]
    cases executes with
    | turn does bare observed =>
      cases observed with
      | notice one => rw [silent] at one; cases one
      | quiet none motion turned signal after =>
        have next := (sound.execute steady done (by simp [silent]) []).resolve_left (by
          rintro ⟨rfl, _⟩
          simp [trapped] at silent)
        have rested := next.drive steady [] .stopped l.interruptRequested l.pendingSignal l.threads
        obtain ⟨move, t, ends, stage, only⟩ := lifted_proceeds (m := l.rested []) asm compact rested
          ((after [] .stopped).congr rfl rfl rfl) signal
          ⟨rfl, rfl, (after [] .stopped).free⟩ (going.turn asm framed does)
          (fun e (none : e ∈ []) => absurd none List.not_mem_nil) l.registers.pc
        refine (congrArg (Proceeds allowed o _ _ _ _ _) ends).mpr
          (.on (Observer.leads_on turned) stage (fun owes => owes.elim) fun calm => ?_)
        obtain ⟨outward, rfl⟩ := only calm.1
        exact ⟨outward, by simp [rank]⟩
  | @notice l e done known one =>
    rw [done] at executes
    rw [await_notice sound.attached looked known.not_stop.1 known.not_stop.2]
    cases executes with
    | turn does bare observed =>
      cases observed with
      | quiet none => rw [none] at one; cases one
      | notice same motion remark turned signal after =>
        cases one.symm.trans same
        exact .on (Observer.leads_on turned)
          (.awaited rfl ((after _ .stopped).congr rfl rfl rfl) signal rfl rfl
            (going.turn asm framed does)
            (show ∀ n ∈ [e], Remark o.program n by simpa using remark))
          (fun owes => owes.elim) (calm (by simp [rank]))
  | @stop l e done one =>
    rw [done] at executes
    cases executes with
    | @trap t found inserted =>
      rw [sound.seated.inserted now.pc t found] at inserted
      simp at inserted
    | turn does bare observed =>
      cases observed with
      | trap same motion own back turned after =>
        cases one.symm.trans same
        rw [await_stop sound.attached looked rfl]
        obtain ⟨j, u, k, noted, paint, held, run⟩ := afterLift_stop mode
          (e := .trap mainThread l.registers.pc .software) nothing (held done) rfl (by simp)
        have known : o.program.instrAt? now.pc = some .break := by
          rw [← framed.executable]
          exact own
        have target := scene.posted.target_of_break sound.tidy known present
        have trapped : l = m.trapped := by
          rcases execute_report done with ⟨_, same⟩ | report
          · exact same
          · cases report with
            | signal _ _ pending | exit _ pending => simp [pending, quiet] at one
        have stood : Scene o { s with debuggee := some { l with pending := [] } }
            (standing { l with pending := [] } (l.registers.pc - 1)) now := by
          have here : standing { l with pending := [] } (l.registers.pc - 1) =
              { m with pending := [], motion := .stopped } := by
            rw [back, ← scene.pc, trapped]
            rfl
          rw [here]
          exact (scene.driven [] .stopped).congr rfl rfl rfl
        obtain ⟨after, voice, stepper⟩ := stood.settled asm compact sound.host (by simp) noted
          (repaint_standing paint _)
        have pc : k.registers.pc = l.registers.pc :=
          congrArg Registers.pc (driven (s := { s with debuggee := some { l with pending := [] } })
            paint).2.2.2
        have still : u.traps.contains now.pc = true := by
          have aim : u.goal.map (·.address) = some now.pc := by rw [goal, stepper]; exact target
          obtain ⟨_, owned⟩ := held.tidy.target now.pc aim
          obtain ⟨t, found, _⟩ := Option.map_eq_some_iff.mp owned
          exact contains_iff.mpr ⟨t, found⟩
        have away : Away now.calls w s.stepper := by
          rcases going.split with ⟨_, running⟩ | ⟨_, q, stepper, aimless, _⟩
          · exact running.away_of_break own
          · simp [goal, stepper, aimless] at target
        rw [← pc] at back after
        have stage : Stage o u (some (.handle (.trap mainThread k.registers.pc .software)))
            (.turn w now) u.voice :=
          .again held.attached back.symm after signal (by rwa [back]) (stepper ▸ away) own
        rw [pc, voice] at stage
        exact (congrArg (Proceeds allowed o _ _ _ _ _) run).mpr (.on (.refl _) stage False.elim
          fun calm => ⟨fun q known => calm.1 q (stepper ▸ known), by simp [rank]⟩)
      | signal number description same motion turned after =>
        cases one.symm.trans same
        rw [await_stop sound.attached looked rfl]
        obtain ⟨j, u, k, noted, paint, held, run⟩ := afterLift_stop mode
          (e := .signal mainThread number description) nothing (held done) rfl (by simp)
        have there : Scene o { s with debuggee := some { l with pending := [] } }
            { l with pending := [] } _ := (after [] l.motion).congr rfl rfl rfl
        obtain ⟨after, voice, stepper⟩ := there.settled asm compact sound.host (by simp) noted paint
        have stage : Stage o u (some (.handle (.signal mainThread number description)))
            (.done (.paused .exception) (now.after _)) u.voice :=
          .raised number description held.attached after
        rw [voice] at stage
        exact (congrArg (Proceeds allowed o _ _ _ _ _) run).mpr (.on (Observer.leads_halt turned) stage
          False.elim fun calm => ⟨fun q known => calm.1 q (stepper ▸ known), by simp [rank]⟩)
      | exit code same motion turned overlaid =>
        cases one.symm.trans same
        rw [await_stop sound.attached looked rfl]
        obtain ⟨u, k, noted, paint, held, run⟩ := afterLift_exit mode nothing
          (held done) code
        have covering := covers sound (overlaid [] l.motion)
        cases noted
        refine (congrArg (Proceeds allowed o _ _ _ _ _) run).mpr (.on (Observer.leads_halt turned)
          (.exit code rfl covering) False.elim (calm (by simp [rank])))

omit asm typed compact in
/-- A program that a signal has ended tells so before anything else. -/
theorem awaitEnded_advances {pc : UInt64} {code : Int} {lifted : Option UInt64}
    (sound : Sound (o.program.sight config) s m lifted) (lift : lifted = some pc)
    (steady : (o.program.sight config).Steady)
    (covering : s.traps.Covering heapBase.toNat now.machine { m with pending := [] })
    (pending : m.pending = [.exited code]) :
    Advances allowed o s (.await mainThread pc mode []) (.done (.exited code) now) s.voice := by
  subst lift
  have nothing : ∀ e ∈ ([] : List Event), Notice o.program e := by simp
  have rested := sound.drive steady [] m.motion m.interruptRequested m.pendingSignal m.threads
  obtain ⟨u, k, noted, paint, held, run⟩ := afterLift_exit mode nothing rested.toHeld code
  cases noted
  rw [Advances, await_stop sound.attached (poll_pending pending) rfl]
  exact (congrArg (Proceeds allowed o _ _ _ _ _) run).mpr (.on (.refl _) (.exit code rfl covering)
    False.elim fun calm => ⟨calm.1, by simp [rank]⟩)

end Awaiting

section Steps

variable (asm : Assembled p o.program rs) (typed : p.WellTyped) (compact : p.Compact) {q : Stepper}

include asm typed compact

theorem stepped_advances (sound : Sound (o.program.sight config) s m none) (scene : Scene o s m now)
    (stepper : s.stepper = some q) (aimless : q.runningTo = none) (kind : q.kind ≠ .out)
    (heeds : Heeds now w q) :
    Advances allowed o s (.stepped mainThread m.registers.pc) (.come w now) s.voice := by
  have stops := scene.posted.stops_eq sound.tidy (scene.low asm typed compact)
  rw [Advances, scene.pc]
  by_cases enabled : s.breakpoints.anyEnabled (s.traps.users now.pc) = true
  · obtain ⟨j, done, kept⟩ := stepped_enabled sound.toHeld stepper enabled
    rw [done]
    exact .on (Observer.leads_stop (stops.trans enabled))
      (.paused .breakpoint rfl (scene.painted kept.paint (scene.posted.count _)
        fun q none => by cases none) rfl rfl rfl)
      (fun _ => .inl (Nat.le_refl 1)) fun calm => absurd (calm.1 q stepper).2 kind
  · replace enabled : s.breakpoints.anyEnabled (s.traps.users now.pc) = false := by
      simpa using enabled
    rw [stepped_disabled sound.toHeld stepper enabled]
    exact .on (Observer.leads_look (stops.trans enabled))
      (.arrived sound.attached scene stepper aimless heeds) (fun _ => .inl (Nat.le_refl 1))
      fun calm => absurd (calm.1 q stepper).2 kind

/-- A session sees the innermost activation, and the module that the program stands in. -/
theorem Scene.innermost (sound : Sound (o.program.sight config) s m none) (scene : Scene o s m now) :
    ∃ c rest, now.calls = c :: rest ∧ (∀ d ∈ rest, c.top ≤ d.top) ∧
      CallStack.canonicalAddress s.traps m s.roster m.registers = c.top ∧
        s.roster.moduleAt? now.pc = some o.program.module := by
  have framed := scene.framed asm typed compact
  obtain ⟨c, rest, r, k, high, f, split, seat⟩ := framed.seated
  have covering := covers sound scene.overlaid
  have shown := shown_of_parts asm compact sound.seen.1 fun l member => part_of_known config (sound.modules l member)
  obtain ⟨i, there, _⟩ := seat.instr asm framed.executable framed.code
  have inside := asm.offset_inside seat.known there
  have bounds := asm.bounds seat.known
  refine ⟨c, rest, split, fun d outside => ?_, ?_, ?_⟩
  · have := seat.linked.tops d outside
    have := seat.top
    rw [UInt64.le_iff_toNat_le]
    omega
  · rw [scene.overlaid.registers]
    exact canonicalAddress_seat asm covering shown framed.code seat
  · have base : codeBase.toNat = 0x400000 := rfl
    refine shown now.pc ?_ ?_ <;> rw [Moment.pc, seat.pc] <;> omega

/-- The stepper judges by what it sees of the innermost activation. -/
theorem judged_eq (sound : Sound (o.program.sight config) s m none) (scene : Scene o s m now) :
    ∃ c rest, now.calls = c :: rest ∧ s.judged m q =
      q.arrived now.machine.registers c.top (o.lineAt? now.pc) (o.hasLines now.pc) := by
  obtain ⟨c, rest, split, _, frame, own⟩ := scene.innermost asm typed compact sound
  refine ⟨c, rest, split, ?_⟩
  rw [judged, frame, scene.overlaid.registers, Observer.lineAt?, Observer.hasLines,
    Roster.lineAt?, Roster.functionAt?]
  rw [show now.machine.registers.pc = now.pc from rfl, own]
  rfl

theorem arrived_advances (sound : Sound (o.program.sight config) s m none) (scene : Scene o s m now)
    (stepper : s.stepper = some q) (aimless : q.runningTo = none) (heeds : Heeds now w q) :
    Advances allowed o s (.arrived mainThread) (.look w now) s.voice := by
  obtain ⟨c, rest, calls, judged⟩ := judged_eq asm typed compact (q := q) sound scene
  have resolved := heeds.arrived (scene.origin q stepper) calls
  have rested := judged_stepper s m q
  rw [← judged] at resolved
  rw [Advances, arrived_run sound.attached stepper]
  have known : ({ s with stepper := some (s.judged m q).2 } : Session Machine).stepper =
      some { q with pendingCall := none } := congrArg some rested
  have after : Scene o { s with stepper := some (s.judged m q).2 } m now :=
    ⟨scene.overlaid, scene.lived, scene.free, scene.posted, fun r same => by
      cases known.symm.trans same
      exact scene.origin q stepper⟩
  have calm {next : Option Move} {d' : Due} (low : rank next d' < 8) :
      s.Outward allowed ∧ ¬ Loops (some (.arrived mainThread)) (.look w now) →
        Outward allowed { s with stepper := some (s.judged m q).2 } ∧ rank next d' < 8 := by
    refine fun calm => ⟨fun r same => ?_, low⟩
    cases known.symm.trans same
    exact calm.1 q stepper
  generalize verdict : (s.judged m q).1 = arrival at resolved
  cases resolved with
  | complete complete =>
    rw [if_pos rfl]
    exact .on (Observer.leads_complete complete)
      (.paused .stepComplete sound.attached (scene.painted (.refl _) scene.posted
        fun r none => by cases none) rfl rfl rfl) False.elim
      fun calm => ⟨(fun r none => by cases none), Nat.zero_lt_succ 7⟩
  | «continue» goes decides =>
    rw [if_neg (by simp)]
    exact .on (Observer.leads_go goes) (.act sound.attached after known aimless decides) False.elim
      (calm (by simp [rank, afterArrival]))
  | runTo goes inside =>
    rw [if_neg (by simp)]
    exact .on (Observer.leads_go goes) (.runTo sound.attached after known aimless rfl (.inl inside))
      False.elim (calm (by simp [rank, afterArrival]))
  | stepOutAgain goes kind pending =>
    rw [if_neg (by simp)]
    exact .on (Observer.leads_go goes) (.stepOut sound.attached after known aimless kind pending)
      False.elim (calm (by simp [rank, afterArrival]))

theorem act_advances (sound : Sound (o.program.sight config) s m none) (scene : Scene o s m now)
    (stepper : s.stepper = some q) (aimless : q.runningTo = none) (decides : Decides now w q) :
    Advances allowed o s (.act mainThread) (.turn w now) s.voice := by
  have framed := scene.framed asm typed compact
  obtain ⟨c, rest, r, k, high, f, split, seat⟩ := framed.seated
  obtain ⟨i, there, found, _⟩ := seat.instr asm framed.executable framed.code
  have decoded : Instrumented.decode s.traps m m.registers.pc = .ok ⟨now.pc, i.length, i.kind⟩ := by
    rw [scene.pc, Moment.pc, seat.pc]
    exact decode_address asm (covers sound scene.overlaid) framed.code seat.known there
  have calm (p : Prop) : s.Outward allowed ∧ ¬ Loops (some (.act mainThread)) (.turn w now) → p :=
    fun calm => absurd (calm.1 q stepper).2 decides.kind
  have after (r : Stepper) (origin : r.origin = q.origin) :
      Scene o { s with stepper := some r } m now :=
    ⟨scene.overlaid, scene.lived, scene.free, scene.posted, fun r' same => by
      cases same
      exact origin.trans (scene.origin q stepper)⟩
  rw [Advances, act_run sound.attached stepper decoded, scene.overlaid.registers]
  rcases decides.action aimless found with
    ⟨target, action, leaving⟩ | ⟨q', action, aimless', origin, _, treads⟩
  · rw [action]
    have idle : q.pendingCall = none := by cases decides <;> assumption
    exact .on (.refl _)
      (.runTo sound.attached (after q rfl) rfl aimless idle (.inr leaving)) False.elim (calm _)
  · rw [action]
    exact .on (.refl _) (.resume sound.attached (after q' origin) (.tread rfl aimless' treads))
      False.elim (calm _)

theorem stepOut_advances (sound : Sound (o.program.sight config) s m none) (scene : Scene o s m now)
    (stepper : s.stepper = some q) (aimless : q.runningTo = none) (kind : q.kind = .out)
    (pending : q.pendingCall = none) :
    Advances allowed o s (.stepOut mainThread) (.turn (.out now.depth) now) s.voice := by
  have framed := scene.framed asm typed compact
  obtain ⟨c, rest, r, k, high, f, split, seat⟩ := framed.seated
  have shown := shown_of_parts asm compact sound.seen.1 fun l member => part_of_known config (sound.modules l member)
  have caller := framesFrom_caller asm (covers sound scene.overlaid) shown framed.code
    (code_below asm compact) seat s.generation
  have depth : now.depth = rest.length + 1 := by rw [Moment.depth, split]; rfl
  rw [Advances, stepOut_run sound.attached]
  rw [← scene.overlaid.registers] at caller
  rw [twoFrames]
  cases found : (CallStack.framesFrom s.traps m s.roster mainThread s.generation 2 0 m.registers)[1]? with
  | none =>
    rw [found] at caller
    have outermost : c.site = none := by simpa using caller.symm
    have idles : Idles (.out now.depth) := by
      have linked := seat.linked
      rw [outermost] at linked
      cases linked
      rw [depth]
      exact .inr rfl
    have after : Scene o s.stepless m now :=
      scene.painted (.refl _) scene.posted fun r none => by cases none
    exact .on (.refl _) (.resume sound.attached after (.on (.away (.alone idles)))) False.elim
      fun calm => ⟨(fun r none => by cases none), by simp [rank]⟩
  | some frame =>
    rw [found] at caller
    obtain ⟨a, site, same⟩ := Option.map_eq_some_iff.mp caller.symm
    obtain ⟨pc, sp⟩ := Prod.mk.inj same
    refine .on (.refl _) (.runTo sound.attached scene stepper aimless pending (.inl ?_)) False.elim
      fun calm => ⟨calm.1, by simp [rank]⟩
    refine ⟨[], c, rest, a, split, site, by rw [← pc, ← sp], ?_, by simp [Level, kind]⟩
    rw [kind, depth]
    exact .out rest.length

/-- A step runs to an address in the code. -/
theorem runTo_advances {target : Target} (sound : Sound (o.program.sight config) s m none)
    (scene : Scene o s m now) (stepper : s.stepper = some q) (aimless : q.runningTo = none)
    (pending : q.pendingCall = none) (aim : Inside now.calls w q target ∨ Leaving now w q target) :
    Advances allowed o s (.runTo mainThread target) (.turn w now) s.voice := by
  have framed := scene.framed asm typed compact
  have call : ∃ a entry, o.program.instrAt? a = some (.call entry) ∧ target.address = a + 5 := by
    rcases aim with inside | leaving
    · obtain ⟨inner, c, rest, a, split, site, rfl, _⟩ := inside.split
      obtain ⟨entry, found⟩ := framed.sites asm c (by rw [split]; simp) a site
      exact ⟨a, entry, found, rfl⟩
    · obtain ⟨entry, found⟩ := leaving.call
      rw [framed.executable] at found
      exact ⟨now.pc, entry, found, by rw [leaving.aim]⟩
  obtain ⟨a, entry, found, address⟩ := call
  obtain ⟨spot, located⟩ := call_located asm found framed.code
  rcases runTo_spec target sound.toHeld stepper aimless with
    ⟨f, g, _, nowhere⟩ | ⟨j, done, kept⟩
  · obtain ⟨d, rfl, _⟩ := scene.overlaid
    rw [locate_on, address, located] at nowhere
    cases nowhere
  · rw [Advances, done]
    have after : Scene o (holding { s with stepper := some { q with runningTo := some target } } j)
        j.debuggee now := by
      refine scene.painted kept.paint scene.posted fun r same => ?_
      cases same
      exact scene.origin q stepper
    have running : Running now w (some { q with runningTo := some target }) := by
      rcases aim with inside | leaving
      · exact .away (.inside rfl pending ⟨inside.split⟩)
      · exact .leaving rfl pending ⟨leaving.call, leaving.aim, leaving.waits, leaving.level⟩
    refine .on (.refl _) (.resume rfl after (.on running)) False.elim
      fun calm => ⟨fun r same => ?_, by simp [rank]⟩
    cases same
    exact calm.1 q stepper

end Steps

section Ready

variable {sight : Sight} {thread : ThreadId} {pc : UInt64}

/-- What is known of a machine that has run into a trap. -/
theorem ready_trap (ready : Ready sight s (some (.handle (.trap thread pc .software))))
    (attached : s.debuggee = some m) (here : pc = m.registers.pc) :
    s.traps.contains (pc - 1) = false ∧ Sound sight s m none ∨ s.traps.contains (pc - 1) = true ∧
      Sound sight { s with debuggee := some (standing m (pc - 1)) } (standing m (pc - 1)) none := by
  generalize same : Event.trap thread pc .software = e at ready
  cases ready with
  | notice known => cases known <;> cases same
  | single => cases same
  | exit => cases same
  | stop stop =>
    cases stop with
    | interrupt | signal => cases same
    | own free sound =>
      cases same
      cases Option.some.inj (attached.symm.trans sound.attached)
      exact .inl ⟨free, sound⟩
    | hit present other sound =>
      cases same
      cases Option.some.inj (attached.symm.trans other)
      exact .inr ⟨present, sound⟩

theorem ready_signal {number : Int} {description : String}
    (ready : Ready sight s (some (.handle (.signal thread number description)))) :
    ∃ m, Sound sight s m none := by
  generalize same : Event.signal thread number description = e at ready
  cases ready with
  | notice known => cases known <;> cases same
  | single => cases same
  | exit => cases same
  | stop stop =>
    cases stop with
    | interrupt | own | hit => cases same
    | signal _ _ sound => exact ⟨_, sound⟩

theorem ready_notice {program : Executable} (known : Notice program e)
    (ready : Ready sight s (some (.handle e))) : ∃ m, Sound sight s m none := by
  cases ready with
  | notice _ sound => exact ⟨_, sound⟩
  | stop stop => cases stop <;> cases known
  | single | exit => cases known

theorem ready_stepped (ready : Ready sight s (some (.stepped thread pc))) :
    ∃ m, Sound sight s m none := by
  cases ready with
  | stepped sound => exact ⟨_, sound⟩

end Ready

/-- Each move of a session goes along with the observer. -/
theorem Stage.advances (asm : Assembled p o.program rs) (typed : p.WellTyped) (compact : p.Compact)
    {move : Move} {d : Due} {v : Voice} (ready : Ready (o.program.sight config) s (some move))
    (stage : Stage o s (some move) d v) : Advances allowed o s move d v := by
  have only {n k : Machine} (attached : s.debuggee = some n) {lifted : Option UInt64}
      (sound : Sound (o.program.sight config) s k lifted) : n = k :=
    Option.some.inj (attached.symm.trans sound.attached)
  cases stage with
  | notice mode attached scene signal carried coming remark =>
    obtain ⟨k, sound⟩ := ready_notice remark.notice ready
    cases only attached sound
    exact notice_advances asm compact sound scene signal carried coming remark
  | trapped attached scene free =>
    rcases ready_trap ready attached rfl with ⟨_, sound⟩ | ⟨present, _⟩
    · exact pause_advances sound scene (handle_break free) rfl
    · rw [present] at free
      cases free
  | hit attached here scene signal present reaching =>
    rcases ready_trap ready attached rfl with ⟨free, _⟩ | ⟨_, sound⟩
    · rw [present] at free
      cases free
    · exact hit_advances asm typed compact attached here sound scene present reaching
  | again attached here scene signal present away own =>
    rcases ready_trap ready attached rfl with ⟨free, _⟩ | ⟨_, sound⟩
    · rw [present] at free
      cases free
    · exact again_advances asm typed compact attached here sound scene present away own
  | raised number description attached scene =>
    obtain ⟨k, sound⟩ := ready_signal ready
    cases only attached sound
    exact pause_advances sound scene (handle_signal _ _ _) rfl
  | single attached scene signal stepper aimless kind heeds =>
    rw [Advances, handle_singleStep]
    exact .on (.refl _) (.stepped attached scene signal stepper aimless kind heeds)
      (fun _ => .inr trivial) fun calm => absurd (calm.1 _ stepper).2 kind
  | exit code attached covering =>
    exact exit_advances attached covering
  | resume attached scene going =>
    cases ready with
    | resume sound rest live fit =>
      cases only attached sound
      exact resume_advances asm typed compact sound rest scene going
  | await attached scene signal stepping quiet going =>
    cases ready with
    | await sound =>
      cases only attached sound
      exact await_advances asm typed compact sound scene signal stepping quiet going
  | awaited attached scene signal stopped pending coming remarks =>
    cases ready with
    | await sound =>
      cases only attached sound
      exact awaited_advances asm typed compact sound scene signal stopped pending coming remarks
  | awaitEnded code attached covering ended pending =>
    cases ready with
    | await sound =>
      cases only attached sound
      exact awaitEnded_advances sound rfl (sight_steady asm typed compact config) covering pending
  | stepped attached scene signal stepper aimless kind heeds =>
    obtain ⟨k, sound⟩ := ready_stepped ready
    cases only attached sound
    exact stepped_advances asm typed compact sound scene stepper aimless kind heeds
  | arrived attached scene stepper aimless heeds =>
    cases ready with
    | arrived sound =>
      cases only attached sound
      exact arrived_advances asm typed compact sound scene stepper aimless heeds
  | act attached scene stepper aimless decides =>
    cases ready with
    | act sound =>
      cases only attached sound
      exact act_advances asm typed compact sound scene stepper aimless decides
  | stepOut attached scene stepper aimless kind pending =>
    cases ready with
    | stepOut sound =>
      cases only attached sound
      exact stepOut_advances asm typed compact sound scene stepper aimless kind pending
  | runTo attached scene stepper aimless pending aim =>
    cases ready with
    | runTo sound =>
      cases only attached sound
      exact runTo_advances asm typed compact sound scene stepper aimless pending aim

end Moves

end SourceDebugger.Session
