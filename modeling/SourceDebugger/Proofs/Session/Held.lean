import SourceDebugger.Proofs.Breakpoint.Bookkeeping
import SourceDebugger.Proofs.Machine.Polling
/-!
A session that holds a machine. Its operations on traps cannot fail, except that a trap may have no
memory to stand in; what they do to the machine is a repaint.
-/
namespace SourceDebugger.Session

open Effect Machine Traps

section Attached

variable {δ α : Type} {s : Session δ} {d : δ}

theorem access_run (attached : s.debuggee = some d) (a : Access δ α) :
    access a s = ((a d).1, { s with debuggee := some (a d).2 }) := by
  obtain ⟨_, _, _, _, _, _, _, _, _, _, _, _⟩ := s
  cases attached
  rfl

theorem instrumented_run (attached : s.debuggee = some d) (a : Access (Instrumented δ) α) :
    instrumented a s = ((a ⟨s.traps, d⟩).1,
      { s with debuggee := some (a ⟨s.traps, d⟩).2.debuggee, traps := (a ⟨s.traps, d⟩).2.traps }) := by
  obtain ⟨_, _, _, _, _, _, _, _, _, _, _, _⟩ := s
  cases attached
  rfl

theorem ask_run (attached : s.debuggee = some d) (f : Session δ → δ → Except Fault α) :
    ask f s = (f s d, s) := by
  rw [ask, bind_ok (get_run s), attached]
  dsimp only
  cases f s d <;> rfl

end Attached

theorem registers_run {s : Session Machine} {m : Machine} (attached : s.debuggee = some m) :
    registers mainThread s = (.ok m.registers, s) := by
  rw [registers, ask_run attached]
  rfl

/-- Where the step of a session is running to. -/
def goal {δ : Type} (s : Session δ) : Option Target := s.stepper.bind (·.runningTo)

/-- A session with its machine. All traps but a lifted one are in memory, and breakpoints, traps and
the step agree. -/
structure Held (s : Session Machine) (m : Machine) (lifted : Option UInt64) : Prop where
  attached : s.debuggee = some m
  seated : Seated ⟨s.traps, m⟩ lifted
  tidy : Tidy s.breakpoints s.traps (s.goal.map (·.address))
  main : ∀ p, s.stepper = some p → p.thread = mainThread

/-- The session with other traps and another machine. -/
def holding (s : Session Machine) (i : Instrumented Machine) : Session Machine :=
  { s with traps := i.traps, debuggee := some i.debuggee }

theorem holding_self {s : Session Machine} {m : Machine} (attached : s.debuggee = some m) :
    s.holding ⟨s.traps, m⟩ = s := by
  simp only [holding, ← attached]

/-- One session comes from another by a repaint, apart from what has been said of it already. -/
structure Kept (s : Session Machine) (m : Machine) (t : Session Machine) (j : Instrumented Machine)
    (lifted : Option UInt64) : Prop where
  paint : Repaint ⟨s.traps, m⟩ j
  held : Held (t.holding j) j.debuggee lifted

section Specs

variable {s : Session Machine} {m : Machine}

/-- The session with its step aimless. -/
def aimless (s : Session Machine) : Session Machine :=
  { s with stepper := s.stepper.map fun p => { p with runningTo := none } }

theorem aimless_goal (s : Session Machine) : s.aimless.goal = none := by
  cases h : s.stepper <;> simp [goal, aimless, h]

theorem aimless_of_goal (none : s.goal = none) : s.aimless = s := by
  obtain ⟨_, _, _, _, _, _, _, _, _, stepper, _, _⟩ := s
  cases stepper with
  | none => rfl
  | some p =>
    obtain ⟨_, _, _, _, target, _⟩ := p
    cases target with
    | none => rfl
    | some target => cases none

theorem clearTarget_aimless (none : s.goal = none) : clearTarget s = (.ok (), s) := by
  rw [clearTarget, bind_ok (get_run s)]
  cases stepper : s.stepper with
  | none => rfl
  | some p =>
    have target : p.runningTo = Option.none := by simpa [goal, stepper] using none
    dsimp only
    rw [target]
    rfl

theorem clearTarget_run {target : Target} (attached : s.debuggee = some m)
    (goal : s.goal = some target) :
    clearTarget s = instrumented (Instrumented.removeStep target.address) s.aimless := by
  cases stepper : s.stepper with
  | none => simp [Session.goal, stepper] at goal
  | some p =>
    have aim : p.runningTo = some target := by simpa [Session.goal, stepper] using goal
    have same : s.aimless = { s with stepper := some { p with runningTo := none } } := by
      simp only [aimless, stepper, Option.map_some]
    rw [clearTarget, bind_ok (get_run s), stepper]
    dsimp only
    rw [aim]
    dsimp only
    rw [bind_ok (modify_run _ s), bind_ok (get_run _), ite_run, if_pos (by simp [attached]), same]

/-- The trap a step was running to loses that owner. -/
theorem clearTarget_spec (held : Held s m none) :
    ∃ j, clearTarget s = (.ok (), s.aimless.holding j) ∧ Kept s m s.aimless j none := by
  have main : ∀ p, s.aimless.stepper = some p → p.thread = mainThread := by
    intro p h
    obtain ⟨q, before, rfl⟩ := Option.map_eq_some_iff.mp h
    exact held.main q before
  have tidy := held.tidy
  cases aim : s.goal with
  | none =>
    have same := aimless_of_goal aim
    refine ⟨⟨s.traps, m⟩, ?_, .refl _, ?_⟩
    · rw [clearTarget_aimless aim, same, holding_self held.attached]
    · rw [same, holding_self held.attached]
      exact held
  | some target =>
    rw [aim] at tidy
    obtain ⟨j, done, paint, seated, owners⟩ :=
      Instrumented.removeStep_spec (a := target.address) held.seated
    have tidied := tidy.removeStep owners
    refine ⟨j, ?_, paint, ⟨rfl, seated, ?_, main⟩⟩
    · rw [clearTarget_run held.attached aim, instrumented_run (s := s.aimless) held.attached]
      show ((Instrumented.removeStep target.address ⟨s.traps, m⟩).1, _) = _
      rw [show s.aimless.traps = s.traps from rfl, done]
      rfl
    · show Tidy s.breakpoints j.traps (s.aimless.goal.map _)
      rw [aimless_goal]
      exact tidied

/-- The session without a step. -/
def stepless (s : Session Machine) : Session Machine := { s with stepper := none }

theorem cancelStep_spec (held : Held s m none) :
    ∃ j, cancelStep s = (.ok (), s.stepless.holding j) ∧ Kept s m s.stepless j none := by
  obtain ⟨j, done, paint, clear⟩ := clearTarget_spec held
  refine ⟨j, ?_, paint, ⟨rfl, clear.seated, ?_, fun p h => by cases h⟩⟩
  · rw [cancelStep, bind_ok done]
    rfl
  · have tidy := clear.tidy
    rw [show (s.aimless.holding j).goal = s.aimless.goal from rfl, aimless_goal] at tidy
    exact tidy

theorem pauseAt_spec (held : Held s m none) (reason : PauseReason) (thread : ThreadId) :
    ∃ j, pauseAt reason thread s = (.ok none, (s.stepless.holding j).pause reason thread) ∧
      Kept s m s.stepless j none := by
  obtain ⟨j, done, kept⟩ := cancelStep_spec held
  exact ⟨j, by rw [pauseAt, bind_ok done]; rfl, kept⟩

/-- Without a step on its way nothing but the pause happens. -/
theorem pauseAt_stepless (none : s.stepper = none) (reason : PauseReason) (thread : ThreadId) :
    pauseAt reason thread s = (.ok .none, s.pause reason thread) := by
  have clear : clearTarget s = (.ok (), s) := clearTarget_aimless (by simp [goal, none])
  have same : { s with stepper := .none } = s := by rw [← none]
  rw [pauseAt, cancelStep, bind_run, bind_ok clear, modify_run, same]
  rfl

/-- What taking note of an event changes in a session, traps and memory apart. -/
inductive Noticed (s : Session Machine) : Event → Session Machine → Prop
  | threadStarted (t : ThreadId) :
      Noticed s (.threadStarted t) { s with roster := s.roster.addThread t }
  | threadEnded (t : ThreadId) :
      Noticed s (.threadEnded t) { s with roster := s.roster.removeThread t }
  | output (text : String) : Noticed s (.output text)
      { s with output := (s.output.push text).2
               outbox := s.outbox ++ (s.output.push text).1.map .log }
  | moduleLoaded (path : String) (base size : UInt64) (m : Machine) (items : List Breakpoint) :
      s.debuggee = some m → List.Forall₂
        (BoundIn ⟨path, base, size, s.host.symbols path⟩ m) s.breakpoints.items items →
      Noticed s (.moduleLoaded path base size)
        { s with roster := s.roster.addModule ⟨path, base, size, s.host.symbols path⟩
                 breakpoints := { s.breakpoints with items } }

theorem loadModule_run {δ : Type} [Debuggee δ] {s : Session δ} {m : δ} (attached : s.debuggee = some m)
    (path : String) (base size : UInt64) :
    loadModule path base size s =
      let loaded : LoadedModule := ⟨path, base, size, s.host.symbols path⟩
      let r := Instrumented.bindIn loaded s.breakpoints.items ⟨s.traps, m⟩
      (.ok (), { s with
        roster := s.roster.addModule loaded, debuggee := some r.2.debuggee, traps := r.2.traps
        breakpoints := { s.breakpoints with items := r.1 } }) := by
  obtain ⟨_, _, _, _, _, _, _, _, _, _, _, _⟩ := s
  cases attached
  rfl

theorem bindAll_run {δ : Type} [Debuggee δ] {s : Session δ} {d : δ} (attached : s.debuggee = some d) :
    s.bindAll =
      let r := s.roster.modules.foldl (fun r m => Instrumented.bindIn m r.1 r.2)
        (s.breakpoints.items, (⟨s.traps, d⟩ : Instrumented δ))
      { s with debuggee := some r.2.debuggee, traps := r.2.traps
               breakpoints := { s.breakpoints with items := r.1 } } := by
  obtain ⟨_, _, _, _, _, _, _, _, _, _, _, _⟩ := s
  cases attached
  rfl

theorem notice_spec {p : Executable} {e : Event} {lifted : Option UInt64}
    (held : Held s m lifted) (known : Notice p e) :
    ∃ t j, notice e s = (.ok (), t.holding j) ∧ Noticed s e t ∧ Kept s m t j lifted := by
  have same {t : Session Machine} (noticed : Noticed s e t) (traps : t.traps = s.traps)
      (debuggee : t.debuggee = s.debuggee) (breakpoints : t.breakpoints = s.breakpoints)
      (stepper : t.stepper = s.stepper) (run : notice e s = (.ok (), t)) :
      ∃ t j, notice e s = (.ok (), t.holding j) ∧ Noticed s e t ∧ Kept s m t j lifted := by
    have attached : t.debuggee = some m := debuggee.trans held.attached
    have whole : t.holding ⟨s.traps, m⟩ = t := by rw [← traps]; exact holding_self attached
    refine ⟨t, ⟨s.traps, m⟩, by rw [run, whole], noticed, .refl _, ?_⟩
    rw [whole]
    exact ⟨attached, traps ▸ held.seated, by
      rw [traps, breakpoints, goal, stepper]; exact held.tidy, stepper ▸ held.main⟩
  have load (path : String) (base size : UInt64) : ∃ t j,
      notice (.moduleLoaded path base size) s = (.ok (), t.holding j) ∧
        Noticed s (.moduleLoaded path base size) t ∧ Kept s m t j lifted := by
    obtain ⟨items, j, done, paint, seated, tidy, each⟩ :=
      bindIn_spec (l := ⟨path, base, size, s.host.symbols path⟩) s.breakpoints.items []
        held.seated held.tidy
    refine ⟨_, j, ?_, .moduleLoaded path base size m items held.attached each, paint,
      ⟨rfl, seated, tidy, held.main⟩⟩
    show loadModule path base size s = _
    rw [loadModule_run held.attached]
    dsimp only
    rw [done]
    rfl
  cases known with
  | threadStarted t => exact same (.threadStarted t) rfl rfl rfl rfl rfl
  | threadEnded t => exact same (.threadEnded t) rfl rfl rfl rfl rfl
  | output text => exact same (.output text) rfl rfl rfl rfl rfl
  | program => exact load _ _ _
  | library index l => exact load _ _ _

/-- Nothing is left of a debuggee but breakpoints without a place. -/
structure Detached (s : Session Machine) : Prop where
  gone : s.debuggee = none
  stepless : s.stepper = none
  empty : ∀ a, s.traps.owners a = none
  tidy : Tidy s.breakpoints s.traps none

theorem seated_below {i : Instrumented Machine} {lifted : Option UInt64} (seated : Seated i lifted)
    {a : UInt64} {t : Trap} (found : i.traps.find? a = some t) : a < 0 - 1 := by
  obtain ⟨s, located⟩ := seated.located a t found
  obtain ⟨r, offset⟩ := s
  have below := (locate_ok located).2.2
  rw [UInt64.lt_iff_toNat_lt]
  have last : (0 - 1 : UInt64).toNat = 2 ^ 64 - 1 := by decide
  omega

theorem exit_spec {lifted : Option UInt64} (seated : Seated ⟨s.traps, m⟩ lifted)
    {target : Option UInt64} (tidy : Tidy s.breakpoints s.traps target) (code : Option Int)
    (fault : Option Fault) : Detached (s.exit code fault) := by
  have empty : ∀ a, (s.traps.forget 0 (0 - 1)).owners a = none := by
    intro a
    rw [owners, find?_forget]
    split
    · rename_i outside
      cases found : s.traps.find? a with
      | none => rfl
      | some t =>
        have below := seated_below seated found
        rcases outside with h | h
        · exact absurd h (by simp)
        · exact absurd below (UInt64.not_lt.mpr h)
    · rfl
  have parts : (s.exit code fault).debuggee = none ∧ (s.exit code fault).stepper = none ∧
      (s.exit code fault).traps = s.traps.forget 0 (0 - 1) ∧
      (s.exit code fault).breakpoints = s.breakpoints.unbindWhere fun _ => true := by
    unfold Session.exit
    cases s.output.flush <;> exact ⟨rfl, rfl, rfl, rfl⟩
  obtain ⟨gone, stepless, traps, breakpoints⟩ := parts
  refine ⟨gone, stepless, traps ▸ empty, ?_⟩
  rw [traps, breakpoints]
  exact tidy.unbind empty

end Specs

end SourceDebugger.Session
