import SourceDebugger.Proofs.Session.Moves
/-!
What is known about a machine in a session from one move to the next. A sight says where traps may
stand and what is seen of modules, traps and machine; a lasting one survives whatever a session
does to them. Nothing is assumed here of what is seen.
-/
namespace SourceDebugger

open Machine Traps

/-- How a program is debugged: only its own path can be started, and only it has symbols. -/
def Machine.Executable.host (e : Executable) (config : Config) : Host Machine :=
  ⟨config, launch e, e.symbolsFor⟩

/-- A program under a debugger: where traps may stand, and what is to be seen of modules, traps and
machine. -/
structure Sight where
  host : Host Machine
  program : Executable
  site : UInt64 → Prop
  sees : List LoadedModule → Traps → Machine → Prop

/-- A module as it is loaded. -/
def Sight.loaded (w : Sight) (path : String) (base size : UInt64) : LoadedModule :=
  ⟨path, base, size, w.host.symbols path⟩

/-- A module that the program may have told of. -/
def Sight.Known (w : Sight) (l : LoadedModule) : Prop :=
  ∃ path base size, Notice w.program (.moduleLoaded path base size) ∧ l = w.loaded path base size

/-- What is seen of a program that does not run stays in sight, and breakpoints are put only where
traps may stand. -/
structure Sight.Still (w : Sight) : Prop where
  entry : ∀ {ts}, (∀ a, ts.owners a = none) →
    w.sees [w.loaded w.program.path codeBase (UInt64.ofNat w.program.code.size)] ts
      (boot w.program)
  paint : ∀ {mods i j}, Repaint i j → w.sees mods i.traps i.debuggee →
    w.sees mods j.traps j.debuggee
  drive : ∀ {mods ts m} (pending : List Event) (motion : Motion) (interrupt : Bool),
    w.sees mods ts m → w.sees mods ts { m with pending, motion, interruptRequested := interrupt }
  load : ∀ {mods ts m l}, w.Known l → w.sees mods ts m →
    w.sees (mods.filter (·.base ≠ l.base) ++ [l]) ts m
  bind : ∀ {l location b}, w.Known l → Breakpoint.bindingIn l location = some b →
    w.site b.address

/-- What is seen stays in sight. -/
structure Sight.Steady (w : Sight) : Prop extends w.Still where
  alter : ∀ {mods ts m} (signal : Option Int) (threads : List ThreadId), w.sees mods ts m →
    w.sees mods ts { m with pendingSignal := signal, threads }
  execute : ∀ {mods ts m b n}, m.executable = w.program →
    (∀ a, ts.contains a = true → w.site a ∧ ∃ s, m.locate a 1 = .ok s) → w.sees mods ts m →
    execute m = (.ok b, n) →
    n = m.trapped ∧ (∃ t, ts.find? m.registers.pc = some t ∧ t.byte.inserted = true) ∨
      (∃ code, n.pending = m.pending ++ [.exited code]) ∨ w.sees mods ts n

/-- Steps run only to where traps may stand, too. -/
structure Sight.Lasting (w : Sight) : Prop extends w.Steady where
  call : ∀ {mods ts m i}, w.sees mods ts m → Instrumented.decode ts m m.registers.pc = .ok i →
    w.site i.next
  caller : ∀ {ts m c} {r : Roster} {generation : Nat}, (∀ l ∈ r.modules, w.Known l) →
    (∀ a, ts.contains a = true → w.site a) → w.sees r.modules ts m →
    (CallStack.framesFrom ts m r mainThread generation 2 0 m.registers)[1]? = some c →
    w.site c.pc

namespace Session

open Effect

/-- A session whose machine is in sight. -/
structure Sound (w : Sight) (s : Session Machine) (m : Machine) (lifted : Option UInt64) : Prop
    extends Held s m lifted where
  host : s.host = w.host
  executable : m.executable = w.program
  modules : ∀ l ∈ s.roster.modules, w.Known l
  seen : w.sees s.roster.modules s.traps m
  bindings : ∀ b ∈ s.breakpoints.items, ∀ a, b.address? = some a → w.site a
  aims : ∀ q t, s.stepper = some q → q.runningTo = some t ∨ q.pendingCall = some t →
    w.site t.address

/-- A machine that has reported a stop. -/
structure Resting (m : Machine) : Prop where
  motion : m.motion = .stopped
  quiet : m.pending = []
  free : m.interruptRequested = false

/-- A session in a step that is not running anywhere. -/
def Stepping (s : Session Machine) : Prop := ∃ q, s.stepper = some q ∧ q.runningTo = none

/-- A machine under way, between two looks, in a step or not. -/
inductive Moving (stepping : Prop) (m : Machine) : Prop
  | going : m.motion = .running → m.pending = [] → Moving stepping m
  | stepping : m.motion = .stepping → m.pending = [] → m.interruptRequested = false →
      stepping → Moving stepping m
  | stepped : m.motion = .stopped → m.pending = [.trap mainThread m.registers.pc .singleStep] →
      m.interruptRequested = false → stepping → Moving stepping m
  | ended (code : Int) : m.motion = .exited → m.pending = [.exited code] → Moving stepping m

/-- Running or paused. -/
def Live (s : Session Machine) : Prop :=
  s.state = .running ∨ ∃ reason, s.state = .paused reason mainThread

/-- Not started yet, or ended. -/
def Idle (s : Session Machine) : Prop := s.state = .notStarted ∨ s.state.isExited = true

/-- A mode in which a session may go on: a single step belongs to a step of the session. -/
def Fit (s : Session Machine) (mode : ResumeMode) : Prop :=
  ∀ t, mode = .step t → t = mainThread ∧ s.Stepping

/-- A stop that was reported and is still to be handled. -/
inductive Stop (w : Sight) (s : Session Machine) (m : Machine) : Event → Prop
  | interrupt (pc : UInt64) : Sound w s m none → Stop w s m (.trap mainThread pc .interrupt)
  | signal (number : Int) (description : String) : Sound w s m none →
      Stop w s m (.signal mainThread number description)
  | own : s.traps.contains (m.registers.pc - 1) = false → Sound w s m none →
      Stop w s m (.trap mainThread m.registers.pc .software)
  | hit : s.traps.contains (m.registers.pc - 1) = true → s.debuggee = some m →
      Sound w { s with debuggee := some (standing m (m.registers.pc - 1)) }
        (standing m (m.registers.pc - 1)) none →
      Stop w s m (.trap mainThread m.registers.pc .software)

/-- What holds of a session before a move, and when no move is left. -/
inductive Ready (w : Sight) (s : Session Machine) : Option Move → Prop
  | idle : Detached s → s.host = w.host → s.Idle → Ready w s none
  | paused {m : Machine} {reason : PauseReason} : Sound w s m none → Resting m →
      s.stepper = none → s.state = .paused reason mainThread → Ready w s none
  | running {m : Machine} : Sound w s m none → s.state = .running → Moving s.Stepping m →
      Ready w s none
  | notice {m : Machine} {e : Event} : Notice w.program e → Sound w s m none →
      s.state = .running → Moving s.Stepping m → Ready w s (some (.handle e))
  | stop {m : Machine} {e : Event} : Stop w s m e → Resting m → s.state = .running →
      Ready w s (some (.handle e))
  | single {m : Machine} : Sound w s m none → Resting m → s.state = .running → s.Stepping →
      Ready w s (some (.handle (.trap mainThread m.registers.pc .singleStep)))
  | exit {m : Machine} {lifted : Option UInt64} (code : Int) : Held s m lifted →
      s.host = w.host → s.Live → Ready w s (some (.handle (.exited code)))
  | resume {m : Machine} {mode : ResumeMode} : Sound w s m none → Resting m → s.Live →
      s.Fit mode → Ready w s (some (.resume mainThread mode))
  | await {m : Machine} {pc : UInt64} {mode : ResumeMode} {notices : List Event} :
      Sound w s m (some pc) → Moving True m → m.motion ≠ .running →
      (m.motion = .stepping → m.registers.pc = pc) → s.state = .running →
      (∀ e ∈ notices, Notice w.program e) → s.Fit mode →
      Ready w s (some (.await mainThread pc mode notices))
  | stepped {m : Machine} : Sound w s m none → Resting m → s.Live → s.Stepping →
      Ready w s (some (.stepped mainThread m.registers.pc))
  | arrived {m : Machine} : Sound w s m none → Resting m → s.Live → s.Stepping →
      Ready w s (some (.arrived mainThread))
  | act {m : Machine} : Sound w s m none → Resting m → s.Live → s.Stepping →
      Ready w s (some (.act mainThread))
  | stepOut {m : Machine} : Sound w s m none → Resting m → s.Live → s.Stepping →
      Ready w s (some (.stepOut mainThread))
  | runTo {m : Machine} {target : Target} : Sound w s m none → Resting m → s.Live → s.Stepping →
      w.site target.address → Ready w s (some (.runTo mainThread target))

/-- A session that a fault is about to end. -/
def Failing (w : Sight) (s : Session Machine) : Prop :=
  s.host = w.host ∧ s.Live ∧ ∃ m lifted, Held s m lifted

/-- What a change may come to. -/
def Fares (w : Sight) : Except Fault (Option Move) × Session Machine → Prop
  | (.ok next, s) => Ready w s next
  | (.error _, s) => Failing w s

section Sight

variable {w : Sight} {s t : Session Machine} {m n : Machine} {lifted : Option UInt64}
  {j : Instrumented Machine}

theorem Sound.site (sound : Sound w s m lifted) {a : UInt64}
    (present : s.traps.contains a = true) : w.site a := by
  obtain ⟨trap, found⟩ := contains_iff.mp present
  have owned : s.traps.owners a = some (trap.users, trap.steps) := by simp [owners, found]
  rcases sound.tidy.owned a _ owned with users | steps
  · obtain ⟨id, user⟩ := List.exists_mem_of_ne_nil _ users
    obtain ⟨b, member, _, _, bound⟩ := sound.tidy.users a _ owned id user
    exact sound.bindings b member a bound
  · have target := sound.tidy.steps a _ owned
    have aim : s.goal.map (·.address) = some a := by
      by_cases aim : s.goal.map (·.address) = some a
      · exact aim
      · rw [if_neg aim] at target
        exact absurd target steps
    obtain ⟨t, goal, rfl⟩ := Option.map_eq_some_iff.mp aim
    obtain ⟨q, stepper, running⟩ := Option.bind_eq_some_iff.mp goal
    exact sound.aims q t stepper (.inl running)

/-- A repaint changes nothing that is seen. -/
theorem Sound.kept (steady : w.Steady) (sound : Sound w s m none)
    (kept : Kept s m t j lifted) (host : t.host = s.host)
    (roster : t.roster.modules = s.roster.modules)
    (bindings : ∀ b ∈ t.breakpoints.items, ∃ c ∈ s.breakpoints.items, b.binding = c.binding)
    (aims : ∀ q target, t.stepper = some q →
      q.runningTo = some target ∨ q.pendingCall = some target → w.site target.address) :
    Sound w (t.holding j) j.debuggee lifted where
  toHeld := kept.held
  host := host.trans sound.host
  executable := by
    obtain ⟨_, _, _, same⟩ := kept.paint.rest
    rw [same]
    exact sound.executable
  modules := roster ▸ sound.modules
  seen := by
    have seen := steady.paint kept.paint sound.seen
    rwa [← roster] at seen
  bindings b member a bound := by
    obtain ⟨c, before, same⟩ := bindings b member
    exact sound.bindings c before a (by simpa [Breakpoint.address?, same] using bound)
  aims := aims

end Sight

end Session

end SourceDebugger
