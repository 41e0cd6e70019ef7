import SourceDebugger.Proofs.Session.Conduct
import SourceDebugger.Proofs.Session.Sketch
import SourceDebugger.Proofs.Session.Whereabouts
/-!
The beginning of a run. A program that has been started stands at its first instruction, with nothing
executed yet; an observer who has seen nothing begins there, too.
-/
namespace SourceDebugger.Session

open Machine Traps Effect

variable {p : Program} {e : Executable} {o : Observer} {rs : List Routine} {config : Config}
  {s : Session Machine} {m : Machine}

/-- A session in which a start can be asked for: nothing runs, and nothing is left of an earlier run. -/
structure Startable (s : Session Machine) (e : Executable) (config : Config) : Prop where
  detached : s.Detached
  host : s.host = e.host config
  idle : s.Idle

theorem Startable.of_ready {w : Sight} (ready : Ready w s none) (host : w.host = e.host config)
    (idle : s.state.isLive = false) : s.Startable e config := by
  rcases ready.cases with ⟨detached, same, idle⟩ | ⟨m, sound⟩
  · exact ⟨detached, same.trans host, idle⟩
  · have live := isLive_of_live (ready.live sound)
    rw [idle] at live
    cases live

theorem Startable.after (e : Executable) (config : Config) (actions : List Action)
    (idle : (after (e.host config) actions).state.isLive = false) :
    (after (e.host config) actions).Startable e config :=
  .of_ready (after_ready (e.anywhere_lasting config) rfl actions) rfl idle

/-- A program can be started by its own path, and if it does not tell too much before it runs. -/
def Starts (e : Executable) (request : LaunchRequest) : Prop :=
  Path.same request.executable e.path = true ∧ (startEvents e).length < patience

instance (e : Executable) (request : LaunchRequest) : Decidable (Starts e request) :=
  inferInstanceAs (Decidable (_ ∧ _))

/-- What a start comes to. -/
inductive Started (s : Session Machine) (e : Executable) (config : Config) (request : LaunchRequest) :
    Session Machine → Prop
  | begun {t : Session Machine} {m : Machine} : Starts e request → Begun (e.entering config) t m →
      t.voice = (.empty, s.outbox) → t.breakpoints.items.length = s.breakpoints.items.length →
      Started s e config request t
  | refused {t : Session Machine} : ¬ Starts e request → t.state = s.state →
      Started s e config request t
  | unfinished {t : Session Machine} : ¬ Starts e request →
      t.state = .exited none (some .unfinished) → Started s e config request t

theorem Startable.start (asm : Assembled p e rs) (compact : p.Compact)
    (startable : s.Startable e config) (request : LaunchRequest) :
    Started s e config request (s.perform (.start request)) := by
  obtain ⟨detached, host, idle⟩ := startable
  have counted : Detached { s with launches := s.launches + 1 } :=
    ⟨detached.gone, detached.stepless, detached.empty, detached.tidy⟩
  have answer : s.host.launch s.launches request = launch e s.launches request := by
    rw [host]
    rfl
  change Started s e config request (Session.start request s).2
  rw [start_run (not_live_of_idle idle), answer, launch]
  by_cases path : Path.same request.executable e.path = true
  · have two : patience = patience - 2 + 2 := by decide
    have begins : Begins (e.entering config)
        ({ s with launches := s.launches + 1 }.attach (boot e) request)
        ((startEvents e).length < patience)
        (runFromEntry patience ({ s with launches := s.launches + 1 }.attach (boot e) request)) :=
      two ▸ boot_ready (entering_still asm compact config) counted host request (patience - 2)
    rw [if_pos path]
    dsimp only
    rw [guarded]
    rcases run : runFromEntry patience ({ s with launches := s.launches + 1 }.attach (boot e) request)
      with ⟨f | _, t⟩ <;> rw [run] at begins ⊢
    · cases begins with
      | unfinished many failing =>
        exact .unfinished (fun starts => many starts.2) (fail_unfinished failing.2.1)
    · cases begins with
      | on few begun silent =>
        exact .begun ⟨path, few⟩ begun (Prod.ext silent.output silent.outbox) silent.items
  · rw [if_neg path]
    exact .refused (fun starts => path starts.1) rfl

section Begun

variable (begun : Begun (e.entering config) s m)

include begun

/-- A process that has not run yet is its program at the first instruction. -/
theorem Begun.over : s.traps.Over (boot e).calm m := by
  obtain ⟨_, x, calls, overlaid, rfl, _⟩ := begun.sound.seen
  exact overlaid

theorem Begun.entry : m.registers = ⟨e.entry, stackTop - 8, 0⟩ := by
  obtain ⟨d, rfl, _⟩ := begun.over
  simp only [Dress.on, Machine.calm, boot]

theorem Begun.sizes : m.code.size = e.code.size ∧ m.stack.size = stackSize.toNat := by
  obtain ⟨d, rfl, _⟩ := begun.over
  have size {x : Machine} (r : Machine.Region) : ((d.on x).region r).size = (x.region r).size := by
    rw [region_on, size_overlay]
  have launched : Lived e (boot e).calm [e.outermost] := .launch
  have stack {x : Machine} (whole : x.stack.size = stackSize.toNat) :
      (d.on x).stack.size = stackSize.toNat := (size .stack).trans whole
  exact ⟨size .code, stack launched.stack⟩

theorem Begun.watched : Ready (e.sight config) s none := by
  have seen : (e.sight config).sees s.roster.modules s.traps m :=
    ⟨begun.sound.seen.1, _, _, begun.over, .launch⟩
  exact .running { begun.sound with seen } begun.running (.going begun.motion begun.quiet)

/-- An observer begins with the first instruction, and looks for a breakpoint there. -/
theorem Begun.stage (program : o.program = e) (posted : Posted o s.breakpoints) :
    Stage o s none (.come .nothing (.launch e)) s.voice := by
  subst program
  have stepless := begun.stepless
  refine .coming .continue begun.sound.attached ⟨begun.over, .launch, begun.free, posted, ?_⟩ rfl
    (.on begun.motion begun.quiet) (.on (.away ?_))
  · intro q known
    rw [stepless] at known
    cases known
  · rw [stepless]
    exact .alone (.inl rfl)

end Begun

end SourceDebugger.Session
