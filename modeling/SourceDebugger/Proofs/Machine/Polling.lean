import SourceDebugger.Proofs.Machine.Turn
/-!
Looking for an event. A running machine executes some instructions that report nothing, and after
them nothing, an interrupt, a failure, or one instruction that reports one event. A machine that
steps executes one instruction.
-/
namespace SourceDebugger.Machine

open Effect

/-- So many instructions that report nothing. -/
inductive Quiet : Nat → Machine → Machine → Prop
  | refl (m : Machine) : Quiet 0 m m
  | step {k : Nat} {m n l : Machine} : execute m = (.ok false, n) → n.pending = [] →
      Quiet k n l → Quiet (k + 1) m l

/-- The machine after a requested interrupt, with nothing pending. -/
def interrupted (m : Machine) : Machine :=
  { m with interruptRequested := false, pending := [], motion := .stopped }

/-- What a look at a running machine with nothing pending can come to, when it may execute so many
instructions. -/
inductive Polled : Nat → Machine → Except Fault (Option Event) × Machine → Prop
  | idle {k : Nat} {m n : Machine} : Quiet k m n → Polled k m (.ok none, n)
  | interrupt {most k : Nat} {m n : Machine} : Quiet k m n → n.interruptRequested = true →
      Polled most m (.ok (some (.trap mainThread n.registers.pc .interrupt)), n.interrupted)
  | failure {most k : Nat} {m n l : Machine} {e : Fault} : Quiet k m n →
      n.interruptRequested = false → execute n = (.error e, l) → Polled most m (.error e, l)
  | report {most k : Nat} {m n l : Machine} {b : Bool} {e : Event} : Quiet k m n →
      n.interruptRequested = false → execute n = (.ok b, l) → l.pending = [e] →
      Polled most m (.ok (some e), { l with pending := [] })

/-- The machine after the one instruction of a step, with only some events left. -/
def rested (m : Machine) (pending : List Event) : Machine :=
  { m with motion := .stopped, pending }

/-- What a look at a machine in a step can come to. -/
inductive Single (m : Machine) : Except Fault (Option Event) × Machine → Prop
  | failure {l : Machine} {e : Fault} : execute m = (.error e, l) → Single m (.error e, l)
  | nothing {l : Machine} : execute m = (.ok false, l) → l.pending = [] →
      Single m (.ok (some (.trap mainThread l.registers.pc .singleStep)), l.rested [])
  | notice {l : Machine} {e : Event} : execute m = (.ok false, l) → Notice m.executable e →
      l.pending = [e] →
      Single m (.ok (some e), l.rested [.trap mainThread l.registers.pc .singleStep])
  | stop {l : Machine} {e : Event} : execute m = (.ok true, l) → l.pending = [e] →
      Single m (.ok (some e), { l with pending := [] })

theorem takeEvent_run (m : Machine) : takeEvent m = match m.pending with
    | [] => (.ok none, m)
    | event :: rest => (.ok (some event), { m with pending := rest }) := by
  rw [takeEvent, bind_ok (get_run m)]
  cases m.pending <;> rfl

theorem poll_run (m : Machine) : poll m = match m.pending with
    | event :: rest => (.ok (some event), { m with pending := rest })
    | [] => match advance m with
      | (.ok (), n) => takeEvent n
      | (.error e, n) => (.error e, n) := by
  rw [poll, bind_run, takeEvent_run]
  cases m.pending with
  | nil =>
    dsimp only
    rw [bind_run]
    rcases advance m with ⟨_ | _, _⟩ <;> rfl
  | cons event rest => rfl

theorem advance_run (m : Machine) : advance m = match m.motion with
    | .running => runSlice slice m
    | .stepping => match execute m with
      | (.ok true, n) => (.ok (), n)
      | (.ok false, n) => stopWith (.trap mainThread n.registers.pc .singleStep) n
      | (.error e, n) => (.error e, n)
    | .stopped | .exited => (.ok (), m) := by
  rw [advance, bind_ok (get_run m)]
  cases m.motion with
  | stepping =>
    dsimp only
    rw [bind_run]
    rcases execute m with ⟨_ | b, n⟩
    · rfl
    · cases b <;> rfl
  | running | stopped | exited => rfl

theorem execute_pending {m n : Machine} {b : Bool} (done : execute m = (.ok b, n))
    (quiet : m.pending = []) :
    b = false ∧ n.pending = [] ∧ n.motion = m.motion ∨
      b = false ∧ n.motion = m.motion ∧ (∃ e, Notice m.executable e ∧ n.pending = [e]) ∨
        b = true ∧ ∃ e, n.pending = [e] := by
  rcases execute_report done with ⟨rfl, rfl⟩ | report
  · exact .inr (.inr ⟨rfl, _, by simp only [trapped, quiet]; rfl⟩)
  · cases report with
    | nothing h₁ h₂ => exact .inl ⟨rfl, h₁.trans quiet, h₂⟩
    | notice e h₁ h₂ h₃ => exact .inr (.inl ⟨rfl, h₃, e, h₁, by rw [h₂, quiet]; rfl⟩)
    | signal number description h₁ => exact .inr (.inr ⟨rfl, _, by rw [h₁, quiet]; rfl⟩)
    | exit code h₁ => exact .inr (.inr ⟨rfl, _, by rw [h₁, quiet]; rfl⟩)

/-- What a look does once the machine has moved. -/
def collect : Except Fault Unit × Machine → Except Fault (Option Event) × Machine
  | (.ok (), m) => takeEvent m
  | (.error e, m) => (.error e, m)

theorem collect_one {m : Machine} {e : Event} (pending : m.pending = [e]) :
    collect (.ok (), m) = (.ok (some e), { m with pending := [] }) := by
  rw [collect, takeEvent_run, pending]

theorem Polled.step {k : Nat} {m n : Machine} {r : Except Fault (Option Event) × Machine}
    (done : execute m = (.ok false, n)) (quiet : n.pending = []) (polled : Polled k n r) :
    Polled (k + 1) m r := by
  cases polled with
  | idle h => exact .idle (.step done quiet h)
  | interrupt h requested => exact .interrupt (.step done quiet h) requested
  | failure h free failed => exact .failure (.step done quiet h) free failed
  | report h free reported pending => exact .report (.step done quiet h) free reported pending

theorem runSlice_polled (n : Nat) (m : Machine) (quiet : m.pending = []) :
    Polled n m (collect (runSlice n m)) := by
  induction n generalizing m with
  | zero =>
    have nothing : takeEvent m = (.ok none, m) := by rw [takeEvent_run, quiet]
    show Polled 0 m (takeEvent m)
    rw [nothing]
    exact .idle (.refl m)
  | succ n ih =>
    rw [runSlice, bind_ok (get_run m), ite_run]
    split
    · rename_i requested
      rw [bind_ok (modify_run _ m), stopWith_run, collect_one (by rw [quiet]; rfl)]
      exact .interrupt (.refl m) requested
    · rename_i free
      replace free : m.interruptRequested = false := by simpa using free
      rw [bind_run]
      rcases executed : execute m with ⟨e | b, l⟩
      · exact .failure (.refl m) free executed
      · rcases execute_pending executed quiet with ⟨rfl, none, _⟩ | ⟨rfl, _, e, _, one⟩ | ⟨rfl, e, one⟩
        · simp only [Bool.false_eq_true, if_false]
          rw [bind_ok (get_run l), ite_run, none, if_pos List.isEmpty_nil]
          exact (ih l none).step executed none
        · simp only [Bool.false_eq_true, if_false]
          rw [bind_ok (get_run l), ite_run, one, if_neg (by simp), pure_run, collect_one one]
          exact .report (.refl m) free executed one
        · simp only [if_true]
          rw [pure_run, collect_one one]
          exact .report (.refl m) free executed one

theorem poll_running {m : Machine} (running : m.motion = .running) (quiet : m.pending = []) :
    Polled slice m (poll m) := by
  have polled := runSlice_polled slice m quiet
  rw [poll_run, quiet, advance_run, running]
  exact polled

theorem poll_stepping {m : Machine} (stepping : m.motion = .stepping) (quiet : m.pending = []) :
    Single m (poll m) := by
  rw [poll_run, quiet, advance_run, stepping]
  rcases executed : execute m with ⟨e | b, l⟩
  · exact .failure executed
  · rcases execute_pending executed quiet with ⟨rfl, none, _⟩ | ⟨rfl, _, e, notice, one⟩ | ⟨rfl, e, one⟩
    · dsimp only
      rw [stopWith_run]
      dsimp only
      rw [takeEvent_run, none]
      exact .nothing executed none
    · dsimp only
      rw [stopWith_run]
      dsimp only
      rw [takeEvent_run, one]
      have single := Single.notice executed notice one
      exact single
    · dsimp only
      rw [takeEvent_run, one]
      exact .stop executed one

theorem poll_resting {m : Machine} (resting : m.motion = .stopped ∨ m.motion = .exited)
    (quiet : m.pending = []) : poll m = (.ok none, m) := by
  rw [poll_run, quiet, advance_run]
  rcases resting with h | h <;> rw [h] <;> exact (takeEvent_run m).trans (by rw [quiet])

theorem poll_pending {m : Machine} {e : Event} {rest : List Event} (pending : m.pending = e :: rest) :
    poll m = (.ok (some e), { m with pending := rest }) := by
  rw [poll_run, pending]

/-- A look at a machine that does not run freely executes one instruction at most. -/
theorem onward_poll {m : Machine} (fresh : m.motion ≠ .running) : Onward m (poll m).2 := by
  cases quiet : m.pending with
  | cons e rest =>
    rw [poll_pending quiet]
    exact ⟨rfl, rfl, rfl, Nat.le_refl _, rfl⟩
  | nil =>
    cases motion : m.motion with
    | running => exact absurd motion fresh
    | stopped => rw [poll_resting (.inl motion) quiet]; exact .refl m
    | exited => rw [poll_resting (.inr motion) quiet]; exact .refl m
    | stepping =>
      have onward := onward_execute m
      have single := poll_stepping motion quiet
      rcases looked : poll m with ⟨r, n⟩
      rw [looked] at single
      cases single with
      | failure failed => rwa [failed] at onward
      | nothing done | notice done | stop done =>
        rw [done] at onward
        exact ⟨onward.executable, onward.code, onward.stack, onward.heap, onward.interrupt⟩

theorem Quiet.motion {k : Nat} {m n : Machine} (quiet : Quiet k m n) (none : m.pending = []) :
    n.pending = [] ∧ n.motion = m.motion := by
  induction quiet with
  | refl m => exact ⟨none, rfl⟩
  | step done nothing _ ih =>
    have kept := ih nothing
    rcases execute_pending done none with ⟨_, _, same⟩ | ⟨_, same, _⟩ | ⟨h, _⟩
    · exact ⟨kept.1, kept.2.trans same⟩
    · exact ⟨kept.1, kept.2.trans same⟩
    · cases h

theorem Quiet.onward {k : Nat} {m n : Machine} (quiet : Quiet k m n) : Onward m n := by
  induction quiet with
  | refl m => exact .refl m
  | @step k m n l done _ _ ih =>
    have first := onward_execute m
    rw [done] at first
    exact first.trans ih

theorem Quiet.trans {k j : Nat} {m n l : Machine} (first : Quiet k m n) (second : Quiet j n l) :
    Quiet (k + j) m l := by
  induction first with
  | refl => rwa [Nat.zero_add]
  | step done none _ ih => exact Nat.add_right_comm _ 1 j ▸ .step done none (ih second)

/-- A look passes instructions that report nothing. -/
theorem runSlice_quiet {k : Nat} {m n : Machine} (quiet : Quiet k m n)
    (free : m.interruptRequested = false) (j : Nat) : runSlice (k + j) m = runSlice j n := by
  induction quiet with
  | refl => rw [Nat.zero_add]
  | @step k m n _ done none _ ih =>
    have onward := onward_execute m
    rw [done] at onward
    rw [Nat.add_right_comm, runSlice, bind_ok (get_run m), ite_run, if_neg (by simp [free]),
      bind_ok done]
    simp only [Bool.false_eq_true, if_false]
    rw [bind_ok (get_run n), ite_run, none, if_pos List.isEmpty_nil]
    exact ih (onward.interrupt.trans free)

/-- A look comes to the first report. -/
theorem poll_report {k : Nat} {m n l : Machine} {e : Event} (running : m.motion = .running)
    (none : m.pending = []) (free : m.interruptRequested = false) (quiet : Quiet k m n)
    (short : k < slice) (done : execute n = (.ok true, l)) (one : l.pending = [e]) :
    poll m = (.ok (some e), { l with pending := [] }) := by
  obtain ⟨j, rest⟩ := Nat.exists_eq_add_of_lt short
  have requested : n.interruptRequested = false := quiet.onward.interrupt.trans free
  have last : runSlice (j + 1) n = (.ok (), l) := by
    rw [runSlice, bind_ok (get_run n), ite_run, if_neg (by simp [requested]), bind_ok done]
    rfl
  rw [poll_run, none, advance_run, running]
  dsimp only
  rw [rest, Nat.add_assoc, runSlice_quiet quiet free, last]
  exact collect_one one

section Resume

/-- The machine told to go on. A pending signal ends the program instead. -/
def resumed (m : Machine) (motion : Motion) : Machine :=
  match m.pendingSignal with
  | some signal =>
    { m with pendingSignal := none, pending := m.pending ++ [.exited (128 + signal)]
             motion := .exited, threads := [] }
  | none => { m with motion }

/-- How a machine moves when it is told to go on in a mode. -/
def modeMotion : ResumeMode → Motion
  | .continue => .running
  | .step _ => .stepping

theorem resume_run {m : Machine} {mode : ResumeMode} (alive : m.motion ≠ .exited)
    (main : ∀ t, mode = .step t → t = mainThread) :
    resume mode m = (.ok (), m.resumed (modeMotion mode)) := by
  rw [resume.eq_def, bind_ok (get_run m)]
  simp only [if_neg alive]
  obtain ⟨_, _, _, _, _, _, _, _, _, _, signal⟩ := m
  cases mode with
  | «continue» => cases signal <;> rfl
  | step t =>
    cases main t rfl
    cases signal <;> rfl

end Resume

end SourceDebugger.Machine
