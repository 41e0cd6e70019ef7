import SourceDebugger.Proofs.Session.Hits
import SourceDebugger.Proofs.Session.Overrun
/-!
A breakpoint on a trap of the program's own. The trap that is lifted for one instruction uncovers the
program's, which stops the program at the same address; as there is a trap of the debugger's, the stop is
taken for a hit of it. So the program is told to go on, and is where it was.
-/
namespace SourceDebugger.Session

open Machine Traps Effect

variable {e : Executable} {config : Config} {id : BreakpointId} {s : Session Machine} {m : Machine}

/-- A step onto a trap of the program's own ends behind it. -/
theorem poll_break (stepping : m.motion = .stepping) (quiet : m.pending = [])
    (own : m.executable.instrAt? m.registers.pc = some .break) :
    poll m = (.ok (some (.trap mainThread (m.registers.pc + 1) .software)),
      { m.trapped with pending := [] }) := by
  have done : execute m = (.ok true, m.trapped) := by
    rw [execute_run, own]
    exact if_pos (.inr rfl)
  have one : m.trapped.pending = [.trap mainThread (m.registers.pc + 1) .software] := by
    rw [trapped, quiet]
    rfl
  have single := poll_stepping stepping quiet
  rcases looked : poll m with ⟨r, n⟩
  rw [looked] at single
  cases single with
  | failure failed => cases failed.symm.trans done
  | nothing other | notice other => cases other.symm.trans done
  | stop same told =>
    cases same.symm.trans done
    cases List.singleton_inj.mp (told.symm.trans one)
    rfl

theorem strikes_iff {id : BreakpointId} (attached : s.debuggee = some m) :
    s.strikes id = true ↔ ∃ b ∈ s.breakpoints.registered,
      b.id = id ∧ b.enabled = true ∧ b.address? = some m.registers.pc := by
  simp [strikes, attached, and_assoc]

/-- A paused session where a trap of the program's own carries a breakpoint that is turned on. -/
structure Doubled (e : Executable) (config : Config) (id : BreakpointId) (s : Session Machine)
    (m : Machine) : Prop where
  sound : Sound (e.anywhere config) s m none
  rest : Resting m
  stepless : s.stepper = none
  paused : ∃ reason, s.state = .paused reason mainThread
  own : e.instrAt? m.registers.pc = some .break
  unsignalled : m.pendingSignal = none
  strikes : s.strikes id = true

/-- There is a trap where such a breakpoint is, and the breakpoint is one of its owners. -/
theorem Doubled.laid (doubled : Doubled e config id s m) {u : Session Machine} {n : Machine}
    (held : Held u n none) (same : u.breakpoints = s.breakpoints) :
    u.traps.contains m.registers.pc = true ∧
      ∃ b ∈ u.breakpoints.items, b.id = id ∧ (b.registered && b.enabled &&
        (u.traps.users m.registers.pc).contains b.id) = true := by
  obtain ⟨b, member, rfl, enabled, bound⟩ := (strikes_iff doubled.sound.attached).mp doubled.strikes
  rw [← same] at member
  obtain ⟨inside, registered⟩ := Breakpoints.mem_registered.mp member
  have user := (held.tidy.bound_iff member m.registers.pc).mp bound
  exact ⟨(held.tidy.contains_iff _).mpr (.inl ⟨b, member, bound⟩), b, inside, rfl,
    by simp [registered, enabled, user]⟩

/-- While its trap is lifted, the program is stopped by its own. -/
theorem Doubled.stops (doubled : Doubled e config id s m) {j : Instrumented Machine}
    (kept : Kept s m (leavePause s) j (some m.registers.pc)) :
    ∃ u n, advance (.await mainThread m.registers.pc .continue [])
        ((leavePause s).holding ⟨j.traps, j.debuggee.resumed .stepping⟩) =
          (.ok (some (.handle (.trap mainThread (m.registers.pc + 1) .software))), u) ∧
      Held u n none ∧ n.registers = { m.registers with pc := m.registers.pc + 1 } ∧
      n.pendingSignal = none ∧ u.breakpoints = s.breakpoints := by
  obtain ⟨_, _, _, same⟩ := kept.paint.rest
  have executable : j.debuggee.executable = m.executable := by rw [same]
  have registers : j.debuggee.registers = m.registers := by rw [same]
  have quiet : j.debuggee.pending = [] := by rw [same]; exact doubled.rest.quiet
  have unsignalled : j.debuggee.pendingSignal = none := by rw [same]; exact doubled.unsignalled
  let x : Machine := { j.debuggee with motion := .stepping, pendingSignal := none }
  have resumed : j.debuggee.resumed .stepping = x := by
    rw [Machine.resumed, unsignalled]
  have own : x.executable.instrAt? x.registers.pc = some .break := by
    show j.debuggee.executable.instrAt? j.debuggee.registers.pc = _
    rw [executable, registers, doubled.sound.executable]
    exact doubled.own
  have polled := poll_break (m := x) rfl quiet own
  rw [show x.registers = m.registers from registers] at polled
  have onward : Onward j.debuggee { x.trapped with pending := [] } := ⟨rfl, rfl, rfl, Nat.le_refl _, rfl⟩
  have nothing : ∀ told ∈ ([] : List Event), Notice e told := by simp
  obtain ⟨k, u, n, noted, paint, held, ends⟩ := afterLift_stop .continue nothing
    (kept.held.machine onward) (e := .trap mainThread (m.registers.pc + 1) .software) rfl
    (by intro _ _ other; cases other)
  cases noted
  obtain ⟨_, _, _, left⟩ := paint.rest
  refine ⟨_, n, ?_, held, ?_, congrArg (·.pendingSignal) left, rfl⟩
  · rw [resumed, await_stop rfl polled rfl]
    exact ends
  · calc n.registers = { x.registers with pc := x.registers.pc + 1 } := congrArg (·.registers) left
      _ = { m.registers with pc := m.registers.pc + 1 } := by rw [← registers]

/-- The stop is taken for a hit of the breakpoint, and the program put back onto the trap. -/
theorem Doubled.hits (doubled : Doubled e config id s m) :
    ∃ (u : Session Machine) (n : Machine), Held u n none ∧ u.breakpoints = s.breakpoints ∧
      ∃ j : Instrumented Machine, j.debuggee.registers = m.registers ∧
        j.debuggee.pendingSignal = none ∧ s.perform .continue =
          (({ u with breakpoints := u.breakpoints.count (u.traps.users m.registers.pc) } :
            Session Machine).stepless.holding j).pause .breakpoint mainThread := by
  obtain ⟨reason, paused⟩ := doubled.paused
  obtain ⟨laid, _⟩ := doubled.laid doubled.sound.toHeld rfl
  obtain ⟨j, first, kept⟩ := resume_trapped .continue doubled.sound.toHeld doubled.rest.alive laid
  obtain ⟨u, n, second, held, registers, unsignalled, breakpoints⟩ := doubled.stops kept
  have before : m.registers.pc + 1 - 1 = m.registers.pc := by simp
  have put : standing n (m.registers.pc + 1 - 1) = { n with registers := m.registers } := by
    rw [standing, registers, before]
  have returned := held.machine (n := { n with registers := m.registers })
    ⟨rfl, rfl, rfl, Nat.le_refl _, rfl⟩
  obtain ⟨laid, owner⟩ := doubled.laid returned breakpoints
  have third : advance (.handle (.trap mainThread (m.registers.pc + 1) .software)) u = _ :=
    handle_hit held.attached (by rw [before]; exact laid)
  rw [put, before] at third
  have enabled : u.breakpoints.anyEnabled (u.traps.users m.registers.pc) = true :=
    List.any_eq_true.mpr (owner.imp fun b found => ⟨found.1, found.2.2⟩)
  obtain ⟨k, hit, again⟩ := hitTrap_enabled returned enabled
  obtain ⟨_, _, _, left⟩ := again.paint.rest
  refine ⟨_, _, returned, breakpoints, k, congrArg (·.registers) left,
    (congrArg (·.pendingSignal) left).trans unsignalled, continue_settled paused ?_⟩
  refine settle_few (by decide : 3 ≤ mostMoves) fun most => ?_
  rw [drive_next first, drive_next second, drive_next (third.trans hit), drive_none]

/-- Told to go on, the program is where it was, and the breakpoint has one hit more. -/
theorem Doubled.continues (doubled : Doubled e config id s m) :
    let t := s.perform .continue
    ∃ n, Doubled e config id t n ∧ n.registers = m.registers ∧
      t.state = .paused .breakpoint mainThread ∧ t.hitsOf id = s.hitsOf id + 1 := by
  intro t
  obtain ⟨reason, paused⟩ := doubled.paused
  have ready : Ready (e.anywhere config) s none :=
    .paused doubled.sound doubled.rest doubled.stepless paused
  have after : Ready (e.anywhere config) t none := continue_ready (e.anywhere_lasting config) ready
  obtain ⟨u, k, held, breakpoints, j, registers, unsignalled, same⟩ := doubled.hits
  obtain ⟨_, owner⟩ := doubled.laid held breakpoints
  have state : t.state = .paused .breakpoint mainThread := by rw [show t = _ from same]; rfl
  have attached : t.debuggee = some j.debuggee := by rw [show t = _ from same]; rfl
  have counted : t.breakpoints = u.breakpoints.count (u.traps.users m.registers.pc) := by
    rw [show t = _ from same]
    rfl
  have struck := strikes_counted held.tidy attached (congrArg (·.pc) registers) counted id
  have found := (any_find? held.tidy id _).mpr owner
  obtain ⟨_, n, sound, rest, stepless⟩ := after.still state
  cases sound.attached.symm.trans attached
  refine ⟨_, ⟨sound, rest, stepless, ⟨_, state⟩, by rw [registers]; exact doubled.own, unsignalled,
    struck.trans found⟩, registers, state, ?_⟩
  have hits := hitsOf_count u (u.traps.users m.registers.pc) id
  rw [found, Bool.toNat_true] at hits
  rw [hitsOf, hitsOf, counted, ← breakpoints]
  exact hits

/-- However often it is told to go on, it is where it was. -/
theorem Doubled.recurs (doubled : Doubled e config id s m) (n : Nat) :
    let t := (List.replicate n Action.continue).foldl perform s
    ∃ x, Doubled e config id t x ∧ x.registers = m.registers ∧ t.hitsOf id = s.hitsOf id + n ∧
      (n ≠ 0 → t.state = .paused .breakpoint mainThread) := by
  induction n generalizing s m with
  | zero => exact ⟨m, doubled, rfl, rfl, fun some => absurd rfl some⟩
  | succ n ih =>
    obtain ⟨_, once, here, state, hits⟩ := doubled.continues
    obtain ⟨x, again, there, more, stays⟩ := ih once
    rw [List.replicate_succ, List.foldl_cons]
    refine ⟨x, again, there.trans here, by rw [more, hits]; omega, fun _ => ?_⟩
    cases n with
    | zero => exact state
    | succ n => exact stays (by simp)

/-- A program that is paused at a trap of its own, where a breakpoint is turned on, does not get past it:
each time it goes on it comes to a pause at that breakpoint, which counts one hit more, with the same
registers. -/
theorem own_trap_recurs (actions : List Action) {reason : PauseReason} {thread : ThreadId}
    (paused : (after (e.host config) actions).state = .paused reason thread)
    (attached : (after (e.host config) actions).debuggee = some m) (unsignalled : m.pendingSignal = none)
    (own : e.instrAt? m.registers.pc = some .break)
    (strikes : (after (e.host config) actions).strikes id = true) (n : Nat) :
    let t := after (e.host config) (actions ++ List.replicate (n + 1) .continue)
    t.state = .paused .breakpoint mainThread ∧
      t.hitsOf id = (after (e.host config) actions).hitsOf id + (n + 1) ∧
      ∃ x, t.debuggee = some x ∧ x.registers = m.registers := by
  intro t
  have ready : Ready (e.anywhere config) (after (e.host config) actions) none :=
    after_ready (e.anywhere_lasting config) rfl actions
  obtain ⟨rfl, _, sound, rest, stepless⟩ := ready.still paused
  cases sound.attached.symm.trans attached
  obtain ⟨x, doubled, registers, hits, state⟩ :=
    Doubled.recurs ⟨sound, rest, stepless, ⟨reason, paused⟩, own, unsignalled, strikes⟩ (n + 1)
  rw [show t = _ from List.foldl_append]
  exact ⟨state (by simp), hits, x, doubled.sound.attached, registers⟩

end SourceDebugger.Session
