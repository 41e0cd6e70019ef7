import SourceDebugger.Proofs.Session.Whereabouts
/-!
Asking a debuggee to stop. A program that runs is stopped before its next instruction. One that executes
a single instruction of a step does not hear of it, and the next one finds nothing asked for.
-/
namespace SourceDebugger

open Effect

namespace Machine

/-- What has been asked for comes before all else. -/
theorem poll_interrupted {m : Machine} (running : m.motion = .running) (quiet : m.pending = [])
    (requested : m.interruptRequested = true) :
    poll m = (.ok (some (.trap mainThread m.registers.pc .interrupt)), m.interrupted) := by
  have first : runSlice slice m = stopWith (.trap mainThread m.registers.pc .interrupt)
      { m with interruptRequested := false } := by
    rw [slice, runSlice, bind_ok (get_run m), ite_run, if_pos requested, bind_ok (modify_run _ m)]
  rw [poll_run, quiet, advance_run, running]
  dsimp only
  rw [first, stopWith_run]
  dsimp only
  rw [takeEvent_run, quiet]
  rfl

end Machine

namespace Session

open Machine

variable {e : Executable} {config : Config} {s : Session Machine} {m : Machine}

theorem break_run (running : s.state = .running) (attached : s.debuggee = some m) :
    breakExecution s = (.ok (), { s with
      debuggee := some { m with
        interruptRequested := m.interruptRequested || m.motion == .running } }) := by
  rw [breakExecution, bind_ok (get_run s), ite_run, if_pos running, guarded, access_run attached]
  rfl

/-- A machine that is not running takes no note of the request, which succeeds all the same. -/
theorem break_unheard (running : s.state = .running) (attached : s.debuggee = some m)
    (other : m.motion ≠ .running) : breakExecution s = (.ok (), s) := by
  have same : (m.interruptRequested || m.motion == .running) = m.interruptRequested := by
    cases motion : m.motion <;> simp [motion] at other ⊢
  rw [break_run running attached, same]
  exact congrArg _ (with_debuggee attached)

/-- A program that is running stops where it is. -/
theorem break_heard (e : Executable) (config : Config) (actions : List Action) {m : Machine}
    (running : (after (e.host config) actions).state = .running)
    (attached : (after (e.host config) actions).debuggee = some m) (moving : m.motion = .running)
    (millis : Nat) :
    let t := after (e.host config) (actions ++ [.break, .pump millis])
    t.state = .paused .forcedBreak mainThread ∧
      ∃ n, t.debuggee = some n ∧ n.registers = m.registers := by
  intro t
  obtain ⟨s, began⟩ : ∃ s, after (e.host config) actions = s := ⟨_, rfl⟩
  have ready : Ready (e.anywhere config) s none :=
    began ▸ after_ready (e.anywhere_lasting config) rfl actions
  have here : t = (s.perform .break).perform (.pump millis) := by
    rw [← began]
    exact List.foldl_append
  rw [began] at running attached
  obtain ⟨m', sound, course⟩ := ready.on running
  cases sound.attached.symm.trans attached
  have quiet : m.pending = [] := by
    cases course with
    | going _ quiet => exact quiet
    | stepping other | stepped other | ended _ other => rw [moving] at other; cases other
  let asked : Machine := { m with interruptRequested := true }
  have heard : s.perform .break = { s with debuggee := some asked } := by
    rw [perform, respond, break_run running attached, moving]
    simp [asked, moving]
  have looked : access (Debuggee.poll millis) { s with debuggee := some asked } =
      (.ok (some (.trap mainThread m.registers.pc .interrupt)),
        { s with debuggee := some asked.interrupted }) := by
    rw [access_run (d := asked) rfl]
    show ((poll asked).1, _) = _
    rw [show (Debuggee.poll millis : Access Machine (Option Event)) asked = poll asked from rfl,
      poll_interrupted (m := asked) moving quiet rfl]
  have after : Sound (e.anywhere config) { s with debuggee := some asked.interrupted }
      asked.interrupted none :=
    sound.driven (e.anywhere_lasting config).toStill [] .stopped false
  obtain ⟨j, paused, kept⟩ := pauseAt_spec after.toHeld .forcedBreak mainThread
  rw [here, heard, perform, respond, pump_run, if_pos running, looked]
  dsimp only
  rw [settle_one ((handle_interrupt mainThread m.registers.pc).trans paused)]
  exact ⟨rfl, j.debuggee, rfl, (driven kept.paint).2.2.2⟩

end Session

end SourceDebugger
