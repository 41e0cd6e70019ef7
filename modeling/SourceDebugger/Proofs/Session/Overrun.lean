import SourceDebugger.Proofs.Program.Overrun
import SourceDebugger.Proofs.Session.Launch
/-!
What a debugger makes of a program that writes a trap over its own code. Without a breakpoint there
it is a break of the program's own, behind which is no instruction; with one it is a hit of the
breakpoint, and the byte that the breakpoint has kept is put back.
-/
namespace SourceDebugger.Session

open Machine Traps Effect

variable {s t : Session Machine} {m n x : Machine}

section Rounds

/-- A look that finds what can be handled in one move. -/
theorem pump_one {e : Event} (running : s.state = .running) (attached : s.debuggee = some m)
    (polled : poll m = (.ok (some e), n))
    (done : advance (.handle e) { s with debuggee := some n } = (.ok none, t)) (millis : Nat) :
    s.perform (.pump millis) = t := by
  have looked : access (Debuggee.poll millis) s = (.ok (some e), { s with debuggee := some n }) := by
    rw [access_run attached, show (Debuggee.poll millis : Access Machine _) m = poll m from rfl, polled]
  rw [perform, respond, pump_run, if_pos running, looked]
  dsimp only
  rw [settle_one done]

theorem continue_settled {reason : PauseReason} (paused : s.state = .paused reason mainThread)
    (done : settle (.resume mainThread .continue) s = (.ok (), t)) : s.perform .continue = t := by
  rw [perform, respond, continueExecution, bind_run, requirePaused_run, paused]
  dsimp only
  rw [guarded, done]

/-- Where there is no instruction, a look finds a signal. -/
theorem poll_strayed (running : m.motion = .running) (quiet : m.pending = [])
    (calm : m.interruptRequested = false) (nowhere : m.executable.instrAt? m.registers.pc = none) :
    poll m = (.ok (some (.signal mainThread segmentationFault
      ("Invalid instruction pointer " ++ Text.hexMarked m.registers.pc.toNat))),
        { m.strayed with pending := [] }) := by
  have done : execute m = (.ok true, m.strayed) := by rw [execute_run, nowhere]
  have one : m.strayed.pending = [.signal mainThread segmentationFault
      ("Invalid instruction pointer " ++ Text.hexMarked m.registers.pc.toNat)] := by
    rw [Machine.strayed, quiet]
    rfl
  exact poll_report running quiet calm (.refl m) (by decide) done one

/-- A session with nothing between it and its machine: no trap, no step. -/
structure Alone (s : Session Machine) (m : Machine) : Prop where
  attached : s.debuggee = some m
  stepless : s.stepper = none
  bare : s.traps.entries = []

variable {thread : ThreadId} {pc : UInt64} {reason : PauseReason}

theorem Alone.pause (alone : s.Alone m) (reason : PauseReason) (thread : ThreadId) :
    (s.pause reason thread).Alone m := ⟨alone.attached, alone.stepless, alone.bare⟩

theorem Alone.with (alone : s.Alone m) (n : Machine) : Alone { s with debuggee := some n } n :=
  ⟨rfl, alone.stepless, alone.bare⟩

/-- Every trap that is hit is the program's own. -/
theorem Alone.breaks (alone : s.Alone m) (running : s.state = .running)
    (polled : poll m = (.ok (some (.trap mainThread pc .software)), n)) (millis : Nat) :
    (s.perform (.pump millis)).Alone n ∧
      (s.perform (.pump millis)).state = .paused .break mainThread := by
  have held := alone.with n
  rw [pump_one running alone.attached polled
    ((handle_break (Traps.contains_empty held.bare _)).trans (pauseAt_stepless held.stepless _ _))]
  exact ⟨held.pause .break mainThread, rfl⟩

theorem Alone.fails {number : Int} {text : String} (alone : s.Alone m) (running : s.state = .running)
    (polled : poll m = (.ok (some (.signal mainThread number text)), n)) (millis : Nat) :
    (s.perform (.pump millis)).Alone n ∧
      (s.perform (.pump millis)).state = .paused .exception mainThread := by
  have held := alone.with n
  rw [pump_one running alone.attached polled
    ((handle_signal _ _ _).trans (pauseAt_stepless held.stepless _ _))]
  exact ⟨held.pause .exception mainThread, rfl⟩

theorem Alone.goes (alone : s.Alone m) (paused : s.state = .paused reason mainThread)
    (alive : m.motion ≠ .exited) : (s.perform .continue).Alone (m.resumed .running) ∧
      (s.perform .continue).state = .running := by
  rw [continue_settled paused (settle_one (resume_free alone.attached alive (fun _ h => by cases h)
    (Traps.contains_empty alone.bare _)))]
  exact ⟨⟨rfl, alone.stepless, alone.bare⟩, rfl⟩

theorem Alone.ends {code : Int} (alone : s.Alone m) (running : s.state = .running)
    (polled : poll m = (.ok (some (.exited code)), n)) (millis : Nat) :
    (s.perform (.pump millis)).state = .exited (some code) none := by
  rw [pump_one running alone.attached polled (handle_exit code)]
  exact (exit_parts rfl (some code) none).1

end Rounds

/-- The program has been started and stands at its first instruction. -/
structure Entered (s : Session Machine) (x : Machine) : Prop extends Overruns longText x where
  attached : s.debuggee = some x
  running : s.state = .running
  stepless : s.stepper = none
  registers : x.registers = ⟨0x400010, 0x7ffefff8, 0⟩
  stack : x.stack.size = stackSize.toNat
  motion : x.motion = .running
  calm : x.interruptRequested = false
  signal : x.pendingSignal = none

/-- The program, started after some actions. -/
def overrunStart (before : List Action) : Session Machine :=
  (after ((overrunCode longText).host .standard) before).perform (.start ⟨"/bin/overrun", "/", []⟩)

/-- No trap lies on an instruction before the last one. -/
def Untouched (m : Machine) : Prop :=
  ∀ a ∈ (overrunInstrs longText).map (·.1), a ≠ 0x400022 →
    m.code[(a - codeBase).toNat]? ≠ some trapByte

/-- The addresses are tried one after another, and no others. -/
instance (m : Machine) : Decidable (Untouched m) :=
  show Decidable (∀ a ∈ (overrunInstrs longText).map (·.1), a ≠ 0x400022 →
    m.code[(a - codeBase).toNat]? ≠ some trapByte) from List.decidableBAll _ _

theorem entered_start {before : List Action}
    (idle : (after ((overrunCode longText).host .standard) before).state.isLive = false)
    (untouched : ∀ m ∈ (overrunStart before).debuggee, Untouched m) :
    ∃ x, Entered (overrunStart before) x := by
  obtain ⟨rs, asm⟩ := assemble_ok (overrun_built longText)
  have startable := Startable.after (overrunCode longText) .standard before idle
  have starts : Starts (overrunCode longText) ⟨"/bin/overrun", "/", []⟩ := by decide +kernel
  have entry : (overrunCode longText).entry = 0x400010 := by decide +kernel
  cases startable.start asm (by decide +kernel) ⟨"/bin/overrun", "/", []⟩ with
  | refused not => exact absurd starts not
  | unfinished not => exact absurd starts not
  | @begun x _ begun =>
    have free := untouched x begun.sound.attached
    have registers := begun.entry
    rw [entry, show stackTop - 8 = 0x7ffefff8 by decide] at registers
    obtain ⟨code, stack⟩ := begun.sizes
    exact ⟨x, ⟨begun.sound.executable, begun.quiet, code,
        fun place member => free place.1 (List.mem_map_of_mem member)⟩,
      begun.sound.attached, begun.running, begun.stepless, registers, stack, begun.motion, begun.free,
      begun.signal⟩

section Bare

variable (entered : Entered s x) (bare : s.traps.entries = [])

include entered bare

/-- Where there is no trap, the first look finds the trap that the program has written. -/
theorem Entered.breaks (millis : Nat) :
    ∃ S H, (s.perform (.pump millis)).Alone (x.overwritten S H) ∧
      (s.perform (.pump millis)).state = .paused .break mainThread := by
  obtain ⟨S, H, polled⟩ := entered.traps entered.registers entered.stack entered.motion entered.calm
    length_longText
  exact ⟨S, H, Alone.breaks ⟨entered.attached, entered.stepless, bare⟩ entered.running polled millis⟩

end Bare

section Marked

variable {trap : Trap} (entered : Entered s x) (found : s.traps.find? 0x400022 = some trap)

include entered found

/-- A breakpoint on the last instruction is hit even if the trap there is the program's work. -/
theorem Entered.hits (enabled : s.breakpoints.anyEnabled trap.users = true) (millis : Nat) :
    ∃ S H, (s.perform (.pump millis)).debuggee = some (standing (x.overwritten S H) 0x400022) ∧
      (s.perform (.pump millis)).traps = s.traps ∧
      (s.perform (.pump millis)).state = .paused .breakpoint mainThread := by
  obtain ⟨S, H, polled⟩ := entered.traps entered.registers entered.stack entered.motion entered.calm
    length_longText
  have laid : s.traps.contains 0x400022 = true := Traps.contains_iff.mpr ⟨trap, found⟩
  have users : s.traps.users 0x400022 = trap.users := by rw [Traps.users, found]; rfl
  have hit {u : Session Machine} (on : u.breakpoints.anyEnabled (u.traps.users 0x400022) = true)
      (stepless : u.stepper = none) : hitTrap mainThread 0x400022 u = (.ok none,
        { u with breakpoints := u.breakpoints.count (u.traps.users 0x400022) }.pause .breakpoint
          mainThread) := by
    have still : { u with breakpoints := u.breakpoints.count (u.traps.users 0x400022) }.stepper = none :=
      stepless
    rw [hitTrap, bind_ok (get_run u), ite_run, if_pos on, bind_ok (modify_run _ u)]
    exact pauseAt_stepless still _ _
  rw [pump_one entered.running entered.attached polled
    ((handle_hit rfl laid).trans (hit (users ▸ enabled) entered.stepless))]
  exact ⟨S, H, rfl, rfl, rfl⟩

omit entered in
/-- Under the breakpoint is still what the program has been loaded with, and that is executed. -/
theorem leaves_overwritten {S H : Array UInt8} (overruns : Overruns longText x) (quiet : x.pending = [])
    (signal : x.pendingSignal = none) (attached : t.debuggee = some (standing (x.overwritten S H) 0x400022))
    (traps : t.traps = s.traps) (paused : t.state = .paused .breakpoint mainThread)
    (inserted : trap.byte.inserted = true) (other : trap.byte.covered ≠ trapByte) :
    (t.perform .continue).state = .exited (some 0) none := by
  have size : x.code.size = 0x52 := overruns.code.trans (size_overrun longText)
  obtain ⟨executable, pending, _, signals⟩ := overwritten_kept x S H
  have stopped : (x.overwritten S H).motion = .stopped := rfl
  have code := overwritten_code x S H
  generalize x.overwritten S H = n at *
  have pc : (standing n 0x400022).registers.pc = 0x400022 := rfl
  generalize met : standing n 0x400022 = m at attached pc
  have code : m.code = writeAt x.code 0x22 [0xCC, 0, 0, 0] := by rw [← met]; exact code
  have stopped : m.motion = .stopped := by rw [← met]; exact stopped
  have nothing : m.pending = [] := by rw [← met]; exact pending.trans quiet
  have unsignalled : m.pendingSignal = none := by rw [← met]; exact signals.trans signal
  have executable : m.executable = overrunCode longText := by
    rw [← met]
    exact executable.trans overruns.executable
  have wide : m.code.size = 0x52 := by rw [code, size_writeAt, size]
  have located : m.locate 0x400022 1 = .ok (.code, 0x22) :=
    locate_code (by decide) (show 0x400022 + 1 ≤ 0x400000 + m.code.size by omega) (by decide)
  have laid : t.traps.contains m.registers.pc = true := by
    rw [traps, pc]
    exact Traps.contains_iff.mpr ⟨trap, found⟩
  have lifted := Instrumented.lift_run (i := ⟨t.traps, m⟩) (traps ▸ found) inserted located
  generalize put : m.poke (.code, 0x22) trap.byte.covered = w at lifted
  have same : w.motion = m.motion ∧ w.pendingSignal = m.pendingSignal ∧ w.pending = m.pending ∧
      w.registers = m.registers ∧ w.executable = m.executable := by
    rw [← put]
    exact ⟨rfl, rfl, rfl, rfl, rfl⟩
  obtain ⟨motion, signals, pending, registers, program⟩ := same
  have alive : w.motion ≠ .exited := by rw [motion, stopped]; decide
  have moves : Machine.resumed w .stepping = { w with motion := .stepping } := by
    rw [resumed, signals, unsignalled]
  have byte : w.code[0x22]? = some trap.byte.covered := by
    rw [← put]
    show (writeAt m.code 0x22 [trap.byte.covered])[0x22]? = _
    rw [writeAt_getElem?, if_pos ⟨Nat.le_refl 0x22, Nat.lt_succ_self 0x22, by omega⟩]
    rfl
  obtain ⟨v, polled⟩ := stops_uncovered (m := { w with motion := .stepping })
    (registers ▸ pc) (program.trans executable) (byte ▸ fun same => other (Option.some.inj same)) rfl
    (pending.trans nothing)
  rw [← pc] at lifted
  have first := resume_lifted .continue attached laid lifted alive
  rw [moves] at first
  rw [continue_settled paused (settle_few (by decide : 3 ≤ mostMoves) fun n => by
    rw [drive_next first, drive_next (await_stop rfl polled rfl), drive_next (handle_exit 0), drive_none])]
  exact (exit_parts rfl (some 0) none).1

/-- So the program ends as if it had not written anything. -/
theorem Entered.covers (enabled : s.breakpoints.anyEnabled trap.users = true)
    (inserted : trap.byte.inserted = true) (other : trap.byte.covered ≠ trapByte) (millis : Nat) :
    (s.perform (.pump millis)).state = .paused .breakpoint mainThread ∧
      ((s.perform (.pump millis)).perform .continue).state = .exited (some 0) none := by
  obtain ⟨S, H, attached, traps, paused⟩ := entered.hits found enabled millis
  exact ⟨paused, leaves_overwritten found entered.toOverruns entered.pending entered.signal attached
    traps paused inserted other⟩

end Marked

end SourceDebugger.Session
