import SourceDebugger.Proofs.Session.Commands
import SourceDebugger.Session.Inspect
/-!
Frames and arrays are good for one pause. What was read in a pause can be asked about as long as that
pause lasts, and is refused ever after: no later pause, of the same run or of another one, bears the
same stamp. The debuggee may be anything.
-/
namespace SourceDebugger

def DebuggerEvent.isPause : DebuggerEvent → Bool
  | .paused .. => true
  | _ => false

/-- How many pauses have been reported. -/
def Record.pauses (r : Record) : Nat := r.events.countP (·.isPause)

section Passes

variable {launching : Prop} {r r' : Record}

theorem pauses_logs (lines : List String) : (lines.map DebuggerEvent.log).countP (·.isPause) = 0 := by
  induction lines with
  | nil => rfl
  | cons line rest ih => simp [DebuggerEvent.isPause]

theorem Passage.pauses_le (passage : Passage launching r r') : r.pauses ≤ r'.pauses := by
  cases passage <;> simp [Record.pauses, List.countP_append]

/-- Who is in another pause than before has been told of it, and the generation is another one. -/
theorem Passes.stays_or_leaves (passes : Passes launching r r') {reason : PauseReason}
    {thread : ThreadId} (paused : r.state = .paused reason thread) :
    (r'.state = r.state ∧ r'.generation = r.generation ∧ r'.pauses = r.pauses) ∨
      r.generation < r'.generation ∧ r.pauses ≤ r'.pauses ∧
        (r'.state.isPaused = true → r.pauses < r'.pauses) := by
  induction passes with
  | refl => exact .inl ⟨rfl, rfl, rfl⟩
  | @tail b c _ passage ih =>
    have more := passage.pauses_le
    rcases ih with ⟨state, generation, pauses⟩ | ⟨later, told, fresh⟩
    · rw [paused] at state
      cases passage with
      | launched _ idle => rw [state] at idle; cases idle
      | wrote text live =>
        refine .inl ⟨state.trans paused.symm, generation, ?_⟩
        rw [← pauses, Record.pauses, List.countP_append, pauses_logs]
        rfl
      | resumed => exact .inr ⟨by simp [generation], pauses ▸ more, fun halted => by cases halted⟩
      | paused _ _ running => rw [state] at running; cases running
      | ended => exact .inr ⟨by simp [generation], pauses ▸ more, fun halted => by cases halted⟩
    · have further := passage.generation_le
      refine .inr ⟨by omega, by omega, fun halted => ?_⟩
      cases passage with
      | launched | resumed | ended => cases halted
      | wrote => exact Nat.lt_of_lt_of_le (fresh halted) more
      | paused =>
        refine Nat.lt_of_le_of_lt told ?_
        simp [Record.pauses, List.countP_append, DebuggerEvent.isPause]

end Passes

namespace Session

open Effect Machine

variable {δ : Type} [Debuggee δ] {s t : Session δ}

section Leaving

/-- A change from which a session does not come back into the pause it was in. -/
def Departs {α : Type} (generation : Nat) : Except Fault α × Session δ → Prop
  | (.ok _, t) => generation < t.generation
  | (.error _, t) => generation ≤ t.generation ∧ t.Active

omit [Debuggee δ] in
theorem exit_generation (s : Session δ) (code : Option Int) (fault : Option Fault) :
    (s.exit code fault).generation = s.generation + 1 := by
  rw [exit]
  cases s.output.flush <;> rfl

omit [Debuggee δ] in
theorem guarded_departs {α : Type} {a : Change δ α} {generation : Nat}
    (departs : Departs generation (a s)) : generation < (guarded a s).2.generation := by
  rw [guarded]
  rcases run : a s with ⟨e | x, t⟩ <;> rw [run] at departs
  · dsimp only
    rw [fail_live departs.2, exit_generation]
    exact Nat.lt_succ_of_le departs.1
  · exact departs

omit [Debuggee δ] in
theorem departs_failed {α : Type} (active : s.Active) (e : Fault) (t : Session δ) (hushed : Hushed s t) :
    Departs (α := α) s.generation (.error e, t) :=
  ⟨Nat.le_of_eq (congrArg Record.generation hushed.record).symm, hushed.active active⟩

omit [Debuggee δ] in
theorem leavePause_again (s : Session δ) : leavePause (leavePause s) = leavePause s := rfl

omit [Debuggee δ] in
theorem leavePause_generation {reason : PauseReason} {thread : ThreadId}
    (paused : s.state = .paused reason thread) : (leavePause s).generation = s.generation + 1 := by
  simp [leavePause, paused, RunState.isPaused]

/-- The first thing that is done to resume a session is to leave its pause. -/
theorem resume_left (thread : ThreadId) (mode : ResumeMode) (s : Session δ) :
    advance (.resume thread mode) s = advance (.resume thread mode) (leavePause s) := by
  rw [advance, resumeThread, bind_ok (modify_run _ s), bind_ok (modify_run _ (leavePause s)),
    leavePause_again]

theorem drive_resume_departs (most : Nat) {thread : ThreadId} {mode : ResumeMode} {reason : PauseReason}
    {stopped : ThreadId} (attached : s.debuggee.isSome = true) (paused : s.state = .paused reason stopped) :
    Departs s.generation (drive most (some (.resume thread mode)) s) := by
  cases most with
  | zero => exact ⟨Nat.le_refl _, attached, by rw [paused]; rfl⟩
  | succ most =>
    have left : (leavePause s).Open (.resume thread mode) := ⟨attached, .inl rfl⟩
    have goes := drive_goes (most + 1) left
    have same : drive (most + 1) (some (.resume thread mode)) s =
        drive (most + 1) (some (.resume thread mode)) (leavePause s) := by
      rw [drive, bind_run, bind_run, resume_left]
    rw [same]
    rcases run : drive (most + 1) (some (.resume thread mode)) (leavePause s) with ⟨e | _, t⟩ <;>
      rw [run] at goes <;> have later : (leavePause s).generation ≤ t.generation :=
        goes.1.generation_le <;> rw [leavePause_generation paused] at later
    · exact ⟨Nat.le_of_lt later, goes.2⟩
    · exact later

/-- A move that leads to another one, of which nobody is told yet. -/
def Presses (s : Session δ) : Except Fault (Option Move) × Session δ → Prop
  | (.ok (some next), t) => Hushed s t ∧ next.begins = true ∧ ∀ thread, next ≠ .act thread
  | (.ok none, _) => False
  | (.error _, t) => Hushed s t

theorem runTo_presses (thread : ThreadId) (target : Target) (s : Session δ) :
    Presses s (advance (.runTo thread target) s) := by
  rw [advance, runTo]
  refine bind_hushed (instrumented_hushed _) (.refl s) (fun _ _ hushed => hushed) fun _ t hushed => ?_
  rw [bind_ok (modify_run _ t)]
  exact ⟨hushed.trans ⟨rfl, rfl, rfl⟩, rfl, by simp⟩

theorem stepOut_presses (thread : ThreadId) (s : Session δ) :
    Presses s (advance (.stepOut thread) s) := by
  rw [advance, stepOut]
  refine bind_hushed (ask_hushed _) (.refl s) (fun _ _ hushed => hushed) fun frames t hushed => ?_
  cases frames[1]? with
  | some caller => exact ⟨hushed, rfl, by simp⟩
  | none =>
    dsimp only
    rw [bind_ok (modify_run _ t)]
    exact ⟨hushed.trans ⟨rfl, rfl, rfl⟩, rfl, by simp⟩

theorem act_presses (thread : ThreadId) (attached : s.debuggee.isSome = true)
    (stepping : s.stepper ≠ none) : Presses s (advance (.act thread) s) := by
  obtain ⟨d, attached⟩ := Option.isSome_iff_exists.mp attached
  obtain ⟨q, stepper⟩ := Option.ne_none_iff_exists'.mp stepping
  rw [advance, act, registers, bind_run, ask_run attached]
  cases Debuggee.registers d thread with
  | error e => exact .refl s
  | ok regs =>
    dsimp only
    rw [bind_run, ask_run attached]
    cases Instrumented.decode s.traps d regs.pc with
    | error e => exact .refl s
    | ok i =>
      dsimp only
      rw [bind_ok (get_run s), stepper]
      dsimp only
      rcases q.nextAction regs i with ⟨action, next⟩
      dsimp only
      rw [bind_ok (modify_run _ s)]
      cases action <;> exact ⟨⟨rfl, rfl, rfl⟩, rfl, by simp⟩

/-- Moves that a paused session begins with all lead to its resumption. -/
theorem drive_departs (most : Nat) {move : Move} {reason : PauseReason} {stopped : ThreadId}
    (is_open : s.Open move) (paused : s.state = .paused reason stopped) (begins : move.begins = true)
    (stepping : ∀ thread, move = .act thread → s.stepper ≠ none) :
    Departs s.generation (drive most (some move) s) := by
  induction most generalizing s move with
  | zero => exact ⟨Nat.le_refl _, is_open.active⟩
  | succ most ih =>
    have on (presses : Presses s (advance move s)) :
        Departs s.generation (drive (most + 1) (some move) s) := by
      rw [drive, bind_run]
      rcases run : advance move s with ⟨e | _ | next, t⟩ <;> rw [run] at presses
      · exact departs_failed is_open.active e t presses
      · exact presses.elim
      · obtain ⟨hushed, same, other⟩ := presses
        have again := ih (hushed.open is_open (same.trans begins.symm)) (hushed.state.trans paused) same
          fun thread act => absurd act (other thread)
        rwa [show t.generation = s.generation from congrArg Record.generation hushed.record] at again
    cases move with
    | handle | await | stepped | arrived => cases begins
    | resume thread mode => exact drive_resume_departs _ is_open.attached paused
    | runTo thread target => exact on (runTo_presses thread target s)
    | stepOut thread => exact on (stepOut_presses thread s)
    | act thread => exact on (act_presses thread is_open.attached (stepping thread rfl))

theorem settle_departs {move : Move} {reason : PauseReason} {stopped : ThreadId}
    (is_open : s.Open move) (paused : s.state = .paused reason stopped) (begins : move.begins = true)
    (stepping : ∀ thread, move = .act thread → s.stepper ≠ none) :
    Departs s.generation (settle move s) := by
  rw [settle, bind_ok (get_run s)]
  exact drive_departs _ is_open paused begins stepping

theorem beginStep_departs {reason : PauseReason} {thread : ThreadId} (kind : StepKind)
    (active : s.Active) (paused : s.state = .paused reason thread)
    (current : s.roster.current = some thread) : Departs s.generation (beginStep kind thread s) := by
  obtain ⟨d, attached⟩ := Option.isSome_iff_exists.mp active.attached
  rw [beginStep, registers, bind_run, ask_run attached]
  cases Debuggee.registers d thread with
  | error e => exact departs_failed active e s (.refl s)
  | ok regs =>
    dsimp only
    rw [frameAddress, bind_run, ask_run attached]
    dsimp only
    rw [bind_ok (modify_run _ s)]
    exact settle_departs
      ⟨active.attached, .inr ⟨reason, thread, paused, current, by cases kind <;> rfl⟩⟩ paused
      (by cases kind <;> rfl) fun _ _ => by simp

/-- Control operations leave the pause they are asked for in. -/
def Action.leaves : Action → Bool
  | .continue | .step _ | .terminate => true
  | _ => false

omit [Debuggee δ] in
theorem paused_departs {α : Type} (operation : Operation) (request : ThreadId → Request δ α)
    {reason : PauseReason} {thread : ThreadId} (paused : s.state = .paused reason thread)
    (departs : s.generation < (request thread s).2.generation) :
    s.generation < ((requirePaused operation >>= request) s).2.generation := by
  rw [bind_run, requirePaused_run, paused]
  exact departs

/-- Whoever leaves a pause does not find it again. -/
theorem perform_leaves (orderly : s.Orderly) {reason : PauseReason} {thread : ThreadId}
    (paused : s.state = .paused reason thread) {action : Action} (leaves : action.leaves = true) :
    s.generation < (s.perform action).generation := by
  have active : s.Active := ⟨by rw [orderly.attached, paused]; rfl, by rw [paused]; rfl⟩
  have current := (orderly.paused reason thread paused).2
  cases action with
  | start | pump | «break» | add | remove | setEnabled => cases leaves
  | «continue» =>
    exact paused_departs _ _ paused (guarded_departs (settle_departs
      ⟨active.attached, .inr ⟨reason, thread, paused, current, rfl⟩⟩ paused rfl (by simp)))
  | step kind =>
    exact paused_departs _ _ paused (guarded_departs (beginStep_departs kind active paused current))
  | terminate =>
    obtain ⟨⟨passes, _, exited⟩, _⟩ := terminate_over active
    rcases passes.stays_or_leaves paused with ⟨state, _⟩ | ⟨later, _⟩
    · rw [show (terminate s).2.state = s.state from state, paused] at exited
      cases exited
    · exact later

/-- Every other request leaves a paused session where it is. -/
theorem perform_stays {reason : PauseReason} {thread : ThreadId}
    (paused : s.state = .paused reason thread) {action : Action} (stays : action.leaves = false) :
    (s.perform action).record = s.record := by
  have other : s.state ≠ .running := by rw [paused]; simp
  cases action with
  | «continue» | step | terminate => cases stays
  | start request =>
    have refused := start_refused (s := s) (by rw [paused]; rfl) request
    rw [perform, respond, refused]
  | pump millis =>
    rw [perform, respond, pump_run, if_neg other]
  | «break» =>
    rw [perform, respond, breakExecution, bind_ok (get_run s), ite_run, if_neg other]
    rfl
  | add location => exact (add_hushed location s).1.record
  | remove id => exact (remove_hushed id s).1.record
  | setEnabled id enabled => rfl

end Leaving

section Stamps

/-- A question that refers to something read earlier. -/
inductive Question where
  | arguments (frame : Frame)
  | locals (frame : Frame)
  | element (array : ArrayValue) (index : Nat)

/-- The generation in which it was read. -/
def Question.stamp : Question → Nat
  | .arguments frame | .locals frame => frame.generation
  | .element array _ => array.generation

inductive Reply where
  | variables (vs : List Variable)
  | value (v : Value)

def inquire : Question → Request δ Reply
  | .arguments frame => Reply.variables <$> arguments frame
  | .locals frame => Reply.variables <$> locals frame
  | .element array index => Reply.value <$> arrayElement array index

/-- A question is answered with values, or with the length of an array that is too short for it. -/
def Accepts (s : Session δ) (q : Question) : Prop :=
  (∃ reply, inquire q s = (.ok reply, s)) ∨
    ∃ array index, q = .element array index ∧ array.length ≤ index ∧
      inquire q s = (.error (.indexOutOfRange index array.length), s)

/-- A question is refused for its age or for the run state. -/
def Refuses (s : Session δ) (q : Question) : Prop :=
  inquire q s = (.error (.staleFrame q.stamp s.generation), s) ∨
    ∃ operation, inquire q s = (.error (.invalidState operation s.state), s)

/-- Frames come from the call stack. -/
def GivesFrame (s : Session δ) (frame : Frame) : Prop :=
  (currentFunction s).1 = .ok frame ∨
    ∃ thread frames, (callstack thread s).1 = .ok frames ∧ frame ∈ frames

/-- Arrays come from variables, or from inside other arrays. -/
def GivesArray (s : Session δ) (array : ArrayValue) : Prop :=
  (∃ frame vs v, ((arguments frame s).1 = .ok vs ∨ (locals frame s).1 = .ok vs) ∧ v ∈ vs ∧
    v.value = .array array) ∨ ∃ outer index, (arrayElement outer index s).1 = .ok (.array array)

/-- What a question refers to was read in this very state. -/
def Gives (s : Session δ) : Question → Prop
  | .arguments frame | .locals frame => s.GivesFrame frame
  | .element array _ => s.GivesArray array

/-- Nothing has ended the pause that the first session is in, nor has there been another one. -/
def SamePause (s t : Session δ) : Prop :=
  s.state.isPaused = true ∧ t.state = s.state ∧ t.record.pauses = s.record.pauses

theorem framesFrom_stamp {ts : Traps} {d : δ} {r : Roster} {thread : ThreadId}
    {generation room index : Nat} {regs : Registers} :
    ∀ frame ∈ CallStack.framesFrom ts d r thread generation room index regs,
      frame.generation = generation := by
  induction room generalizing index regs with
  | zero => simp [CallStack.framesFrom]
  | succ room ih =>
    rw [CallStack.framesFrom]
    dsimp only
    split
    · simp [CallStack.frameAt]
    · rintro frame (_ | ⟨_, member⟩)
      · rfl
      · exact ih frame member

omit [Debuggee δ] in
theorem inspect_run {α : Type} (f : Session δ → δ → Except Fault α) (s : Session δ) :
    inspect f s = match s.debuggee with
      | none => (.error (.channel .notAttached), s)
      | some d => match f s d with
        | .ok a => (.ok a, s)
        | .error e => (.error (.channel e), s) := by
  rw [inspect, bind_ok (get_run s)]
  cases s.debuggee with
  | none => rfl
  | some d => dsimp only; cases f s d <;> rfl

theorem walk_stamp {thread : ThreadId} {most : Nat} {frames : List Frame}
    (read : (walk thread most s).1 = .ok frames) :
    ∀ frame ∈ frames, frame.generation = s.generation := by
  rw [walk, inspect_run] at read
  cases attached : s.debuggee with
  | none => rw [attached] at read; cases read
  | some d =>
    rw [attached] at read
    dsimp only at read
    rw [CallStack.walk] at read
    cases registers : Debuggee.registers d thread with
    | error e => rw [registers] at read; cases read
    | ok regs =>
      rw [registers] at read
      cases read
      exact framesFrom_stamp

omit [Debuggee δ] in
/-- A request for a paused session gets an answer from no other. -/
theorem paused_of_answer {α : Type} {operation : Operation} {request : ThreadId → Request δ α} {x : α}
    (answer : ((requirePaused operation >>= request) s).1 = .ok x) :
    ∃ reason thread, s.state = .paused reason thread ∧ (request thread s).1 = .ok x := by
  rw [bind_run, requirePaused_run] at answer
  cases state : s.state with
  | paused reason thread =>
    rw [state] at answer
    exact ⟨reason, thread, rfl, answer⟩
  | notStarted | running | exited =>
    rw [state] at answer
    cases answer

theorem frame_stamp {frame : Frame} (given : s.GivesFrame frame) :
    s.state.isPaused = true ∧ frame.generation = s.generation := by
  rcases given with read | ⟨thread, frames, read, member⟩
  · obtain ⟨reason, thread, state, read⟩ := paused_of_answer read
    refine ⟨by rw [state]; rfl, ?_⟩
    rw [bind_run] at read
    rcases walked : walk thread 1 s with ⟨e | frames, t⟩ <;> rw [walked] at read
    · cases read
    · cases frames with
      | nil => cases read
      | cons first rest =>
        cases read
        exact walk_stamp (congrArg Prod.fst walked) _ List.mem_cons_self
  · obtain ⟨reason, _, state, read⟩ := paused_of_answer read
    refine ⟨by rw [state]; rfl, ?_⟩
    rw [bind_ok (get_run s), ite_run] at read
    split at read
    · exact walk_stamp read frame member
    · cases read

theorem readVariables_run (frame : Frame) (operation : Operation)
    (pick : FunctionInfo → List VariableInfo) (s : Session δ) :
    readVariables frame operation pick s =
      if frame.generation ≠ s.generation then
        (.error (.staleFrame frame.generation s.generation), s)
      else match s.state with
        | .paused .. => inspect (fun s d => .ok (((frame.info.map pick).getD []).map
            (Value.readVariable d s.host.config s.generation frame))) s
        | state => (.error (.invalidState operation state), s) := by
  rw [readVariables, requireFresh, bind_run, bind_ok (get_run s), ite_run]
  by_cases old : frame.generation ≠ s.generation
  · rw [if_pos old, if_pos old]
    rfl
  · rw [if_neg old, if_neg old]
    dsimp only
    rw [bind_run, requirePaused_run]
    cases s.state <;> rfl

theorem arrayElement_run (array : ArrayValue) (index : Nat) (s : Session δ) :
    arrayElement array index s = match s.state with
      | .paused .. =>
        if array.generation ≠ s.generation then
          (.error (.staleFrame array.generation s.generation), s)
        else if array.length ≤ index then (.error (.indexOutOfRange index array.length), s)
        else inspect (fun s d => .ok (Value.readElement d s.host.config s.generation array index)) s
      | state => (.error (.invalidState .arrayElement state), s) := by
  rw [arrayElement, bind_run, requirePaused_run]
  cases s.state with
  | paused reason thread =>
    dsimp only
    rw [bind_ok (get_run s), ite_run, ite_run]
    rfl
  | notStarted | running | exited => rfl

theorem readType_stamp {d : δ} {config : Config} {generation : Nat} {address : UInt64}
    {type : ValueType} {array : ArrayValue}
    (read : Value.readType d config generation address type = .ok (.array array)) :
    array.generation = generation := by
  have bound {α β : Type} {x : Except Fault α} {f : α → Except Fault β} {y : β}
      (done : (x >>= f) = .ok y) : ∃ a, f a = .ok y := by
    cases x with
    | error e => cases done
    | ok a => exact ⟨a, done⟩
  unfold Value.readType at read
  split at read
  case h_1 | h_2 | h_3 | h_4 =>
    obtain ⟨n, done⟩ := bound read
    cases done
  case h_5 | h_8 =>
    obtain ⟨n, done⟩ := bound read
    replace done := Except.ok.inj done
    split at done <;> cases done
  case h_6 =>
    obtain ⟨⟨pointer, length⟩, done⟩ := bound read
    dsimp only at done
    split at done
    · cases done
    · obtain ⟨n, done⟩ := bound done
      cases done
  case h_7 element =>
    obtain ⟨⟨pointer, length⟩, done⟩ := bound read
    dsimp only at done
    split at done
    · cases done
    · split at done <;> cases done
      rfl
  case h_9 =>
    replace read := Except.ok.inj read
    split at read <;> cases read

theorem readAt_stamp {d : δ} {config : Config} {generation : Nat} {address : UInt64}
    {type : ValueType} {array : ArrayValue}
    (read : Value.readAt d config generation address type = .array array) :
    array.generation = generation := by
  rw [Value.readAt] at read
  split at read
  · rename_i v done
    exact readType_stamp (read ▸ done)
  · cases read

theorem variables_stamp {frame : Frame} {operation : Operation}
    {pick : FunctionInfo → List VariableInfo} {vs : List Variable} {v : Variable} {array : ArrayValue}
    (read : (readVariables frame operation pick s).1 = .ok vs) (member : v ∈ vs)
    (value : v.value = .array array) : s.state.isPaused = true ∧ array.generation = s.generation := by
  rw [readVariables_run] at read
  split at read
  · cases read
  · cases state : s.state with
    | notStarted | running | exited => rw [state] at read; cases read
    | paused =>
      rw [state, inspect_run] at read
      refine ⟨rfl, ?_⟩
      cases attached : s.debuggee with
      | none => rw [attached] at read; cases read
      | some d =>
        rw [attached] at read
        cases read
        obtain ⟨info, _, rfl⟩ := List.mem_map.mp member
        rw [Value.readVariable] at value
        dsimp only at value
        split at value
        · exact readAt_stamp value
        · cases value

theorem array_stamp {array : ArrayValue} (given : s.GivesArray array) :
    s.state.isPaused = true ∧ array.generation = s.generation := by
  rcases given with ⟨frame, vs, v, read | read, member, value⟩ | ⟨outer, index, read⟩
  · exact variables_stamp read member value
  · exact variables_stamp read member value
  · rw [arrayElement_run] at read
    cases state : s.state with
    | notStarted | running | exited => rw [state] at read; cases read
    | paused =>
      rw [state] at read
      dsimp only at read
      refine ⟨rfl, ?_⟩
      split at read
      · cases read
      · split at read
        · cases read
        · rw [inspect_run] at read
          cases attached : s.debuggee with
          | none => rw [attached] at read; cases read
          | some d =>
            rw [attached] at read
            have value := Except.ok.inj read
            rw [Value.readElement] at value
            split at value
            · exact readAt_stamp value
            · cases value

theorem question_stamp {q : Question} (given : s.Gives q) :
    s.state.isPaused = true ∧ q.stamp = s.generation := by
  cases q with
  | arguments frame | locals frame => exact frame_stamp given
  | element array index => exact array_stamp given

/-- With its own stamp on it a question is answered. -/
theorem accepts_of_fresh {q : Question} (attached : s.debuggee.isSome = true)
    (paused : s.state.isPaused = true) (fresh : q.stamp = s.generation) : s.Accepts q := by
  obtain ⟨d, attached⟩ := Option.isSome_iff_exists.mp attached
  obtain ⟨reason, thread, state⟩ : ∃ reason thread, s.state = .paused reason thread := by
    cases state : s.state with
    | paused reason thread => exact ⟨reason, thread, rfl⟩
    | notStarted | running | exited => rw [state] at paused; cases paused
  have listed (frame : Frame) (operation : Operation) (pick : FunctionInfo → List VariableInfo)
      (fresh : frame.generation = s.generation) :
      ∃ vs, readVariables frame operation pick s = (.ok vs, s) := by
    rw [readVariables_run, if_neg (not_not_intro fresh), state, inspect_run, attached]
    exact ⟨_, rfl⟩
  cases q with
  | arguments frame =>
    obtain ⟨vs, read⟩ := listed frame .arguments (·.arguments) fresh
    exact .inl ⟨.variables vs, by rw [inquire, map_run, arguments, read]⟩
  | locals frame =>
    obtain ⟨vs, read⟩ := listed frame .locals (·.locals) fresh
    exact .inl ⟨.variables vs, by rw [inquire, map_run, locals, read]⟩
  | element array index =>
    have read := arrayElement_run array index s
    rw [state] at read
    replace read := read.trans (if_neg (not_not_intro fresh))
    by_cases beyond : array.length ≤ index
    · rw [if_pos beyond] at read
      exact .inr ⟨array, index, rfl, beyond, by rw [inquire, map_run, read]⟩
    · rw [if_neg beyond, inspect_run, attached] at read
      exact .inl ⟨_, by rw [inquire, map_run, read]⟩

/-- With another stamp on it, or out of a pause, it is refused. -/
theorem refuses_of_stale {q : Question}
    (stale : q.stamp ≠ s.generation ∨ s.state.isPaused = false) : s.Refuses q := by
  have listed (frame : Frame) (operation : Operation) (pick : FunctionInfo → List VariableInfo)
      (stale : frame.generation ≠ s.generation ∨ s.state.isPaused = false) :
      readVariables frame operation pick s =
          (.error (.staleFrame frame.generation s.generation), s) ∨
        readVariables frame operation pick s = (.error (.invalidState operation s.state), s) := by
    rw [readVariables_run]
    by_cases old : frame.generation ≠ s.generation
    · exact .inl (if_pos old)
    · rw [if_neg old]
      have idle := stale.resolve_left old
      cases state : s.state with
      | paused => rw [state] at idle; cases idle
      | notStarted | running | exited => exact .inr rfl
  cases q with
  | arguments frame =>
    refine (listed frame .arguments (·.arguments) stale).imp (fun read => ?_)
      fun read => ⟨.arguments, ?_⟩ <;> rw [inquire, map_run, arguments, read]; rfl
  | locals frame =>
    refine (listed frame .locals (·.locals) stale).imp (fun read => ?_)
      fun read => ⟨.locals, ?_⟩ <;> rw [inquire, map_run, locals, read]; rfl
  | element array index =>
    have read := arrayElement_run array index s
    cases state : s.state with
    | paused =>
      rw [state] at read
      have old := stale.resolve_right (by simp [state, RunState.isPaused])
      refine .inl ?_
      rw [inquire, map_run, read.trans (if_pos old)]
      rfl
    | notStarted | running | exited =>
      rw [state] at read
      refine .inr ⟨.arrayElement, ?_⟩
      rw [inquire, map_run, read, state]

/-- What is answered is not refused. -/
theorem not_refuses {q : Question} (accepts : s.Accepts q) : ¬ s.Refuses q := by
  rintro (stale | ⟨operation, wrong⟩) <;> rcases accepts with ⟨reply, done⟩ | ⟨_, _, _, _, done⟩
  · cases stale.symm.trans done
  · cases stale.symm.trans done
  · cases wrong.symm.trans done
  · cases wrong.symm.trans done

end Stamps

section Actions

variable {host : Host δ} {earlier later : List Action}

omit [Debuggee δ] in
theorem exists_paused (paused : s.state.isPaused = true) :
    ∃ reason thread, s.state = .paused reason thread := by
  cases state : s.state with
  | paused reason thread => exact ⟨reason, thread, rfl⟩
  | notStarted | running | exited => rw [state] at paused; cases paused

theorem performs_orderly (orderly : s.Orderly) (later : List Action) :
    (later.foldl perform s).Orderly := by
  induction later generalizing s with
  | nil => exact orderly
  | cons action rest ih => exact ih (respond_lawful orderly action).orderly

theorem performs_passes (orderly : s.Orderly) (later : List Action) :
    Passes True s.record (later.foldl perform s).record := by
  induction later generalizing s with
  | nil => exact .refl
  | cons action rest ih =>
    have lawful := respond_lawful orderly action
    exact (lawful.passes.mono fun _ => True.intro).trans (ih lawful.orderly)

/-- A pause lasts exactly until a control operation is asked for. -/
theorem samePause_iff (orderly : s.Orderly) (paused : s.state.isPaused = true) (later : List Action) :
    s.SamePause (later.foldl perform s) ↔ ∀ action ∈ later, action.leaves = false := by
  induction later generalizing s with
  | nil => exact ⟨fun _ _ member => absurd member List.not_mem_nil, fun _ => ⟨paused, rfl, rfl⟩⟩
  | cons action rest ih =>
    obtain ⟨reason, thread, state⟩ := exists_paused paused
    have after := (respond_lawful orderly action).orderly
    cases leaves : action.leaves with
    | false =>
      have still := perform_stays state leaves
      have same : (s.perform action).state = s.state := congrArg Record.state still
      have again := ih after (show (s.perform action).state.isPaused = true from same ▸ paused)
      have view : s.SamePause (rest.foldl perform (s.perform action)) ↔
          (s.perform action).SamePause (rest.foldl perform (s.perform action)) := by
        rw [SamePause, SamePause, still, same]
      rw [List.foldl_cons, view]
      refine again.trans ⟨fun all b member => ?_, fun all b member =>
        all b (List.mem_cons_of_mem _ member)⟩
      rcases List.mem_cons.mp member with rfl | member
      · exact leaves
      · exact all b member
    | true =>
      have left := perform_leaves orderly state leaves
      have further := (performs_passes after rest).generation_le
      refine ⟨fun same => ?_, fun all => absurd (all action List.mem_cons_self) (by simp [leaves])⟩
      rcases (performs_passes orderly (action :: rest)).stays_or_leaves state with
        ⟨_, generation, _⟩ | ⟨_, _, fresh⟩
      · exact absurd (Nat.lt_of_lt_of_le left further) (generation ▸ Nat.lt_irrefl _)
      · have told := fresh ((congrArg RunState.isPaused same.2.1).trans paused)
        exact absurd same.2.2 (Nat.ne_of_gt told)

/-- What was read in a pause can be asked about exactly as long as no control operation has been asked
for. After that it is refused for ever, since no later pause has the generation of this one. -/
theorem inspection_fresh (host : Host δ) (earlier later : List Action) (q : Question)
    (given : (after host earlier).Gives q) :
    let s := after host earlier
    let t := after host (earlier ++ later)
    (t.Accepts q ↔ s.SamePause t) ∧ (¬ s.SamePause t → t.Refuses q) ∧
      (s.SamePause t ↔ ∀ action ∈ later, action.leaves = false) ∧
      (t.state.isPaused = true → t.generation = s.generation → s.SamePause t) := by
  intro s t
  have follows : t = later.foldl perform s := List.foldl_append
  have orderly : s.Orderly := after_orderly host earlier
  have attached : t.debuggee.isSome = t.state.isLive := (after_orderly host (earlier ++ later)).attached
  obtain ⟨paused, stamp⟩ := question_stamp given
  obtain ⟨reason, thread, state⟩ := exists_paused paused
  have passes := performs_passes orderly later
  rw [← follows] at passes
  have course := passes.stays_or_leaves state
  have same (paused : t.state.isPaused = true) (generation : t.generation = s.generation) :
      s.SamePause t := by
    rcases course with ⟨still, _, count⟩ | ⟨left, _, _⟩
    · exact ⟨by rw [state]; rfl, still, count⟩
    · exact absurd generation (Nat.ne_of_gt left)
  have fresh (still : s.SamePause t) : t.Accepts q := by
    have halted : t.state.isPaused = true := (congrArg RunState.isPaused still.2.1).trans paused
    refine accepts_of_fresh ?_ halted ?_
    · rw [attached, still.2.1, state]
      rfl
    · rcases course with ⟨_, generation, _⟩ | ⟨_, _, told⟩
      · exact stamp.trans generation.symm
      · exact absurd still.2.2 (Nat.ne_of_gt (told halted))
  have stale (other : ¬ s.SamePause t) : t.Refuses q := by
    refine refuses_of_stale ?_
    by_cases generation : t.generation = s.generation
    · refine .inr ?_
      by_contra paused
      exact other (same (by simpa using paused) generation)
    · exact .inl fun marked => generation (marked.symm.trans stamp)
  refine ⟨⟨fun accepts => ?_, fresh⟩, stale, ?_, same⟩
  · by_contra other
    exact not_refuses accepts (stale other)
  · rw [follows]
    exact samePause_iff orderly paused later

/-- The innermost frame of a paused program can be read. -/
theorem currentFunction_main {s : Session Machine} {m : Machine} (attached : s.debuggee = some m)
    {reason : PauseReason} (paused : s.state = .paused reason mainThread) :
    ∃ frame, (currentFunction s).1 = .ok frame := by
  have registers : Debuggee.registers m mainThread = .ok m.registers := rfl
  rw [currentFunction, bind_run, requirePaused_run, paused]
  dsimp only
  rw [walk, bind_run, inspect_run, attached]
  dsimp only
  rw [CallStack.walk, registers]
  dsimp only [bind, Except.bind]
  rw [CallStack.framesFrom]
  dsimp only
  split <;> exact ⟨_, rfl⟩

/-- A frame that is read at a breakpoint, before the program goes on. -/
theorem inspection_fresh_errand : ∃ frame, errandPaused.Gives (.locals frame) ∧
    let t := after (errandCode.host .standard)
      ([.add (.address 0x400010), .start ⟨"/bin/errand", "/", []⟩, .pump 0] ++
        [.setEnabled 1 false, .continue])
    (t.Accepts (.locals frame) ↔ errandPaused.SamePause t) ∧
      (¬ errandPaused.SamePause t → t.Refuses (.locals frame)) ∧
      (errandPaused.SamePause t ↔
        ∀ action ∈ [.setEnabled 1 false, .continue], Action.leaves action = false) ∧
      (t.state.isPaused = true → t.generation = errandPaused.generation → errandPaused.SamePause t) := by
  obtain ⟨m, attached⟩ : ∃ m, errandPaused.debuggee = some m :=
    Option.isSome_iff_exists.mp (by decide +kernel)
  obtain ⟨frame, read⟩ := currentFunction_main attached errandPaused_state
  have given : errandPaused.Gives (.locals frame) := .inl read
  exact ⟨frame, given, inspection_fresh (errandCode.host .standard) _ _ _ given⟩

end Actions

end Session

end SourceDebugger
