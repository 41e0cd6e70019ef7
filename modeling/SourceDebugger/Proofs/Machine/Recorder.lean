import SourceDebugger.Proofs.Machine.Polling
import SourceDebugger.Proofs.Traps.Viewed
/-!
What a program prints. A machine is watched together with the text that its instructions have printed so
far. Nothing of that text is lost in the machine: a look takes it out, in order, or leaves it pending.
-/
namespace SourceDebugger

/-- The text that events bring, in their order. -/
def Event.spoken (events : List Event) : List Char := events.flatMap fun
  | .output text => text.toList
  | _ => []

namespace Event

@[simp] theorem spoken_nil : spoken [] = [] := rfl

theorem spoken_append (es fs : List Event) : spoken (es ++ fs) = spoken es ++ spoken fs :=
  List.flatMap_append

theorem spoken_cons (e : Event) (es : List Event) : spoken (e :: es) = spoken [e] ++ spoken es :=
  spoken_append [e] es

/-- Only output brings text. -/
theorem spoken_other {e : Event} (other : ∀ text, e ≠ .output text) : spoken [e] = [] := by
  cases e with
  | output text => exact absurd rfl (other text)
  | threadStarted | threadEnded | moduleLoaded | moduleUnloaded | trap | signal | exited => rfl

theorem spoken_others {es : List Event} (others : ∀ e ∈ es, ∀ text, e ≠ .output text) :
    spoken es = [] := by
  induction es with
  | nil => rfl
  | cons e es ih =>
    obtain ⟨first, rest⟩ := List.forall_mem_cons.mp others
    rw [spoken_cons, spoken_other first, ih rest, List.append_nil]

theorem spoken_stop {e : Event} (stop : e.isStop = true ∨ e.isExit = true) : spoken [e] = [] :=
  spoken_other fun text same => by subst same; simp [isStop, isExit] at stop

/-- The event that a look has found. -/
def found : Except Fault (Option Event) → List Event
  | .ok (some e) => [e]
  | _ => []

end Event

namespace Machine

open Effect Event

/-- The text of the instruction at the program counter, if it prints and no trap stands in its way. -/
def printing (m : Machine) : List Char :=
  match m.executable.instrAt? m.registers.pc with
  | some (.print text) => if Blocked m (.print text) then [] else text.toList
  | _ => []

/-- The text that the instructions of a slice print. -/
def sliceText : Nat → Machine → List Char
  | 0, _ => []
  | n + 1, m =>
    if m.interruptRequested then []
    else m.printing ++ match execute m with
      | (.ok false, l) => if l.pending.isEmpty then sliceText n l else []
      | _ => []

/-- The text that is printed during a look. -/
def lookText (m : Machine) : List Char :=
  if m.pending.isEmpty then
    match m.motion with
    | .running => sliceText slice m
    | .stepping => m.printing
    | .stopped | .exited => []
  else []

section Conservation

theorem store_pending (address : UInt64) (bytes : Bytes) (m : Machine) :
    (store address bytes m).2.pending = m.pending := by
  rw [store_run]
  rcases m.locate address bytes.length with e | ⟨r, offset⟩
  · rfl
  · cases r <;> rfl

theorem push_pending (word : UInt64) (m : Machine) : (push word m).2.pending = m.pending := by
  rw [push_run, store_pending]

theorem effect_text (next : UInt64) (i : Instr) (m : Machine) :
    spoken (effect next i m).2.pending = spoken m.pending ++ match i with
      | .print text => text.toList
      | _ => [] := by
  rw [effect_run]
  cases i with
  | pushFrame => simp [outcome_snd, push_pending]
  | spill | store => simp [outcome_snd, store_pending]
  | print text => simp [spoken]
  | leave => dsimp only; split <;> simp
  | ret =>
    dsimp only
    split
    · split <;> simp [spoken]
    · simp
  | call target =>
    have pushed := push_pending next m
    dsimp only
    split <;> rename_i run <;> rw [run] at pushed <;> simpa using congrArg spoken pushed
  | load index => dsimp only; split <;> simp [spoken]
  | spawn | endThread | fault | exit => simp [spoken]
  | setFrame | reserve | nop | «break» | setArg | jump => simp

/-- An instruction that prints leaves its text pending, behind what is pending already. -/
theorem execute_text (m : Machine) :
    spoken (execute m).2.pending = spoken m.pending ++ m.printing := by
  rw [execute_run, printing]
  cases m.executable.instrAt? m.registers.pc with
  | none => simp [strayed, spoken]
  | some i =>
    dsimp only
    by_cases blocked : Blocked m i
    · rw [if_pos blocked]
      cases i <;> simp [blocked, trapped, spoken]
    · rw [if_neg blocked, effect_text]
      cases i <;> simp [blocked, stepped]

theorem printing_failed {m l : Machine} {e : Fault} (failed : execute m = (.error e, l)) :
    m.printing = [] := by
  rw [execute_run] at failed
  rw [printing]
  cases found : m.executable.instrAt? m.registers.pc with
  | none => rfl
  | some i =>
    cases i with
    | print text =>
      dsimp only
      split
      · rfl
      · rename_i free
        rw [found] at failed
        dsimp only at failed
        rw [if_neg free, effect_run] at failed
        cases failed
    | _ => rfl

theorem runSlice_text (n : Nat) (m : Machine) :
    spoken (runSlice n m).2.pending = spoken m.pending ++ sliceText n m := by
  induction n generalizing m with
  | zero => simp [runSlice, sliceText]
  | succ n ih =>
    have executed := execute_text m
    rw [runSlice, bind_ok (get_run m), ite_run, sliceText]
    split
    · rw [bind_ok (modify_run _ m), stopWith_run]
      simp [spoken]
    · rw [bind_run]
      rcases done : execute m with ⟨e | stops, l⟩ <;> rw [done] at executed
      · simpa using executed
      · cases stops with
        | true => simpa using executed
        | false =>
          simp only [Bool.false_eq_true, if_false]
          rw [bind_ok (get_run l), ite_run]
          split
          · exact (ih l).trans (by rw [executed, List.append_assoc])
          · simpa using executed

theorem advance_text {m : Machine} (quiet : m.pending = []) :
    spoken (advance m).2.pending = m.lookText := by
  rw [advance_run, lookText, quiet, List.isEmpty_nil, if_pos rfl]
  cases m.motion with
  | running => simpa [quiet] using runSlice_text slice m
  | stepping =>
    have executed := execute_text m
    rw [quiet, spoken_nil, List.nil_append] at executed
    rw [← executed]
    dsimp only
    rcases execute m with ⟨e | stops, l⟩
    · rfl
    · cases stops with
      | true => rfl
      | false => simp [stopWith_run, spoken]
  | stopped | exited => simp [quiet]

/-- What was pending and what is printed is found, or is pending afterwards. -/
theorem poll_text (m : Machine) : spoken m.pending ++ m.lookText =
    spoken (found (poll m).1) ++ spoken (poll m).2.pending := by
  rw [poll_run]
  cases quiet : m.pending with
  | cons e rest => simp [lookText, quiet, found, ← spoken_cons]
  | nil =>
    have moved := advance_text quiet
    rw [spoken_nil, List.nil_append, ← moved]
    dsimp only
    rcases advance m with ⟨e | _, n⟩
    · rfl
    · dsimp only
      rw [takeEvent_run]
      cases pending : n.pending with
      | nil => simp [found, pending]
      | cons e rest => exact spoken_cons e rest

/-- A look leaves no text pending. -/
theorem poll_mute {m : Machine} (mute : spoken m.pending = []) : spoken (poll m).2.pending = [] := by
  have failure {n l : Machine} {e : Fault} (quiet : n.pending = []) (failed : execute n = (.error e, l)) :
      spoken l.pending = [] := by
    have executed := execute_text n
    rwa [failed, quiet, printing_failed failed] at executed
  cases quiet : m.pending with
  | cons e rest =>
    rw [quiet, spoken_cons] at mute
    rw [poll_pending quiet]
    exact (List.append_eq_nil_iff.mp mute).2
  | nil =>
    cases motion : m.motion with
    | stopped => rw [poll_resting (.inl motion) quiet, quiet]; rfl
    | exited => rw [poll_resting (.inr motion) quiet, quiet]; rfl
    | running =>
      have polled := poll_running motion quiet
      rcases looked : poll m with ⟨r, n⟩
      rw [looked] at polled
      generalize slice = most at polled
      cases polled with
      | idle silent => rw [(silent.motion quiet).1]; rfl
      | interrupt | report => rfl
      | failure silent free failed => exact failure (silent.motion quiet).1 failed
    | stepping =>
      have single := poll_stepping motion quiet
      rcases looked : poll m with ⟨r, n⟩
      rw [looked] at single
      cases single with
      | failure failed => exact failure quiet failed
      | nothing | notice | stop => rfl

end Conservation

end Machine

/-- A machine and all that its program has printed since it was loaded. -/
structure Recorder where
  machine : Machine
  written : List Char

namespace Recorder

open Effect Event

/-- An operation in which nothing is printed. -/
def carry {α : Type} (a : Access Machine α) : Access Recorder α := fun d =>
  let (r, machine) := a d.machine
  (r, { d with machine })

/-- Only a look lets the program run. -/
instance : Debuggee Recorder where
  pid d := Debuggee.pid d.machine
  poll _ := fun d =>
    let (r, machine) := Machine.poll d.machine
    (r, ⟨machine, d.written ++ d.machine.lookText⟩)
  resume mode := carry (Machine.resume mode)
  read d := d.machine.load
  write address bytes := carry (Machine.store address bytes)
  registers d := d.machine.registersOf
  setRegisters thread regs := carry (Debuggee.setRegisters thread regs)
  decode _ := Machine.classify
  interrupt := carry Debuggee.interrupt
  terminate := carry Machine.kill

/-- What is written down has no part in what the machine does. -/
theorem faithful : Faithful Recorder.machine where
  pid _ := rfl
  poll _ := by rintro d _ rfl; exact ⟨rfl, rfl⟩
  resume _ := by rintro d _ rfl; exact ⟨rfl, rfl⟩
  read _ _ _ := rfl
  write _ _ := by rintro d _ rfl; exact ⟨rfl, rfl⟩
  registers _ _ := rfl
  setRegisters _ _ := by rintro d _ rfl; exact ⟨rfl, rfl⟩
  decode _ _ _ := rfl
  interrupt := by rintro d _ rfl; exact ⟨rfl, rfl⟩
  terminate := by rintro d _ rfl; exact ⟨rfl, rfl⟩

end Recorder

end SourceDebugger
