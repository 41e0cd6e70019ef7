import Mathlib.Logic.Function.Iterate
import SourceDebugger.Proofs.Machine.Dress
import SourceDebugger.Proofs.Machine.Polling
/-!
A program runs in the same way whether it runs freely or one instruction at a time. However many
instructions a look may execute, what has been heard and the machine itself depend only on how many
have been executed, and single steps hear the same, with their own stops between.
-/
namespace SourceDebugger.Machine

open Effect

/-- What a look has brought. A machine goes on after a failure from where it is. -/
def news : Except Fault (Option Event) → List (Except Fault Event)
  | .ok none => []
  | .ok (some e) => [.ok e]
  | .error e => [.error e]

section FreeRuns

/-- Lets a machine that runs freely execute so many instructions, and any other move as it was told. -/
def advanceFor (most : Nat) : Access Machine Unit := do
  match (← get).motion with
  | .running => runSlice most
  | .stepping | .stopped | .exited => advance

/-- A look that may execute so many instructions. -/
def pollFor (most : Nat) : Access Machine (Option Event) := do
  match ← takeEvent with
  | some event => return some event
  | none =>
    advanceFor most
    takeEvent

/-- How many instructions a slice executes. -/
def sliceCount : Nat → Machine → Nat
  | 0, _ => 0
  | n + 1, m =>
    if m.interruptRequested then 0
    else match execute m with
      | (.ok false, l) => if l.pending.isEmpty then sliceCount n l + 1 else 1
      | _ => 1

/-- How many instructions a look executes. -/
def lookCount (most : Nat) (m : Machine) : Nat :=
  if m.pending.isEmpty then
    match m.motion with
    | .running => sliceCount most m
    | .stepping => 1
    | .stopped | .exited => 0
  else 0

/-- A machine, what has been heard of it since it was told to go on, and how many instructions it has
executed since. -/
structure FreeRun where
  heard : List (Except Fault Event)
  executed : Nat
  machine : Machine

def FreeRun.look (most : Nat) (r : FreeRun) : FreeRun :=
  let (answer, m) := pollFor most r.machine
  ⟨r.heard ++ news answer, r.executed + r.machine.lookCount most, m⟩

/-- Looks of some sizes, one after another. -/
def FreeRun.looks (r : FreeRun) (sizes : List Nat) : FreeRun :=
  sizes.foldl (fun r most => r.look most) r

def freely (m : Machine) : FreeRun :=
  match resume .continue m with
  | (.ok (), n) => ⟨[], 0, n⟩
  | (.error e, n) => ⟨[.error e], 0, n⟩

end FreeRuns

section StepRuns

/-- The stop that belongs to a single step. -/
def isStepStop : Except Fault Event → Bool
  | .ok (.trap _ _ .singleStep) => true
  | _ => false

/-- A stop other than that of a step, or the end of the program. -/
def endsSteps (told : Except Fault Event) : Bool :=
  match told with
  | .ok e => (e.isStop || e.isExit) && !isStepStop told
  | .error _ => false

/-- A single step, looked at until it stops or fails, but not more often than allowed. -/
def singleStep (looks : Nat) (m : Machine) : List (Except Fault Event) × Machine :=
  match resume (.step mainThread) m with
  | (.ok (), n) =>
    let ((events, fault), l) := (Debuggee.eventsToStop 0 looks : StateM Machine _) n
    (events.map .ok ++ (fault.map .error).toList, l)
  | (.error e, n) => ([.error e], n)

/-- A machine that is taken through its program step by step, and what has been heard of it. -/
structure StepRun where
  heard : List (Except Fault Event)
  ended : Bool
  machine : Machine

def StepRun.step (looks : Nat) (s : StepRun) : StepRun :=
  if s.ended then s
  else
    let (told, m) := singleStep looks s.machine
    ⟨s.heard ++ told, told.any endsSteps, m⟩

/-- So many single steps, or fewer if the program stops or ends in one. -/
def stepwise (looks n : Nat) (m : Machine) : StepRun := (StepRun.step looks)^[n] ⟨[], false, m⟩

end StepRuns

/-- A look of the debugger is one of a slice. -/
theorem poll_slice : poll = pollFor slice := by
  unfold poll pollFor
  apply congrArg
  funext found
  cases found with
  | some event => rfl
  | none =>
    have same : advance = advanceFor slice := by
      funext m
      rw [advanceFor, bind_ok (get_run m), advance_run]
      cases motion : m.motion <;> simp [advance_run, motion]
    exact congrArg (· >>= fun _ => takeEvent) same

section Instructions

/-- Two machines that differ in memory and registers only, as far as a debugger would notice. -/
structure Alike (x y : Machine) : Prop where
  pending : y.pending = x.pending
  motion : y.motion = x.motion
  signal : y.pendingSignal = x.pendingSignal

/-- An instruction that does not stop the program leaves its course alone, and one that fails also
what is pending. -/
def Passes (x : Machine) : Except Fault Bool × Machine → Prop
  | (.ok true, _) => True
  | (.ok false, y) => y.motion = x.motion ∧ y.pendingSignal = x.pendingSignal
  | (.error _, y) => Alike x y

theorem alike_store (address : UInt64) (bytes : Bytes) (m : Machine) :
    Alike m (store address bytes m).2 := by
  rw [store_run]
  rcases m.locate address bytes.length with e | ⟨r, offset⟩
  · exact ⟨rfl, rfl, rfl⟩
  · constructor <;> simp

theorem Alike.passes {α : Type} {x : Machine} {r : Except Fault α × Machine} (alike : Alike x r.2) :
    Passes x (outcome false r) := by
  rcases r with ⟨_ | _, y⟩
  · exact alike
  · exact ⟨alike.motion, alike.signal⟩

theorem alike_push (word : UInt64) (m : Machine) : Alike m (push word m).2 := by
  rw [push_run]
  have stored := alike_store (m.registers.sp - 8) (Bytes.ofWord word)
    { m with registers := { m.registers with sp := m.registers.sp - 8 } }
  exact ⟨stored.pending, stored.motion, stored.signal⟩

theorem effect_passes (next : UInt64) (i : Instr) (m : Machine) : Passes m (effect next i m) := by
  rw [effect_run]
  cases i with
  | pushFrame => exact (alike_push _ m).passes
  | spill => exact (alike_store _ _ m).passes
  | leave =>
    dsimp only
    split
    · exact ⟨rfl, rfl⟩
    · exact ⟨rfl, rfl, rfl⟩
  | ret =>
    dsimp only
    split
    · split
      · trivial
      · exact ⟨rfl, rfl⟩
    · exact ⟨rfl, rfl, rfl⟩
  | call =>
    have pushed := alike_push next m
    dsimp only
    split <;> rename_i run <;> rw [run] at pushed
    · exact ⟨pushed.motion, pushed.signal⟩
    · exact pushed
  | store offset datum =>
    have stored := alike_store (m.registers.fp + offset.toUInt64) (datum.slot m.heap.size)
      { m with heap := m.heap.appendList datum.payload }
    apply Alike.passes
    exact ⟨stored.pending, stored.motion, stored.signal⟩
  | load => dsimp only; split <;> exact ⟨rfl, rfl⟩
  | fault | exit => trivial
  | setFrame | reserve | nop | setArg | print | «break» | jump | spawn | endThread =>
    exact ⟨rfl, rfl⟩

theorem execute_passes (m : Machine) : Passes m (execute m) := by
  rw [execute_run]
  split
  · trivial
  · rename_i i _
    split
    · trivial
    · have passes := effect_passes (m.registers.pc + i.length) i (m.stepped i)
      rcases run : effect (m.registers.pc + i.length) i (m.stepped i) with ⟨e | stops, l⟩ <;>
        rw [run] at passes
      · exact ⟨passes.pending, passes.motion, passes.signal⟩
      · cases stops <;> exact passes

/-- A machine that runs freely and has nothing to report. -/
structure Rolling (m : Machine) : Prop where
  motion : m.motion = .running
  pending : m.pending = []
  interrupt : m.interruptRequested = false
  signal : m.pendingSignal = none

/-- A machine that stands still and has nothing to report. -/
structure Idle (m : Machine) : Prop where
  motion : m.motion = .stopped ∨ m.motion = .exited
  pending : m.pending = []

/-- What an instruction of a machine that runs freely comes to. -/
inductive Executed : Except Fault Bool × Machine → Prop
  | failure {e : Fault} {l : Machine} : Rolling l → Executed (.error e, l)
  | quiet {l : Machine} : Rolling l → Executed (.ok false, l)
  | notice {e : Event} {l : Machine} : l.pending = [e] → Rolling { l with pending := [] } →
      e.isStop = false → e.isExit = false → Executed (.ok false, l)
  | stop {e : Event} {l : Machine} : l.pending = [e] → Idle { l with pending := [] } →
      endsSteps (.ok e) = true → Executed (.ok true, l)

theorem executed_of_rolling {x : Machine} (rolling : Rolling x) : Executed (execute x) := by
  have passes := execute_passes x
  have onward := onward_execute x
  rcases run : execute x with ⟨e | stops, l⟩ <;> rw [run] at passes onward
  · have interrupt := onward.interrupt.trans rolling.interrupt
    apply Executed.failure
    exact ⟨passes.motion.trans rolling.motion, passes.pending.trans rolling.pending, interrupt,
      passes.signal.trans rolling.signal⟩
  · have interrupt := onward.interrupt.trans rolling.interrupt
    rcases execute_report run with ⟨rfl, rfl⟩ | report
    · have pending : x.trapped.pending = [_] := congrArg (· ++ _) rolling.pending
      exact .stop pending ⟨.inl rfl, rfl⟩ rfl
    · cases report with
      | nothing pending motion =>
        apply Executed.quiet
        exact ⟨motion.trans rolling.motion, pending.trans rolling.pending, interrupt,
          passes.2.trans rolling.signal⟩
      | notice e notice pending motion =>
        rw [rolling.pending] at pending
        have fresh : Rolling { l with pending := [] } :=
          ⟨motion.trans rolling.motion, rfl, interrupt, passes.2.trans rolling.signal⟩
        exact .notice pending fresh notice.not_stop.1 notice.not_stop.2
      | signal number description pending _ motion =>
        rw [rolling.pending] at pending
        exact .stop pending ⟨.inl motion, rfl⟩ rfl
      | exit code pending motion =>
        rw [rolling.pending] at pending
        exact .stop pending ⟨.inr motion, rfl⟩ rfl

end Instructions

section Looks

/-- The run after one more instruction, given what that has come to. -/
def FreeRun.after (r : FreeRun) : Except Fault Bool × Machine → FreeRun
  | (.ok _, l) => ⟨r.heard ++ l.pending.map .ok, r.executed + 1, { l with pending := [] }⟩
  | (.error e, l) => ⟨r.heard ++ [.error e], r.executed + 1, l⟩

theorem pollFor_rolling {x : Machine} (rolling : Rolling x) (most : Nat) :
    pollFor most x = collect (runSlice most x) := by
  have nothing : takeEvent x = (.ok none, x) := by rw [takeEvent_run, rolling.pending]
  unfold pollFor advanceFor
  rw [bind_ok nothing]
  dsimp only
  rw [bind_run, bind_ok (get_run x), rolling.motion]
  dsimp only
  rcases runSlice most x with ⟨_ | _, _⟩ <;> rfl

theorem lookCount_rolling {x : Machine} (rolling : Rolling x) (most : Nat) :
    lookCount most x = sliceCount most x := by
  simp [lookCount, rolling.pending, rolling.motion]

theorem runSlice_succ {x : Machine} (rolling : Rolling x) (n : Nat) :
    runSlice (n + 1) x = match execute x with
      | (.ok false, l) => if l.pending.isEmpty then runSlice n l else (.ok (), l)
      | (.ok true, l) => (.ok (), l)
      | (.error e, l) => (.error e, l) := by
  rw [runSlice, bind_ok (get_run x), ite_run, if_neg (by simp [rolling.interrupt]), bind_run]
  rcases execute x with ⟨e | stops, l⟩
  · rfl
  · cases stops with
    | true => rfl
    | false =>
      simp only [Bool.false_eq_true, if_false]
      rw [bind_ok (get_run l), ite_run]
      rfl

theorem sliceCount_succ {x : Machine} (rolling : Rolling x) (n : Nat) :
    sliceCount (n + 1) x = match execute x with
      | (.ok false, l) => if l.pending.isEmpty then sliceCount n l + 1 else 1
      | _ => 1 := by
  rw [sliceCount, if_neg (by simp [rolling.interrupt])]

namespace FreeRun

theorem look_idle {r : FreeRun} (idle : Idle r.machine) (most : Nat) : r.look most = r := by
  have nothing : takeEvent r.machine = (.ok none, r.machine) := by rw [takeEvent_run, idle.pending]
  have still : advanceFor most r.machine = (.ok (), r.machine) := by
    rw [advanceFor, bind_ok (get_run r.machine)]
    rcases idle.motion with motion | motion <;> simp [motion, advance_run]
  have silent : pollFor most r.machine = (.ok none, r.machine) := by
    rw [pollFor, bind_ok nothing]
    dsimp only
    rw [bind_ok still, nothing]
  have none : lookCount most r.machine = 0 := by
    rw [lookCount, idle.pending]
    rcases idle.motion with motion | motion <;> simp [motion]
  simp [look, silent, none, news]

theorem look_rolling {r : FreeRun} (rolling : Rolling r.machine) (most : Nat) :
    r.look most = ⟨r.heard ++ news (collect (runSlice most r.machine)).1,
      r.executed + sliceCount most r.machine, (collect (runSlice most r.machine)).2⟩ := by
  rw [look, pollFor_rolling rolling, lookCount_rolling rolling]

theorem look_zero {r : FreeRun} (rolling : Rolling r.machine) : r.look 0 = r := by
  have nothing : collect (runSlice 0 r.machine) = (.ok none, r.machine) := by
    show takeEvent r.machine = _
    rw [takeEvent_run, rolling.pending]
  rw [look_rolling rolling, nothing]
  simp [news, sliceCount]

theorem after_quiet {l : Machine} (rolling : Rolling l) (r : FreeRun) :
    r.after (.ok false, l) = ⟨r.heard, r.executed + 1, l⟩ := by
  obtain ⟨_, _, _, _, _, _, _, _, _, _, _⟩ := l
  cases rolling.pending
  simp [after]

/-- A look executes one instruction, and looks on if that has brought nothing. -/
theorem look_succ {r : FreeRun} (rolling : Rolling r.machine) (n : Nat) :
    r.look (n + 1) = match execute r.machine with
      | (.ok false, l) =>
        if l.pending.isEmpty then (r.after (.ok false, l)).look n else r.after (.ok false, l)
      | other => r.after other := by
  have turned := executed_of_rolling rolling
  rw [look_rolling rolling, runSlice_succ rolling, sliceCount_succ rolling]
  generalize execute r.machine = result at turned
  cases turned with
  | failure => simp [collect, news, after]
  | quiet rolling =>
    simp only [rolling.pending, List.isEmpty_nil, if_true]
    rw [after_quiet rolling, look_rolling rolling, Nat.add_right_comm, Nat.add_assoc]
  | notice pending => simp [collect_one pending, pending, news, after]
  | stop pending => simp [collect_one pending, pending, news, after]

theorem look_one {r : FreeRun} (rolling : Rolling r.machine) :
    r.look 1 = r.after (execute r.machine) := by
  have turned := executed_of_rolling rolling
  rw [look_succ rolling]
  generalize execute r.machine = result at turned
  cases turned with
  | failure | stop => rfl
  | notice pending => simp [pending]
  | quiet rolling =>
    simp only [rolling.pending, List.isEmpty_nil, if_true]
    rw [after_quiet rolling]
    exact look_zero rolling

/-- A machine that runs freely, or has come to a stop or its end. -/
def Free (r : FreeRun) : Prop := Rolling r.machine ∨ Idle r.machine

theorem free_after {r : FreeRun} {result : Except Fault Bool × Machine} (turned : Executed result) :
    (r.after result).Free := by
  cases turned with
  | failure rolling => exact .inl rolling
  | quiet rolling => rw [after_quiet rolling]; exact .inl rolling
  | notice _ rolling => exact .inl rolling
  | stop _ idle => exact .inr idle

theorem free_look_one {r : FreeRun} (free : r.Free) : (r.look 1).Free := by
  rcases free with rolling | idle
  · rw [look_one rolling]
    exact free_after (executed_of_rolling rolling)
  · rw [look_idle idle]
    exact .inr idle

theorem free_iterate {r : FreeRun} (free : r.Free) (n : Nat) : ((look 1)^[n] r).Free := by
  induction n generalizing r with
  | zero => exact free
  | succ n ih => exact ih (free_look_one free)

/-- A look is as many looks of one instruction as it executes instructions. -/
theorem look_iterate {r : FreeRun} (free : r.Free) (most : Nat) :
    r.look most = (look 1)^[lookCount most r.machine] r := by
  rcases free with rolling | idle
  · rw [lookCount_rolling rolling]
    induction most generalizing r with
    | zero => exact look_zero rolling
    | succ n ih =>
      have first := look_one rolling
      have turned := executed_of_rolling rolling
      rw [look_succ rolling, sliceCount_succ rolling]
      generalize execute r.machine = result at first turned
      cases turned with
      | failure | stop => exact first.symm
      | notice pending => simpa [pending] using first.symm
      | @quiet l rolling =>
        simp only [rolling.pending, List.isEmpty_nil, if_true]
        rw [Function.iterate_succ_apply, first, after_quiet rolling]
        exact ih (r := ⟨_, _, l⟩) rolling
  · rw [look_idle idle]
    exact (Function.iterate_fixed (look_idle idle 1) _).symm

theorem executed_look {r : FreeRun} (most : Nat) :
    (r.look most).executed = r.executed + r.machine.lookCount most := rfl

/-- Looks of any sizes are as many looks of one instruction as they execute instructions. -/
theorem looks_iterate {r : FreeRun} (free : r.Free) (sizes : List Nat) :
    ∃ n, r.looks sizes = (look 1)^[n] r ∧ (r.looks sizes).executed = r.executed + n := by
  induction sizes generalizing r with
  | nil => exact ⟨0, rfl, rfl⟩
  | cons most sizes ih =>
    have first := look_iterate free most
    have onward : (r.look most).Free := first ▸ free_iterate free _
    obtain ⟨n, same, count⟩ := ih onward
    refine ⟨n + r.machine.lookCount most, ?_, ?_⟩
    · rw [Function.iterate_add_apply, ← first]
      exact same
    · rw [executed_look] at count
      exact count.trans (by omega)

/-- A slice that is cut short executes as much as it may. -/
theorem sliceCount_short {n most : Nat} {x : Machine} (rolling : Rolling x)
    (short : n ≤ sliceCount most x) : sliceCount n x = n := by
  induction n generalizing most x with
  | zero => rfl
  | succ n ih =>
    cases most with
    | zero => simp [sliceCount] at short
    | succ most =>
      have turned := executed_of_rolling rolling
      rw [sliceCount_succ rolling] at short ⊢
      generalize execute x = result at turned short ⊢
      cases turned with
      | failure | stop => dsimp only at short ⊢; omega
      | notice pending => simp [pending] at short ⊢; omega
      | quiet rolling =>
        simp only [rolling.pending, List.isEmpty_nil, if_true] at short ⊢
        have rest : n ≤ sliceCount most _ := Nat.le_of_succ_le_succ short
        rw [ih rolling rest]

theorem sliceCount_le (most : Nat) (x : Machine) : sliceCount most x ≤ most := by
  induction most generalizing x with
  | zero => exact Nat.le_refl 0
  | succ n ih =>
    unfold sliceCount
    split
    · omega
    · split
      · split
        · exact Nat.succ_le_succ (ih _)
        · omega
      · omega

theorem sliceCount_pos {most : Nat} {x : Machine} (rolling : Rolling x) (some : 0 < most) :
    0 < sliceCount most x := by
  obtain ⟨n, rfl⟩ := Nat.exists_eq_succ_of_ne_zero (Nat.ne_of_gt some)
  rw [sliceCount_succ rolling]
  split
  · split
    · exact Nat.succ_pos _
    · exact Nat.one_pos
  · exact Nat.one_pos

/-- Looks of the debugger and a last one that may be shorter execute a given number of instructions,
unless the program comes to a stop or its end before. -/
theorem looks_reach {r : FreeRun} (free : r.Free) (n : Nat) : ∃ polls last, last ≤ slice ∧
    ((r.looks (List.replicate polls slice ++ [last])).executed = r.executed + n ∨
      (r.looks (List.replicate polls slice ++ [last])).executed < r.executed + n ∧
        Idle (r.looks (List.replicate polls slice ++ [last])).machine) := by
  induction n using Nat.strongRecOn generalizing r with
  | ind n ih =>
    rcases free with rolling | idle
    · have most := sliceCount_le slice r.machine
      have some : 0 < sliceCount slice r.machine := sliceCount_pos rolling (by decide)
      by_cases short : n ≤ sliceCount slice r.machine
      · refine ⟨0, n, Nat.le_trans short most, .inl ?_⟩
        show (r.look n).executed = _
        rw [executed_look, lookCount_rolling rolling, sliceCount_short rolling short]
      · have onward : (r.look slice).Free :=
          look_iterate (.inl rolling) slice ▸ free_iterate (.inl rolling) _
        have count : (r.look slice).executed = r.executed + sliceCount slice r.machine := by
          rw [executed_look, lookCount_rolling rolling]
        obtain ⟨polls, last, bounded, reached⟩ :=
          ih (n - sliceCount slice r.machine) (by omega) onward
        refine ⟨polls + 1, last, bounded, ?_⟩
        rw [count, Nat.add_assoc, Nat.add_sub_cancel' (by omega)] at reached
        rwa [List.replicate_succ]
    · have still : r.looks (List.replicate 0 slice ++ [0]) = r := look_idle idle 0
      refine ⟨0, 0, Nat.zero_le _, ?_⟩
      rw [still]
      by_cases none : n = 0
      · exact .inl (by omega)
      · exact .inr ⟨by omega, idle⟩

end FreeRun

end Looks

section Steps

/-- A machine that can be told to go on, and has nothing to report. -/
structure Paused (m : Machine) : Prop where
  alive : m.motion ≠ .exited
  pending : m.pending = []
  interrupt : m.interruptRequested = false
  signal : m.pendingSignal = none

theorem Paused.rolling {m : Machine} (paused : Paused m) : Rolling { m with motion := .running } :=
  ⟨rfl, paused.pending, paused.interrupt, paused.signal⟩

/-- The machine in a step, if it would run freely. -/
def stepping (m : Machine) : Machine :=
  { m with motion := if m.motion = .running then .stepping else m.motion }

theorem stepping_still {m : Machine} (still : m.motion ≠ .running) : m.stepping = m := by
  rw [stepping, if_neg still]

theorem execute_stepping {x : Machine} (rolling : Rolling x) :
    execute x.stepping = ((execute x).1, (execute x).2.stepping) := by
  let d : Dress := ⟨[], [], .stepping, false⟩
  have on {y : Machine} (calm : y.interruptRequested = false) : d.on y = y.stepping := by
    simp [d, Dress.on, stepping, calm]
  have calm : (execute x).2.interruptRequested = false :=
    (onward_execute x).interrupt.trans rolling.interrupt
  rw [← on rolling.interrupt, ← on calm]
  apply execute_on <;> simp [d, Inside]

/-- The stop that a step ends in. -/
def stepStop (m : Machine) : Event := .trap mainThread m.registers.pc .singleStep

/-- What a single step tells and leaves, by what its instruction comes to in a machine that runs
freely. -/
def stepAfter : Except Fault Bool × Machine → List (Except Fault Event) × Machine
  | (.ok true, l) => (l.pending.map .ok, { l with pending := [] })
  | (.ok false, l) =>
    (l.pending.map .ok ++ [.ok l.stepStop], { l with pending := [], motion := .stopped })
  | (.error e, l) => ([.error e], { l with motion := .stepping })

theorem poll_step {x : Machine} (rolling : Rolling x) : poll x.stepping = match execute x with
    | (.ok true, l) => takeEvent l.stepping
    | (.ok false, l) =>
      takeEvent { l with pending := l.pending ++ [l.stepStop], motion := .stopped }
    | (.error e, l) => (.error e, l.stepping) := by
  have pending : x.stepping.pending = [] := rolling.pending
  have motion : x.stepping.motion = .stepping := if_pos rolling.motion
  rw [poll_run, pending, advance_run, motion]
  dsimp only
  rw [execute_stepping rolling]
  rcases execute x with ⟨e | stops, l⟩
  · rfl
  · cases stops <;> rfl

theorem eventsToStop_succ (n : Nat) (m : Machine) :
    (Debuggee.eventsToStop 0 (n + 1) : StateM Machine _) m = match poll m with
      | (.ok none, l) => (([], none), l)
      | (.ok (some e), l) =>
        if e.isStop || e.isExit then (([e], none), l)
        else
          let ((rest, fault), k) := (Debuggee.eventsToStop 0 n : StateM Machine _) l
          ((e :: rest, fault), k)
      | (.error e, l) => (([], some e), l) := by
  have same : (Debuggee.poll 0 : Access Machine (Option Event)) m = poll m := rfl
  rw [Debuggee.eventsToStop, certain_bind, same]
  rcases poll m with ⟨e | found, l⟩
  · rfl
  · cases found with
    | none => rfl
    | some e =>
      dsimp only
      split <;> rfl

theorem singleStep_run {m : Machine} {looks : Nat} (paused : Paused m) (enough : 2 ≤ looks) :
    singleStep looks m = stepAfter (execute { m with motion := .running }) := by
  obtain ⟨more, rfl⟩ := Nat.exists_eq_add_of_le' enough
  have rolling := paused.rolling
  have resumed : resume (.step mainThread) m = (.ok (), stepping { m with motion := .running }) := by
    rw [resume_run paused.alive (by simp), Machine.resumed, paused.signal]
    rfl
  rw [singleStep, resumed]
  dsimp only
  rw [eventsToStop_succ, poll_step rolling]
  have turned := executed_of_rolling rolling
  generalize execute { m with motion := .running } = result at turned
  cases turned with
  | failure rolling => simp [stepAfter, stepping, rolling.motion]
  | quiet rolling =>
    simp [stepAfter, takeEvent_run, rolling.pending, stepStop, Event.isStop]
  | @notice e l pending rolling stop exit =>
    have last : poll { l with pending := [l.stepStop], motion := .stopped } =
      (.ok (some l.stepStop), { l with pending := [], motion := .stopped }) := poll_pending rfl
    simp only [pending, List.cons_append, List.nil_append, takeEvent_run, stop, exit,
      Bool.or_false, Bool.false_eq_true, if_false]
    rw [eventsToStop_succ, last]
    simp [stepAfter, pending, stepStop, Event.isStop]
  | @stop e l pending idle ends =>
    have final : (e.isStop || e.isExit) = true := (Bool.and_eq_true _ _ ▸ ends).1
    have motion : l.motion = .stopped ∨ l.motion = .exited := idle.motion
    have still : l.motion ≠ .running := by rcases motion with h | h <;> simp [h]
    simp only [stepping_still still, takeEvent_run, pending]
    simp [final, stepAfter, pending]

end Steps

/-- Single steps and a free run have come to the same, the stops of the steps apart. Until the end only
one of the machines runs. -/
def Agree (s : StepRun) (r : FreeRun) : Prop :=
  r.heard = s.heard.filter (!isStepStop ·) ∧
    r.machine = if s.ended then s.machine else { s.machine with motion := .running }

/-- What a step and an instruction of the free run preserve. -/
inductive Abreast (s : StepRun) (r : FreeRun) : Prop
  | onward : s.ended = false → Paused s.machine → Agree s r → Abreast s r
  | ended : s.ended = true → Idle r.machine → Agree s r → Abreast s r

theorem Abreast.agree {s : StepRun} {r : FreeRun} (abreast : Abreast s r) : Agree s r := by
  cases abreast with
  | onward _ _ agree => exact agree
  | ended _ _ agree => exact agree

/-- The step run after a step, by what the instruction comes to in a machine that runs freely. -/
def StepRun.after (s : StepRun) (result : Except Fault Bool × Machine) : StepRun :=
  ⟨s.heard ++ (stepAfter result).1, (stepAfter result).1.any endsSteps, (stepAfter result).2⟩

theorem step_run {s : StepRun} {looks : Nat} (going : s.ended = false) (paused : Paused s.machine)
    (enough : 2 ≤ looks) :
    s.step looks = s.after (execute { s.machine with motion := .running }) := by
  rw [StepRun.step, going, singleStep_run paused enough]
  rfl

theorem isStepStop_notice {e : Event} (notice : e.isStop = false) : isStepStop (.ok e) = false := by
  cases e with
  | trap => simp [Event.isStop] at notice
  | _ => rfl

theorem isStepStop_ends {t : Except Fault Event} (ends : endsSteps t = true) :
    isStepStop t = false := by
  cases t with
  | error => rfl
  | ok => exact (Bool.not_eq_true' _).mp (Bool.and_eq_true _ _ ▸ ends).2

theorem endsSteps_notice {e : Event} (notice : e.isStop = false ∧ e.isExit = false) :
    endsSteps (.ok e) = false := by simp [endsSteps, notice]

@[simp] theorem isStepStop_stepStop (m : Machine) : isStepStop (.ok m.stepStop) = true := rfl

@[simp] theorem endsSteps_stepStop (m : Machine) : endsSteps (.ok m.stepStop) = false := rfl

/-- An instruction that does not end the steps is told of before the stop of its step. -/
theorem abreast_onward {s : StepRun} {r : FreeRun} {l : Machine}
    (heard : r.heard = s.heard.filter (!isStepStop ·)) (rolling : Rolling { l with pending := [] })
    (notices : ∀ e ∈ l.pending, e.isStop = false ∧ e.isExit = false) :
    Abreast (s.after (.ok false, l)) (r.after (.ok false, l)) := by
  have going : (s.after (.ok false, l)).ended = false := by
    simpa [StepRun.after, stepAfter] using fun e found => endsSteps_notice (notices e found)
  have paused : Paused (s.after (.ok false, l)).machine :=
    ⟨nofun, rfl, rolling.interrupt, rolling.signal⟩
  have told : (l.pending.map .ok).filter (!isStepStop ·) = l.pending.map .ok := by
    apply List.filter_eq_self.mpr
    simpa using fun e found => isStepStop_notice (notices e found).1
  refine .onward going paused ⟨?_, ?_⟩
  · simp [StepRun.after, FreeRun.after, stepAfter, heard, told]
  · have motion : l.motion = .running := rolling.motion
    rw [going]
    simp [StepRun.after, FreeRun.after, stepAfter, motion]

theorem Abreast.next {s : StepRun} {r : FreeRun} {looks : Nat} (abreast : Abreast s r)
    (enough : 2 ≤ looks) : Abreast (s.step looks) (r.look 1) := by
  cases abreast with
  | ended final idle agree =>
    have still : s.step looks = s := if_pos final
    rw [still, FreeRun.look_idle idle]
    exact .ended final idle agree
  | onward going paused agree =>
    obtain ⟨heard, machine⟩ := agree
    simp only [going, Bool.false_eq_true, if_false] at machine
    have rolling : Rolling r.machine := machine ▸ paused.rolling
    have turned := executed_of_rolling rolling
    rw [step_run going paused enough, ← machine, FreeRun.look_one rolling]
    generalize execute r.machine = result at turned
    cases turned with
    | @failure e l rolling =>
      have paused : Paused { l with motion := .stepping } :=
        ⟨nofun, rolling.pending, rolling.interrupt, rolling.signal⟩
      refine .onward rfl paused ⟨?_, ?_⟩
      · simp [StepRun.after, FreeRun.after, stepAfter, heard, isStepStop]
      · exact rolling.motion ▸ rfl
    | @quiet l rolling =>
      have same : Rolling { l with pending := [] } :=
        ⟨rolling.motion, rfl, rolling.interrupt, rolling.signal⟩
      exact abreast_onward heard same (by simp [rolling.pending])
    | @notice e l pending rolling stop exit =>
      exact abreast_onward heard rolling (by simp [pending, stop, exit])
    | @stop e l pending idle ends =>
      have final : (s.after (.ok true, l)).ended = true := by
        simp [StepRun.after, stepAfter, pending, ends]
      refine .ended final idle ⟨?_, ?_⟩
      · simp [StepRun.after, FreeRun.after, stepAfter, heard, pending, isStepStop_ends ends]
      · rw [final]
        rfl

theorem Abreast.iterate {s : StepRun} {r : FreeRun} {looks : Nat} (abreast : Abreast s r)
    (enough : 2 ≤ looks) (n : Nat) :
    Abreast ((StepRun.step looks)^[n] s) ((FreeRun.look 1)^[n] r) := by
  induction n generalizing s r with
  | zero => exact abreast
  | succ n ih => exact ih (abreast.next enough)

/-- A machine at a stop, with nothing left to report, no signal to deliver and no interrupt asked
for. -/
structure AtRest (m : Machine) : Prop where
  motion : m.motion = .stopped
  pending : m.pending = []
  signal : m.pendingSignal = none
  interrupt : m.interruptRequested = false

theorem AtRest.paused {m : Machine} (rest : AtRest m) : Paused m :=
  ⟨by simp [rest.motion], rest.pending, rest.interrupt, rest.signal⟩

theorem AtRest.freely {m : Machine} (rest : AtRest m) :
    freely m = ⟨[], 0, { m with motion := .running }⟩ := by
  rw [Machine.freely, resume_run (by simp [rest.motion]) (by simp), resumed, rest.signal]
  rfl

/-- The free run after some looks and the single steps that are as many as its instructions. -/
theorem AtRest.abreast {m : Machine} {looks : Nat} (rest : AtRest m) (enough : 2 ≤ looks) (n : Nat) :
    Abreast (stepwise looks n m) ((FreeRun.look 1)^[n] (Machine.freely m)) := by
  apply Abreast.iterate _ enough
  apply Abreast.onward rfl rest.paused
  rw [rest.freely]
  exact ⟨rfl, rfl⟩

theorem AtRest.free {m : Machine} (rest : AtRest m) : (Machine.freely m).Free := by
  rw [rest.freely]
  exact .inl rest.paused.rolling

theorem AtRest.looks_iterate {m : Machine} (rest : AtRest m) (sizes : List Nat) :
    (Machine.freely m).looks sizes =
      (FreeRun.look 1)^[((Machine.freely m).looks sizes).executed] (Machine.freely m) := by
  obtain ⟨n, same, count⟩ := FreeRun.looks_iterate rest.free sizes
  have none : (Machine.freely m).executed = 0 := by rw [rest.freely]
  rw [none, Nat.zero_add] at count
  rw [count]
  exact same

/-- Single steps do what a free run does. Looks of any sizes leave the machine as so many steps do as
they execute instructions, and have heard the same but for the stops of the steps; after any number
of steps the free run can be found there, by looks of the debugger and a last one that may be
shorter; and how the looks are cut is not seen at all. -/
theorem stepping_agrees {m : Machine} {looks : Nat} (rest : AtRest m) (enough : 2 ≤ looks) :
    (∀ millis, (Debuggee.poll millis : Access Machine (Option Event)) = pollFor slice) ∧
      (∀ sizes, Agree (stepwise looks ((freely m).looks sizes).executed m)
        ((freely m).looks sizes)) ∧
      (∀ n, ∃ polls last, last ≤ slice ∧
        Agree (stepwise looks n m) ((freely m).looks (List.replicate polls slice ++ [last])) ∧
        (((freely m).looks (List.replicate polls slice ++ [last])).executed = n ∨
          ((freely m).looks (List.replicate polls slice ++ [last])).executed < n ∧
            Idle ((freely m).looks (List.replicate polls slice ++ [last])).machine)) ∧
      ∀ sizes others, ((freely m).looks sizes).executed = ((freely m).looks others).executed →
        (freely m).looks sizes = (freely m).looks others := by
  refine ⟨fun _ => poll_slice, fun sizes => ?_, fun n => ?_, fun sizes others same => ?_⟩
  · have abreast := rest.abreast enough ((freely m).looks sizes).executed
    rw [← rest.looks_iterate] at abreast
    exact abreast.agree
  · obtain ⟨polls, last, bounded, reached⟩ := FreeRun.looks_reach rest.free n
    have none : (freely m).executed = 0 := by rw [rest.freely]
    rw [none, Nat.zero_add] at reached
    refine ⟨polls, last, bounded, ?_, reached⟩
    have abreast := rest.abreast enough n
    have found := rest.looks_iterate (List.replicate polls slice ++ [last])
    have there : (FreeRun.look 1)^[n] (freely m) =
        (freely m).looks (List.replicate polls slice ++ [last]) := by
      rcases reached with same | ⟨fewer, idle⟩
      · rw [found, same]
      · obtain ⟨more, rfl⟩ := Nat.exists_eq_add_of_le' (Nat.le_of_lt fewer)
        rw [Function.iterate_add_apply, ← found]
        exact Function.iterate_fixed (FreeRun.look_idle idle 1) more
    rw [there] at abreast
    exact abreast.agree
  · rw [rest.looks_iterate sizes, same, ← rest.looks_iterate others]

/-- A program that prints, writes a variable, starts a thread and stops of its own. -/
def greeting : Program where
  path := "/bin/greeting"
  sourceFile := "greeting.src"
  entry := "main"
  functions := [⟨"main", [], [("n", .int)], some 1, some 3,
    [.of (some 2) [.print "hello", .store "n" (.int 1), .spawn 7, .break]]⟩]
  libraries := []

def greetingCode : Executable := greeting.assemble.toOption.getD default

/-- The program once its first events have been collected. -/
def greetingLoaded : Machine := { boot greetingCode with pending := [] }

theorem stepping_agrees_greeting : greeting.assemble = .ok greetingCode ∧
    (∀ millis, (Debuggee.poll millis : Access Machine (Option Event)) = pollFor slice) ∧
      (∀ sizes, Agree (stepwise 2 ((freely greetingLoaded).looks sizes).executed greetingLoaded)
        ((freely greetingLoaded).looks sizes)) ∧
      (∀ n, ∃ polls last, last ≤ slice ∧
        Agree (stepwise 2 n greetingLoaded)
          ((freely greetingLoaded).looks (List.replicate polls slice ++ [last])) ∧
        (((freely greetingLoaded).looks (List.replicate polls slice ++ [last])).executed = n ∨
          ((freely greetingLoaded).looks (List.replicate polls slice ++ [last])).executed < n ∧
            Idle ((freely greetingLoaded).looks (List.replicate polls slice ++ [last])).machine)) ∧
      ∀ sizes others, ((freely greetingLoaded).looks sizes).executed =
          ((freely greetingLoaded).looks others).executed →
        (freely greetingLoaded).looks sizes = (freely greetingLoaded).looks others :=
  ⟨rfl, stepping_agrees ⟨rfl, rfl, rfl, rfl⟩ (Nat.le_refl 2)⟩

end SourceDebugger.Machine
