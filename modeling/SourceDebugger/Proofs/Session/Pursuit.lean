import SourceDebugger.Proofs.Program.Course
import SourceDebugger.Proofs.Program.Outline
import SourceDebugger.Stepper
/-!
How far a step has got. A step that lets functions run waits for one activation to return; it knows
the activation by the return address and by where the stack pointer stood before its call. Between
runs it goes from instruction to instruction. What the stepper has noted and what an observer who sees
every instruction waits for are the same all the time.
-/
namespace SourceDebugger.Session

open Machine

/-- What is waited for when a step of a kind lets functions run until so many activations are left. -/
inductive Waits : StepKind → Nat → Watch → Prop
  | across (n : Nat) : Waits .over n (.over n)
  | into (n : Nat) : Waits .into n (.skipping n)
  | out (n : Nat) : Waits .out n (.out (n + 1))

/-- A watch that is never over while the program runs. -/
def Idles (w : Watch) : Prop := w = .nothing ∨ w = .out 1

/-- The step began no further out than the activations that are left. Only a step over calls asks. -/
def Level (q : Stepper) (calls : List Activation) : Prop :=
  q.kind = .over → ∀ d ∈ calls, q.originFrame ≤ d.top

/-- An activation that a step waits for has not returned yet. -/
structure Inside (calls : List Activation) (w : Watch) (q : Stepper) (t : Target) : Prop where
  split : ∃ inner c rest a, calls = inner ++ c :: rest ∧ c.site = some a ∧ t = ⟨a + 5, c.top⟩ ∧
    Waits q.kind rest.length w ∧ Level q rest

/-- A call that a step waits for is to be executed next. -/
structure Leaving (m : Moment) (w : Watch) (q : Stepper) (t : Target) : Prop where
  call : ∃ target, m.machine.executable.instrAt? m.pc = some (.call target)
  aim : t = ⟨m.pc + 5, m.machine.registers.sp⟩
  waits : Waits q.kind m.depth w
  level : Level q m.calls

/-- The activation that a step waited for has just returned. -/
structure Back (m : Moment) (w : Watch) (q : Stepper) (t : Target) : Prop where
  address : m.pc = t.address
  sp : m.machine.registers.sp = t.sp
  waits : Waits q.kind m.depth w
  level : Level q m.calls

/-- A program runs freely: nobody waits for anything, or something further out. -/
inductive Away (calls : List Activation) (w : Watch) : Option Stepper → Prop
  | alone : Idles w → Away calls w none
  | inside {q : Stepper} {t : Target} : q.runningTo = some t → q.pendingCall = none →
      Inside calls w q t → Away calls w (some q)

/-- A program runs freely and has an instruction before it. -/
inductive Running (m : Moment) (w : Watch) : Option Stepper → Prop
  | away {stepper : Option Stepper} : Away m.calls w stepper → Running m w stepper
  | leaving {q : Stepper} {t : Target} : q.runningTo = some t → q.pendingCall = none →
      Leaving m w q t → Running m w (some q)

/-- A trap is no call. -/
theorem Running.away_of_break {m : Moment} {w : Watch} {stepper : Option Stepper}
    (running : Running m w stepper) (own : m.machine.executable.instrAt? m.pc = some .break) :
    Away m.calls w stepper := by
  cases running with
  | away away => exact away
  | leaving _ _ leaving =>
    obtain ⟨target, call⟩ := leaving.call
    cases own.symm.trans call

/-- A program that runs freely has come somewhere. -/
inductive Reaching (m : Moment) (w : Watch) : Option Stepper → Prop
  | away {stepper : Option Stepper} : Away m.calls w stepper → Reaching m w stepper
  | back {q : Stepper} {t : Target} : q.runningTo = some t → q.pendingCall = none →
      Back m w q t → Reaching m w (some q)

theorem Reaching.split {m : Moment} {w : Watch} {stepper : Option Stepper}
    (reaching : Reaching m w stepper) : Away m.calls w stepper ∨ ∃ q t, stepper = some q ∧
      q.runningTo = some t ∧ q.pendingCall = none ∧ Back m w q t := by
  cases reaching with
  | away away => exact .inl away
  | back running pending back => exact .inr ⟨_, _, rfl, running, pending, back⟩

/-- A step that looks at every instruction has one before it. -/
inductive Treads (m : Moment) (w : Watch) (q : Stepper) : Prop
  | across : q.kind = .over → q.pendingCall = none → w = .over m.depth → Level q m.calls →
      (∀ target, m.machine.executable.instrAt? m.pc ≠ some (.call target)) → Treads m w q
  | into : q.kind = .into → q.pendingCall = none → w = .into m.depth →
      (∀ target, m.machine.executable.instrAt? m.pc ≠ some (.call target)) → Treads m w q
  | calling {target : UInt64} : q.kind = .into →
      m.machine.executable.instrAt? m.pc = some (.call target) →
      q.pendingCall = some ⟨m.pc + 5, m.machine.registers.sp⟩ → w = .into m.depth → Treads m w q

/-- A step that looks at every instruction has come somewhere, or its run has. -/
inductive Heeds (m : Moment) (w : Watch) (q : Stepper) : Prop
  | across (least : Nat) : q.kind = .over → q.pendingCall = none → w = .over least →
      m.depth ≤ least → Level q m.calls → Heeds m w q
  | into (last : Nat) : q.kind = .into → q.pendingCall = none → w = .into last →
      m.depth ≤ last → Heeds m w q
  | skipped (last : Nat) : q.kind = .into → q.pendingCall = none → w = .skipping last →
      m.depth ≤ last → Heeds m w q
  | called {c : Activation} {rest : List Activation} {a : UInt64} : q.kind = .into →
      q.pendingCall = some ⟨a + 5, c.top⟩ → w = .into rest.length → m.calls = c :: rest →
      c.site = some a → Heeds m w q
  | out (least : Nat) : q.kind = .out → q.pendingCall = none → w = .out least →
      m.depth < least → Heeds m w q

/-- A step is to decide how to go on. -/
inductive Decides (m : Moment) (w : Watch) (q : Stepper) : Prop
  | across : q.kind = .over → q.pendingCall = none → w = .over m.depth → Level q m.calls →
      Decides m w q
  | into : q.kind = .into → q.pendingCall = none → w = .into m.depth → Decides m w q

theorem Decides.kind {m : Moment} {w : Watch} {q : Stepper} (decides : Decides m w q) :
    q.kind ≠ .out := by
  cases decides with
  | across kind | into kind => rw [kind]; decide

section Watch

variable {o : Observer} {m : Moment} {w : Watch} {kind : StepKind} {n : Nat}
  {stepper : Option Stepper} {q : Stepper} {t : Target} {calls : List Activation}

theorem Waits.asleep (waits : Waits kind n w) (deeper : n < m.depth) : o.watch w m = some w := by
  cases waits with
  | across | into => exact if_pos deeper
  | out => exact if_pos deeper

theorem Idles.asleep (idles : Idles w) (alive : 0 < m.depth) : o.watch w m = some w := by
  rcases idles with rfl | rfl
  · rfl
  · exact if_pos alive

/-- An observer has nothing to look for while a program runs freely. -/
theorem Away.asleep (away : Away m.calls w stepper) (alive : 0 < m.depth) :
    o.watch w m = some w := by
  cases away with
  | alone idles => exact idles.asleep alive
  | inside _ _ inside =>
    obtain ⟨inner, c, rest, a, split, _, _, waits, _⟩ := inside.split
    refine waits.asleep ?_
    rw [Moment.depth, split, List.length_append, List.length_cons]
    omega

theorem Back.heeds (back : Back m w q t) (pending : q.pendingCall = none) :
    Heeds m w { q with runningTo := none } := by
  obtain ⟨_, _, waits, level⟩ := back
  obtain ⟨kind, thread, origin, frame, running, call⟩ := q
  generalize same : m.depth = n at waits
  cases waits with
  | across => exact .across n rfl pending rfl (Nat.le_of_eq same) level
  | into => exact .skipped n rfl pending rfl (Nat.le_of_eq same)
  | out => exact .out (n + 1) rfl pending rfl (by omega)

end Watch

section Turns

variable {p : Program} {e : Executable} {rs : List Routine} {m n : Moment} {w : Watch}
  {stepper : Option Stepper} {q : Stepper} {t : Target} {b : Bool} {y : Machine}

/-- What an instruction does to the activations. -/
theorem follow_cases (x : Machine) (calls : List Activation) :
    (∃ target, x.executable.instrAt? x.registers.pc = some (.call target) ∧
        follow x calls = ⟨target, some x.registers.pc, x.registers.sp⟩ :: calls) ∨
      (x.executable.instrAt? x.registers.pc = some .ret ∧ follow x calls = calls.tail) ∨
        (∀ target, x.executable.instrAt? x.registers.pc ≠ some (.call target)) ∧
          follow x calls = calls := by
  rw [follow]
  generalize x.executable.instrAt? x.registers.pc = found
  rcases found with _ | i
  · exact .inr (.inr ⟨fun _ same => (by cases same), rfl⟩)
  · cases i with
    | call target => exact .inl ⟨target, rfl, rfl⟩
    | ret => exact .inr (.inl ⟨rfl, rfl⟩)
    | _ => exact .inr (.inr ⟨fun _ same => (by cases same), rfl⟩)

theorem follow_call {x : Machine} {target : UInt64}
    (call : x.executable.instrAt? x.registers.pc = some (.call target)) (calls : List Activation) :
    follow x calls = ⟨target, some x.registers.pc, x.registers.sp⟩ :: calls := by
  rw [follow, call]

/-- Where a return leads. -/
theorem landing (asm : Assembled p e rs) {x : Machine} {c : Activation} {rest : List Activation}
    (framed : Framed e rs heapBase.toNat x (c :: rest))
    (found : x.executable.instrAt? x.registers.pc = some .ret) (done : execute x = (.ok b, y)) :
    y.registers.pc = backOf c.site ∧ y.registers.sp = c.top := by
  obtain ⟨d, others, r, k, high, f, same, seat⟩ := framed.seated
  cases same
  obtain ⟨i, there, known, own⟩ := seat.instr asm framed.executable framed.code
  cases found.symm.trans known
  have landed := seat.landing asm ((kind_return asm seat.known there).mp rfl)
    (execute_turned found own done)
  rw [landed]
  exact ⟨rfl, rfl⟩

/-- An activation that is waited for stays, or returns to where it is waited for. -/
theorem Away.turn (asm : Assembled p e rs) (away : Away m.calls w stepper)
    (framed : Framed e rs heapBase.toNat m.machine m.calls)
    (done : execute m.machine = (.ok b, y)) :
    Reaching (m.after y) w stepper := by
  cases away with
  | alone idles => exact .away (.alone idles)
  | @inside q t running pending inside =>
    obtain ⟨inner, c, rest, a, split, site, aim, waits, level⟩ := inside.split
    have still (others : List Activation) (same : follow m.machine m.calls = others ++ c :: rest) :
        Reaching (m.after y) w (some q) :=
      .away (.inside running pending ⟨others, c, rest, a, same, site, aim, waits, level⟩)
    rcases follow_cases m.machine m.calls with ⟨target, _, call⟩ | ⟨ret, popped⟩ | ⟨_, same⟩
    · exact still (_ :: inner) (by rw [call, split]; rfl)
    · cases inner with
      | nil =>
        rw [split, List.nil_append] at framed
        obtain ⟨pc, sp⟩ := landing asm framed ret done
        have left : follow m.machine m.calls = rest := by rw [popped, split]; rfl
        rw [Moment.after, left]
        rw [site] at pc
        exact .back running pending ⟨by rw [aim]; exact pc, by rw [aim]; exact sp, waits, level⟩
      | cons d inner => exact still inner (by rw [popped, split]; rfl)
    · exact still _ (same.trans split)

theorem Leaving.turn (leaving : Leaving m w q t) (running : q.runningTo = some t)
    (pending : q.pendingCall = none) : Away (follow m.machine m.calls) w (some q) := by
  obtain ⟨target, call⟩ := leaving.call
  exact .inside running pending ⟨[], _, m.calls, m.pc, follow_call call _, rfl, leaving.aim,
    leaving.waits, leaving.level⟩

theorem Running.turn (asm : Assembled p e rs) (running : Running m w stepper)
    (framed : Framed e rs heapBase.toNat m.machine m.calls)
    (done : execute m.machine = (.ok b, y)) :
    Reaching (m.after y) w stepper := by
  cases running with
  | away away => exact away.turn asm framed done
  | leaving running pending leaving => exact .away (leaving.turn running pending)

/-- Returns leave some of the activations. -/
theorem Level.follow {calls : List Activation} {x : Machine} (level : Level q calls)
    (plain : ∀ target, x.executable.instrAt? x.registers.pc ≠ some (.call target)) :
    Level q (follow x calls) := by
  intro stepping d member
  rcases follow_cases x calls with ⟨target, call, _⟩ | ⟨_, popped⟩ | ⟨_, same⟩
  · exact absurd call (plain target)
  · rw [popped] at member
    exact level stepping d (List.mem_of_mem_tail member)
  · rw [same] at member
    exact level stepping d member

theorem length_follow {calls : List Activation} {x : Machine}
    (plain : ∀ target, x.executable.instrAt? x.registers.pc ≠ some (.call target)) :
    (Machine.follow x calls).length ≤ calls.length := by
  rcases follow_cases x calls with ⟨target, call, _⟩ | ⟨_, popped⟩ | ⟨_, same⟩
  · exact absurd call (plain target)
  · rw [popped, List.length_tail]
    omega
  · exact Nat.le_of_eq (congrArg _ same)

theorem Treads.turn (treads : Treads m w q) :
    Heeds (m.after y) w q := by
  cases treads with
  | across kind pending watch level plain =>
    exact .across m.depth kind pending watch (length_follow plain) (level.follow plain)
  | into kind pending watch plain => exact .into m.depth kind pending watch (length_follow plain)
  | @calling target kind call pending watch =>
    exact .called kind pending watch (follow_call call _) rfl

end Turns

section Decisions

variable {o : Observer} {m : Moment} {w : Watch} {q : Stepper} {c : Activation}
  {rest : List Activation}

/-- Where a step ends that does not lead outward. -/
theorem judge_inward (kind : q.kind ≠ .out) (origin : q.origin = o.origin) (frame : UInt64)
    (level : q.kind = .over → q.originFrame ≤ frame) :
    q.judge m.machine.registers frame (o.lineAt? m.pc) =
      if o.begins m.pc then .complete else .continue := by
  have same : q.inOrigin m.machine.registers.pc = o.inOrigin m.pc := by
    rw [Stepper.inOrigin, origin]
    rfl
  have deeper : (q.kind == .over && decide (frame < q.originFrame)) = false := by
    by_cases stepping : q.kind = .over
    · rw [decide_eq_false (UInt64.not_lt.mpr (level stepping)), Bool.and_false]
    · simp [stepping]
  unfold Stepper.judge
  rw [if_neg kind, same, deeper, Observer.begins]
  cases o.inOrigin m.pc <;> cases o.lineAt? m.pc <;> simp [Moment.pc]

/-- What an arrival means for a step and for its watch. -/
inductive Resolved (o : Observer) (m : Moment) (w : Watch) (q : Stepper) : Arrival → Prop
  | complete : o.watch w m = none → Resolved o m w q .complete
  | continue {w' : Watch} : o.watch w m = some w' → Decides m w' q → Resolved o m w q .continue
  | runTo {w' : Watch} {t : Target} : o.watch w m = some w' → Inside m.calls w' q t →
      Resolved o m w q (.runTo t)
  | stepOutAgain : o.watch w m = some (.out m.depth) → q.kind = .out → q.pendingCall = none →
      Resolved o m w q .stepOutAgain

/-- The stepper decides as the observer does. -/
theorem Heeds.arrived (heeds : Heeds m w q) (origin : q.origin = o.origin)
    (calls : m.calls = c :: rest) :
    Resolved o m w { q with pendingCall := none }
      (q.arrived m.machine.registers c.top (o.lineAt? m.pc) (o.hasLines m.pc)).1 := by
  have depth : m.depth = rest.length + 1 := by rw [Moment.depth, calls]; rfl
  cases heeds with
  | across least kind pending watch shallow level =>
    have judged := judge_inward (m := m) (q := { q with pendingCall := none })
      (by simp [kind]) origin _ fun _ => level kind c (by rw [calls]; exact List.mem_cons_self)
    rw [Stepper.arrived, pending]
    dsimp only
    rw [judged]
    split
    · rename_i begins
      exact .complete (by rw [watch, Observer.watch, Observer.judge, if_neg (by omega), if_pos begins])
    · rename_i other
      exact .continue (by rw [watch, Observer.watch, Observer.judge, if_neg (by omega), if_neg other])
        (.across kind rfl rfl level)
  | into last kind pending watch shallow =>
    have judged := judge_inward (m := m) (q := { q with pendingCall := none })
      (by simp [kind]) origin c.top (by simp [kind])
    rw [Stepper.arrived, pending]
    dsimp only
    rw [judged]
    split
    · rename_i begins
      exact .complete (by rw [watch, Observer.watch, Observer.judge, if_neg (by omega), if_pos begins])
    · rename_i other
      exact .continue (by rw [watch, Observer.watch, Observer.judge, if_neg (by omega), if_neg other])
        (.into kind rfl rfl)
  | skipped last kind pending watch shallow =>
    have judged := judge_inward (m := m) (q := { q with pendingCall := none })
      (by simp [kind]) origin c.top (by simp [kind])
    rw [Stepper.arrived, pending]
    dsimp only
    rw [judged]
    split
    · rename_i begins
      exact .complete (by rw [watch, Observer.watch, Observer.judge, if_neg (by omega), if_pos begins])
    · rename_i other
      exact .continue (by rw [watch, Observer.watch, Observer.judge, if_neg (by omega), if_neg other])
        (.into kind rfl rfl)
  | @called d others a kind pending watch entered site =>
    cases calls.symm.trans entered
    have judged := judge_inward (m := m) (q := { q with pendingCall := none })
      (by simp [kind]) origin c.top (by simp [kind])
    rw [Stepper.arrived, pending]
    dsimp only
    cases lines : o.hasLines m.pc with
    | false =>
      rw [if_neg (by decide)]
      refine .runTo (?_ : o.watch w m = some (.skipping rest.length))
        ⟨[], c, rest, a, entered, site, rfl, by simp only [kind]; exact .into _, by simp [Level, kind]⟩
      rw [watch, Observer.watch, Observer.judge, if_pos ⟨by omega, lines⟩]
    | true =>
      rw [if_pos rfl, judged]
      split
      · rename_i begins
        exact .complete (by
          rw [watch, Observer.watch, Observer.judge, if_neg (by simp [lines]), if_pos begins])
      · rename_i other
        exact .continue (by rw [watch, Observer.watch, Observer.judge, if_neg (by simp [lines]), if_neg other])
          (.into kind rfl rfl)
  | out least kind pending watch shallow =>
    rw [Stepper.arrived, pending]
    dsimp only
    unfold Stepper.judge
    rw [if_pos kind]
    split
    · rename_i line
      exact .complete (by rw [watch, Observer.watch, Observer.judge, if_neg (by omega), if_pos line])
    · rename_i none
      exact .stepOutAgain (by rw [watch, Observer.watch, Observer.judge, if_neg (by omega), if_neg none]) kind rfl

/-- An instruction that a step has decided about. -/
theorem Decides.action {i : Instr} (decides : Decides m w q) (running : q.runningTo = none)
    (found : m.machine.executable.instrAt? m.pc = some i) :
    (∃ t, q.nextAction m.machine.registers ⟨m.pc, i.length, i.kind⟩ = (.runTo t, q) ∧
        Leaving m w q t) ∨
      ∃ q', q.nextAction m.machine.registers ⟨m.pc, i.length, i.kind⟩ = (.singleStep, q') ∧
        q'.runningTo = none ∧ q'.origin = q.origin ∧ q'.thread = q.thread ∧ Treads m w q' := by
  have call_kind (target : UInt64) (call : i = .call target) :
      i.kind = .call ∧ i.length = 5 := by subst call; exact ⟨rfl, rfl⟩
  have plain_kind (other : ∀ target, i ≠ .call target) : i.kind ≠ .call := by
    cases i <;> first | exact absurd rfl (other _) | exact nofun
  by_cases call : ∃ target, i = .call target
  · obtain ⟨target, same⟩ := call
    obtain ⟨kind, length⟩ := call_kind target same
    subst same
    rw [Stepper.nextAction, if_neg (by simp [kind])]
    cases decides with
    | across stepping pending watch level =>
      rw [stepping]
      exact .inl ⟨_, rfl, ⟨target, found⟩, rfl, by rw [stepping, watch]; exact .across _, level⟩
    | into into pending watch =>
      refine .inr ⟨{ q with pendingCall := some ⟨m.pc + 5, m.machine.registers.sp⟩ }, ?_, running,
        rfl, rfl, .calling into found rfl watch⟩
      rw [into]
      rfl
  · have other : ∀ target, i ≠ .call target := fun target same => call ⟨target, same⟩
    have plain : ∀ target, m.machine.executable.instrAt? m.pc ≠ some (.call target) := by
      intro target same
      rw [found] at same
      exact other target (Option.some.inj same)
    rw [Stepper.nextAction, if_pos (by simpa using plain_kind other)]
    refine .inr ⟨q, rfl, running, rfl, rfl, ?_⟩
    cases decides with
    | across stepping pending watch level => exact .across stepping pending watch level plain
    | into into pending watch => exact .into into pending watch plain

end Decisions

end SourceDebugger.Session
