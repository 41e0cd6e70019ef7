import SourceDebugger.Proofs.Program.Backtrace
import SourceDebugger.Proofs.Session.Completion
/-!
Courses that are found out without memory. An outline tells where the next instruction of a program
leads and what it reports; so an observer who has nothing but the outline comes to the same halts, as
long as the program stays within its stack.
-/
namespace SourceDebugger.Machine

/-- How the reports of an instruction stop a program. -/
def haltOf : List Event → Option Halt
  | .trap .. :: _ => some (.paused .break)
  | .signal .. :: _ => some (.paused .exception)
  | .exited code :: _ => some (.exited code)
  | _ => none

/-- What an instruction of an outlined program comes to. -/
def Outline.turn (e : Executable) (q : Outline) : Option (Option Halt × Outline) := do
  let i ← e.instrAt? q.registers.pc
  let next ← q.next e
  return (haltOf (q.reports e i), next)

namespace Observer

variable (o : Observer)

/-- What an observer does at an address that the program has come to. -/
def meets (w : Watch) (depth : Nat) (pc : UInt64) : PauseReason ⊕ Watch :=
  if o.stops pc then .inl .breakpoint
  else match o.judge w depth pc with
    | none => .inl .stepComplete
    | some w => .inr w

/-- Where an observer of the outline comes to a halt, in so many instructions at most. -/
def sketch : Nat → Watch → Outline → Option (Halt × Outline)
  | 0, _, _ => none
  | n + 1, w, q =>
    match q.turn o.program with
    | none => none
    | some (some how, next) => some (how, next)
    | some (none, next) =>
      if (o.program.instrAt? next.registers.pc).isNone then none
      else match o.meets w next.calls.length next.registers.pc with
        | .inl reason => some (.paused reason, next)
        | .inr w => sketch n w next

end Observer

/-- The outline of a program at a moment. -/
def Moment.outline (m : Moment) : Outline := m.machine.outline m.calls

variable {p : Program} {o : Observer} {rs : List Routine} {m n : Moment} {w w' : Watch} {how : Halt}
  {q : Outline} {reason : PauseReason} {y : Machine} {b : Bool}

namespace Moment

theorem turn_halts (free : m.machine.pendingSignal = none) (done : execute m.machine = (.ok b, y))
    (stops : haltOf y.pending = some how) : m.turn = .halt how (m.after y) := by
  rw [turn, free]
  simp only [done]
  cases pending : y.pending with
  | nil =>
    rw [pending] at stops
    cases stops
  | cons e rest =>
    rw [pending] at stops
    cases e <;> cases stops <;> rfl

theorem turn_goes (free : m.machine.pendingSignal = none) (done : execute m.machine = (.ok b, y))
    (goes : haltOf y.pending = none) : ∃ told, m.turn = .on told (m.after y) := by
  rw [turn, free]
  simp only [done]
  cases pending : y.pending with
  | nil => exact ⟨[], rfl⟩
  | cons e rest =>
    rw [pending] at goes
    cases e with
    | trap | signal | exited => cases goes
    | _ => exact ⟨_, rfl⟩

/-- A program that goes on has no signal waiting for it. -/
theorem signal_of_goes (done : execute m.machine = (.ok b, y)) (goes : haltOf y.pending = none)
    (calm : m.machine.pending = []) : y.pendingSignal = m.machine.pendingSignal := by
  rcases execute_report done with ⟨rfl, rfl⟩ | report
  · simp [trapped, calm, haltOf] at goes
  · cases report with
    | nothing => exact signal_kept done
    | notice => exact signal_kept done
    | signal number description told => simp [told, calm, haltOf] at goes
    | exit code told => simp [told, calm, haltOf] at goes

/-- A program that has lived and for which no signal waits. -/
structure Free (e : Executable) (m : Moment) : Prop where
  lived : Lived e m.machine m.calls
  signal : m.machine.pendingSignal = none

variable (asm : Assembled p o.program rs) (typed : p.WellTyped) (compact : p.Compact)

include asm typed compact

/-- The outline tells what an instruction comes to. -/
theorem Free.turn (free : m.Free o.program) {halt : Option Halt}
    (turned : m.outline.turn o.program = some (halt, q)) : ∃ n, n.outline = q ∧
      match halt with
      | some how => m.turn = .halt how n
      | none => n.Free o.program ∧ ∃ told, m.turn = .on told n := by
  have framed := free.lived.framed asm typed compact
  have calm : m.machine.pending = [] := by rw [← free.lived.calm_eq]; rfl
  obtain ⟨i, found, leads⟩ := Option.bind_eq_some_iff.mp turned
  obtain ⟨next, follows, same⟩ := Option.bind_eq_some_iff.mp leads
  obtain ⟨rfl, rfl⟩ := Prod.mk.inj (Option.some.inj same)
  obtain ⟨b, y, done, outlined, _⟩ := framed.next asm free.lived.stack follows
  have here : m.machine.executable.instrAt? m.machine.registers.pc = some i := by
    rw [framed.executable]
    exact found
  have reports : y.pending = m.outline.reports o.program i := by
    rw [framed.reports asm here done, calm]
    rfl
  refine ⟨m.after y, outlined, ?_⟩
  rw [← reports]
  cases halts : haltOf y.pending with
  | some how => exact turn_halts free.signal done halts
  | none =>
    obtain ⟨told, turned⟩ := turn_goes free.signal done halts
    refine ⟨⟨turn_lived asm typed compact free.lived turned, ?_⟩, told, turned⟩
    exact (signal_of_goes done halts calm).trans free.signal

end Moment

namespace Observer

theorem leads_of_meets (same : m.outline = q)
    (meets : o.meets w q.calls.length q.registers.pc = .inl reason) :
    ∃ k ≤ 2, o.Leads k (.come w m) [] (.done (.paused reason) m) := by
  subst same
  rw [Observer.meets, show m.outline.registers.pc = m.pc from rfl] at meets
  split at meets
  · rename_i stop
    cases meets
    exact ⟨1, by decide, leads_stop stop⟩
  · rename_i free
    have look : o.Leads 1 (.come w m) [] (.look w m) := leads_look (by simpa using free)
    split at meets
    · rename_i stopped
      cases meets
      exact ⟨2, by decide, look.trans (leads_complete stopped)⟩
    · cases meets

theorem leads_of_goes (same : m.outline = q)
    (meets : o.meets w q.calls.length q.registers.pc = .inr w') :
    o.Leads 2 (.come w m) [] (.turn w' m) := by
  subst same
  rw [Observer.meets, show m.outline.registers.pc = m.pc from rfl] at meets
  split at meets
  · cases meets
  · rename_i free
    have look : o.Leads 1 (.come w m) [] (.look w m) := leads_look (by simpa using free)
    split at meets
    · cases meets
    · rename_i goes
      cases meets
      exact look.trans (leads_go goes)

/-- What is sketched comes about. -/
theorem leads_of_sketch (asm : Assembled p o.program rs) (typed : p.WellTyped) (compact : p.Compact)
    (most : Nat) (free : m.Free o.program) (sketched : o.sketch most w m.outline = some (how, q)) :
    ∃ k told last, k ≤ 3 * most ∧ o.Leads k (.turn w m) told (.done how last) ∧ last.outline = q ∧
      (how = .paused .breakpoint → last.Free o.program) := by
  induction most generalizing m w with
  | zero => cases sketched
  | succ most ih =>
    rw [sketch] at sketched
    split at sketched
    · cases sketched
    · rename_i next turned
      cases sketched
      obtain ⟨n, same, turned⟩ := free.turn asm typed compact turned
      refine ⟨1, [], n, by omega, leads_halt turned, same, ?_⟩
      rintro rfl
      exact absurd (Moment.turn_paused turned) (by simp)
    · rename_i next turned
      obtain ⟨n, same, after, told, turned⟩ := free.turn asm typed compact turned
      have first : o.Leads 1 (.turn w m) told (.come w n) := leads_on turned
      split at sketched
      · cases sketched
      · split at sketched
        · rename_i reason meets
          cases sketched
          obtain ⟨k, short, rest⟩ := leads_of_meets same meets
          exact ⟨1 + k, told ++ [], n, by omega, first.trans rest, same, fun _ => after⟩
        · rename_i w' meets
          rw [← same] at sketched
          obtain ⟨k, more, last, short, leads, ends⟩ := ih after sketched
          exact ⟨1 + 2 + k, told ++ [] ++ more, last, by omega,
            (first.trans (leads_of_goes same meets)).trans leads, ends⟩

/-- A program that has just been loaded and has no breakpoint at its entry. -/
theorem leads_of_launch (asm : Assembled p o.program rs) (typed : p.WellTyped) (compact : p.Compact)
    (most : Nat) (entry : o.stops o.program.entry = false)
    (sketched : o.sketch most .nothing o.program.outset = some (how, q)) :
    ∃ k told last, k ≤ 3 * most + 2 ∧
      o.Leads k (.come .nothing (.launch o.program)) told (.done how last) ∧
      last.outline = q ∧ (how = .paused .breakpoint → last.Free o.program) := by
  have free : (Moment.launch o.program).Free o.program := ⟨.launch, rfl⟩
  obtain ⟨k, told, last, short, leads, ends⟩ :=
    leads_of_sketch (m := .launch o.program) asm typed compact most free sketched
  have look : o.Leads 1 (.come .nothing (.launch o.program)) [] (.look .nothing (.launch o.program)) :=
    leads_look entry
  exact ⟨1 + 1 + k, [] ++ [] ++ told, last, by omega, (look.trans (leads_go rfl)).trans leads, ends⟩

theorem judge_congr {o' : Observer} (program : o'.program = o.program) (origin : o'.origin = o.origin) :
    o'.judge = o.judge := by
  obtain ⟨_, _, _⟩ := o
  obtain ⟨_, _, _⟩ := o'
  cases program
  cases origin
  rfl

/-- Observers of the same program who stop at the same instructions make the same sketches. -/
theorem sketch_congr {o' : Observer} (program : o'.program = o.program) (origin : o'.origin = o.origin)
    (stops : ∀ a i, o.program.instrAt? a = some i → o'.stops a = o.stops a) (most : Nat) (w : Watch)
    (q : Outline) : o'.sketch most w q = o.sketch most w q := by
  induction most generalizing w q with
  | zero => rfl
  | succ most ih =>
    rw [sketch, sketch, program]
    split
    · rfl
    · rfl
    · rename_i next turned
      cases found : o.program.instrAt? next.registers.pc with
      | none => rfl
      | some i => simp only [meets, stops _ i found, judge_congr program origin, ih]

end Observer

end SourceDebugger.Machine
