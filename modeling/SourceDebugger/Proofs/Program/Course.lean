import SourceDebugger.Proofs.Program.History
import SourceDebugger.Session.State
/-!
The course of a program, one instruction after the other, as an observer follows it who sees every
instruction and keeps the activations in mind. The observer stops at breakpoints and where a step is
complete; how far a step has got is kept in a *watch*.
-/
namespace SourceDebugger.Machine

/-- A program between two instructions, with the activations of its functions, innermost first. -/
structure Moment where
  machine : Machine
  calls : List Activation

namespace Moment

/-- The program's state when it has just been loaded. -/
def launch (e : Executable) : Moment := ⟨(boot e).calm, [e.outermost]⟩

def pc (m : Moment) : UInt64 := m.machine.registers.pc

def depth (m : Moment) : Nat := m.calls.length

/-- The moment after an instruction that has changed the machine. -/
def after (m : Moment) (y : Machine) : Moment := ⟨y.calm, follow m.machine m.calls⟩

end Moment

/-- How the course of a program is interrupted, or ends. -/
inductive Halt where
  | paused (reason : PauseReason)
  | exited (code : Int)
  | fault (fault : Fault)
  deriving DecidableEq, Repr

/-- What one instruction comes to. -/
inductive Turn where
  | on (told : List Event) (next : Moment)
  | halt (how : Halt) (next : Moment)

/-- One instruction; a signal that waits ends the program instead. -/
def Moment.turn (m : Moment) : Turn :=
  match m.machine.pendingSignal with
  | some signal =>
    .halt (.exited (128 + signal))
      { m with machine := { m.machine with pendingSignal := none, threads := [] } }
  | none =>
    let (result, y) := execute m.machine
    match result, y.pending with
    | .error fault, _ => .halt (.fault fault) (m.after y)
    | .ok _, [] => .on [] (m.after y)
    | .ok _, .trap .. :: _ => .halt (.paused .break) (m.after y)
    | .ok _, .signal .. :: _ => .halt (.paused .exception) (m.after y)
    | .ok _, .exited code :: _ => .halt (.exited code) (m.after y)
    | .ok _, event :: _ => .on [event] (m.after y)

/-- What a step waits for, by the number of activations. -/
inductive Watch where
  /-- The program just runs. -/
  | nothing
  /-- The start of a statement, with no more activations than there have been at any time. -/
  | over (least : Nat)
  /-- The start of a statement; `last` is the number of activations before the instruction. -/
  | into (last : Nat)
  /-- The return from a function without lines. -/
  | skipping (last : Nat)
  /-- Code with lines, with fewer activations than there have been at any time. -/
  | out (least : Nat)
  /-- The start of a statement, with so many activations at most. -/
  | within (most : Nat)
  deriving DecidableEq, Repr

/-- Who follows a program: from the statement that a step began in, stopping at some addresses. -/
structure Observer where
  program : Executable
  origin : Option (UInt64 × UInt64)
  stops : UInt64 → Bool

/-- What is due next. -/
inductive Due where
  /-- An instruction is to be executed. -/
  | turn (w : Watch) (m : Moment)
  /-- It has been executed, and breakpoints come first. -/
  | come (w : Watch) (m : Moment)
  /-- There is no breakpoint. -/
  | look (w : Watch) (m : Moment)
  | done (how : Halt) (m : Moment)

namespace Observer

variable (o : Observer)

def lineAt? (pc : UInt64) : Option CodeRange := o.program.module.lineAt? pc

def hasLines (pc : UInt64) : Bool :=
  ((o.program.module.functionAt? pc).map (·.hasLines)).getD false

/-- An address is in the statement that the step began in. -/
def inOrigin (pc : UInt64) : Bool :=
  match o.origin with
  | some (low, high) => low ≤ pc && pc < high
  | none => false

/-- An address begins a statement, and not the one that the step began in. -/
def begins (pc : UInt64) : Bool := (o.lineAt? pc).any (·.start == pc) && !o.inOrigin pc

/-- Whether a watch goes on, and how, or is over, by the number of activations and the address. -/
def judge (w : Watch) (depth : Nat) (pc : UInt64) : Option Watch :=
  match w with
  | .nothing => some .nothing
  | .over least =>
    if least < depth then some w else if o.begins pc then none else some (.over depth)
  | .into last =>
    if last < depth ∧ o.hasLines pc = false then some (.skipping last)
    else if o.begins pc then none else some (.into depth)
  | .skipping last =>
    if last < depth then some w else if o.begins pc then none else some (.into depth)
  | .out least =>
    if least ≤ depth then some w
    else if (o.lineAt? pc).isSome then none else some (.out depth)
  | .within most => if depth ≤ most ∧ o.begins pc then none else some w

def watch (w : Watch) (m : Moment) : Option Watch := o.judge w m.depth m.pc

/-- What the observer does next, and what the program has told meanwhile. -/
def next : Due → List Event × Due
  | .turn w m => match m.turn with
    | .on told n => (told, .come w n)
    | .halt how n => ([], .done how n)
  | .come w m => ([], if o.stops m.pc then .done (.paused .breakpoint) m else .look w m)
  | .look w m => ([], match o.watch w m with
    | none => .done (.paused .stepComplete) m
    | some w => .turn w m)
  | .done how m => ([], .done how m)

/-- So many steps of the observer lead from one point to another, during which the program tells
something. -/
inductive Leads : Nat → Due → List Event → Due → Prop
  | refl (d : Due) : Leads 0 d [] d
  | next {n : Nat} {d d' : Due} {told : List Event} : (∀ how m, d ≠ .done how m) →
      Leads n (o.next d).2 told d' → Leads (n + 1) d ((o.next d).1 ++ told) d'

/-- The course comes to a halt. -/
def Ends (d : Due) (told : List Event) (how : Halt) (m : Moment) : Prop :=
  ∃ n, o.Leads n d told (.done how m)

variable {o} {n k : Nat} {d d' d'' : Due} {told more : List Event}

theorem Leads.trans (first : o.Leads n d told d') (second : o.Leads k d' more d'') :
    o.Leads (n + k) d (told ++ more) d'' := by
  induction first with
  | refl => simpa using second
  | next going _ ih =>
    rw [Nat.add_right_comm, List.append_assoc]
    exact .next going (ih second)

theorem Leads.one (going : ∀ how m, d ≠ .done how m) : o.Leads 1 d (o.next d).1 (o.next d).2 := by
  have step : o.Leads (0 + 1) d ((o.next d).1 ++ []) (o.next d).2 := .next going (.refl _)
  rwa [List.append_nil] at step

/-- A course that has come to a halt passes everything that the observer comes to. -/
theorem Leads.split {how : Halt} {m : Moment} (whole : o.Leads n d told (.done how m))
    (first : o.Leads k d more d') :
    ∃ rest, k ≤ n ∧ told = more ++ rest ∧ o.Leads (n - k) d' rest (.done how m) := by
  induction first generalizing n told with
  | refl => exact ⟨told, Nat.zero_le _, rfl, whole⟩
  | next going _ ih =>
    cases whole with
    | refl => exact absurd rfl (going _ _)
    | @next n _ _ rest _ whole =>
      obtain ⟨last, short, rfl, left⟩ := ih whole
      exact ⟨last, by omega, (List.append_assoc _ _ _).symm, by rwa [Nat.add_sub_add_right]⟩

theorem Leads.of_done {how : Halt} {m : Moment} (leads : o.Leads n (.done how m) told d) :
    n = 0 ∧ told = [] ∧ d = .done how m := by
  cases leads with
  | refl => exact ⟨rfl, rfl, rfl⟩
  | next going => exact absurd rfl (going _ _)

/-- There is one halt at most. -/
theorem Ends.unique {how how' : Halt} {m m' : Moment} (first : o.Ends d told how m)
    (second : o.Ends d more how' m') : told = more ∧ how = how' ∧ m = m' := by
  obtain ⟨n, first⟩ := first
  obtain ⟨k, second⟩ := second
  obtain ⟨rest, _, same, left⟩ := first.split second
  obtain ⟨_, rfl, halt⟩ := left.of_done
  cases halt
  exact ⟨by rw [same, List.append_nil], rfl, rfl⟩

section Step

variable {m n : Moment} {w w' : Watch}

theorem leads_on (turned : m.turn = .on told n) : o.Leads 1 (.turn w m) told (.come w n) := by
  have step := Leads.one (o := o) (d := .turn w m) (fun _ _ same => by cases same)
  rw [next, turned] at step
  exact step

theorem leads_halt {how : Halt} (turned : m.turn = .halt how n) :
    o.Leads 1 (.turn w m) [] (.done how n) := by
  have step := Leads.one (o := o) (d := .turn w m) (fun _ _ same => by cases same)
  rw [next, turned] at step
  exact step

theorem leads_stop (stop : o.stops m.pc = true) :
    o.Leads 1 (.come w m) [] (.done (.paused .breakpoint) m) := by
  have step := Leads.one (o := o) (d := .come w m) (fun _ _ same => by cases same)
  rw [next, if_pos stop] at step
  exact step

theorem leads_look (free : o.stops m.pc = false) : o.Leads 1 (.come w m) [] (.look w m) := by
  have step := Leads.one (o := o) (d := .come w m) (fun _ _ same => by cases same)
  rw [next, if_neg (by simp [free])] at step
  exact step

theorem leads_complete (complete : o.watch w m = none) :
    o.Leads 1 (.look w m) [] (.done (.paused .stepComplete) m) := by
  have step := Leads.one (o := o) (d := .look w m) (fun _ _ same => by cases same)
  rw [next, complete] at step
  exact step

theorem leads_go (goes : o.watch w m = some w') : o.Leads 1 (.look w m) [] (.turn w' m) := by
  have step := Leads.one (o := o) (d := .look w m) (fun _ _ same => by cases same)
  rw [next, goes] at step
  exact step

end Step

end Observer

namespace Moment

variable {m : Moment} {b : Bool} {y : Machine}

theorem turn_signal {signal : Int} (waits : m.machine.pendingSignal = some signal) :
    m.turn = .halt (.exited (128 + signal))
      { m with machine := { m.machine with pendingSignal := none, threads := [] } } := by
  rw [turn, waits]

section Free

variable (free : m.machine.pendingSignal = none)

include free

theorem turn_fault {f : Fault} (failed : execute m.machine = (.error f, y)) :
    m.turn = .halt (.fault f) (m.after y) := by
  rw [turn, free]
  simp only [failed]

theorem turn_quiet (done : execute m.machine = (.ok b, y)) (quiet : y.pending = []) :
    m.turn = .on [] (m.after y) := by
  rw [turn, free]
  simp only [done, quiet]

theorem turn_notice {e : Event} (done : execute m.machine = (.ok b, y)) (one : y.pending = [e])
    (stop : e.isStop = false) (exit : e.isExit = false) :
    m.turn = .on [e] (m.after y) := by
  rw [turn, free]
  cases e with
  | trap | signal => cases stop
  | exited => cases exit
  | _ => simp only [done, one]

theorem turn_trap {t : ThreadId} {a : UInt64} {kind : TrapKind}
    (done : execute m.machine = (.ok b, y)) (one : y.pending = [.trap t a kind]) :
    m.turn = .halt (.paused .break) (m.after y) := by
  rw [turn, free]
  simp only [done, one]

theorem turn_raised {t : ThreadId} {number : Int} {description : String}
    (done : execute m.machine = (.ok b, y)) (one : y.pending = [.signal t number description]) :
    m.turn = .halt (.paused .exception) (m.after y) := by
  rw [turn, free]
  simp only [done, one]

theorem turn_exit {code : Int} (done : execute m.machine = (.ok b, y))
    (one : y.pending = [.exited code]) :
    m.turn = .halt (.exited code) (m.after y) := by
  rw [turn, free]
  simp only [done, one]

end Free

end Moment

end SourceDebugger.Machine
