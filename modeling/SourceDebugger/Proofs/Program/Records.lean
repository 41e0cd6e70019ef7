import Mathlib.Logic.Function.Basic
import SourceDebugger.Proofs.Program.Backtrace
/-!
What a program has put into its variables. Beside the activations a record is kept of the data that were
set for the next call, and of those that each activation was given and has stored since.
-/
namespace SourceDebugger.Machine

/-- What an activation was given and what it has stored. -/
structure Holding where
  /-- The data that were set when it began, by the indices of arguments. -/
  given : Nat → Option Datum
  /-- The data last stored, by the offsets of slots. -/
  stored : Int64 → Option Datum

/-- What an activation holds that has only just begun. -/
def Holding.fresh (set : Nat → Option Datum) : Holding := ⟨set, fun _ => none⟩

def Holding.store (h : Holding) (offset : Int64) (d : Datum) : Holding :=
  { h with stored := Function.update h.stored offset (some d) }

theorem Holding.stored_store (h : Holding) (offset other : Int64) (d : Datum) :
    (h.store offset d).stored other = if other = offset then some d else h.stored other :=
  Function.update_apply _ _ _ _

/-- The data last set for the next call, and what the activations hold, innermost first. -/
structure Stock where
  set : Nat → Option Datum
  holdings : List Holding

def Stock.note (q : Stock) : Instr → Stock
  | .setArg index d => { q with set := Function.update q.set index (some d) }
  | .store offset d => { q with holdings := q.holdings.modifyHead (·.store offset d) }
  | .call _ => { q with holdings := .fresh q.set :: q.holdings }
  | .ret => { q with holdings := q.holdings.tail }
  | _ => q

/-- The record after an instruction, if there is one. -/
def Stock.after (q : Stock) : Option Instr → Stock
  | some i => q.note i
  | none => q

/-- The record of a program that has just been loaded. -/
def Stock.empty : Stock := ⟨fun _ => none, [.fresh fun _ => none]⟩

/-- The states that a program comes to, with its activations and the record of what they hold. -/
inductive Recorded (e : Executable) : Machine → List Activation → Stock → Prop
  | launch : Recorded e (boot e).calm [e.outermost] .empty
  | step {x y : Machine} {calls : List Activation} {q : Stock} {b : Bool} :
      Recorded e x calls q → execute x = (.ok b, y) → follow x calls ≠ [] →
        Recorded e y.calm (follow x calls) (q.after (x.executable.instrAt? x.registers.pc))
  | driven {x : Machine} {calls : List Activation} {q : Stock} (signal : Option Int)
      (threads : List ThreadId) :
      Recorded e x calls q → Recorded e { x with pendingSignal := signal, threads } calls q

theorem Recorded.lived {e : Executable} {x : Machine} {calls : List Activation} {q : Stock}
    (recorded : Recorded e x calls q) : Lived e x calls := by
  induction recorded with
  | launch => exact .launch
  | step _ done alive ih => exact .step ih done alive
  | driven signal threads _ ih => exact .driven signal threads ih

theorem Lived.recorded {e : Executable} {x : Machine} {calls : List Activation}
    (lived : Lived e x calls) : ∃ q, Recorded e x calls q := by
  induction lived with
  | launch => exact ⟨_, .launch⟩
  | step _ done alive ih =>
    obtain ⟨q, recorded⟩ := ih
    exact ⟨_, recorded.step done alive⟩
  | driven signal threads _ ih =>
    obtain ⟨q, recorded⟩ := ih
    exact ⟨q, recorded.driven signal threads⟩

/-- The outline of a program after so many instructions, with the record of what it holds, while
functions are active. -/
def Executable.recordAfter (e : Executable) : Nat → Option (Outline × Stock)
  | 0 => some (e.outset, .empty)
  | n + 1 => (e.recordAfter n).bind fun r =>
    ((r.1.next e).filter (·.calls ≠ [])).map fun q => (q, r.2.after (e.instrAt? r.1.registers.pc))

section Outlines

variable {p : Program} {e : Executable} {rs : List Routine} {x y : Machine}
  {calls : List Activation} {q : Stock}

/-- Where every instruction up to the end of a program can be outlined, every state that it comes to is
one of those outlined. -/
theorem Recorded.outlined (asm : Assembled p e rs) (typed : p.WellTyped) (compact : p.Compact) {most : Nat}
    (whole : ∀ n < most, ∀ r, e.recordAfter n = some r → (r.1.next e).isSome = true)
    (ends : e.recordAfter most = none) (recorded : Recorded e x calls q) :
    ∃ n < most, e.recordAfter n = some (x.outline calls, q) := by
  have inside {n : Nat} {r : Outline × Stock} (le : n ≤ most) (found : e.recordAfter n = some r) :
      n < most := by
    refine Nat.lt_of_le_of_ne le fun same => ?_
    rw [same, ends] at found
    cases found
  induction recorded with
  | launch => exact ⟨0, inside (Nat.zero_le _) rfl, rfl⟩
  | @step x y calls q b recorded done alive ih =>
    obtain ⟨n, less, found⟩ := ih
    have framed := recorded.lived.framed asm typed compact
    obtain ⟨o, next⟩ := Option.isSome_iff_exists.mp (whole n less _ found)
    obtain ⟨b', y', does, same, _⟩ := framed.next asm recorded.lived.stack next
    cases done.symm.trans does
    have later : e.recordAfter (n + 1) = some (o, q.after (x.executable.instrAt? x.registers.pc)) := by
      have calls : o.calls = follow x calls := congrArg Outline.calls same.symm
      have kept : (some o).filter (·.calls ≠ []) = some o :=
        Option.filter_some_pos (by simpa [calls] using alive)
      rw [Executable.recordAfter, found, Option.bind_some, next, kept, framed.executable]
      rfl
    subst same
    exact ⟨n + 1, inside less later, later⟩
  | driven signal threads _ ih => exact ih

end Outlines

end SourceDebugger.Machine
