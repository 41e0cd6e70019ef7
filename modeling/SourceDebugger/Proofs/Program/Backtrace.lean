import Mathlib
import SourceDebugger.Proofs.Program.Outline
/-!
Backtraces of running programs. As long as nothing but stack memory is used as a stack, a walk over
the frames tells which functions are active and where their calls stand, at every instruction and
whatever traps a debugger has put into the code.
-/
namespace SourceDebugger.Machine

open CallStack Traps

section Outlines

variable {p : Program} {e : Executable} {rs : List Routine} {x : Machine} {calls : List Activation}

theorem Run.stack (run : Run e x calls) : x.stack.size = stackSize.toNat := by
  induction run with
  | launch => exact Array.size_replicate
  | @step x y _ _ _ _ done _ ih =>
    have onward := onward_execute x
    rw [done] at onward
    exact onward.stack.trans ih

theorem Run.next (asm : Assembled p e rs) (typed : p.WellTyped) (run : Run e x calls) {q : Outline}
    (next : (x.outline calls).next e = some q) (alive : q.calls ≠ []) :
    ∃ y, Run e y q.calls ∧ y.outline q.calls = q := by
  obtain ⟨b, y, done, same, onStack⟩ := (run.framed asm typed).next asm run.stack next
  have calls_eq : follow x calls = q.calls := congrArg Outline.calls same
  rw [← calls_eq] at alive ⊢
  exact ⟨y, run.step onStack done alive, same⟩

/-- The outline of a program that has just been loaded. -/
def Executable.outset (e : Executable) : Outline := ⟨(boot e).registers, [e.outermost]⟩

/-- The outline after so many instructions, while functions are active. -/
def Executable.outlineAfter (e : Executable) : Nat → Option Outline
  | 0 => some e.outset
  | n + 1 => ((e.outlineAfter n).bind (·.next e)).filter (·.calls ≠ [])

/-- What can be outlined can be run. -/
theorem run_of_outline (asm : Assembled p e rs) (typed : p.WellTyped)
    (room : e.OnStack (stackTop - 8) 8) (n : Nat) {q : Outline} (after : e.outlineAfter n = some q) :
    ∃ x, Run e x q.calls ∧ x.outline q.calls = q := by
  induction n generalizing q with
  | zero =>
    cases after
    exact ⟨boot e, .launch room, rfl⟩
  | succ n ih =>
    obtain ⟨reached, alive⟩ := Option.filter_eq_some_iff.mp after
    obtain ⟨q', before, next⟩ := Option.bind_eq_some_iff.mp reached
    obtain ⟨x, run, same⟩ := ih before
    rw [← same] at next
    exact run.next asm typed next (by simpa using alive)

end Outlines

variable {p : Program} {e : Executable}

/-- At every instruction of a running program the walk says of the innermost activations, as many as
it is asked for, where they stand and what functions they are of. -/
theorem walk_calls (built : p.assemble = .ok e) (typed : p.WellTyped) {x m : Machine}
    {calls : List Activation} {ts : Traps} (run : Run e x calls)
    (covering : ts.Covering e.stackFloor x m) (ros : Roster)
    (own : ros.modules.head? = some e.module) (most generation : Nat) :
    ∃ frames, walk ts m ros mainThread most generation = .ok frames ∧
      frames.map Frame.told = (told p e x.registers.pc x.registers.pc calls).take most := by
  obtain ⟨rs, asm⟩ := assemble_ok built
  exact walk_framed asm covering (shown_of_first asm own) (Nat.le_max_left _ _)
    (run.framed asm typed) most generation

/-- A program whose main function calls another one. -/
def errand : Program where
  path := "/bin/errand"
  sourceFile := "errand.src"
  entry := "main"
  functions :=
    [⟨"main", [], [("done", .bool)], some 1, some 3,
        [.of (some 2) [.call "work", .store "done" (.bool true)]]⟩,
      ⟨"work", [], [("n", .int)], some 5, some 7, [.of (some 6) [.store "n" (.int 1)]]⟩]
  libraries := []

def errandCode : Executable := errand.assemble.toOption.getD default

theorem errand_built : errand.assemble = .ok errandCode := by rfl

/-- The table with one trap over an instruction of a program. -/
def singleTrap (e : Executable) (a : UInt64) : Traps :=
  ⟨[⟨⟨a, (e.code[(a - codeBase).toNat]?).getD 0, true⟩, [1], 0⟩]⟩

theorem covering_singleTrap {x : Machine} {a : UInt64} (code : x.code = e.code)
    (low : codeBase.toNat ≤ a.toNat) (high : a.toNat < codeBase.toNat + e.code.size)
    (room : e.stackFloor ≤ stackTop.toNat) :
    ∃ m, (singleTrap e a).Covering e.stackFloor x m := by
  have limit : stackTop.toNat = 0x7fff0000 := rfl
  have floor : codeBase.toNat + e.code.size ≤ e.stackFloor := Nat.le_max_left _ _
  have located : x.locate a 1 = .ok (.code, (a - codeBase).toNat) :=
    locate_code low (by rw [code]; omega) (by omega)
  have here : (singleTrap e a).find? a =
      some ⟨⟨a, (e.code[(a - codeBase).toNat]?).getD 0, true⟩, [1], 0⟩ := by
    simp [singleTrap, find?, Trap.address]
  have none : Laid ⟨[]⟩ x [] := ⟨by simp [find?], by simp [find?]⟩
  refine ⟨_, ⟨[(.code, (a - codeBase).toNat)], [], .running, false⟩, rfl,
    none.add located (fun b other => ?_) here rfl ?_, ?_⟩
  · simp [singleTrap, find?, Trap.address, Ne.symm other]
  · rw [peek]
    change _ = (x.code[_]?).getD 0
    rw [code]
  · intro s member
    cases List.mem_singleton.mp member
    have place := (locate_spot located).1
    exact .inl (by rw [place]; omega)

/-- Before the called function has made room for its variable, with a trap on that instruction. -/
theorem walk_calls_errand : ∃ x m calls ts,
    Run errandCode x calls ∧ ts.Covering errandCode.stackFloor x m ∧ ts.contains 0x400035 = true ∧
      ∃ frames, walk ts m ⟨none, [errandCode.module], [], none⟩ mainThread 2 0 = .ok frames ∧
        frames.map Frame.told =
          [⟨0x400035, "work", some ⟨"errand.src", 5, 5, none⟩⟩,
            ⟨0x40001e, "main", some ⟨"errand.src", 2, 2, none⟩⟩] := by
  obtain ⟨rs, asm⟩ := assemble_ok errand_built
  have typed : errand.WellTyped := by decide
  obtain ⟨x, run, same⟩ := run_of_outline asm typed (by decide +kernel) 6
    (q := ⟨⟨0x400035, 0x7ffeffd0, 0x7ffeffd0⟩,
      [⟨0x400030, some 0x400019, 0x7ffeffe0⟩, ⟨0x400010, none, 0x7fff0000⟩]⟩) (by decide +kernel)
  obtain ⟨m, covering⟩ := covering_singleTrap (a := 0x400035) (run.framed asm typed).code
    (by decide) (by decide +kernel) (by decide +kernel)
  obtain ⟨frames, walked, said⟩ := walk_calls errand_built typed run covering
    ⟨none, [errandCode.module], [], none⟩ rfl 2 0
  have pc : x.registers.pc = 0x400035 := congrArg (fun q => q.registers.pc) same
  refine ⟨x, m, _, _, run, covering, by decide +kernel, frames, walked, ?_⟩
  rw [said, pc]
  cbv

end SourceDebugger.Machine
