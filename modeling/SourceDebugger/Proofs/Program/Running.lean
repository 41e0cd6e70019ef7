import SourceDebugger.Proofs.Program.Unwinding
/-!
Programs that run on their own. As long as nothing but stack memory is used as a stack, every state
a program comes to has the frames of its activations.
-/
namespace SourceDebugger.Machine

open CallStack

/-- A stretch of stack memory. What lies in the code is no stack. -/
def Executable.OnStack (e : Executable) (a : UInt64) (n : Nat) : Prop :=
  codeBase.toNat + e.code.size ≤ a.toNat ∧ stackTop.toNat - stackSize.toNat ≤ a.toNat ∧
    a.toNat + n ≤ stackTop.toNat

/-- The states that a program comes to, with its activations, while it reads and writes its stack and
its first function has not returned. -/
inductive Run (e : Executable) : Machine → List Activation → Prop
  | launch : e.OnStack (stackTop - 8) 8 → Run e (boot e) [e.outermost]
  | step {x y : Machine} {calls : List Activation} {b : Bool} : Run e x calls →
      (∀ i a n, x.executable.instrAt? x.registers.pc = some i →
        i.accessed x.registers = some (a, n) → e.OnStack a n) →
      execute x = (.ok b, y) → follow x calls ≠ [] → Run e y (follow x calls)

/-- Where the stack begins, or behind code that reaches into it. -/
def Executable.stackFloor (e : Executable) : Nat :=
  max (codeBase.toNat + e.code.size) (stackTop.toNat - stackSize.toNat)

variable {p : Program} {e : Executable} {rs : List Routine}

/-- The word on top of the stack at the start is the return address 0. -/
theorem word_boot (below : codeBase.toNat + e.code.size ≤ (stackTop - 8).toNat) :
    Word (boot e) (stackTop - 8) 0 := by
  have top : (stackTop - 8).toNat = 0x7ffefff8 := rfl
  have base : Region.stack.base = 0x7ffe0000 := rfl
  have low : Region.code.base = codeBase.toNat := rfl
  have size : ((boot e).region .stack).size = 0x10000 := Array.size_replicate
  have located : (boot e).locate (stackTop - 8) 8 = .ok (.stack, 0xfff8) := by
    rw [locate_run, if_neg (by omega), if_neg, if_pos, top, base]
    · exact ⟨by omega, by omega⟩
    · intro holds
      have last : (stackTop - 8).toNat + 8 ≤ Region.code.base + e.code.size := holds.2
      omega
  refine ⟨_, load_located (by decide) located, ?_⟩
  have zeros : ((boot e).region .stack).extract 0xfff8 (0xfff8 + 8) = Array.replicate 8 0 := by
    show (Array.replicate 0x10000 0).extract _ _ = _
    rw [Array.extract_replicate]
    rfl
  rw [zeros]
  rfl

theorem framed_boot (asm : Assembled p e rs) {floor : Nat} (room : floor ≤ (stackTop - 8).toNat)
    (below : codeBase.toNat + e.code.size ≤ floor) :
    Framed e rs floor (boot e) [e.outermost] := by
  obtain ⟨r, known, entry⟩ := asm.called asm.entry
  have long := asm.four_le known
  refine ⟨rfl, rfl, e.outermost, [], r, 0, stackTop.toNat, 0, rfl, known, entry, rfl, ?_, by omega,
    .outermost (Nat.le_refl _), .entered rfl room (word_boot (by omega)) rfl⟩
  rw [address_entry, entry]
  rfl

theorem Run.framed (asm : Assembled p e rs) (typed : p.WellTyped) {x : Machine}
    {calls : List Activation} (run : Run e x calls) : Framed e rs e.stackFloor x calls := by
  induction run with
  | launch onStack =>
    refine framed_boot asm (Nat.max_le.mpr ⟨onStack.1, onStack.2.1⟩) (Nat.le_max_left _ _)
  | @step x y calls b _ onStack done alive ih =>
    have within : Within e.stackFloor stackTop.toNat x := by
      intro i a n found reads
      obtain ⟨above, low, high⟩ := onStack i a n found reads
      exact ⟨Nat.max_le.mpr ⟨above, low⟩, high⟩
    rcases ih.step asm typed (Nat.le_max_left _ _) within done with framed | ⟨none, _⟩
    · exact framed
    · exact absurd none alive

end SourceDebugger.Machine
