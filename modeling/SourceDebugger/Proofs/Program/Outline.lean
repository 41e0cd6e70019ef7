import SourceDebugger.Proofs.Program.History
/-!
The outline of a run: the registers and the activations, without memory. The stack of an assembled
program holds what its activations say, so they determine where every instruction leads and what it
reports; and an instruction fails only where it reaches out of the stack.
-/
namespace SourceDebugger.Machine

open Effect

/-- Where a program stands, and the activations of its functions, innermost first. -/
structure Outline where
  registers : Registers
  calls : List Activation
  deriving DecidableEq, Repr

namespace Outline

/-- The frame pointer of the function that made the innermost call. -/
def outerFp (q : Outline) : UInt64 :=
  match q.calls with
  | _ :: d :: _ => d.top - 16
  | _ => 0

/-- Where the innermost activation returns to. -/
def back (q : Outline) : UInt64 := backOf (q.calls.head?.bind (·.site))

/-- The registers after an instruction. -/
def leads (q : Outline) : Instr → Registers
  | .pushFrame => ⟨q.registers.pc + 1, q.registers.sp - 8, q.registers.fp⟩
  | .setFrame => ⟨q.registers.pc + 4, q.registers.sp, q.registers.sp⟩
  | .reserve size => ⟨q.registers.pc + 4, q.registers.sp - size, q.registers.fp⟩
  | .leave => ⟨q.registers.pc + 4, q.registers.fp + 8, q.outerFp⟩
  | .ret => ⟨q.back, q.registers.sp + 8, q.registers.fp⟩
  | .call target => ⟨target, q.registers.sp - 8, q.registers.fp⟩
  | .jump target => ⟨target, q.registers.sp, q.registers.fp⟩
  | i => ⟨q.registers.pc + i.length, q.registers.sp, q.registers.fp⟩

/-- The activations after an instruction. -/
def entered (q : Outline) : Instr → List Activation
  | .call target => ⟨target, some q.registers.pc, q.registers.sp⟩ :: q.calls
  | .ret => q.calls.tail
  | _ => q.calls

/-- What an instruction reports. -/
def reports (e : Executable) (q : Outline) : Instr → List Event
  | .ret => if q.back = 0 then [.exited 0] else []
  | .break => [.trap mainThread (q.registers.pc + 1) .software]
  | .print text => [.output text]
  | .spawn thread => [.threadStarted thread]
  | .endThread thread => [.threadEnded thread]
  | .load index =>
    (e.libraries[index]?.map fun l => .moduleLoaded l.path (libraryBase index) l.size).toList
  | .fault signal description => [.signal mainThread signal description]
  | .exit code => [.exited code]
  | _ => []

theorem reports_trap {e : Executable} {q : Outline} {i : Instr} {t : ThreadId} {a : UInt64}
    {kind : TrapKind} (told : .trap t a kind ∈ q.reports e i) : i = .break := by
  cases i with
  | «break» => rfl
  | ret =>
    rw [reports] at told
    split at told <;> simp at told
  | _ => simp [reports] at told

theorem reports_module {e : Executable} {q : Outline} {i : Instr} {path : String} {base size : UInt64}
    (told : .moduleLoaded path base size ∈ q.reports e i) :
    ∃ (index : Nat) (l : Library), e.libraries[index]? = some l ∧ base = libraryBase index := by
  cases i with
  | ret =>
    rw [reports] at told
    split at told <;> simp at told
  | load index =>
    simp only [reports, Option.mem_toList, Option.map_eq_some_iff] at told
    obtain ⟨l, found, same⟩ := told
    cases same
    exact ⟨index, l, found, rfl⟩
  | _ => simp [reports] at told

end Outline

/-- The outline of a machine. -/
def outline (x : Machine) (calls : List Activation) : Outline := ⟨x.registers, calls⟩

theorem follow_eq {x : Machine} {i : Instr} (found : x.executable.instrAt? x.registers.pc = some i)
    (calls : List Activation) : follow x calls = (x.outline calls).entered i := by
  rw [follow, found]
  cases i <;> rfl

/-- A stretch is all of stack memory. -/
instance (e : Executable) (a : UInt64) (n : Nat) : Decidable (e.OnStack a n) :=
  inferInstanceAs (Decidable (_ ∧ _ ∧ _))

section Success

variable {e : Executable} {x : Machine} {a : UInt64} {n : Nat}

theorem locate_stack (stack : x.stack.size = stackSize.toNat) (onStack : e.OnStack a n) :
    ∃ s, x.locate a n = .ok s := by
  have limit : stackTop.toNat = 0x7fff0000 := rfl
  obtain ⟨_, low, high⟩ := onStack
  have holds : Holds x a n .stack := by
    refine ⟨low, ?_⟩
    have base : Region.stack.base = stackTop.toNat - stackSize.toNat := rfl
    have size : (x.region .stack).size = stackSize.toNat := stack
    have order : stackSize.toNat ≤ stackTop.toNat := by decide
    rw [base, size]
    omega
  rw [locate_run, if_neg (by omega), if_pos holds]
  split <;> exact ⟨_, rfl⟩

theorem store_succeeds (bytes : Bytes) {m : Machine} (onward : Onward x m)
    (located : ∃ s, x.locate a bytes.length = .ok s) :
    ∃ y, store a bytes m = (.ok (), y) := by
  obtain ⟨s, there⟩ := located
  rw [store_run, locate_onward onward there]
  exact ⟨_, rfl⟩

theorem push_succeeds (word : UInt64) (located : ∃ s, x.locate (x.registers.sp - 8) 8 = .ok s) :
    ∃ y, push word x = (.ok (), y) := by
  have length : (Bytes.ofWord word).length = 8 := Bytes.length_ofNat 8 _
  rw [push_run]
  exact store_succeeds _ ⟨rfl, rfl, rfl, Nat.le_refl _, rfl⟩ (by rwa [length])

/-- An instruction succeeds if memory is where it reads and writes. -/
theorem effect_succeeds {next : UInt64} {i : Instr}
    (located : ∀ a n, i.accessed x.registers = some (a, n) → ∃ s, x.locate a n = .ok s) :
    ∃ b y, effect next i x = (.ok b, y) := by
  rw [effect_run]
  cases i with
  | pushFrame =>
    obtain ⟨y, pushed⟩ := push_succeeds x.registers.fp (located _ _ rfl)
    simp only [pushed]
    exact ⟨_, _, rfl⟩
  | call target =>
    obtain ⟨y, pushed⟩ := push_succeeds next (located _ _ rfl)
    simp only [pushed]
    exact ⟨_, _, rfl⟩
  | spill index offset size =>
    obtain ⟨y, stored⟩ := store_succeeds (argumentBytes x index size.toNat)
      (Onward.refl x) (by rw [length_argumentBytes]; exact located _ _ rfl)
    simp only [stored]
    exact ⟨_, _, rfl⟩
  | store offset datum =>
    have grown : Onward x { x with heap := x.heap.appendList datum.payload } :=
      ⟨rfl, rfl, rfl, by simp, rfl⟩
    obtain ⟨y, stored⟩ := store_succeeds (datum.slot x.heap.size) grown
      (by rw [length_slot]; exact located _ _ rfl)
    simp only [stored]
    exact ⟨_, _, rfl⟩
  | leave =>
    obtain ⟨s, there⟩ := located _ _ rfl
    simp only [load_located (by decide) there]
    exact ⟨_, _, rfl⟩
  | ret =>
    obtain ⟨s, there⟩ := located _ _ rfl
    simp only [load_located (by decide) there]
    split <;> exact ⟨_, _, rfl⟩
  | load index =>
    dsimp only
    split <;> exact ⟨_, _, rfl⟩
  | _ => exact ⟨_, _, rfl⟩

theorem execute_succeeds {i : Instr} (found : x.executable.instrAt? x.registers.pc = some i)
    (located : ∀ a n, i.accessed x.registers = some (a, n) → ∃ s, x.locate a n = .ok s) :
    ∃ b y, execute x = (.ok b, y) := by
  rw [execute_run, found]
  dsimp only
  split
  · exact ⟨_, _, rfl⟩
  · exact effect_succeeds (x := x.stepped i) fun a n reads =>
      located a n (by rwa [accessed_stepped] at reads)

end Success

section Framed

variable {p : Program} {e : Executable} {rs : List Routine} {floor : Nat} {x y : Machine}
  {calls : List Activation} {i : Instr} {b : Bool}

theorem Linked.outerFp {low : Nat} {fp : UInt64} {site : Option UInt64}
    (linked : Linked rs floor x low fp site calls) (c : Activation) (regs : Registers) :
    Outline.outerFp ⟨regs, c :: calls⟩ = fp := by
  cases linked with
  | outermost => rfl
  | cons known entry there sum above top saved back outer =>
    have high := outer.low_le
    have limit : stackTop.toNat = 0x7fff0000 := rfl
    refine UInt64.toNat.inj ?_
    simp only [Outline.outerFp]
    rw [UInt64.toNat_sub_of_le _ _ (UInt64.le_iff_toNat_le.mpr (by rw [top]; simp)), top]
    simp

theorem Assembled.leave_last (asm : Assembled p e rs) {r : Routine} (member : r ∈ rs) {k : Nat}
    (there : r.code[k]? = some .leave) : k + 2 = r.code.length := by
  generalize same : Instr.leave = i at there
  cases asm.stands member there with
  | pushFrame | setFrame | reserve | spill | ret => cases same
  | leave last => exact last
  | op s op statement member assembled =>
    subst same
    cases op <;> simp [Op.assemble] at assembled <;> split at assembled <;> cases assembled

/-- The activations tell where an instruction leads. -/
theorem Framed.leads (asm : Assembled p e rs) (framed : Framed e rs floor x calls)
    (found : x.executable.instrAt? x.registers.pc = some i) (done : Machine.execute x = (.ok b, y)) :
    y.registers = (x.outline calls).leads i := by
  obtain ⟨c, rest, r, k, high, f, rfl, seat⟩ := framed.seated
  obtain ⟨j, there, same, own⟩ := seat.instr asm framed.executable framed.code
  cases found.symm.trans same
  cases execute_turned found own done with
  | pushFrame regs => exact regs
  | setFrame regs => exact regs
  | reserve _ regs => exact regs
  | call _ regs => exact regs
  | jump _ regs => exact regs
  | straight _ regs plain =>
    rw [regs]
    cases i with
    | pushFrame | setFrame | reserve | leave | ret | call | jump => cases plain
    | _ => rfl
  | leave w popped regs =>
    have long := asm.four_le seat.known
    have last := asm.leave_last seat.known there
    obtain ⟨_, _, saved, _⟩ := seat.poised.body (by omega) (by omega)
    cases popped.unique saved
    have outer : (x.outline (c :: rest)).outerFp = f := seat.linked.outerFp c x.registers
    have leads : (x.outline (c :: rest)).leads .leave =
        ⟨x.registers.pc + 4, x.registers.fp + 8, (x.outline (c :: rest)).outerFp⟩ := rfl
    rw [regs, leads, outer]
  | ret w popped regs ended =>
    have last := (kind_return asm seat.known there).mp rfl
    have landed := seat.landing asm last (.ret w popped regs ended)
    have back : w = backOf c.site := congrArg Registers.pc (regs.symm.trans landed)
    rw [regs, back]
    rfl

/-- The activations tell what an instruction reports. -/
theorem pending_store {address : UInt64} {bytes : Bytes} {m n : Machine} {c : Bool}
    (done : outcome false (store address bytes m) = (.ok c, n)) : n.pending = m.pending := by
  rw [store_run] at done
  split at done
  · cases done
    exact write_pending
  · cases done

theorem Framed.reports (asm : Assembled p e rs) (framed : Framed e rs floor x calls)
    (found : x.executable.instrAt? x.registers.pc = some i) (done : Machine.execute x = (.ok b, y)) :
    y.pending = x.pending ++ (x.outline calls).reports e i := by
  have leads := framed.leads asm found done
  obtain ⟨c, rest, r, k, high, f, rfl, seat⟩ := framed.seated
  obtain ⟨j, there, same, own⟩ := seat.instr asm framed.executable framed.code
  cases found.symm.trans same
  rw [execute_run, found] at done
  dsimp only at done
  split at done
  · rename_i blocked
    cases own blocked
    cases done
    rfl
  · rename_i free
    rw [effect_run] at done
    cases i with
    | pushFrame =>
      dsimp only at done
      rw [push_run] at done
      exact (pending_store done).trans (List.append_nil _).symm
    | spill => exact (pending_store done).trans (List.append_nil _).symm
    | store => exact (pending_store done).trans (List.append_nil _).symm
    | call target =>
      dsimp only at done
      split at done
      · rename_i n pushed
        cases done
        rw [push_run] at pushed
        have stored := congrArg (outcome false) pushed
        exact (pending_store stored).trans (List.append_nil _).symm
      · cases done
    | leave =>
      dsimp only at done
      split at done
      · cases done
        exact (List.append_nil _).symm
      · cases done
    | ret =>
      dsimp only at done
      split at done
      · rename_i bytes loaded
        have back := congrArg Registers.pc leads
        split at done
        · rename_i zero
          cases done
          have none : (x.outline (c :: rest)).back = 0 := back.symm.trans zero
          rw [Outline.reports, if_pos none]
          rfl
        · rename_i other
          cases done
          have some : (x.outline (c :: rest)).back ≠ 0 := fun none => other (back.trans none)
          rw [Outline.reports, if_neg some, List.append_nil]
          rfl
      · cases done
    | load index =>
      dsimp only at done
      rw [Outline.reports, ← framed.executable]
      rw [show (x.stepped (.load index)).executable = x.executable from rfl] at done
      cases known : x.executable.libraries[index]? with
      | some l =>
        rw [known] at done
        cases done
        rfl
      | none =>
        rw [known] at done
        cases done
        exact (List.append_nil _).symm
    | «break» => exact absurd (.inr rfl) free
    | print | spawn | endThread | fault | exit =>
      cases done
      rfl
    | setFrame | reserve | nop | setArg | jump =>
      cases done
      exact (List.append_nil _).symm

/-- A signal begins to wait only at a stop. -/
theorem signal_kept {x y : Machine} (done : execute x = (.ok false, y)) :
    y.pendingSignal = x.pendingSignal := by
  have stored {address : UInt64} {bytes : Bytes} {m n : Machine}
      (done : outcome false (store address bytes m) = (.ok false, n)) :
      n.pendingSignal = m.pendingSignal := by
    rw [store_run] at done
    split at done
    · cases done
      exact write_pendingSignal
    · cases done
  rw [execute_run] at done
  split at done
  · cases done
  · rename_i i found
    split at done
    · cases done
    rw [effect_run] at done
    cases i with
    | pushFrame =>
      dsimp only at done
      rw [push_run] at done
      exact (stored done).trans rfl
    | spill | store => exact (stored done).trans rfl
    | call target =>
      dsimp only at done
      split at done
      · rename_i n pushed
        cases done
        rw [push_run] at pushed
        exact (stored (congrArg (outcome false) pushed)).trans rfl
      · cases done
    | leave =>
      dsimp only at done
      split at done <;> cases done
      rfl
    | ret =>
      dsimp only at done
      split at done
      · split at done <;> cases done
        rfl
      · cases done
    | load index =>
      dsimp only at done
      split at done <;> cases done <;> rfl
    | fault | exit => cases done
    | _ =>
      cases done
      rfl

/-- The outline after an instruction that stays within the stack. -/
def Outline.next (e : Executable) (q : Outline) : Option Outline := do
  let i ← e.instrAt? q.registers.pc
  match i.accessed q.registers with
  | some (a, n) => if e.OnStack a n then some ⟨q.leads i, q.entered i⟩ else none
  | none => some ⟨q.leads i, q.entered i⟩

/-- An instruction that stays within the stack succeeds and leads to the next outline. -/
theorem Framed.next (asm : Assembled p e rs) (framed : Framed e rs floor x calls)
    (stack : x.stack.size = stackSize.toNat) {q : Outline}
    (next : (x.outline calls).next e = some q) :
    ∃ b y, Machine.execute x = (.ok b, y) ∧ y.outline (follow x calls) = q ∧
      ∀ i a n, x.executable.instrAt? x.registers.pc = some i →
        i.accessed x.registers = some (a, n) → e.OnStack a n := by
  have executable := framed.executable
  obtain ⟨i, found, reads⟩ := Option.bind_eq_some_iff.mp next
  rw [show (x.outline calls).registers = x.registers from rfl] at found reads
  rw [← executable] at found
  have onStack : ∀ a n, i.accessed x.registers = some (a, n) → e.OnStack a n := by
    intro a n access
    rw [access] at reads
    dsimp only at reads
    by_contra off
    rw [if_neg off] at reads
    cases reads
  have same : q = ⟨(x.outline calls).leads i, (x.outline calls).entered i⟩ := by
    cases access : i.accessed x.registers with
    | none => rw [access] at reads; exact (Option.some.inj reads).symm
    | some stretch =>
      obtain ⟨a, n⟩ := stretch
      rw [access] at reads
      dsimp only at reads
      rw [if_pos (onStack a n access)] at reads
      exact (Option.some.inj reads).symm
  obtain ⟨b, y, done⟩ := execute_succeeds found fun a n access =>
    locate_stack stack (onStack a n access)
  refine ⟨b, y, done, ?_, ?_⟩
  · rw [same, outline, framed.leads asm found done, follow_eq found]
  · intro j a n known
    cases found.symm.trans known
    exact onStack a n

end Framed

end SourceDebugger.Machine
