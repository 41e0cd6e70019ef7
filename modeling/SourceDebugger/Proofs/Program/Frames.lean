import SourceDebugger.Proofs.Machine.Words
import SourceDebugger.Proofs.Program.Body
/-!
The frames of an assembled program. Beside the machine a list of activations is kept, to which a
call adds one and from which a return takes one away; the words on the stack are those that the
list says, for as long as no instruction reaches out of the stack.
-/
namespace SourceDebugger.Machine

open Effect

/-- One activation of a function. -/
structure Activation where
  /-- Where its function begins. -/
  entry : UInt64
  /-- The call that began it. The function that a program starts with was not called. -/
  site : Option UInt64
  /-- Where the stack pointer stood before that call, and will stand after the return. -/
  top : UInt64
  deriving DecidableEq, Repr

/-- The activation that a program starts with. -/
def Executable.outermost (e : Executable) : Activation := ⟨e.entry, none, stackTop⟩

/-- The address behind a call; the first function finds 0. -/
def backOf : Option UInt64 → UInt64
  | some a => a + 5
  | none => 0

/-- The activations after the instruction at the program counter, innermost first. -/
def follow (x : Machine) (calls : List Activation) : List Activation :=
  match x.executable.instrAt? x.registers.pc with
  | some (.call target) => ⟨target, some x.registers.pc, x.registers.sp⟩ :: calls
  | some .ret => calls.tail
  | _ => calls

section Turned

/-- Instructions that leave the stack pointer and the frame pointer alone and are followed by the next
one. -/
def Instr.straight : Instr → Bool
  | .pushFrame | .setFrame | .reserve _ | .leave | .ret | .call _ | .jump _ => false
  | _ => true

/-- The registers after an instruction, and the word it has pushed or popped. -/
inductive Turned (x y : Machine) : Instr → Prop
  | pushFrame : y.registers = ⟨x.registers.pc + 1, x.registers.sp - 8, x.registers.fp⟩ →
      Word y (x.registers.sp - 8) x.registers.fp → Turned x y .pushFrame
  | setFrame : y.registers = ⟨x.registers.pc + 4, x.registers.sp, x.registers.sp⟩ →
      Turned x y .setFrame
  | reserve (size : UInt64) :
      y.registers = ⟨x.registers.pc + 4, x.registers.sp - size, x.registers.fp⟩ →
      Turned x y (.reserve size)
  | leave (w : UInt64) : Word x x.registers.fp w →
      y.registers = ⟨x.registers.pc + 4, x.registers.fp + 8, w⟩ → Turned x y .leave
  | ret (w : UInt64) : Word x x.registers.sp w →
      y.registers = ⟨w, x.registers.sp + 8, x.registers.fp⟩ → (w = 0 → y.motion = .exited) →
      Turned x y .ret
  | call (target : UInt64) : y.registers = ⟨target, x.registers.sp - 8, x.registers.fp⟩ →
      Word y (x.registers.sp - 8) (x.registers.pc + 5) → Turned x y (.call target)
  | jump (target : UInt64) : y.registers = ⟨target, x.registers.sp, x.registers.fp⟩ →
      Turned x y (.jump target)
  | straight (i : Instr) :
      y.registers = ⟨x.registers.pc + i.length, x.registers.sp, x.registers.fp⟩ →
      i.straight = true → Turned x y i

theorem registers_store {address : UInt64} {bytes : Bytes} {m n : Machine} {b : Bool}
    (done : outcome false (store address bytes m) = (.ok b, n)) : n.registers = m.registers := by
  rw [store_run, outcome.eq_def] at done
  split at done
  · rename_i h
    split at h
    · cases h
      cases done
      exact write_registers
    · cases h
  · cases done

theorem effect_turned {x y : Machine} {i : Instr} {b : Bool}
    (done : effect (x.registers.pc + i.length) i (x.stepped i) = (.ok b, y)) : Turned x y i := by
  rw [effect_run] at done
  cases i with
  | pushFrame =>
    dsimp only at done
    rcases pushed : push (x.stepped .pushFrame).registers.fp (x.stepped .pushFrame) with ⟨_ | _, n⟩
    · rw [pushed] at done
      cases done
    · rw [pushed] at done
      cases done
      have word := word_push pushed
      refine .pushFrame ?_ word
      rw [push_run, store_run] at pushed
      split at pushed
      · cases pushed
        exact write_registers
      · cases pushed
  | setFrame =>
    cases done
    exact .setFrame rfl
  | reserve size =>
    cases done
    exact .reserve size rfl
  | leave =>
    dsimp only at done
    split at done
    · rename_i bytes loaded
      cases done
      exact .leave _ ⟨bytes, loaded, rfl⟩ rfl
    · cases done
  | ret =>
    dsimp only at done
    split at done
    · rename_i bytes loaded
      split at done
      · cases done
        exact .ret _ ⟨bytes, loaded, rfl⟩ rfl fun _ => rfl
      · rename_i other
        cases done
        exact .ret _ ⟨bytes, loaded, rfl⟩ rfl fun zero => absurd zero other
    · cases done
  | call target =>
    dsimp only at done
    rcases pushed : push (x.registers.pc + (Instr.call target).length) (x.stepped (.call target))
      with ⟨_ | _, n⟩
    · rw [pushed] at done
      cases done
    · rw [pushed] at done
      cases done
      have word := word_push pushed
      rw [push_run, store_run] at pushed
      split at pushed
      · cases pushed
        refine .call target ?_ word
        rw [write_registers]
        rfl
      · cases pushed
  | jump target =>
    cases done
    exact .jump target rfl
  | spill index offset size =>
    exact .straight _ (registers_store done) rfl
  | store offset datum =>
    exact .straight _ (registers_store done) rfl
  | load index =>
    dsimp only at done
    split at done <;> cases done <;> exact .straight _ rfl rfl
  | nop | setArg | print | «break» | spawn | endThread | fault | exit =>
    cases done
    exact .straight _ rfl rfl

/-- An instruction is executed, unless it is a trap; then the machine stops behind it. -/
theorem execute_turned {x y : Machine} {i : Instr} {b : Bool}
    (found : x.executable.instrAt? x.registers.pc = some i) (own : Blocked x i → i = .break)
    (done : execute x = (.ok b, y)) : Turned x y i := by
  rw [execute_run, found] at done
  dsimp only at done
  split at done
  · rename_i blocked
    cases own blocked
    cases done
    exact .straight .break rfl rfl
  · exact effect_turned done

end Turned

/-- What the instruction at the program counter reads or writes lies between two addresses. -/
def Within (low high : Nat) (x : Machine) : Prop :=
  ∀ i a n, x.executable.instrAt? x.registers.pc = some i → i.accessed x.registers = some (a, n) →
    low ≤ a.toNat ∧ a.toNat + n ≤ high

section Within

variable {x y : Machine} {low high : Nat}

theorem Within.avoids (within : Within low high x) {n : Nat} (above : high ≤ n) (top : Nat) :
    Avoids x n top :=
  fun i a m found reads => .inl (Nat.le_trans (within i a m found reads).2 above)

/-- Code that lies below everything that is written stays as it is. -/
theorem Within.code (within : Within low high x)
    (below : codeBase.toNat + x.code.size ≤ low) : (execute x).2.code = x.code := by
  refine Array.ext_getElem? fun j => ?_
  have size := (onward_execute x).code
  by_cases inside : j < x.code.size
  · refine execute_spared (s := (.code, j)) ?_ inside
    rintro ⟨i, a, n, found, reads, first, last⟩
    have bounds := within i a n found reads
    have base : Region.code.base = codeBase.toNat := rfl
    simp only [Spot.address] at first
    omega
  · rw [Array.getElem?_eq_none (by omega), Array.getElem?_eq_none (by omega)]

end Within

/-- How deep the stack pointer is below the frame pointer where an instruction of a set-up frame
stands. -/
def Routine.sunk (r : Routine) (k : Nat) : UInt64 := if k = 2 then 0 else r.layout.function.frame

/-- Activations that wait for their calls to return, from a frame pointer outward. The frames inside
end at `low`; all lie above a floor. -/
inductive Linked (rs : List Routine) (floor : Nat) (x : Machine) :
    Nat → UInt64 → Option UInt64 → List Activation → Prop
  | outermost {low : Nat} : low ≤ stackTop.toNat → Linked rs floor x low 0 none []
  | cons {low : Nat} {fp f : UInt64} {r : Routine} {k : Nat} {target : UInt64} {c : Activation}
      {calls : List Activation} : r ∈ rs → r.layout.low = c.entry →
      r.code[k]? = some (.call target) → low + r.layout.function.frame.toNat = fp.toNat →
      floor ≤ fp.toNat → c.top.toNat = fp.toNat + 16 → Word x fp f →
      Word x (fp + 8) (backOf c.site) → Linked rs floor x (fp.toNat + 16) f c.site calls →
      Linked rs floor x low fp (some (r.address k)) (c :: calls)

/-- How far a frame is set up where an instruction of its function stands. Before the call the stack
pointer stood at `high` and the frame pointer at `f`. -/
inductive Poised (floor : Nat) (x : Machine) (r : Routine) (back f : UInt64) (high : Nat) :
    Nat → Prop
  | entered : x.registers.sp.toNat + 8 = high → floor ≤ x.registers.sp.toNat →
      Word x x.registers.sp back → x.registers.fp = f → Poised floor x r back f high 0
  | pushed : x.registers.sp.toNat + 16 = high → floor ≤ x.registers.sp.toNat →
      Word x x.registers.sp f → Word x (x.registers.sp + 8) back → x.registers.fp = f →
      Poised floor x r back f high 1
  | inside {k : Nat} : 2 ≤ k → k + 1 < r.code.length → x.registers.fp.toNat + 16 = high →
      floor ≤ x.registers.fp.toNat → Word x x.registers.fp f → Word x (x.registers.fp + 8) back →
      x.registers.sp = x.registers.fp - r.sunk k → Poised floor x r back f high k
  | leaving {k : Nat} : k + 1 = r.code.length → x.registers.sp.toNat + 8 = high →
      floor ≤ x.registers.sp.toNat → Word x x.registers.sp back → x.registers.fp = f →
      Poised floor x r back f high k

/-- The innermost activation stands at an instruction of its function. -/
structure Seat (rs : List Routine) (floor : Nat) (x : Machine) (c : Activation)
    (calls : List Activation) (r : Routine) (k : Nat) (high : Nat) (f : UInt64) : Prop where
  known : r ∈ rs
  entry : r.layout.low = c.entry
  top : c.top.toNat = high
  pc : x.registers.pc = r.address k
  there : k < r.code.length
  linked : Linked rs floor x high f c.site calls
  poised : Poised floor x r (backOf c.site) f high k

/-- The words on the stack are those that the activations say. -/
structure Framed (e : Executable) (rs : List Routine) (floor : Nat) (x : Machine)
    (calls : List Activation) : Prop where
  executable : x.executable = e
  code : x.code = e.code
  seated : ∃ c rest r k high f, calls = c :: rest ∧ Seat rs floor x c rest r k high f

theorem Framed.alive {e : Executable} {rs : List Routine} {floor : Nat} {x : Machine}
    {calls : List Activation} (framed : Framed e rs floor x calls) : calls ≠ [] := by
  obtain ⟨c, rest, _, _, _, _, rfl, _⟩ := framed.seated
  exact List.cons_ne_nil c rest

namespace Linked

variable {rs : List Routine} {floor low : Nat} {x y : Machine} {fp : UInt64} {site : Option UInt64}
  {calls : List Activation}

theorem low_le (linked : Linked rs floor x low fp site calls) : low ≤ stackTop.toNat := by
  induction linked with
  | outermost below => exact below
  | cons known entry there sum above top saved back outer ih => omega

/-- Frames stay as long as their words do. -/
theorem keep (linked : Linked rs floor x low fp site calls)
    (words : ∀ a w, low ≤ a.toNat → Word x a w → Word y a w) :
    Linked rs floor y low fp site calls := by
  induction linked with
  | outermost below => exact .outermost below
  | @cons low fp f r k target c calls known entry there sum above start saved back outer ih =>
    have top := outer.low_le
    have limit : stackTop.toNat = 0x7fff0000 := rfl
    have next : (fp + 8).toNat = fp.toNat + 8 := by
      rw [UInt64.toNat_add]
      exact Nat.mod_eq_of_lt (by simp; omega)
    exact .cons known entry there sum above start (words _ _ (by omega) saved)
      (words _ _ (by omega) back) (ih fun a w above => words a w (by omega))

theorem execute (linked : Linked rs floor x low fp site calls)
    (avoids : ∀ n, low ≤ n → Avoids x n (n + 8)) :
    Linked rs floor (Machine.execute x).2 low fp site calls :=
  linked.keep fun _ _ above word => word.execute (avoids _ above)

end Linked

namespace Routine

/-- Throughout the body the stack pointer stands below the whole frame. -/
theorem sunk_body {r : Routine} {k : Nat} (body : r.layout.function.opening.length ≤ k) :
    r.sunk k = r.layout.function.frame := by
  rw [sunk]
  split
  · rename_i start
    have length := length_opening r.layout.function
    cases storage : r.layout.function.hasStorage with
    | false => exact (Function.frame_empty storage).symm
    | true =>
      rw [storage, if_pos rfl] at length
      omega
  · rfl

end Routine

namespace Assembled

variable {p : Program} {e : Executable} {rs : List Routine} {r : Routine}

theorem function_small (asm : Assembled p e rs) (member : r ∈ rs) :
    r.layout.function.footprint < 2 ^ 62 :=
  Nat.lt_of_le_of_lt (footprint_le (asm.mem_functions member).2) asm.footprints

theorem stands (asm : Assembled p e rs) (member : r ∈ rs) {k : Nat} {i : Instr}
    (there : r.code[k]? = some i) : r.Stands p k i :=
  Routine.stands (asm.compiled r member) (asm.function_small member) there

theorem frame_small (asm : Assembled p e rs) (member : r ∈ rs) :
    r.layout.function.frame.toNat < 2 ^ 62 := by
  have small := asm.function_small member
  have bound := r.layout.function.extent_footprint small
  omega

theorem four_le (asm : Assembled p e rs) (member : r ∈ rs) : 4 ≤ r.code.length := by
  have total := r.length_code (asm.compiled r member)
  have start := Routine.length_opening r.layout.function
  omega

/-- A function is called where it begins. -/
theorem called (asm : Assembled p e rs) {name : String} {a : UInt64}
    (known : addressOf? p.layouts name = some a) : ∃ q ∈ rs, q.layout.low = a := by
  obtain ⟨l, found, rfl⟩ := Option.map_eq_some_iff.mp known
  have member := List.mem_reverse.mp (List.mem_of_find?_eq_some found)
  rw [← asm.layouts] at member
  obtain ⟨q, there, rfl⟩ := List.mem_map.mp member
  exact ⟨q, there, rfl⟩

/-- A call stands in the body of its function and leads to the beginning of another. -/
theorem call_stands (asm : Assembled p e rs) (member : r ∈ rs) {k : Nat} {target : UInt64}
    (there : r.code[k]? = some (.call target)) : r.layout.function.opening.length ≤ k ∧
      k + 2 < r.code.length ∧ ∃ q ∈ rs, q.layout.low = target := by
  cases asm.stands member there with
  | op s op statement inside done first last =>
    refine ⟨first, last, ?_⟩
    rw [Op.assemble.eq_def] at done
    cases op with
    | call name =>
      dsimp only at done
      split at done
      · rename_i target known
        cases done
        exact asm.called known
      · cases done
    | store | jump | load => dsimp only at done; split at done <;> cases done
    | nop | setArg | print | «break» | spawn | endThread | fault | exit => cases done

end Assembled

section Slots

variable {p : Program} {e : Executable} {rs : List Routine} {r : Routine}

theorem slot_address (fp depth : UInt64) : fp + (-depth.toInt64).toUInt64 = fp - depth := by
  rw [Int64.toUInt64_neg, UInt64.toUInt64_toInt64, UInt64.sub_eq_add_neg]

/-- What is written into a slot ends below the frame pointer. -/
theorem slot_below {fp depth : UInt64} {n : Nat} (fits : n ≤ depth.toNat)
    (small : depth.toNat < 2 ^ 62) (top : (fp - depth).toNat + n ≤ stackTop.toNat) :
    (fp - depth).toNat + n ≤ fp.toNat := by
  have limit : stackTop.toNat = 0x7fff0000 := rfl
  rw [UInt64.toNat_sub] at top ⊢
  have bound := fp.toNat_lt
  omega

/-- What instructions of a body write with the frame pointer ends below it. -/
theorem within_slot (asm : Assembled p e rs) (member : r ∈ rs) {x : Machine} {floor : Nat}
    (within : Within floor stackTop.toNat x) {i : Instr} {v : VariableInfo} {offset : Int64}
    {n : Nat} (found : x.executable.instrAt? x.registers.pc = some i)
    (known : v ∈ r.layout.function.known) (place : v.place = .frame offset)
    (fits : n = v.type.byteSize.toNat)
    (reads : i.accessed x.registers = some (x.registers.fp + offset.toUInt64, n)) :
    Within floor x.registers.fp.toNat x := by
  intro j a m there accessed
  have bounds := within j a m there accessed
  cases found.symm.trans there
  rw [reads] at accessed
  cases accessed
  obtain ⟨depth, at_, room, inside⟩ := Function.slot_known (asm.function_small member) known
  have small := asm.frame_small member
  cases place.symm.trans at_
  rw [slot_address] at bounds ⊢
  exact ⟨bounds.1, slot_below (by omega) (by omega) bounds.2⟩

end Slots

section Steps

variable {p : Program} {e : Executable} {rs : List Routine} {floor : Nat} {x : Machine}
  {c : Activation} {calls : List Activation} {r : Routine} {k high : Nat} {f back : UInt64}

theorem Poised.body (poised : Poised floor x r back f high k) (first : 2 ≤ k)
    (last : k + 1 < r.code.length) : x.registers.fp.toNat + 16 = high ∧
      floor ≤ x.registers.fp.toNat ∧ Word x x.registers.fp f ∧ Word x (x.registers.fp + 8) back ∧
        x.registers.sp = x.registers.fp - r.sunk k := by
  cases poised with
  | entered | pushed => omega
  | inside _ _ sum above saved word sp => exact ⟨sum, above, saved, word, sp⟩
  | leaving at_end => omega

/-- The word above another. -/
theorem toNat_above {a : UInt64} (below : a.toNat + 16 ≤ stackTop.toNat) :
    (a + 8).toNat = a.toNat + 8 := by
  have limit : stackTop.toNat = 0x7fff0000 := rfl
  rw [UInt64.toNat_add]
  exact Nat.mod_eq_of_lt (by simp; omega)

/-- The word below another. -/
theorem toNat_below {a : UInt64} (below : (a - 8).toNat + 8 ≤ stackTop.toNat) :
    (a - 8).toNat + 8 = a.toNat := by
  have limit : stackTop.toNat = 0x7fff0000 := rfl
  have eight : (8 : UInt64).toNat = 8 := rfl
  have bound := a.toNat_lt
  rw [UInt64.toNat_sub, eight] at below ⊢
  omega

/-- From one place of a body to another, nothing being written above the frame pointer. -/
theorem Seat.within (seat : Seat rs floor x c calls r k high f) (first : 2 ≤ k)
    (last : k + 1 < r.code.length) (within : Within floor x.registers.fp.toNat x) {j : Nat}
    (start : 2 ≤ j) (stop : j + 1 < r.code.length)
    (turned : (execute x).2.registers =
      ⟨r.address j, x.registers.fp - r.sunk j, x.registers.fp⟩) :
    Seat rs floor (execute x).2 c calls r j high f := by
  obtain ⟨sum, above, saved, word, _⟩ := seat.poised.body first last
  have top := seat.linked.low_le
  have next := toNat_above (a := x.registers.fp) (by omega)
  refine ⟨seat.known, seat.entry, seat.top, by rw [turned], by omega,
    seat.linked.execute fun n low => within.avoids (by omega) _, ?_⟩
  refine .inside start stop (by rw [turned]; exact sum) (by rw [turned]; exact above) ?_ ?_
    (by rw [turned])
  · rw [turned]
    exact saved.execute (within.avoids (Nat.le_refl _) _)
  · rw [turned]
    exact word.execute (within.avoids (by omega) _)

theorem Seat.pushFrame (seat : Seat rs floor x c calls r 0 high f) (long : 4 ≤ r.code.length)
    (there : r.code[0]? = some .pushFrame) (found : x.executable.instrAt? x.registers.pc = some .pushFrame)
    (within : Within floor stackTop.toNat x) (turned : Turned x (execute x).2 .pushFrame) :
    Seat rs floor (execute x).2 c calls r 1 high f := by
  have bounds := within _ _ _ found rfl
  have sp := toNat_below bounds.2
  have tight : Within floor x.registers.sp.toNat x := by
    intro i a n known reads
    cases found.symm.trans known
    cases reads
    exact ⟨bounds.1, Nat.le_of_eq sp⟩
  cases seat.poised with
  | entered sum above word same =>
    cases turned with
    | pushFrame turned pushed =>
      have next : x.registers.sp - 8 + 8 = x.registers.sp := UInt64.sub_add_cancel _ _
      refine ⟨seat.known, seat.entry, seat.top, ?_, by omega,
        seat.linked.execute fun n low => tight.avoids (by omega) _, ?_⟩
      · rw [turned, seat.pc]
        exact (Assembled.address_succ there).symm
      · refine .pushed (by rw [turned]; simp only; omega) (by rw [turned]; exact bounds.1) ?_ ?_
          (by rw [turned]; exact same)
        · rw [turned, ← same]
          exact pushed
        · rw [turned]
          simp only [next]
          exact word.execute (tight.avoids (Nat.le_refl _) _)
    | straight _ _ plain => cases plain
  | inside first => omega
  | leaving last => omega

theorem Seat.setFrame (seat : Seat rs floor x c calls r 1 high f) (long : 4 ≤ r.code.length)
    (there : r.code[1]? = some .setFrame) (found : x.executable.instrAt? x.registers.pc = some .setFrame)
    (turned : Turned x (execute x).2 .setFrame) :
    Seat rs floor (execute x).2 c calls r 2 high f := by
  have nothing (low top : Nat) : Avoids x low top := by
    intro i a n known reads
    cases found.symm.trans known
    cases reads
  cases seat.poised with
  | pushed sum above saved word same =>
    cases turned with
    | setFrame turned =>
      refine ⟨seat.known, seat.entry, seat.top, ?_, by omega, seat.linked.execute fun _ _ => nothing _ _, ?_⟩
      · rw [turned, seat.pc]
        exact (Assembled.address_succ there).symm
      · refine .inside (Nat.le_refl 2) (by omega) (by rw [turned]; exact sum)
          (by rw [turned]; exact above) ?_ ?_ ?_
        · rw [turned]
          exact saved.execute (nothing _ _)
        · rw [turned]
          exact word.execute (nothing _ _)
        · rw [turned]
          simp [Routine.sunk]
    | straight _ _ plain => cases plain
  | inside first => omega
  | leaving last => omega

theorem Word.unique {a v w : UInt64} (first : Word x a v) (second : Word x a w) : v = w := by
  obtain ⟨bytes, loaded, rfl⟩ := first
  exact word_of_load second loaded

theorem Seat.leave (seat : Seat rs floor x c calls r k high f) (long : 4 ≤ r.code.length)
    (last : k + 2 = r.code.length) (there : r.code[k]? = some .leave)
    (found : x.executable.instrAt? x.registers.pc = some .leave) (turned : Turned x (execute x).2 .leave) :
    Seat rs floor (execute x).2 c calls r (k + 1) high f := by
  obtain ⟨sum, above, saved, word, _⟩ := seat.poised.body (by omega) (by omega)
  have next := toNat_above (a := x.registers.fp) (by have := seat.linked.low_le; omega)
  have tight : Within floor (x.registers.fp.toNat + 8) x := by
    intro i a n known reads
    cases found.symm.trans known
    cases reads
    exact ⟨above, Nat.le_refl _⟩
  cases turned with
  | leave w popped turned =>
    cases popped.unique saved
    refine ⟨seat.known, seat.entry, seat.top, ?_, by omega,
      seat.linked.execute fun n low => tight.avoids (by omega) _, ?_⟩
    · rw [turned, seat.pc]
      exact (Assembled.address_succ there).symm
    · refine .leaving (by omega) (by rw [turned]; simp only; omega)
        (by rw [turned]; simp only; omega) ?_ (by rw [turned])
      rw [turned]
      exact word.execute (tight.avoids (by omega) _)
  | straight _ _ plain => cases plain

/-- A call puts the activation that makes it among those that wait. -/
theorem Seat.call (asm : Assembled p e rs) (seat : Seat rs floor x c calls r k high f)
    {target : UInt64} (there : r.code[k]? = some (.call target))
    (found : x.executable.instrAt? x.registers.pc = some (.call target))
    (within : Within floor stackTop.toNat x) (turned : Turned x (execute x).2 (.call target)) :
    ∃ q, Seat rs floor (execute x).2 ⟨target, some x.registers.pc, x.registers.sp⟩ (c :: calls) q 0
      x.registers.sp.toNat x.registers.fp := by
  obtain ⟨body, last, q, known, rfl⟩ := asm.call_stands seat.known there
  have start := Routine.length_opening r.layout.function
  obtain ⟨sum, above, saved, word, sp⟩ := seat.poised.body (by omega) (by omega)
  rw [Routine.sunk_body body] at sp
  have bounds := within _ _ _ found rfl
  have top := toNat_below bounds.2
  have limit : stackTop.toNat = 0x7fff0000 := rfl
  have small := asm.frame_small seat.known
  have depth : x.registers.sp.toNat + r.layout.function.frame.toNat = x.registers.fp.toNat := by
    have bound := x.registers.fp.toNat_lt
    have below := seat.linked.low_le
    have sunk := UInt64.toNat_sub x.registers.fp r.layout.function.frame
    rw [← sp] at sunk
    omega
  have tight : Within floor x.registers.sp.toNat x := by
    intro i a n there reads
    cases found.symm.trans there
    cases reads
    exact ⟨bounds.1, Nat.le_of_eq top⟩
  have next := toNat_above (a := x.registers.fp) (by have := seat.linked.low_le; omega)
  cases turned with
  | call _ turned pushed =>
    refine ⟨q, known, rfl, rfl, ?_, by have := asm.four_le known; omega, ?_, ?_⟩
    · rw [turned, Routine.address]
      simp
    · simp only [seat.pc]
      refine .cons seat.known seat.entry there depth above (seat.top.trans sum.symm)
        (saved.execute (tight.avoids (by omega) _)) (word.execute (tight.avoids (by omega) _)) ?_
      rw [sum]
      exact seat.linked.execute fun n low => tight.avoids (by omega) _
    · refine .entered (by rw [turned]; exact top) (by rw [turned]; exact bounds.1) ?_
        (by rw [turned])
      rw [turned]
      exact pushed
  | straight _ _ plain => cases plain

/-- A return leads behind the call, to the activation that made it; the last one ends the program. -/
theorem Seat.ret (asm : Assembled p e rs) (seat : Seat rs floor x c calls r k high f)
    (last : k + 1 = r.code.length) (found : x.executable.instrAt? x.registers.pc = some .ret)
    (turned : Turned x (execute x).2 .ret) :
    (∃ d rest q j top g, calls = d :: rest ∧ Seat rs floor (execute x).2 d rest q j top g) ∨
      calls = [] ∧ (execute x).2.registers.pc = 0 ∧ (execute x).2.registers.fp = 0 ∧
        (execute x).2.motion = .exited := by
  have long := asm.four_le seat.known
  cases seat.poised with
  | entered | pushed => omega
  | inside first short => omega
  | leaving at_end sum above word same =>
    have tight : Within floor high x := by
      intro i a n known reads
      cases found.symm.trans known
      cases reads
      exact ⟨above, Nat.le_of_eq sum⟩
    have next : (x.registers.sp + 8).toNat = high := by
      have top := seat.linked.low_le
      have limit : stackTop.toNat = 0x7fff0000 := rfl
      rw [UInt64.toNat_add]
      exact (Nat.mod_eq_of_lt (by simp; omega)).trans sum
    cases turned with
    | ret w popped turned ended =>
      cases popped.unique word
      have linked := seat.linked
      generalize c.site = site at linked turned ended
      cases linked with
      | outermost low =>
        exact .inr ⟨rfl, by rw [turned]; rfl, by rw [turned]; exact same, ended rfl⟩
      | @cons _ _ g q j target d rest known entry there depth higher start saved back outer =>
        obtain ⟨body, short, _⟩ := asm.call_stands known there
        have opening := Routine.length_opening q.layout.function
        have top := outer.low_le
        have behind := toNat_above (a := f) top
        refine .inl ⟨d, rest, q, j + 1, f.toNat + 16, g, rfl, known, entry, start, ?_, by omega,
          outer.execute fun n low => tight.avoids (by omega) _, ?_⟩
        · rw [turned]
          exact (Assembled.address_succ there).symm
        · refine .inside (by omega) (by omega) (by rw [turned, same]) (by rw [turned, same]; exact higher)
            ?_ ?_ ?_
          · rw [turned, same]
            exact saved.execute (tight.avoids (by omega) _)
          · rw [turned, same]
            exact back.execute (tight.avoids (by omega) _)
          · rw [turned, same, Routine.sunk_body (by omega)]
            refine UInt64.toNat.inj ?_
            rw [next, UInt64.toNat_sub_of_le _ _ (UInt64.le_iff_toNat_le.mpr (by omega))]
            omega
    | straight _ _ plain => cases plain

theorem mark_trap {a : UInt64} {i : Instr} (trap : mark (a, i) = trapByte) : i = .break := by
  cases i with
  | «break» => rfl
  | call target =>
    have other : (0xE8 : UInt8) = trapByte := trap
    exact absurd other (by decide)
  | ret =>
    have other : (0xC3 : UInt8) = trapByte := trap
    exact absurd other (by decide)
  | pushFrame =>
    have other : (0x55 : UInt8) = trapByte := trap
    exact absurd other (by decide)
  | setFrame | reserve | spill | leave | nop | setArg | store | print | jump | spawn | endThread
  | load | fault | exit =>
    have other : filler = trapByte := trap
    exact absurd other (by decide)

/-- Where an activation stands, there is an instruction, and no trap but the program's own. -/
theorem Seat.instr (asm : Assembled p e rs) (seat : Seat rs floor x c calls r k high f)
    (executable : x.executable = e) (code : x.code = e.code) :
    ∃ i, r.code[k]? = some i ∧ x.executable.instrAt? x.registers.pc = some i ∧
      (Blocked x i → i = .break) := by
  have there := List.getElem?_eq_getElem seat.there
  refine ⟨_, there, ?_, fun blocked => ?_⟩
  · rw [executable, seat.pc]
    exact asm.instrAt_address seat.known there
  · rcases blocked with trap | own
    · rw [code, seat.pc, asm.code_mark seat.known there] at trap
      exact mark_trap (Option.some.inj trap)
    · exact own

/-- From one instruction of a body to the next, nothing being written above the frame pointer. -/
theorem Seat.next (seat : Seat rs floor x c calls r k high f) {i : Instr}
    (there : r.code[k]? = some i) (first : 2 ≤ k) (last : k + 2 < r.code.length)
    (level : r.sunk (k + 1) = r.sunk k) (within : Within floor x.registers.fp.toNat x)
    (turned : Turned x (execute x).2 i) (plain : i.straight = true) :
    Seat rs floor (execute x).2 c calls r (k + 1) high f := by
  refine seat.within first (by omega) within (by omega) (by omega) ?_
  obtain ⟨_, _, _, _, sp⟩ := seat.poised.body first (by omega)
  cases turned with
  | straight _ turned => rw [turned, sp, level, seat.pc, Assembled.address_succ there]
  | pushFrame | setFrame | reserve | leave | ret | call | jump => cases plain

theorem within_nothing {i : Instr} (found : x.executable.instrAt? x.registers.pc = some i)
    (none : i.accessed x.registers = none) (low high : Nat) : Within low high x := by
  intro j a n there reads
  cases found.symm.trans there
  rw [none] at reads
  cases reads

/-- An operation leads on within its function, or calls another. -/
theorem Seat.op (asm : Assembled p e rs) (typed : p.WellTyped)
    (seat : Seat rs floor x c calls r k high f) {i : Instr} (there : r.code[k]? = some i)
    (found : x.executable.instrAt? x.registers.pc = some i)
    (within : Within floor stackTop.toNat x) (turned : Turned x (execute x).2 i) {s : Statement}
    {op : Op} (statement : s ∈ r.layout.function.body) (member : op ∈ s.ops)
    (done : op.assemble (p.scope r.layout) = .ok i) (first : r.layout.function.opening.length ≤ k)
    (last : k + 2 < r.code.length) :
    ∃ d rest q j top g, follow x (c :: calls) = d :: rest ∧
      Seat rs floor (execute x).2 d rest q j top g := by
  have start := Routine.length_opening r.layout.function
  have level : r.sunk (k + 1) = r.sunk k := by
    rw [Routine.sunk_body first, Routine.sunk_body (by omega)]
  have forward (plain : i.straight = true) (tight : Within floor x.registers.fp.toNat x) :
      ∃ d rest q j top g, c :: calls = d :: rest ∧ Seat rs floor (execute x).2 d rest q j top g :=
    ⟨c, calls, r, k + 1, high, f, rfl, seat.next there (by omega) last level tight turned plain⟩
  rw [follow, found]
  rw [Op.assemble.eq_def] at done
  cases op with
  | call name =>
    dsimp only at done
    split at done
    · cases done
      obtain ⟨q, entered⟩ := seat.call asm there found within turned
      exact ⟨_, _, q, 0, _, _, rfl, entered⟩
    · cases done
  | store name datum =>
    dsimp only at done
    split at done
    · rename_i offset slot
      cases done
      obtain ⟨v, known, place, declared⟩ := slotOf_declared (f := r.layout.function) rfl slot
      obtain ⟨type, typeOf, same⟩ := Option.map_eq_some_iff.mp declared
      have fits := size_of_hasType
        (typed.store (asm.mem_functions seat.known).2 statement member typeOf)
      rw [same] at fits
      exact forward rfl (within_slot asm seat.known within found known place fits rfl)
    · cases done
  | jump index =>
    dsimp only at done
    split at done
    · rename_i target starts
      cases done
      obtain ⟨j, rfl, low, top⟩ := Routine.statement_address (asm.compiled r seat.known)
        (layout_planned (asm.mem_functions seat.known).1).2.1 starts
      refine ⟨c, calls, r, j, high, f, rfl, ?_⟩
      refine seat.within (by omega) (by omega) (within_nothing found rfl _ _) (by omega) (by omega) ?_
      obtain ⟨_, _, _, _, sp⟩ := seat.poised.body (by omega) (by omega)
      cases turned with
      | jump _ turned =>
        rw [turned, sp, Routine.sunk_body first, Routine.sunk_body low]
      | straight _ _ plain => cases plain
    · cases done
  | load index =>
    dsimp only at done
    split at done
    · cases done
      exact forward rfl (within_nothing found rfl _ _)
    · cases done
  | nop | setArg | print | «break» | spawn | endThread | fault | exit =>
    cases done
    exact forward rfl (within_nothing found rfl _ _)

/-- Nothing but memory and registers matters. -/
theorem Framed.alike {y : Machine} {calls : List Activation} (framed : Framed e rs floor x calls)
    (executable : y.executable = x.executable) (regions : ∀ q, y.region q = x.region q)
    (registers : y.registers = x.registers) : Framed e rs floor y calls := by
  have words (a w : UInt64) (word : Word x a w) : Word y a w := by
    obtain ⟨bytes, loaded, value⟩ := word
    refine ⟨bytes, ?_, value⟩
    rw [← loaded]
    simp only [load, locate, regions]
  obtain ⟨c, rest, r, k, high, f, rfl, seat⟩ := framed.seated
  refine ⟨executable.trans framed.executable, (regions .code).trans framed.code, c, rest, r, k, high,
    f, rfl, seat.known, seat.entry, seat.top, by rw [registers, seat.pc], seat.there,
    seat.linked.keep fun a w _ => words a w, ?_⟩
  cases seat.poised with
  | entered sum above word same =>
    exact .entered (by rw [registers]; exact sum) (by rw [registers]; exact above)
      (by rw [registers]; exact words _ _ word) (by rw [registers]; exact same)
  | pushed sum above saved word same =>
    exact .pushed (by rw [registers]; exact sum) (by rw [registers]; exact above)
      (by rw [registers]; exact words _ _ saved) (by rw [registers]; exact words _ _ word)
      (by rw [registers]; exact same)
  | inside first last sum above saved word sp =>
    exact .inside first last (by rw [registers]; exact sum) (by rw [registers]; exact above)
      (by rw [registers]; exact words _ _ saved) (by rw [registers]; exact words _ _ word)
      (by rw [registers]; exact sp)
  | leaving last sum above word same =>
    exact .leaving last (by rw [registers]; exact sum) (by rw [registers]; exact above)
      (by rw [registers]; exact words _ _ word) (by rw [registers]; exact same)

/-- One instruction keeps the stack in accord with the activations, until the last return. -/
theorem Framed.step (asm : Assembled p e rs) (typed : p.WellTyped)
    (below : codeBase.toNat + e.code.size ≤ floor) {calls : List Activation}
    (framed : Framed e rs floor x calls) (within : Within floor stackTop.toNat x) {b : Bool}
    {y : Machine} (done : execute x = (.ok b, y)) :
    Framed e rs floor y (follow x calls) ∨
      follow x calls = [] ∧ y.registers.pc = 0 ∧ y.registers.fp = 0 ∧ y.motion = .exited := by
  obtain ⟨c, rest, r, k, high, f, rfl, seat⟩ := framed.seated
  obtain ⟨i, there, found, own⟩ := seat.instr asm framed.executable framed.code
  have turned := execute_turned found own done
  have same : (execute x).2 = y := by rw [done]
  subst same
  have long := asm.four_le seat.known
  have start := Routine.length_opening r.layout.function
  have executable : (execute x).2.executable = e :=
    (onward_execute x).executable.trans framed.executable
  have code : (execute x).2.code = e.code :=
    (within.code (by rw [framed.code]; exact below)).trans framed.code
  have still {j : Nat} (seat : Seat rs floor (execute x).2 c rest r j high f)
      (same : follow x (c :: rest) = c :: rest) :
      Framed e rs floor (execute x).2 (follow x (c :: rest)) :=
    ⟨executable, code, c, rest, r, j, high, f, same, seat⟩
  cases asm.stands seat.known there with
  | pushFrame =>
    exact .inl (still (seat.pushFrame long there found within turned) (by rw [follow, found]))
  | setFrame => exact .inl (still (seat.setFrame long there found turned) (by rw [follow, found]))
  | reserve storage =>
    rw [storage, if_pos rfl] at start
    have total := r.length_code (asm.compiled r seat.known)
    obtain ⟨_, _, _, _, sp⟩ := seat.poised.body (Nat.le_refl 2) (by omega)
    refine .inl (still (j := 3) ?_ (by rw [follow, found]))
    refine seat.within (Nat.le_refl 2) (by omega) (within_nothing found rfl _ _) (by omega)
      (by omega) ?_
    cases turned with
    | reserve _ turned =>
      have whole : r.sunk 3 = r.layout.function.frame := if_neg (by omega)
      have nothing : r.sunk 2 = 0 := if_pos rfl
      rw [turned, sp, whole, nothing, seat.pc, Assembled.address_succ there, UInt64.sub_zero]
      rfl
    | straight _ _ plain => cases plain
  | spill index v known place first last =>
    have level : r.sunk (k + 1) = r.sunk k := by
      rw [Routine.sunk, Routine.sunk, if_neg (by omega), if_neg (by omega)]
    refine .inl (still (j := k + 1) ?_ (by rw [follow, found]))
    exact seat.next there (by omega) last level
      (within_slot asm seat.known within found known place rfl rfl) turned rfl
  | op s op statement member assembled first last =>
    exact .inl ⟨executable, code,
      seat.op asm typed there found within turned statement member assembled first last⟩
  | leave last =>
    exact .inl (still (seat.leave long last there found turned) (by rw [follow, found]))
  | ret last =>
    rw [follow, found]
    rcases seat.ret asm last found turned with back | ⟨none, stop⟩
    · exact .inl ⟨executable, code, back⟩
    · exact .inr ⟨none, stop⟩

end Steps

end SourceDebugger.Machine
