import SourceDebugger.Proofs.Program.Frames
/-!
Programs that leave their own code alone. Data of the declared types stay in their slots, and code
and frames that fit below the heap keep the stack away from the code: what such a program reads or
writes is stack or heap.
-/
namespace SourceDebugger.Machine

open Effect

/-- The code and any one frame fit together below the heap. It takes some 250 megabytes of instructions or
of variables in one function to break this; the regions of the address space overlap then. -/
def Program.Compact (p : Program) : Prop :=
  ∀ f ∈ p.functions, codeBase.toNat + codeSize p.layouts + f.frame.toNat + 8 ≤ heapBase.toNat

instance (p : Program) : Decidable p.Compact :=
  inferInstanceAs (Decidable (∀ f ∈ p.functions, _ ≤ _))

section Located

variable {x y : Machine} {i : Instr} {b : Bool} {a : UInt64} {n : Nat}

theorem located_of_store {bytes : Bytes} (done : outcome false (store a bytes x) = (.ok b, y)) :
    ∃ s, x.locate a bytes.length = .ok s := by
  rw [store_run] at done
  cases located : x.locate a bytes.length with
  | ok s => exact ⟨s, rfl⟩
  | error e =>
    rw [located] at done
    cases done

theorem located_of_push {word : UInt64} (done : push word x = (.ok (), y)) :
    ∃ s, x.locate (x.registers.sp - 8) 8 = .ok s := by
  rw [push_run] at done
  have length : (Bytes.ofWord word).length = 8 := Bytes.length_ofNat 8 _
  have stored := @located_of_store _ y false (x.registers.sp - 8) (Bytes.ofWord word)
    (by rw [done]; rfl)
  rwa [length] at stored

/-- What an instruction has read or written is found in memory. -/
theorem located_of_effect {m : Machine} {next : UInt64} (done : effect next i m = (.ok b, y))
    (reads : i.accessed m.registers = some (a, n)) : ∃ s, y.locate a n = .ok s := by
  have onward := onward_effect next i m
  rw [done] at onward
  have later (before : ∃ s, m.locate a n = .ok s) : ∃ s, y.locate a n = .ok s :=
    before.imp fun _ => locate_onward onward
  rw [effect_run] at done
  cases i with
  | pushFrame =>
    cases reads
    dsimp only at done
    rcases pushed : push m.registers.fp m with ⟨_ | _, k⟩
    · rw [pushed] at done
      cases done
    · exact later (located_of_push pushed)
  | call target =>
    cases reads
    dsimp only at done
    rcases pushed : push next m with ⟨_ | _, k⟩
    · rw [pushed] at done
      cases done
    · exact later (located_of_push pushed)
  | spill index offset size =>
    cases reads
    have found := located_of_store done
    rw [length_argumentBytes] at found
    exact later found
  | store offset datum =>
    cases reads
    dsimp only at done
    obtain ⟨s, found⟩ := located_of_store done
    rw [length_slot] at found
    have grown := onward_store (m.registers.fp + offset.toUInt64) (datum.slot m.heap.size)
      { m with heap := m.heap.appendList datum.payload }
    rw [← outcome_snd false, done] at grown
    exact ⟨s, locate_onward grown found⟩
  | leave =>
    cases reads
    dsimp only at done
    split at done
    · rename_i loaded
      exact later (located_of_load (by decide) loaded)
    · cases done
  | ret =>
    cases reads
    dsimp only at done
    split at done
    · rename_i loaded
      exact later (located_of_load (by decide) loaded)
    · cases done
  | setFrame | reserve | nop | setArg | print | «break» | jump | spawn | endThread | load | fault
  | exit => cases reads

theorem located_of_execute (found : x.executable.instrAt? x.registers.pc = some i)
    (own : Blocked x i → i = .break) (done : execute x = (.ok b, y))
    (reads : i.accessed x.registers = some (a, n)) : ∃ s, y.locate a n = .ok s := by
  rw [execute_run, found] at done
  dsimp only at done
  split at done
  · rename_i blocked
    cases own blocked
    cases reads
  · rw [← accessed_stepped i i x] at reads
    exact located_of_effect done reads

/-- Memory other than code lies above the heap's beginning. -/
theorem above_of_located {s : Spot} (located : x.locate a n = .ok s) (some : 0 < n)
    (behind : codeBase.toNat + x.code.size ≤ a.toNat) : heapBase.toNat ≤ a.toNat := by
  obtain ⟨q, offset⟩ := s
  have facts := locate_ok located
  cases q with
  | code =>
    have size : offset + n ≤ x.code.size := facts.2.1
    have base : Region.code.base = codeBase.toNat := rfl
    omega
  | stack =>
    have base : Region.stack.base = 0x7ffe0000 := rfl
    have heap : heapBase.toNat = 0x10000000 := rfl
    omega
  | heap =>
    have base : Region.heap.base = heapBase.toNat := rfl
    omega

end Located

section Contained

variable {p : Program} {e : Executable} {rs : List Routine} {x y : Machine} {b : Bool}
  {calls : List Activation}

theorem compact_frame (asm : Assembled p e rs) (compact : p.Compact) {r : Routine}
    (member : r ∈ rs) :
    codeBase.toNat + e.code.size + r.layout.function.frame.toNat + 8 ≤ heapBase.toNat := by
  have size : e.code.size = codeSize p.layouts := by
    rw [asm.code, size_foldl_writeOpcode, Array.size_replicate]
  rw [size]
  exact compact _ (asm.mem_functions member).2

/-- A stretch between two addresses that is not empty. -/
def Between (low high : Nat) (a : UInt64) (n : Nat) : Prop :=
  0 < n ∧ low ≤ a.toNat ∧ a.toNat + n ≤ high

theorem toNat_sub_small {a d : UInt64} (below : d.toNat ≤ a.toNat) :
    (a - d).toNat + d.toNat = a.toNat := by
  rw [UInt64.toNat_sub_of_le _ _ (UInt64.le_iff_toNat_le.mpr below)]
  omega

section Reach

variable {r : Routine} {c : Activation} {k high : Nat} {f : UInt64}

/-- A slot lies in the frame, below the frame pointer. -/
theorem slot_reach (asm : Assembled p e rs) (member : r ∈ rs) (fp : UInt64)
    (room : r.layout.function.frame.toNat ≤ fp.toNat) {v : VariableInfo} {offset : Int64}
    (known : v ∈ r.layout.function.known) (place : v.place = .frame offset) :
    0 < v.type.byteSize.toNat ∧
      fp.toNat ≤ (fp + offset.toUInt64).toNat + r.layout.function.frame.toNat ∧
        (fp + offset.toUInt64).toNat + v.type.byteSize.toNat ≤ fp.toNat := by
  obtain ⟨depth, at_, fits, inside⟩ := Function.slot_known (asm.function_small member) known
  cases place.symm.trans at_
  rw [slot_address]
  have sum := toNat_sub_small (a := fp) (d := depth) (by omega)
  exact ⟨Function.size_positive known, by omega, by omega⟩

/-- An activation reads and writes no deeper than its frame and a word below it, and nothing above
where the stack pointer stood before its call. -/
theorem Seat.reach (asm : Assembled p e rs) (typed : p.WellTyped) {floor : Nat}
    (seat : Seat rs floor x c calls r k high f) (room : r.layout.function.frame.toNat + 8 ≤ floor)
    {i : Instr} (there : r.code[k]? = some i) {a : UInt64} {n : Nat}
    (reads : i.accessed x.registers = some (a, n)) :
    0 < n ∧ floor ≤ a.toNat + r.layout.function.frame.toNat + 8 ∧ a.toNat + n ≤ high := by
  have long := asm.four_le seat.known
  have eight : (8 : UInt64).toNat = 8 := rfl
  cases asm.stands seat.known there with
  | pushFrame =>
    cases reads
    cases seat.poised with
    | entered sum above =>
      have next := toNat_sub_small (a := x.registers.sp) (d := 8) (by omega)
      exact ⟨by decide, by omega, by omega⟩
    | inside first => omega
    | leaving last => omega
  | setFrame | reserve => cases reads
  | spill index v known place first last =>
    cases reads
    obtain ⟨sum, above, _⟩ := seat.poised.body (by omega) (by omega)
    obtain ⟨some, low, top⟩ := slot_reach asm seat.known x.registers.fp (by omega) known place
    exact ⟨some, by omega, by omega⟩
  | op s op statement member done first last =>
    have start := Routine.length_opening r.layout.function
    obtain ⟨sum, above, _, _, sp⟩ := seat.poised.body (by omega) (by omega)
    rw [Op.assemble.eq_def] at done
    cases op with
    | call name =>
      dsimp only at done
      split at done
      · cases done
        cases reads
        rw [Routine.sunk_body first] at sp
        have frame := toNat_sub_small (a := x.registers.fp) (d := r.layout.function.frame) (by omega)
        rw [← sp] at frame
        have next := toNat_sub_small (a := x.registers.sp) (d := 8) (by omega)
        exact ⟨by decide, by omega, by omega⟩
      · cases done
    | store name datum =>
      dsimp only at done
      split at done
      · rename_i offset slot
        cases done
        cases reads
        obtain ⟨v, known, place, declared⟩ := slotOf_declared (f := r.layout.function) rfl slot
        obtain ⟨type, typeOf, same⟩ := Option.map_eq_some_iff.mp declared
        have size := size_of_hasType
          (typed.store (asm.mem_functions seat.known).2 statement member typeOf)
        rw [same] at size
        obtain ⟨some, low, top⟩ :=
          slot_reach asm seat.known x.registers.fp (by omega) known place
        rw [size]
        exact ⟨some, by omega, by omega⟩
      · cases done
    | jump index =>
      dsimp only at done
      split at done <;> cases done
      cases reads
    | load index =>
      dsimp only at done
      split at done <;> cases done
      cases reads
    | nop | setArg | print | «break» | spawn | endThread | fault | exit =>
      cases done
      cases reads
  | leave last =>
    cases reads
    obtain ⟨sum, above, _⟩ := seat.poised.body (by omega) (by omega)
    exact ⟨by decide, by omega, by omega⟩
  | ret last =>
    cases reads
    cases seat.poised with
    | entered | pushed => omega
    | inside first short => omega
    | leaving at_end sum above => exact ⟨by decide, by omega, by omega⟩

/-- The program reads and writes above its code and within its stack. -/
theorem Seat.between (asm : Assembled p e rs) (typed : p.WellTyped) (compact : p.Compact)
    (seat : Seat rs heapBase.toNat x c calls r k high f) {i : Instr} (there : r.code[k]? = some i)
    {a : UInt64} {n : Nat} (reads : i.accessed x.registers = some (a, n)) :
    Between (codeBase.toNat + e.code.size) stackTop.toNat a n := by
  have fits := compact_frame asm compact seat.known
  have top := seat.linked.low_le
  obtain ⟨some, low, below⟩ := seat.reach asm typed (by omega) there reads
  exact ⟨some, by omega, by omega⟩

end Reach

theorem Framed.between (asm : Assembled p e rs) (typed : p.WellTyped) (compact : p.Compact)
    (framed : Framed e rs heapBase.toNat x calls) {i : Instr}
    (found : x.executable.instrAt? x.registers.pc = some i) {a : UInt64} {n : Nat}
    (reads : i.accessed x.registers = some (a, n)) :
    Between (codeBase.toNat + e.code.size) stackTop.toNat a n := by
  obtain ⟨c, rest, r, k, high, f, rfl, seat⟩ := framed.seated
  obtain ⟨j, there, here, _⟩ := seat.instr asm framed.executable framed.code
  cases found.symm.trans here
  exact seat.between asm typed compact there reads

/-- What is read or written successfully lies above the beginning of the heap. -/
theorem Framed.within (asm : Assembled p e rs) (typed : p.WellTyped) (compact : p.Compact)
    (framed : Framed e rs heapBase.toNat x calls) (done : execute x = (.ok b, y)) :
    Within heapBase.toNat stackTop.toNat x := by
  intro i a n found reads
  obtain ⟨some, behind, top⟩ := framed.between asm typed compact found reads
  obtain ⟨c, rest, r, k, high, f, rfl, seat⟩ := framed.seated
  obtain ⟨j, there, here, own⟩ := seat.instr asm framed.executable framed.code
  cases found.symm.trans here
  obtain ⟨s, located⟩ := located_of_execute found own done reads
  have onward := onward_execute x
  rw [done] at onward
  have code : y.code.size = e.code.size := onward.code.trans (by rw [framed.code])
  exact ⟨above_of_located located some (by rw [code]; exact behind), top⟩

theorem code_below (asm : Assembled p e rs) (compact : p.Compact) :
    codeBase.toNat + e.code.size ≤ heapBase.toNat := by
  obtain ⟨r, known, _⟩ := asm.called asm.entry
  have fits := compact_frame asm compact known
  omega

/-- One instruction keeps a compact program's stack in accord with its activations. -/
theorem Framed.execute (asm : Assembled p e rs) (typed : p.WellTyped) (compact : p.Compact)
    (framed : Framed e rs heapBase.toNat x calls) (done : execute x = (.ok b, y)) :
    Framed e rs heapBase.toNat y (follow x calls) ∨ follow x calls = [] ∧ y.registers.pc = 0 ∧
      y.registers.fp = 0 ∧ y.motion = .exited :=
  framed.step asm typed (code_below asm compact) (framed.within asm typed compact done) done

/-- Where no compact program reads or writes. -/
def Aside (a : UInt64) : Prop := a.toNat < heapBase.toNat ∨ stackTop.toNat ≤ a.toNat

theorem Framed.not_accesses (asm : Assembled p e rs) (typed : p.WellTyped) (compact : p.Compact)
    (framed : Framed e rs heapBase.toNat x calls) {s : Spot} (inside : s.2 < (x.region s.1).size)
    (aside : s.address < heapBase.toNat ∨ stackTop.toNat ≤ s.address) :
    ¬ x.Accesses s.address := by
  rintro ⟨i, a, n, found, reads, first, last⟩
  obtain ⟨_, above, top⟩ := framed.between asm typed compact found reads
  obtain ⟨q, offset⟩ := s
  simp only [Spot.address] at first last aside
  have heap : heapBase.toNat = 0x10000000 := rfl
  cases q with
  | code =>
    have size : offset < x.code.size := inside
    have base : Region.code.base = codeBase.toNat := rfl
    rw [framed.code] at size
    omega
  | stack =>
    have base : Region.stack.base = 0x7ffe0000 := rfl
    omega
  | heap =>
    have base : Region.heap.base = heapBase.toNat := rfl
    omega

end Contained

end SourceDebugger.Machine
