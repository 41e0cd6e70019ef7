import SourceDebugger.Breakpoint.Basic
import SourceDebugger.Proofs.Program.Contained
import SourceDebugger.Proofs.Program.Unwinding
import SourceDebugger.Proofs.Symbols.Rows
/-!
The modules of a program: its own at the code, and its libraries high above all memory that the
program has. A breakpoint of the one is never one of the others.
-/
namespace SourceDebugger

namespace Machine

open LineTable

/-- The modules that a program may tell of. -/
inductive Executable.Part (e : Executable) : LoadedModule → Prop
  | own : e.Part e.module
  | library (index : Nat) (l : Library) : e.libraries[index]? = some l →
      e.Part ⟨l.path, libraryBase index, l.size, e.symbolsFor l.path⟩

variable {p : Program} {e : Executable} {rs : List Routine} {l : LoadedModule}

/-- Rows begin within the code. -/
theorem row_inside (asm : Assembled p e rs) {row : CodeRange}
    (member : row ∈ e.symbols.lines.rows.toList) : row.start.toNat < e.code.size := by
  obtain ⟨rows, table, order, covers⟩ := asm.lines
  rw [table] at member
  have proper := UInt64.lt_iff_toNat_lt.mp (order.2 row member)
  obtain ⟨range, inside, contains, _⟩ := (covers row.start row.segment).mp
    ⟨row, member, contains_iff.mpr ⟨UInt64.le_refl _, order.2 row member⟩, rfl⟩
  obtain ⟨r, known, inside⟩ := List.mem_flatMap.mp inside
  have bounds := asm.bounds known
  have whole : (r.stretches.map (·.2)).flatten = r.code := rfl
  obtain ⟨_, _, limit⟩ := (@rowsFrom_apart p.sourceFile r.layout.low r.stretches (by omega)
    (by rw [whole]; omega)).2 range inside
  have below := UInt64.lt_iff_toNat_lt.mp (contains_iff.mp contains).2
  rw [whole] at limit
  omega

theorem toNat_libraryBase (asm : Assembled p e rs) {index : Nat} {lib : Library}
    (found : e.libraries[index]? = some lib) :
    (libraryBase index).toNat = 0x7f0000000000 + index * 0x100000 ∧
      (libraryBase index).toNat < 2 ^ 63 := by
  have inside := (List.getElem?_eq_some_iff.mp found).1
  have small := asm.small
  rw [Program.footprint] at small
  rw [asm.libraries] at inside
  have product : (UInt64.ofNat index * 0x100000).toNat = index * 0x100000 := by
    rw [UInt64.toNat_mul, UInt64.toNat_ofNat_of_lt' (by rw [UInt64.size]; omega)]
    exact Nat.mod_eq_of_lt (by simp; omega)
  have sum : (libraryBase index).toNat = 0x7f0000000000 + index * 0x100000 := by
    rw [libraryBase, UInt64.toNat_add, product]
    exact Nat.mod_eq_of_lt (by simp; omega)
  omega

/-- A library lies above the stack. -/
theorem library_high (asm : Assembled p e rs) {index : Nat} {lib : Library}
    (found : e.libraries[index]? = some lib) : stackTop.toNat ≤ (libraryBase index).toNat := by
  have limit : stackTop.toNat = 0x7fff0000 := rfl
  have place := (toNat_libraryBase asm found).1
  omega

theorem path_same (path : String) : Path.same path path = true := by simp [Path.same]

/-- What a module has symbols for is the program, wherever it has been loaded. -/
theorem binding_cases {location : Location} {b : Binding} (asm : Assembled p e rs) {base size : UInt64}
    {path : String} (bound : Breakpoint.bindingIn ⟨path, base, size, e.symbolsFor path⟩ location =
      some b) : (base ≤ b.address ∧ b.address < base + size) ∨
        ∃ row, row.toNat < e.code.size ∧ b.address = row + base := by
  rw [Breakpoint.bindingIn.eq_def] at bound
  split at bound
  · obtain ⟨r, resolved, rfl⟩ := Option.map_eq_some_iff.mp bound
    obtain ⟨symbols, loaded, asked⟩ := Option.bind_eq_some_iff.mp resolved
    obtain ⟨row, found, rfl⟩ := Option.map_eq_some_iff.mp asked
    rw [Executable.symbolsFor] at loaded
    split at loaded
    · cases loaded
      exact .inr ⟨row.start, row_inside asm (mem_of_resolve found), rfl⟩
    · cases loaded
  · split at bound
    · rename_i inside
      cases bound
      rw [LoadedModule.contains, Bool.and_eq_true, decide_eq_true_eq, decide_eq_true_eq] at inside
      exact .inl inside
    · cases bound

theorem own_eq (e : Executable) : e.module =
    ⟨e.path, codeBase, UInt64.ofNat e.code.size, e.symbolsFor e.path⟩ := by
  rw [Executable.module, Executable.symbolsFor, if_pos (path_same _)]

theorem toNat_codeEnd (asm : Assembled p e rs) :
    (codeBase + UInt64.ofNat e.code.size).toNat = codeBase.toNat + e.code.size := by
  obtain ⟨_, _, size⟩ := asm.size
  have room := asm.room
  have base : (codeBase + alignment).toNat = 0x400010 := by decide
  have own : codeBase.toNat = 0x400000 := Assembled.toNat_codeBase
  rw [UInt64.toNat_add, UInt64.toNat_ofNat_of_lt' (by rw [UInt64.size]; omega)]
  exact Nat.mod_eq_of_lt (by omega)

/-- Breakpoints of the program itself lie in its code. -/
theorem binding_own (asm : Assembled p e rs) {location : Location} {b : Binding}
    (bound : Breakpoint.bindingIn e.module location = some b) :
    b.address.toNat < codeBase.toNat + e.code.size := by
  rw [own_eq] at bound
  have size := toNat_codeEnd asm
  have room := (asm.size).2.2
  rcases binding_cases asm bound with ⟨_, below⟩ | ⟨row, inside, same⟩
  · have := UInt64.lt_iff_toNat_lt.mp below
    omega
  · rw [same, UInt64.toNat_add]
    have bound := Nat.mod_le (row.toNat + codeBase.toNat) (2 ^ 64)
    omega

/-- Breakpoints of a library lie above the stack. -/
theorem binding_library (asm : Assembled p e rs) {index : Nat} {lib : Library}
    (found : e.libraries[index]? = some lib) {location : Location} {b : Binding}
    (bound : Breakpoint.bindingIn
      ⟨lib.path, libraryBase index, lib.size, e.symbolsFor lib.path⟩ location = some b) :
    stackTop.toNat ≤ b.address.toNat := by
  have high := library_high asm found
  have place := toNat_libraryBase asm found
  obtain ⟨_, _, size⟩ := asm.size
  have room := asm.room
  have base : (codeBase + alignment).toNat = 0x400010 := by decide
  rcases binding_cases asm bound with ⟨above, _⟩ | ⟨row, inside, same⟩
  · exact Nat.le_trans high (UInt64.le_iff_toNat_le.mp above)
  · rw [same, UInt64.toNat_add, Nat.mod_eq_of_lt (by omega)]
    omega

/-- Where the program's code is, its own module is found. -/
theorem shown_of_parts (asm : Assembled p e rs) (compact : p.Compact) {ros : Roster}
    (own : e.module ∈ ros.modules) (parts : ∀ l ∈ ros.modules, e.Part l) : e.Shown ros := by
  intro a low high
  have inside : e.module.contains a = true := by
    rw [LoadedModule.contains, Bool.and_eq_true, decide_eq_true_eq, decide_eq_true_eq]
    refine ⟨UInt64.le_iff_toNat_le.mpr low, UInt64.lt_iff_toNat_lt.mpr ?_⟩
    show _ < (codeBase + UInt64.ofNat e.code.size).toNat
    rw [toNat_codeEnd asm]
    exact high
  have below := code_below asm compact
  have heap : heapBase.toNat ≤ stackTop.toNat := by decide
  have only (l : LoadedModule) (member : l ∈ ros.modules) (contains : l.contains a = true) :
      l = e.module := by
    cases parts l member with
    | own => rfl
    | library index lib found =>
      have above := library_high asm found
      rw [LoadedModule.contains, Bool.and_eq_true, decide_eq_true_eq] at contains
      exact absurd (Nat.le_trans above (UInt64.le_iff_toNat_le.mp contains.1)) (by omega)
  rw [Roster.moduleAt?]
  cases found : ros.modules.find? (·.contains a) with
  | none => exact absurd inside (List.find?_eq_none.mp found _ own)
  | some l =>
    rw [only l (List.mem_of_find?_eq_some found)
      (by simpa using List.find?_some found)]

end Machine

end SourceDebugger
