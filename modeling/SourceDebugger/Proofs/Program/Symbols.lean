import SourceDebugger.Proofs.Program.Body
import SourceDebugger.Proofs.Symbols.Tables
/-!
What an assembled program tells of its code. At every byte of an instruction its tables name the
function that the instruction belongs to, and the line of its statement.
-/
namespace SourceDebugger.Machine

open LineTable

section Rows

/-- The line of the stretch in which an instruction stands. -/
def lineIn : List (Option UInt32 × List Instr) → Nat → Option UInt32
  | [], _ => none
  | (line, code) :: rest, k => if k < code.length then line else lineIn rest (k - code.length)

theorem span_take_le {code : List Instr} {k : Nat} {i : Instr} (there : code[k]? = some i) :
    span (code.take k) + i.length.toNat ≤ span code := by
  have whole := congrArg span (List.take_append_drop (k + 1) code)
  rw [span_append, Assembled.span_take_succ there] at whole
  omega

theorem toNat_endOf {a : UInt64} {code : List Instr} (room : a.toNat + span code < 2 ^ 64) :
    (endOf a code).toNat = a.toNat + span code := by
  have small : span code < 2 ^ 64 := by omega
  rw [endOf_eq, UInt64.toNat_add, UInt64.toNat_ofNat_of_lt' small]
  exact Nat.mod_eq_of_lt (by omega)

theorem toNat_offset {a : UInt64} (low : codeBase.toNat ≤ a.toNat) :
    (a - codeBase).toNat + codeBase.toNat = a.toNat := by
  rw [UInt64.toNat_sub_of_le _ _ (UInt64.le_iff_toNat_le.mpr low)]
  omega

variable {sourceFile : String} {a : UInt64} {stretches : List (Option UInt32 × List Instr)}

theorem mem_rowOf {start stop : UInt64} {line : Option UInt32} {row : CodeRange}
    (member : row ∈ rowOf sourceFile start stop line) :
    row.start = start - codeBase ∧ row.stop = stop - codeBase ∧
      line.map (Segment.line sourceFile) = some row.segment := by
  cases line with
  | none => cases member
  | some n =>
    cases List.mem_singleton.mp member
    exact ⟨rfl, rfl, rfl⟩

/-- Rows lie one behind the other within the code that they are of. -/
theorem rowsFrom_apart (low : codeBase.toNat ≤ a.toNat)
    (room : a.toNat + span (stretches.map (·.2)).flatten < 2 ^ 64) :
    (rowsFrom sourceFile a stretches).Pairwise (fun r s => r.stop ≤ s.start) ∧
      ∀ row ∈ rowsFrom sourceFile a stretches, a.toNat ≤ row.start.toNat + codeBase.toNat ∧
        row.start ≤ row.stop ∧
          row.stop.toNat + codeBase.toNat ≤ a.toNat + span (stretches.map (·.2)).flatten := by
  induction stretches generalizing a with
  | nil => exact ⟨List.Pairwise.nil, fun row member => by cases member⟩
  | cons s rest ih =>
    obtain ⟨line, code⟩ := s
    rw [List.map_cons, List.flatten_cons, span_append] at room ⊢
    dsimp only at room ⊢
    have stop : (endOf a code).toNat = a.toNat + span code := toNat_endOf (by omega)
    obtain ⟨apart, bounds⟩ := ih (a := endOf a code) (by omega) (by omega)
    have start := toNat_offset low
    have final := toNat_offset (a := endOf a code) (by omega)
    have here (row : CodeRange) (member : row ∈ rowOf sourceFile a (endOf a code) line) :
        row.start.toNat + codeBase.toNat = a.toNat ∧
          row.stop.toNat + codeBase.toNat = a.toNat + span code := by
      obtain ⟨first, last, _⟩ := mem_rowOf member
      rw [first, last]
      omega
    rw [rowsFrom]
    refine ⟨List.pairwise_append.mpr ⟨?_, apart, fun r first s later => ?_⟩, fun row member => ?_⟩
    · cases line with
      | none => exact List.Pairwise.nil
      | some n => exact List.pairwise_singleton _ _
    · have before := here r first
      have behind := bounds s later
      exact UInt64.le_iff_toNat_le.mpr (by omega)
    · rcases List.mem_append.mp member with first | later
      · have place := here row first
        exact ⟨by omega, UInt64.le_iff_toNat_le.mpr (by omega), by omega⟩
      · have place := bounds row later
        exact ⟨by omega, place.2.1, by omega⟩

theorem covers_append {rows more : List CodeRange} {offset : UInt64} {g : Segment} :
    Covers (rows ++ more) offset g ↔ Covers rows offset g ∨ Covers more offset g := by
  simp only [Covers, List.mem_append, or_and_right, exists_or]

/-- At each byte of an instruction the rows have the line of its stretch, or none. -/
theorem rowsFrom_covers (low : codeBase.toNat ≤ a.toNat)
    (room : a.toNat + span (stretches.map (·.2)).flatten < 2 ^ 64) {k j : Nat} {i : Instr}
    (there : (stretches.map (·.2)).flatten[k]? = some i) (inside : j < i.length.toNat)
    {offset : UInt64} (place : offset.toNat + codeBase.toNat =
      a.toNat + span ((stretches.map (·.2)).flatten.take k) + j) (g : Segment) :
    Covers (rowsFrom sourceFile a stretches) offset g ↔
      (lineIn stretches k).map (Segment.line sourceFile) = some g := by
  induction stretches generalizing a k with
  | nil => cases there
  | cons s rest ih =>
    obtain ⟨line, code⟩ := s
    rw [List.map_cons, List.flatten_cons] at there place room
    rw [span_append] at room
    dsimp only at there place room
    have stop : (endOf a code).toNat = a.toNat + span code := toNat_endOf (by omega)
    have start := toNat_offset low
    have final := toNat_offset (a := endOf a code) (by omega)
    rw [rowsFrom, covers_append, lineIn]
    by_cases early : k < code.length
    · rw [List.getElem?_append_left early] at there
      have within := span_take_le there
      rw [List.take_append_of_le_length (by omega)] at place
      have away : ¬ Covers (rowsFrom sourceFile (endOf a code) rest) offset g := by
        rintro ⟨row, member, contains, _⟩
        have behind := (rowsFrom_apart (a := endOf a code) (by omega) (by omega)).2 row member
        have first := UInt64.le_iff_toNat_le.mp (contains_iff.mp contains).1
        omega
      rw [if_pos early]
      constructor
      · rintro (⟨row, member, _, rfl⟩ | other)
        · exact (mem_rowOf member).2.2
        · exact absurd other away
      · intro same
        cases line with
        | none => cases same
        | some n =>
          refine .inl ⟨_, List.mem_singleton_self _, contains_iff.mpr ⟨?_, ?_⟩, Option.some.inj same⟩
          · exact UInt64.le_iff_toNat_le.mpr (by simp only; omega)
          · exact UInt64.lt_iff_toNat_lt.mpr (by simp only; omega)
    · rw [List.getElem?_append_right (by omega)] at there
      rw [List.take_append, List.take_of_length_le (by omega), span_append] at place
      have away : ¬ Covers (rowOf sourceFile a (endOf a code) line) offset g := by
        rintro ⟨row, member, contains, _⟩
        have last := UInt64.lt_iff_toNat_lt.mp (contains_iff.mp contains).2
        rw [(mem_rowOf member).2.1] at last
        omega
      rw [if_neg early, ← ih (a := endOf a code) (by omega) (by omega) there (by omega)]
      exact or_iff_right away

end Rows

/-- The module that a running program consists of. -/
def Executable.module (e : Executable) : LoadedModule :=
  ⟨e.path, codeBase, UInt64.ofNat e.code.size, some e.symbols⟩

namespace Assembled

variable {p : Program} {e : Executable} {rs : List Routine} {r q : Routine} {a : UInt64}

theorem rows_apart (asm : Assembled p e rs) :
    (rs.flatMap fun r => rowsFrom p.sourceFile r.layout.low r.stretches).Pairwise
      fun r s => r.stop ≤ s.start := by
  have each (r : Routine) (member : r ∈ rs) :=
    have bounds := asm.bounds member
    have whole : (r.stretches.map (·.2)).flatten = r.code := rfl
    @rowsFrom_apart p.sourceFile r.layout.low r.stretches (by omega) (by rw [whole]; omega)
  refine List.pairwise_flatMap.mpr ⟨fun r member => (each r member).1, ?_⟩
  refine (List.Pairwise.and_mem.mp asm.apart_layouts).imp fun h x first y second => ?_
  obtain ⟨here, there, below⟩ := h
  have before := (each _ here).2 x first
  have behind := (each _ there).2 y second
  have bounds := asm.bounds here
  have whole : ∀ r : Routine, (r.stretches.map (·.2)).flatten = r.code := fun _ => rfl
  rw [whole] at before
  exact UInt64.le_iff_toNat_le.mpr (by omega)

/-- A row of a function lies in it. -/
theorem row_inside (asm : Assembled p e rs) (known : q ∈ rs) {row : CodeRange}
    (member : row ∈ rowsFrom p.sourceFile q.layout.low q.stretches) {offset : UInt64}
    (inside : row.contains offset = true) :
    q.layout.low.toNat ≤ offset.toNat + codeBase.toNat ∧
      offset.toNat + codeBase.toNat < q.layout.high.toNat := by
  have limits := asm.bounds known
  have whole : (q.stretches.map (·.2)).flatten = q.code := rfl
  have room := (@rowsFrom_apart p.sourceFile q.layout.low q.stretches (by omega)
    (by rw [whole]; omega)).2 row member
  obtain ⟨first, last⟩ := contains_iff.mp inside
  rw [UInt64.le_iff_toNat_le] at first
  rw [UInt64.lt_iff_toNat_lt] at last
  rw [whole] at room
  omega

theorem lines (asm : Assembled p e rs) : ∃ rows, e.symbols.lines = ⟨rows.toArray⟩ ∧
    InOrder CodeRange.start CodeRange.stop rows ∧ ∀ offset g, Covers rows offset g ↔
      Covers (rs.flatMap fun r => rowsFrom p.sourceFile r.layout.low r.stretches) offset g := by
  obtain ⟨rows, table, order, _, covers⟩ := ofRanges_spec (apart_of_behind asm.rows_apart)
  exact ⟨rows, by rw [asm.symbols]; exact table, order, covers⟩

/-- At each byte of an instruction, the line found is that of its statement. -/
theorem line_of_code (asm : Assembled p e rs) (member : r ∈ rs) {k j : Nat} {i : Instr}
    (there : r.code[k]? = some i) (inside : j < i.length.toNat) {offset : UInt64}
    (place : offset.toNat + codeBase.toNat = (r.address k).toNat + j) :
    (e.symbols.lines.lookup offset).map (·.segment) =
      (lineIn r.stretches k).map (Segment.line p.sourceFile) := by
  obtain ⟨rows, table, order, covers⟩ := asm.lines
  have bounds := asm.bounds member
  have address := asm.toNat_address member k
  have within := span_take_le there
  have whole : (r.stretches.map (·.2)).flatten = r.code := rfl
  refine Option.ext fun g => ?_
  have told : Covers (rowsFrom p.sourceFile r.layout.low r.stretches) offset g ↔
      (lineIn r.stretches k).map (Segment.line p.sourceFile) = some g :=
    rowsFrom_covers (by omega) (by rw [whole]; omega) there inside
      (place.trans (by rw [address]; rfl)) g
  rw [table, lookup_covers order, covers, ← told]
  constructor
  · rintro ⟨row, found, contains, same⟩
    obtain ⟨q, known, mem⟩ := List.mem_flatMap.mp found
    have limits := asm.row_inside known mem contains
    cases asm.unique (n := offset.toNat + codeBase.toNat) known member (by omega) (by omega)
    exact ⟨row, mem, contains, same⟩
  · rintro ⟨row, mem, contains, same⟩
    exact ⟨row, List.mem_flatMap.mpr ⟨r, member, mem⟩, contains, same⟩

/-- The entry of a function in the table. -/
def entryOf (e : Executable) (r : Routine) : FunctionInfo :=
  { r.info with hasLines := e.symbols.lines.hasRowsIn r.info.low r.info.high }

theorem info_bounds (asm : Assembled p e rs) (member : r ∈ rs) :
    r.info.low.toNat + codeBase.toNat = r.layout.low.toNat ∧
      r.info.high.toNat + codeBase.toNat = r.layout.high.toNat := by
  have bounds := asm.bounds member
  exact ⟨toNat_offset (by omega), toNat_offset (by omega)⟩

theorem function_order (asm : Assembled p e rs) :
    InOrder FunctionInfo.low FunctionInfo.high (rs.map (entryOf e)) := by
  constructor
  · refine List.pairwise_map.mpr ((List.Pairwise.and_mem.mp asm.apart_layouts).imp ?_)
    intro r q h
    obtain ⟨here, there, below⟩ := h
    have first := asm.info_bounds here
    have second := asm.info_bounds there
    show r.info.high ≤ q.info.low
    exact UInt64.le_iff_toNat_le.mpr (by omega)
  · intro f member
    obtain ⟨r, known, rfl⟩ := List.mem_map.mp member
    have bounds := asm.bounds known
    have long := r.span_code (asm.compiled r known)
    have limits := asm.info_bounds known
    rw [Function.extent] at long
    show r.info.low < r.info.high
    exact UInt64.lt_iff_toNat_lt.mpr (by omega)

/-- At each address of a function, that function is found. -/
theorem function_at (asm : Assembled p e rs) (member : r ∈ rs)
    (low : r.layout.low.toNat ≤ a.toNat) (high : a.toNat < r.layout.high.toNat) :
    e.module.functionAt? a = some (entryOf e r) := by
  have bounds := asm.bounds member
  have limits := asm.info_bounds member
  have offset := toNat_offset (a := a) (by omega)
  have table : e.symbols.functions = .ofFunctions (rs.map (entryOf e)) := by
    show _ = FunctionTable.ofFunctions (rs.map fun r =>
      { r.info with hasLines := e.symbols.lines.hasRowsIn r.info.low r.info.high })
    rw [asm.symbols]
    simp only [ModuleSymbols.ofTables, ModuleSymbols.markLines, List.map_map]
    rfl
  have found : e.symbols.functions.at? (a - codeBase) = some (entryOf e r) := by
    rw [table, FunctionTable.at_iff asm.function_order]
    refine ⟨List.mem_map_of_mem member, ?_, ?_⟩
    · show r.info.low ≤ _
      exact UInt64.le_iff_toNat_le.mpr (by omega)
    · show _ < r.info.high
      exact UInt64.lt_iff_toNat_lt.mpr (by omega)
  have above : ¬ a < codeBase := UInt64.not_lt.mpr (UInt64.le_iff_toNat_le.mpr (by omega))
  show (if a < codeBase then none else e.symbols.functionAt? (a - codeBase)) = _
  rw [if_neg above, ModuleSymbols.functionAt?, found]
  rfl

end Assembled

end SourceDebugger.Machine
