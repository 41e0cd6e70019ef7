import SourceDebugger.Proofs.Program.Symbols
import SourceDebugger.Proofs.Symbols.Rows
/-!
Where the rows of functions begin and end. Rows are joined by addresses and lines alone, so that a
function which begins on the line on which the one before it ends, and where that one ends, has no
row of its own for its opening line. That is the only way in which a row leaves its function.
-/
namespace SourceDebugger.Machine

open LineTable

/-- A function ends where another begins, and on the line on which that one begins. -/
def Layout.RunsInto (l k : Layout) : Prop :=
  l.high = k.low ∧ l.function.closeLine = k.function.openLine ∧ k.function.openLine.isSome = true

instance (l k : Layout) : Decidable (l.RunsInto k) :=
  inferInstanceAs (Decidable (_ ∧ _ ∧ _))

theorem lineIn_last {stretches : List (Option UInt32 × List Instr)} {line : Option UInt32}
    {code : List Instr} {k : Nat} (late : (stretches.map (·.2)).flatten.length ≤ k)
    (inside : k < (stretches.map (·.2)).flatten.length + code.length) :
    lineIn (stretches ++ [(line, code)]) k = line := by
  induction stretches generalizing k with
  | nil =>
    have inside : k < code.length := by simpa using inside
    rw [List.nil_append, lineIn, if_pos inside]
  | cons s rest ih =>
    rw [List.map_cons, List.flatten_cons, List.length_append] at late inside
    rw [List.cons_append, lineIn, if_neg (by omega)]
    exact ih (by omega) (by omega)

namespace Assembled

variable {p : Program} {e : Executable} {rs : List Routine} {r q : Routine} {offset : UInt64}
  {row : CodeRange}

theorem tabulates (asm : Assembled p e rs) : e.symbols.lines.Tabulates
    (rs.flatMap fun r => rowsFrom p.sourceFile r.layout.low r.stretches) := by
  rw [asm.symbols]
  exact tabulates_ofRanges (apart_of_behind asm.rows_apart)

/-- The line found at the entry of a function is its opening line. -/
theorem line_at_entry (asm : Assembled p e rs) (member : r ∈ rs) :
    (e.symbols.lines.lookup r.info.low).map (·.segment) =
      r.layout.function.openLine.map (Segment.line p.sourceFile) := by
  have there : r.code[0]? = some .pushFrame := rfl
  have limits := (asm.info_bounds member).1
  have address := asm.toNat_address member 0
  rw [asm.line_of_code member there (j := 0) (by decide) (by rw [address]; exact limits)]
  rfl

/-- The line found at the last byte of a function is its closing line. -/
theorem line_at_end (asm : Assembled p e rs) (member : r ∈ rs) :
    (e.symbols.lines.lookup (r.info.high - 1)).map (·.segment) =
      r.layout.function.closeLine.map (Segment.line p.sourceFile) := by
  obtain ⟨front, stretches⟩ : ∃ front, r.stretches =
      front ++ [(r.layout.function.closeLine, Routine.closing)] := ⟨_ :: _, rfl⟩
  have code : r.code = (front.map (·.2)).flatten ++ Routine.closing := by
    simp [Routine.code, stretches]
  have there : r.code[(front.map (·.2)).flatten.length + 1]? = some .ret := by
    rw [code, List.getElem?_append_right (by omega)]
    simp [Routine.closing]
  have whole : r.code.take ((front.map (·.2)).flatten.length + 1 + 1) = r.code :=
    List.take_of_length_le (by rw [code, List.length_append]; exact Nat.le_refl _)
  have last := span_take_succ there
  have one : (Instr.ret.length).toNat = 1 := rfl
  have bounds := asm.bounds member
  have limits := (asm.info_bounds member).2
  have address := asm.toNat_address member ((front.map (·.2)).flatten.length + 1)
  have positive : 0 < r.info.high := UInt64.lt_iff_toNat_lt.mpr (by show 0 < _; omega)
  have back := toNat_pred positive
  rw [whole] at last
  rw [asm.line_of_code member there (j := 0) (by decide) (by omega), stretches,
    lineIn_last (by omega) (Nat.add_lt_add_left (by decide) _)]

theorem info_filled (asm : Assembled p e rs) (member : r ∈ rs) :
    r.info.low.toNat < r.info.high.toNat := by
  have listed : entryOf e r ∈ rs.map (entryOf e) := List.mem_map_of_mem member
  exact UInt64.lt_iff_toNat_lt.mp (asm.function_order.2 (entryOf e r) listed)

theorem info_positive (asm : Assembled p e rs) (member : r ∈ rs) : 0 < r.info.low := by
  have bounds := asm.bounds member
  have limits := asm.info_bounds member
  exact UInt64.lt_iff_toNat_lt.mpr (by show 0 < _; omega)

/-- Where a row is found, there is a function. -/
theorem owner (asm : Assembled p e rs) (found : e.symbols.lines.lookup offset = some row) :
    ∃ q ∈ rs, q.info.low ≤ offset ∧ offset < q.info.high := by
  have some : (e.symbols.lines.lookup offset).isSome = true := by rw [found]; rfl
  obtain ⟨range, member, inside⟩ := (asm.tabulates.found offset).mp some
  obtain ⟨q, known, mem⟩ := List.mem_flatMap.mp member
  have limits := asm.info_bounds known
  have place := asm.row_inside known mem inside
  exact ⟨q, known, UInt64.le_iff_toNat_le.mpr (by omega), UInt64.lt_iff_toNat_lt.mpr (by omega)⟩

theorem apart_or (asm : Assembled p e rs) (here : r ∈ rs) (there : q ∈ rs) :
    r = q ∨ r.info.high.toNat ≤ q.info.low.toNat ∨ q.info.high.toNat ≤ r.info.low.toNat := by
  have first := asm.info_bounds here
  have second := asm.info_bounds there
  have filled := asm.info_filled here
  have others := asm.info_filled there
  by_contra away
  rw [not_or, not_or] at away
  refine away.1 (asm.unique (n := max r.layout.low.toNat q.layout.low.toNat) here there ?_ ?_) <;>
    omega

/-- Before an entry the opening line is found just if some function runs into that entry. -/
theorem line_before_entry (asm : Assembled p e rs) (member : r ∈ rs) {n : UInt32}
    (opens : r.layout.function.openLine = some n) :
    (e.symbols.lines.lookup (r.info.low - 1)).map (·.segment) = some (.line p.sourceFile n) ↔
      ∃ q ∈ rs, q.layout.RunsInto r.layout := by
  have limits := asm.info_bounds member
  have back := toNat_pred (asm.info_positive member)
  constructor
  · intro same
    obtain ⟨row, found, segment⟩ := Option.map_eq_some_iff.mp same
    obtain ⟨q, known, first, last⟩ := asm.owner found
    have bounds := asm.info_bounds known
    rw [UInt64.le_iff_toNat_le] at first
    rw [UInt64.lt_iff_toNat_lt] at last
    have touch : q.info.high = r.info.low := by
      have filled := asm.info_filled member
      rcases asm.apart_or known member with rfl | before | behind
      · omega
      · exact UInt64.toNat_inj.mp (by omega)
      · omega
    have closing := asm.line_at_end known
    rw [touch, same] at closing
    refine ⟨q, known, UInt64.toNat_inj.mp ?_, ?_, by rw [opens]; rfl⟩
    · have level := congrArg UInt64.toNat touch
      omega
    · obtain ⟨m, closes, line⟩ := Option.map_eq_some_iff.mp closing.symm
      rw [closes, opens, show m = n from congrArg Segment.firstLine line]
  · rintro ⟨q, known, touch, line, _⟩
    have closing := asm.line_at_end known
    have level : q.info.high = r.info.low := congrArg (· - codeBase) touch
    rwa [level, line, opens] at closing

/-- At the entry of a function with an opening line its row is found. The row begins there unless a
function runs into that entry. -/
theorem opening_row (asm : Assembled p e rs) (member : r ∈ rs) {n : UInt32}
    (opens : r.layout.function.openLine = some n) :
    ∃ row, e.symbols.lines.lookup r.info.low = some row ∧ row.segment = .line p.sourceFile n ∧
      (row.start = r.info.low ↔ ∀ q ∈ rs, ¬ q.layout.RunsInto r.layout) := by
  have entry := asm.line_at_entry member
  rw [opens] at entry
  obtain ⟨row, found, segment⟩ := Option.map_eq_some_iff.mp entry
  refine ⟨row, found, segment, ?_⟩
  rw [asm.tabulates.begins_iff found (asm.info_positive member), segment, Ne,
    asm.line_before_entry member opens]
  simp only [not_exists, not_and]

/-- Each row lies in one function unless a function runs into another. -/
theorem rows_within (asm : Assembled p e rs) :
    (∀ row ∈ e.symbols.lines.rows.toList, ∃ r ∈ rs, r.info.low ≤ row.start ∧
        row.stop ≤ r.info.high) ↔
      ∀ r ∈ rs, ∀ q ∈ rs, ¬ q.layout.RunsInto r.layout := by
  constructor
  · intro within r member q known runs
    obtain ⟨n, opens⟩ := Option.isSome_iff_exists.mp runs.2.2
    obtain ⟨row, found, _, begins⟩ := asm.opening_row member opens
    obtain ⟨kept, inside⟩ := (asm.tabulates.lookup _ row).mp found
    obtain ⟨first, last⟩ := contains_iff.mp inside
    obtain ⟨s, there, low, high⟩ := within row kept
    simp only [UInt64.le_iff_toNat_le, UInt64.lt_iff_toNat_lt] at first last low high
    have limits := asm.info_bounds member
    have bounds := asm.info_bounds there
    have filled := asm.info_filled member
    cases asm.unique (n := r.layout.low.toNat) there member (by omega) (by omega)
    exact begins.mp (UInt64.toNat_inj.mp (Nat.le_antisymm first low)) q known runs
  · intro never row member
    have room := asm.tabulates.order.2 row member
    have lookup {offset : UInt64} (first : row.start.toNat ≤ offset.toNat)
        (last : offset.toNat < row.stop.toNat) : e.symbols.lines.lookup offset = some row :=
      (asm.tabulates.lookup offset row).mpr ⟨member, contains_iff.mpr
        ⟨UInt64.le_iff_toNat_le.mpr first, UInt64.lt_iff_toNat_lt.mpr last⟩⟩
    rw [UInt64.lt_iff_toNat_lt] at room
    obtain ⟨r, known, low, high⟩ := asm.owner (lookup (Nat.le_refl _) room)
    refine ⟨r, known, low, UInt64.not_lt.mp fun beyond => ?_⟩
    rw [UInt64.lt_iff_toNat_lt] at high beyond
    -- The row reaches over the end of its function, so there is another function right behind it.
    have across := lookup (Nat.le_of_lt high) beyond
    obtain ⟨q, other, first, last⟩ := asm.owner across
    rw [UInt64.le_iff_toNat_le] at first
    rw [UInt64.lt_iff_toNat_lt] at last
    have touch : q.info.low = r.info.high := by
      have filled := asm.info_filled known
      rcases asm.apart_or known other with rfl | before | behind
      · omega
      · exact UInt64.toNat_inj.mp (by omega)
      · omega
    have opening := asm.line_at_entry other
    rw [touch, across] at opening
    obtain ⟨n, opens, line⟩ := Option.map_eq_some_iff.mp opening.symm
    have back := toNat_pred (asm.info_positive other)
    have level := congrArg UInt64.toNat touch
    have before : e.symbols.lines.lookup (q.info.low - 1) = some row :=
      lookup (by omega) (by omega)
    obtain ⟨s, there, runs⟩ := (asm.line_before_entry other opens).mp (by
      rw [before, line]
      rfl)
    exact never q other s there runs

end Assembled

/-- In what assembles, rows respect functions just as far as no function runs into another. -/
theorem assemble_rows {p : Program} {e : Executable} (done : p.assemble = .ok e) :
    ((∀ row ∈ e.symbols.lines.rows.toList, ∃ l ∈ p.layouts, l.low - codeBase ≤ row.start ∧
        row.stop ≤ l.high - codeBase) ↔
      ∀ l ∈ p.layouts, ∀ k ∈ p.layouts, ¬ k.RunsInto l) ∧
    ∀ l ∈ p.layouts, ∀ n, l.function.openLine = some n →
      ∃ row, e.symbols.lines.lookup (l.low - codeBase) = some row ∧
        row.segment = .line p.sourceFile n ∧
          (row.start = l.low - codeBase ↔ ∀ k ∈ p.layouts, ¬ k.RunsInto l) := by
  obtain ⟨rs, asm⟩ := assemble_ok done
  rw [← asm.layouts]
  simp only [List.mem_map, exists_exists_and_eq_and, forall_exists_index, and_imp,
    forall_apply_eq_imp_iff₂]
  exact ⟨asm.rows_within, fun r member n opens => asm.opening_row member opens⟩

/-- Sixteen bytes of code that close on line 4, and a function behind them that opens there. -/
def abutting : Program :=
  ⟨"abutting", "a.c", "main",
    [⟨"main", [], [], some 1, some 4, [.of (some 3) [.break, .call "helper"]]⟩,
      ⟨"helper", [], [], some 4, some 6, [.of (some 5) [.nop]]⟩], []⟩

example : ∃ l ∈ abutting.layouts, ∃ k ∈ abutting.layouts, k.RunsInto l := by decide

end SourceDebugger.Machine
