import SourceDebugger.Proofs.Symbols.Tables
/-!
What a line table answers, said of the ranges that it was made from. The rows are a normal form: one
behind the other, never empty, and joined where they could be. Nothing is claimed for ranges that
share an offset.
-/
namespace SourceDebugger

namespace LineTable

/-- A row of a file starts on a line. -/
def Starts (file : String) (line : UInt32) (r : CodeRange) : Prop :=
  SourceFile.matchNames r.segment.file file = true ∧ r.segment.firstLine = line

/-- A row of a file reaches over a line that it does not start on. -/
def Spans (file : String) (line : UInt32) (r : CodeRange) : Prop :=
  SourceFile.matchNames r.segment.file file = true ∧ r.segment.firstLine < line ∧
    line ≤ r.segment.lastLine

/-- The row of the least start among those that something holds of. -/
def Least (rows : List CodeRange) (holds : CodeRange → Prop) (r : CodeRange) : Prop :=
  r ∈ rows ∧ holds r ∧ ∀ s ∈ rows, holds s → r.start ≤ s.start

/-- What is to be answered when a line is looked up. Rows that start on the line come first. -/
def Resolution (rows : List CodeRange) (file : String) (line : UInt32) : Option CodeRange → Prop
  | none => ∀ r ∈ rows, ¬ Starts file line r ∧ ¬ Spans file line r
  | some r => Least rows (Starts file line) r ∨
    (∀ s ∈ rows, ¬ Starts file line s) ∧ Least rows (Spans file line) r

/-- A table says of every offset, stretch and line what the ranges say of it. -/
structure Tabulates (t : LineTable) (ranges : List CodeRange) : Prop where
  order : InOrder CodeRange.start CodeRange.stop t.rows.toList
  joined : t.rows.toList.IsChain fun r s => r.stop = s.start → r.segment ≠ s.segment
  covers : ∀ offset g, Covers t.rows.toList offset g ↔ Covers ranges offset g
  lookup : ∀ offset r, t.lookup offset = some r ↔
    r ∈ t.rows.toList ∧ r.contains offset = true
  found : ∀ offset, (t.lookup offset).isSome = true ↔ ∃ r ∈ ranges, r.contains offset = true
  hasRows : ∀ low high, low < high → (t.hasRowsIn low high = true ↔
    ∃ r ∈ ranges, ∃ offset, low ≤ offset ∧ offset < high ∧ r.contains offset = true)
  resolves : ∀ file line, Resolution t.rows.toList file line (t.resolve file line)
  returns : ∀ file line r, t.resolve file line = some r → t.lookup r.start = some r

section Lines

variable {rows : List CodeRange} {r : CodeRange} {file : String} {line : UInt32}

theorem earliest_isSome (some : r ∈ rows) : (earliest rows).isSome = true := by
  cases rows with
  | nil => cases some
  | cons s rest =>
    rw [earliest]
    split
    · split <;> rfl
    · rfl

theorem earliest_least (found : earliest rows = some r) :
    r ∈ rows ∧ ∀ s ∈ rows, r.start ≤ s.start := by
  induction rows generalizing r with
  | nil => cases found
  | cons s rest ih =>
    rw [earliest] at found
    cases least : earliest rest with
    | none =>
      rw [least] at found
      cases found
      have empty : rest = [] := List.eq_nil_iff_forall_not_mem.mpr fun t member => by
        have some := earliest_isSome member
        rw [least] at some
        cases some
      subst empty
      exact ⟨List.mem_cons_self, List.forall_mem_singleton.mpr (UInt64.le_refl _)⟩
    | some t =>
      rw [least] at found
      obtain ⟨member, before⟩ := ih least
      dsimp only at found
      split at found
      · rename_i sooner
        cases found
        exact ⟨List.mem_cons_of_mem _ member,
          List.forall_mem_cons.mpr ⟨UInt64.le_of_lt sooner, before⟩⟩
      · rename_i later
        cases found
        exact ⟨List.mem_cons_self, List.forall_mem_cons.mpr ⟨UInt64.le_refl _, fun u other =>
          UInt64.le_trans (UInt64.not_lt.mp later) (before u other)⟩⟩

/-- The earliest row of those that pass a test is the least of those that the test stands for. -/
theorem least_of_earliest {test : CodeRange → Bool} {holds : CodeRange → Prop}
    (means : ∀ s ∈ rows, test s = true ↔ holds s) (found : earliest (rows.filter test) = some r) :
    Least rows holds r := by
  obtain ⟨member, before⟩ := earliest_least found
  obtain ⟨member, passes⟩ := List.mem_filter.mp member
  exact ⟨member, (means r member).mp passes, fun s other holds =>
    before s (List.mem_filter.mpr ⟨other, (means s other).mpr holds⟩)⟩

theorem none_of_earliest {test : CodeRange → Bool} {holds : CodeRange → Prop}
    (means : ∀ s ∈ rows, test s = true ↔ holds s) (missing : earliest (rows.filter test) = none) :
    ∀ s ∈ rows, ¬ holds s := by
  intro s member here
  have some := earliest_isSome (List.mem_filter.mpr ⟨member, (means s member).mpr here⟩)
  rw [missing] at some
  cases some

theorem resolve_resolution (t : LineTable) (file : String) (line : UInt32) :
    Resolution t.rows.toList file line (t.resolve file line) := by
  have starting (s : CodeRange) (_ : s ∈ t.rows.toList) :
      (decide (s.segment.firstLine = line) && SourceFile.matchNames s.segment.file file) = true ↔
        Starts file line s := by
    rw [Bool.and_eq_true, decide_eq_true_eq, Starts, and_comm]
  have spanning (s : CodeRange) (_ : s ∈ t.rows.toList) :
      (decide (s.segment.firstLine < line) && decide (line ≤ s.segment.lastLine) &&
        SourceFile.matchNames s.segment.file file) = true ↔ Spans file line s := by
    rw [Bool.and_eq_true, Bool.and_eq_true, decide_eq_true_eq, decide_eq_true_eq, Spans, and_comm]
  rw [resolve]
  simp only [List.filter_filter]
  cases first : earliest (t.rows.toList.filter fun s =>
      decide (s.segment.firstLine = line) && SourceFile.matchNames s.segment.file file) with
  | some r => exact .inl (least_of_earliest starting first)
  | none =>
    have missing := none_of_earliest starting first
    rw [Option.none_or]
    cases second : earliest (t.rows.toList.filter fun s =>
        decide (s.segment.firstLine < line) && decide (line ≤ s.segment.lastLine) &&
          SourceFile.matchNames s.segment.file file) with
    | some r => exact .inr ⟨missing, least_of_earliest spanning second⟩
    | none => exact fun s member => ⟨missing s member, none_of_earliest spanning second s member⟩

theorem mem_of_resolve {t : LineTable} (found : t.resolve file line = some r) :
    r ∈ t.rows.toList := by
  have resolution := resolve_resolution t file line
  rw [found] at resolution
  rcases resolution with ⟨member, _⟩ | ⟨_, member, _⟩ <;> exact member

end Lines

section Stretches

variable {rows : List CodeRange} {low high : UInt64}

/-- Some row reaches into a stretch if the first one that does not end before it does. -/
theorem hasRowsIn_iff (order : InOrder CodeRange.start CodeRange.stop rows) :
    (⟨rows.toArray⟩ : LineTable).hasRowsIn low high = true ↔
      ∃ r ∈ rows, low < r.stop ∧ r.start < high := by
  have closed : rows.Pairwise fun a b =>
      decide (b.stop ≤ low) = true → decide (a.stop ≤ low) = true := by
    refine List.Pairwise.imp_of_mem (fun {a b} _ second behind ended => ?_) order.1
    have room := UInt64.le_of_lt (order.2 b second)
    exact decide_eq_true
      (UInt64.le_trans behind (UInt64.le_trans room (of_decide_eq_true ended)))
  have place := boundary_takeWhile closed
  have parts := List.takeWhile_append_dropWhile (p := fun r => decide (r.stop ≤ low)) (l := rows)
  have front (r : CodeRange) (early : r ∈ rows.takeWhile fun r => decide (r.stop ≤ low)) :
      ¬ low < r.stop :=
    UInt64.not_lt.mpr (of_decide_eq_true (List.all_eq_true.mp List.all_takeWhile r early))
  rw [hasRowsIn, place, List.getElem?_toArray]
  generalize rows.takeWhile (fun r => decide (r.stop ≤ low)) = ended at parts front
  have head := List.head?_dropWhile_not (fun r : CodeRange => decide (r.stop ≤ low)) rows
  generalize rows.dropWhile (fun r => decide (r.stop ≤ low)) = others at parts head
  subst parts
  rw [List.getElem?_append_right (Nat.le_refl _), Nat.sub_self]
  cases others with
  | nil =>
    refine ⟨fun yes => (by cases yes), ?_⟩
    rintro ⟨r, member, reaches, _⟩
    rw [List.append_nil] at member
    exact absurd reaches (front r member)
  | cons r rest =>
    have reaches : low < r.stop := UInt64.not_le.mp (by simpa using head)
    refine ⟨fun yes => ⟨r, by simp, reaches, by simpa using yes⟩, ?_⟩
    rintro ⟨s, member, beyond, before⟩
    show decide (r.start < high) = true
    refine decide_eq_true ?_
    rcases List.mem_append.mp member with early | late
    · exact absurd beyond (front s early)
    · rcases List.mem_cons.mp late with rfl | later
      · exact before
      · have behind := (List.pairwise_cons.mp (List.pairwise_append.mp order.1).2.1).1 s later
        have room := order.2 r (by simp)
        exact UInt64.lt_trans (UInt64.lt_of_lt_of_le room behind) before

/-- A row that is not empty reaches into a stretch if it contains an offset of it. -/
theorem reaches_iff {r : CodeRange} (proper : r.start < r.stop) (some : low < high) :
    low < r.stop ∧ r.start < high ↔
      ∃ offset, low ≤ offset ∧ offset < high ∧ r.contains offset = true := by
  constructor
  · rintro ⟨beyond, before⟩
    rcases UInt64.le_total low r.start with first | first
    · exact ⟨r.start, first, before, contains_iff.mpr ⟨UInt64.le_refl _, proper⟩⟩
    · exact ⟨low, UInt64.le_refl _, some, contains_iff.mpr ⟨first, beyond⟩⟩
  · rintro ⟨offset, first, before, inside⟩
    obtain ⟨start, stop⟩ := contains_iff.mp inside
    exact ⟨UInt64.lt_of_le_of_lt first stop, UInt64.lt_of_le_of_lt start before⟩

end Stretches

section Ranges

variable {ranges : List CodeRange}

theorem Covers.iff_contains {rows : List CodeRange} {offset : UInt64} :
    (∃ g, Covers rows offset g) ↔ ∃ r ∈ rows, r.contains offset = true :=
  ⟨fun ⟨_, r, member, inside, _⟩ => ⟨r, member, inside⟩,
    fun ⟨r, member, inside⟩ => ⟨_, r, member, inside, rfl⟩⟩

theorem tabulates_ofRanges (apart : Apart ranges) : (ofRanges ranges).Tabulates ranges := by
  obtain ⟨rows, table, order, joined, covers⟩ := ofRanges_spec apart
  have same (offset : UInt64) : (∃ r ∈ rows, r.contains offset = true) ↔
      ∃ r ∈ ranges, r.contains offset = true := by
    rw [← Covers.iff_contains, ← Covers.iff_contains]
    exact exists_congr fun g => covers offset g
  rw [table]
  refine ⟨order, joined, covers, fun offset r => lookup_iff order, fun offset => ?_,
    fun low high some => ?_, resolve_resolution _, fun file line r answer => ?_⟩
  · rw [← same, Option.isSome_iff_exists]
    exact exists_congr fun r => lookup_iff order
  · rw [hasRowsIn_iff order]
    constructor
    · rintro ⟨r, member, reaches⟩
      obtain ⟨offset, first, last, inside⟩ := (reaches_iff (order.2 r member) some).mp reaches
      obtain ⟨s, other, there⟩ := (same offset).mp ⟨r, member, inside⟩
      exact ⟨s, other, offset, first, last, there⟩
    · rintro ⟨s, other, offset, first, last, there⟩
      obtain ⟨r, member, inside⟩ := (same offset).mpr ⟨s, other, there⟩
      exact ⟨r, member, (reaches_iff (order.2 r member) some).mpr ⟨offset, first, last, inside⟩⟩
  · have member : r ∈ rows := mem_of_resolve answer
    exact (lookup_iff order).mpr
      ⟨member, contains_iff.mpr ⟨UInt64.le_refl _, order.2 r member⟩⟩

/-- Two rows of one segment do not touch. -/
theorem parted {rows : List CodeRange} (order : InOrder CodeRange.start CodeRange.stop rows)
    (joined : rows.IsChain fun r s => r.stop = s.start → r.segment ≠ s.segment) {r s : CodeRange}
    (first : r ∈ rows) (second : s ∈ rows) (touch : r.stop = s.start) : r.segment ≠ s.segment := by
  induction rows with
  | nil => cases first
  | cons a rest ih =>
    obtain ⟨ordered, proper⟩ := order
    obtain ⟨behind, apart⟩ := List.pairwise_cons.mp ordered
    have room := proper r first
    rcases List.mem_cons.mp second with rfl | later
    · rcases List.mem_cons.mp first with rfl | after
      · exact absurd (touch ▸ room) (UInt64.lt_irrefl _)
      · have below := UInt64.lt_of_lt_of_le (proper s second) (behind r after)
        exact absurd (UInt64.lt_trans below (touch ▸ room)) (UInt64.lt_irrefl _)
    · rcases List.mem_cons.mp first with rfl | after
      · cases rest with
        | nil => cases later
        | cons b others =>
          rcases List.mem_cons.mp later with rfl | beyond
          · exact (List.isChain_cons_cons.mp joined).1 touch
          · have next := behind b List.mem_cons_self
            have filled := proper b (List.mem_cons_of_mem _ List.mem_cons_self)
            have back := (List.pairwise_cons.mp apart).1 s beyond
            have far := UInt64.lt_of_le_of_lt next (UInt64.lt_of_lt_of_le filled back)
            exact absurd (touch ▸ far) (UInt64.lt_irrefl _)
      · exact ih ⟨apart, fun q member => proper q (List.mem_cons_of_mem _ member)⟩
          joined.tail after later

theorem toNat_pred {offset : UInt64} (positive : 0 < offset) :
    (offset - 1).toNat + 1 = offset.toNat := by
  have one : (1 : UInt64).toNat = 1 := rfl
  have some : 0 < offset.toNat := UInt64.lt_iff_toNat_lt.mp positive
  rw [UInt64.toNat_sub_of_le _ _ (UInt64.le_iff_toNat_le.mpr (by omega))]
  omega

/-- A row begins where another segment, or none, ends. -/
theorem Tabulates.begins_iff {t : LineTable} (table : t.Tabulates ranges) {offset : UInt64}
    {row : CodeRange} (found : t.lookup offset = some row) (positive : 0 < offset) :
    row.start = offset ↔ (t.lookup (offset - 1)).map (·.segment) ≠ some row.segment := by
  obtain ⟨member, inside⟩ := (table.lookup offset row).mp found
  obtain ⟨first, last⟩ := contains_iff.mp inside
  have back := toNat_pred positive
  simp only [UInt64.le_iff_toNat_le, UInt64.lt_iff_toNat_lt] at first last
  constructor
  · intro start same
    obtain ⟨r, before, segment⟩ := Option.map_eq_some_iff.mp same
    obtain ⟨known, inside⟩ := (table.lookup _ r).mp before
    obtain ⟨low, high⟩ := contains_iff.mp inside
    simp only [UInt64.le_iff_toNat_le, UInt64.lt_iff_toNat_lt] at low high
    refine parted table.order table.joined known member (UInt64.toNat_inj.mp ?_) segment
    rw [start]
    refine Nat.le_antisymm (Nat.le_of_not_lt fun beyond => ?_) (by omega)
    -- A row that reaches over the offset would be the row that is found there.
    have there : r.contains offset = true := contains_iff.mpr
      ⟨UInt64.le_iff_toNat_le.mpr (by omega), UInt64.lt_iff_toNat_lt.mpr beyond⟩
    cases found.symm.trans ((table.lookup offset r).mpr ⟨known, there⟩)
    have begun := congrArg UInt64.toNat start
    omega
  · intro other
    refine UInt64.le_antisymm (UInt64.le_iff_toNat_le.mpr first) (UInt64.not_lt.mp fun early => ?_)
    have early := UInt64.lt_iff_toNat_lt.mp early
    have covered : row.contains (offset - 1) = true :=
      contains_iff.mpr ⟨UInt64.le_iff_toNat_le.mpr (by omega), UInt64.lt_iff_toNat_lt.mpr (by omega)⟩
    rw [(table.lookup _ row).mpr ⟨member, covered⟩] at other
    exact other rfl

end Ranges

end LineTable

theorem FunctionTable.mem_of_dropRepeats {fs : List FunctionInfo} {f : FunctionInfo}
    (member : f ∈ dropRepeats fs) : f ∈ fs := by
  fun_induction dropRepeats fs with
  | case1 => exact member
  | case2 => exact member
  | case3 g h rest same ih =>
    rcases List.mem_cons.mp (ih member) with rfl | later
    · exact List.mem_cons_self
    · exact List.mem_cons_of_mem _ (List.mem_cons_of_mem _ later)
  | case4 g h rest other ih =>
    rcases List.mem_cons.mp member with rfl | later
    · exact List.mem_cons_self
    · exact List.mem_cons_of_mem _ (ih later)

namespace ModuleSymbols

theorem hasLines_eq {ranges : List CodeRange} {fs : List FunctionInfo} {f : FunctionInfo}
    (member : f ∈ (ofTables ranges fs).functions.entries) :
    f.hasLines = (ofTables ranges fs).lines.hasRowsIn f.low f.high := by
  have kept : f ∈ FunctionTable.dropRepeats
      ((markLines (LineTable.ofRanges ranges) fs).mergeSort fun f g => f.low ≤ g.low) :=
    List.mem_toArray.mp member
  have marked := List.mem_mergeSort.mp (FunctionTable.mem_of_dropRepeats kept)
  obtain ⟨g, _, rfl⟩ := List.mem_map.mp marked
  rfl

/-- Ranges that share no offset, in any order, are tabulated, and a function beside them has lines
just if a row is found at some offset of it. -/
theorem ranges_tabulated {ranges : List CodeRange} (apart : LineTable.Apart ranges) :
    (LineTable.ofRanges ranges).Tabulates ranges ∧
      ∀ fs, ∀ f ∈ (ofTables ranges fs).functions.entries, f.low < f.high →
        (f.hasLines = true ↔ ∃ offset, f.low ≤ offset ∧ offset < f.high ∧
          ((ofTables ranges fs).lines.lookup offset).isSome = true) := by
  have table := LineTable.tabulates_ofRanges apart
  refine ⟨table, fun fs f member some => ?_⟩
  have lines : (ofTables ranges fs).lines = LineTable.ofRanges ranges := rfl
  rw [hasLines_eq member, lines, table.hasRows _ _ some]
  constructor
  · rintro ⟨r, there, offset, first, last, inside⟩
    exact ⟨offset, first, last, (table.found offset).mpr ⟨r, there, inside⟩⟩
  · rintro ⟨offset, first, last, found⟩
    obtain ⟨r, there, inside⟩ := (table.found offset).mp found
    exact ⟨r, there, offset, first, last, inside⟩

/-- Ranges out of order: two that are joined, an empty one, and one apart that spans lines. -/
def scattered : List CodeRange :=
  [⟨0x14, 0x18, .line "a.c" 11⟩, ⟨0x30, 0x34, ⟨"a.c", 10, 12, none⟩⟩, ⟨0x16, 0x16, .line "a.c" 9⟩,
    ⟨0x10, 0x14, .line "a.c" 11⟩, ⟨0x18, 0x20, .line "a.c" 12⟩]

theorem ranges_tabulated_scattered : LineTable.Apart scattered ∧
    (LineTable.ofRanges scattered).Tabulates scattered ∧
      ((LineTable.ofRanges scattered).lookup 0x16).isSome = true ∧
        ((LineTable.ofRanges scattered).lookup 0x28).isSome = false := by
  have sides : scattered.Pairwise fun r s =>
      r.stop ≤ s.start ∨ s.stop ≤ r.start ∨ s.stop ≤ s.start := by decide
  have apart : LineTable.Apart scattered := by
    refine sides.imp fun side offset inside => Bool.eq_false_iff.mpr fun other => ?_
    obtain ⟨first, last⟩ := LineTable.contains_iff.mp inside
    obtain ⟨start, stop⟩ := LineTable.contains_iff.mp other
    rcases side with behind | before | empty
    · exact UInt64.not_lt.mpr (UInt64.le_trans behind start) last
    · exact UInt64.not_lt.mpr (UInt64.le_trans before first) stop
    · exact UInt64.not_lt.mpr (UInt64.le_trans empty start) stop
  have table := (ranges_tabulated apart).1
  refine ⟨apart, table, (table.found 0x16).mpr (by decide), ?_⟩
  have outside : ¬ ∃ r ∈ scattered, r.contains 0x28 = true := by decide
  exact Bool.eq_false_iff.mpr (mt (table.found 0x28).mp outside)

end ModuleSymbols

end SourceDebugger
