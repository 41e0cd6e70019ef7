import Mathlib.Data.List.Chain
import SourceDebugger.Proofs.Symbols.Search
import SourceDebugger.Symbols.ModuleSymbols
/-!
Lookups in tables of stretches that do not overlap. What a table finds at an offset is the one entry
that contains it. Rows that are merged cover the same code with the same segments.
-/
namespace SourceDebugger

section Lookup

variable {α : Type} {low high : α → UInt64}

/-- Stretches one behind the other. -/
def InOrder (low high : α → UInt64) (entries : List α) : Prop :=
  entries.Pairwise (fun a b => high a ≤ low b) ∧ ∀ a ∈ entries, low a < high a

/-- The last entry that begins at or before an offset is the one that contains it, if any does. -/
theorem lastBefore_iff {entries : List α} (order : InOrder low high entries) {offset : UInt64} {a : α} :
    (lastBefore? entries.toArray fun b => low b ≤ offset).filter
        (fun b => low b ≤ offset && offset < high b) = some a ↔
      a ∈ entries ∧ low a ≤ offset ∧ offset < high a := by
  constructor
  · intro found
    obtain ⟨found, inside⟩ := Option.filter_eq_some_iff.mp found
    rw [Bool.and_eq_true, decide_eq_true_eq, decide_eq_true_eq] at inside
    exact ⟨by simpa using mem_of_lastBefore found, inside⟩
  · rintro ⟨member, first, last⟩
    obtain ⟨front, back, rfl⟩ := List.append_of_mem member
    obtain ⟨apart, proper⟩ := order
    obtain ⟨_, behind, before⟩ := List.pairwise_append.mp apart
    have found : lastBefore? (front ++ a :: back).toArray (fun b => low b ≤ offset) = some a := by
      refine lastBefore_append (fun b early => ?_) (decide_eq_true first) fun b late => ?_
      · have below := before b early a List.mem_cons_self
        have room := proper b (List.mem_append_left _ early)
        exact decide_eq_true (UInt64.le_trans (UInt64.le_of_lt (UInt64.lt_of_lt_of_le room below)) first)
      · have above := (List.pairwise_cons.mp behind).1 b late
        exact decide_eq_false (UInt64.not_le.mpr (UInt64.lt_of_lt_of_le last above))
    rw [found]
    exact Option.filter_eq_some_iff.mpr ⟨rfl, by simp [first, last]⟩

theorem mergeSort_inOrder {entries : List α} (order : InOrder low high entries) :
    entries.mergeSort (fun a b => low a ≤ low b) = entries := by
  refine List.mergeSort_of_pairwise (List.Pairwise.imp_of_mem ?_ order.1)
  intro a b first _ apart
  exact decide_eq_true (UInt64.le_trans (UInt64.le_of_lt (order.2 a first)) apart)

end Lookup

namespace LineTable

/-- Some row has a segment at an offset. -/
def Covers (rows : List CodeRange) (offset : UInt64) (g : Segment) : Prop :=
  ∃ r ∈ rows, r.contains offset = true ∧ r.segment = g

theorem contains_iff {r : CodeRange} {offset : UInt64} :
    r.contains offset = true ↔ r.start ≤ offset ∧ offset < r.stop := by
  rw [CodeRange.contains, Bool.and_eq_true, decide_eq_true_eq, decide_eq_true_eq]

theorem merge_spec {last : CodeRange} {rows : List CodeRange}
    (order : InOrder CodeRange.start CodeRange.stop (last :: rows)) :
    InOrder CodeRange.start CodeRange.stop (merge last rows) ∧
      (∀ r ∈ merge last rows, last.start ≤ r.start) ∧
        ∀ offset g, Covers (merge last rows) offset g ↔ Covers (last :: rows) offset g := by
  induction rows generalizing last with
  | nil =>
    refine ⟨order, fun r member => ?_, fun _ _ => Iff.rfl⟩
    rw [merge, List.mem_singleton] at member
    rw [member]
    exact UInt64.le_refl _
  | cons r rest ih =>
    obtain ⟨apart, proper⟩ := order
    obtain ⟨behind, apart⟩ := List.pairwise_cons.mp apart
    obtain ⟨later, others⟩ := List.pairwise_cons.mp apart
    have first := proper last List.mem_cons_self
    have second := proper r (List.mem_cons_of_mem _ List.mem_cons_self)
    have next := behind r List.mem_cons_self
    rw [merge]
    split
    · rename_i joined
      obtain ⟨touch, same⟩ := joined
      have longer : InOrder CodeRange.start CodeRange.stop ({ last with stop := r.stop } :: rest) := by
        refine ⟨List.pairwise_cons.mpr ⟨later, others⟩, fun q member => ?_⟩
        rcases List.mem_cons.mp member with rfl | member
        · exact UInt64.lt_trans first (touch ▸ second)
        · exact proper q (List.mem_cons_of_mem _ (List.mem_cons_of_mem _ member))
      obtain ⟨order, starts, covers⟩ := ih longer
      refine ⟨order, starts, fun offset g => (covers offset g).trans ?_⟩
      simp only [Covers, List.mem_cons, exists_eq_or_imp, contains_iff]
      constructor
      · rintro (⟨⟨low, high⟩, rfl⟩ | rest)
        · by_cases early : offset < last.stop
          · exact .inl ⟨⟨low, early⟩, rfl⟩
          · exact .inr (.inl ⟨⟨touch ▸ UInt64.not_lt.mp early, high⟩, same.symm⟩)
        · exact .inr (.inr rest)
      · rintro (⟨⟨low, high⟩, rfl⟩ | ⟨⟨low, high⟩, rfl⟩ | rest)
        · exact .inl ⟨⟨low, UInt64.lt_trans high (touch ▸ second)⟩, rfl⟩
        · exact .inl ⟨⟨UInt64.le_trans (UInt64.le_of_lt first) (touch ▸ low), high⟩, same⟩
        · exact .inr rest
    · have shorter : InOrder CodeRange.start CodeRange.stop (r :: rest) :=
        ⟨apart, fun q member => proper q (List.mem_cons_of_mem _ member)⟩
      obtain ⟨order, starts, covers⟩ := ih shorter
      refine ⟨⟨List.pairwise_cons.mpr ⟨fun q member => ?_, order.1⟩, ?_⟩, ?_, fun offset g => ?_⟩
      · exact UInt64.le_trans next (starts q member)
      · intro q member
        rcases List.mem_cons.mp member with rfl | member
        · exact first
        · exact order.2 q member
      · intro q member
        rcases List.mem_cons.mp member with rfl | member
        · exact UInt64.le_refl _
        · exact UInt64.le_trans (UInt64.le_of_lt (UInt64.lt_of_lt_of_le first next)) (starts q member)
      · have step (rows : List CodeRange) : Covers (last :: rows) offset g ↔
            last.contains offset = true ∧ last.segment = g ∨ Covers rows offset g := by
          simp only [Covers, List.mem_cons, exists_eq_or_imp]
        rw [step, covers, ← step]

/-- Rows are merged as far as possible. The first of them begins as the row that was open did. -/
theorem merge_chain (last : CodeRange) (rows : List CodeRange) :
    ∃ first rest, merge last rows = first :: rest ∧ first.start = last.start ∧
      first.segment = last.segment ∧
        (first :: rest).IsChain fun r s => r.stop = s.start → r.segment ≠ s.segment := by
  induction rows generalizing last with
  | nil => exact ⟨last, [], rfl, rfl, rfl, .singleton _⟩
  | cons r rows ih =>
    rw [merge]
    split
    · exact ih { last with stop := r.stop }
    · rename_i parted
      obtain ⟨first, rest, merged, start, segment, chain⟩ := ih r
      refine ⟨last, first :: rest, by rw [merged], rfl, rfl, .cons_cons (fun touch same => ?_) chain⟩
      exact parted ⟨touch.trans start, same.trans segment⟩

/-- No two ranges share an offset. An empty range shares none with any. -/
def Apart (ranges : List CodeRange) : Prop :=
  ranges.Pairwise fun r s => ∀ offset, r.contains offset = true → s.contains offset = false

theorem apart_of_behind {ranges : List CodeRange}
    (behind : ranges.Pairwise fun r s => r.stop ≤ s.start) : Apart ranges := by
  refine behind.imp fun next offset inside => Bool.eq_false_iff.mpr fun other => ?_
  obtain ⟨_, last⟩ := contains_iff.mp inside
  obtain ⟨first, _⟩ := contains_iff.mp other
  exact UInt64.not_lt.mpr (UInt64.le_trans next first) last

/-- Sorted by their starts, ranges that share no offset lie one behind the other, empty ones apart. -/
theorem sorted_inOrder {ranges : List CodeRange} (apart : Apart ranges) :
    InOrder CodeRange.start CodeRange.stop
      ((ranges.mergeSort fun a b => a.start ≤ b.start).filter fun r => r.start < r.stop) := by
  have sorted := pairwise_mergeSort_key CodeRange.start ranges
  have apart : Apart (ranges.mergeSort fun a b => a.start ≤ b.start) := by
    refine ((List.mergeSort_perm ranges _).pairwise_iff fun {r s} one offset inside => ?_).mpr apart
    exact Bool.eq_false_iff.mpr fun other => by rw [one offset other] at inside; cases inside
  refine ⟨?_, fun r member => of_decide_eq_true (List.mem_filter.mp member).2⟩
  refine List.Pairwise.imp_of_mem (fun {r s} _ second both => ?_)
    ((sorted.and apart).sublist List.filter_sublist)
  obtain ⟨before, apart⟩ := both
  have room : s.start < s.stop := of_decide_eq_true (List.mem_filter.mp second).2
  refine UInt64.not_lt.mp fun beyond => ?_
  have inside := apart s.start (contains_iff.mpr ⟨before, beyond⟩)
  rw [contains_iff.mpr ⟨UInt64.le_refl _, room⟩] at inside
  cases inside

/-- Ranges that share no offset become a table of the same coverage. -/
theorem ofRanges_spec {ranges : List CodeRange} (apart : Apart ranges) :
    ∃ rows, ofRanges ranges = ⟨rows.toArray⟩ ∧ InOrder CodeRange.start CodeRange.stop rows ∧
      (rows.IsChain fun r s => r.stop = s.start → r.segment ≠ s.segment) ∧
        ∀ offset g, Covers rows offset g ↔ Covers ranges offset g := by
  have order := sorted_inOrder apart
  have full (offset : UInt64) (g : Segment) :
      Covers ((ranges.mergeSort fun a b => a.start ≤ b.start).filter fun r => r.start < r.stop)
        offset g ↔ Covers ranges offset g := by
    constructor
    · rintro ⟨r, member, inside, same⟩
      exact ⟨r, List.mem_mergeSort.mp (List.mem_filter.mp member).1, inside, same⟩
    · rintro ⟨r, member, inside, same⟩
      obtain ⟨first, last⟩ := contains_iff.mp inside
      exact ⟨r, List.mem_filter.mpr ⟨List.mem_mergeSort.mpr member,
        decide_eq_true (UInt64.lt_of_le_of_lt first last)⟩, inside, same⟩
  rw [ofRanges]
  cases kept : (ranges.mergeSort fun a b => a.start ≤ b.start).filter fun r => r.start < r.stop with
  | nil =>
    rw [kept] at full
    exact ⟨[], rfl, ⟨.nil, fun r member => by cases member⟩, .nil, full⟩
  | cons r rest =>
    rw [kept] at order full
    obtain ⟨order, _, covers⟩ := merge_spec order
    obtain ⟨first, others, merged, _, _, chain⟩ := merge_chain r rest
    exact ⟨_, rfl, order, merged ▸ chain, fun offset g => (covers offset g).trans (full offset g)⟩

theorem lookup_iff {rows : List CodeRange} (order : InOrder CodeRange.start CodeRange.stop rows)
    {offset : UInt64} {r : CodeRange} : (⟨rows.toArray⟩ : LineTable).lookup offset = some r ↔
      r ∈ rows ∧ r.contains offset = true := by
  rw [contains_iff]
  exact lastBefore_iff order

/-- The row that is found is the one row that contains the offset. -/
theorem lookup_eq_find {rows : List CodeRange} (order : InOrder CodeRange.start CodeRange.stop rows)
    (offset : UInt64) :
    (⟨rows.toArray⟩ : LineTable).lookup offset = rows.find? (·.contains offset) := by
  cases found : rows.find? (·.contains offset) with
  | some r =>
    have inside := List.find?_some (p := fun r : CodeRange => r.contains offset) found
    exact (lookup_iff order).mpr ⟨List.mem_of_find?_eq_some found, inside⟩
  | none =>
    refine Option.eq_none_iff_forall_ne_some.mpr fun r hit => ?_
    obtain ⟨member, inside⟩ := (lookup_iff order).mp hit
    exact absurd inside (List.find?_eq_none.mp found r member)

theorem lookup_covers {rows : List CodeRange} (order : InOrder CodeRange.start CodeRange.stop rows)
    {offset : UInt64} {g : Segment} :
    ((⟨rows.toArray⟩ : LineTable).lookup offset).map (·.segment) = some g ↔
      Covers rows offset g := by
  simp only [Option.map_eq_some_iff, lookup_iff order, and_assoc, Covers]

end LineTable

namespace FunctionTable

theorem dropRepeats_inOrder {fs : List FunctionInfo}
    (order : InOrder FunctionInfo.low FunctionInfo.high fs) : dropRepeats fs = fs := by
  fun_induction dropRepeats fs with
  | case1 => rfl
  | case2 => rfl
  | case3 f g rest same ih =>
    have apart := (List.pairwise_cons.mp order.1).1 g List.mem_cons_self
    have room := order.2 f List.mem_cons_self
    exact absurd (same ▸ UInt64.lt_of_lt_of_le room apart) (UInt64.lt_irrefl _)
  | case4 f g rest other ih =>
    have behind := (List.pairwise_cons.mp order.1).2
    rw [ih ⟨behind, fun q member => order.2 q (List.mem_cons_of_mem _ member)⟩]

/-- In functions one behind the other, what is found at an offset is the one that contains it. -/
theorem at_iff {fs : List FunctionInfo} (order : InOrder FunctionInfo.low FunctionInfo.high fs)
    {offset : UInt64} {f : FunctionInfo} :
    (ofFunctions fs).at? offset = some f ↔ f ∈ fs ∧ f.low ≤ offset ∧ offset < f.high := by
  rw [ofFunctions, mergeSort_inOrder order, dropRepeats_inOrder order]
  exact lastBefore_iff order

end FunctionTable

end SourceDebugger
