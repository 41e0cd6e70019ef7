import SourceDebugger.Proofs.Symbols.Search
import SourceDebugger.Symbols.ModuleSymbols
/-!
Which symbol and which function an offset is given. Stretches may overlap here, share their starts or
lie within one another. Only the one that starts last is looked at, and of several that start there
the one that came last.
-/
namespace SourceDebugger

section Latest

variable {α : Type} {key : α → UInt64} {entries : List α} {offset : UInt64} {t : α}

/-- No other entry that starts at or before an offset comes after one at a position. -/
structure Latest (key : α → UInt64) (entries : List α) (offset : UInt64) (j : Nat) (t : α) : Prop where
  there : entries[j]? = some t
  starts : key t ≤ offset
  last : ∀ i u, entries[i]? = some u → key u ≤ offset → key u < key t ∨ key u = key t ∧ i ≤ j

/-- The entries in front of the last one that starts at or before an offset, and those behind it. -/
theorem split_sorted (order : entries.Pairwise fun a b => key a ≤ key b)
    (start : ∃ a ∈ entries, key a ≤ offset) :
    ∃ front t back, entries = front ++ t :: back ∧ (∀ a ∈ front, key a ≤ key t) ∧ key t ≤ offset ∧
      ∀ b ∈ back, offset < key b := by
  induction entries with
  | nil => simp at start
  | cons a rest ih =>
    obtain ⟨behind, order⟩ := List.pairwise_cons.mp order
    by_cases more : ∃ b ∈ rest, key b ≤ offset
    · obtain ⟨front, t, back, rfl, before, here, after⟩ := ih order more
      exact ⟨a :: front, t, back, rfl,
        List.forall_mem_cons.mpr ⟨behind t (by simp), before⟩, here, after⟩
    · obtain ⟨b, member, low⟩ := start
      have only : b = a :=
        (List.mem_cons.mp member).resolve_right fun late => more ⟨b, late, low⟩
      subst only
      exact ⟨[], b, rest, rfl, by simp, low, fun c late =>
        UInt64.not_le.mp fun early => more ⟨c, late, early⟩⟩

/-- The last of the entries that start where no other one at or before an offset starts later. -/
theorem latest_of_filter {front : List α}
    (together : entries.filter (key · = key t) = front ++ [t]) (here : key t ≤ offset)
    (below : ∀ u ∈ entries, key u ≤ offset → key u ≤ key t) :
    ∃ j, Latest key entries offset j t := by
  obtain ⟨xs, ys, rfl, -, tail⟩ := List.filter_eq_append_iff.mp together
  obtain ⟨ys, zs, rfl, -, -, rest⟩ := List.filter_eq_cons_iff.mp tail
  rw [List.filter_eq_nil_iff] at rest
  have whole : xs ++ (ys ++ t :: zs) = (xs ++ ys) ++ t :: zs := (List.append_assoc ..).symm
  refine ⟨(xs ++ ys).length, ?_, here, fun i u there starts => ?_⟩
  · rw [whole, List.getElem?_append_right (Nat.le_refl _), Nat.sub_self]
    rfl
  · rcases UInt64.lt_or_eq_of_le (below u (List.mem_of_getElem? there) starts) with less | equal
    · exact .inl less
    · refine .inr ⟨equal, Nat.le_of_not_lt fun late => ?_⟩
      rw [whole, List.getElem?_append_right (Nat.le_of_lt late), List.getElem?_cons] at there
      split at there
      · omega
      · exact rest u (List.mem_of_getElem? there) (by simpa using equal)

section Cut

variable {front back : List α}
  (cut : (entries.mergeSort fun a b => key a ≤ key b) = front ++ t :: back)
include cut

theorem together_of_cut (behind : ∀ b ∈ back, key t < key b) :
    entries.filter (key · = key t) = front.filter (key · = key t) ++ [t] := by
  have others : back.filter (key · = key t) = [] := by
    refine List.filter_eq_nil_iff.mpr fun b late equal => ?_
    have above := behind b late
    rw [of_decide_eq_true equal] at above
    exact UInt64.lt_irrefl _ above
  rw [← filter_mergeSort, cut, List.filter_append, List.filter_cons_of_pos (by simp), others]

theorem below_of_cut (before : ∀ a ∈ front, key a ≤ key t) (behind : ∀ b ∈ back, offset < key b) :
    ∀ u ∈ entries, key u ≤ offset → key u ≤ key t := by
  intro u member starts
  have found : u ∈ front ++ t :: back := cut ▸ List.mem_mergeSort.mpr member
  rcases List.mem_append.mp found with early | late
  · exact before u early
  · rcases List.mem_cons.mp late with rfl | late
    · exact UInt64.le_refl _
    · exact absurd starts (UInt64.not_le.mpr (behind u late))

end Cut

variable (key) in
/-- In a table made by sorting, the search ends at the latest entry. -/
theorem lastBefore_latest (start : ∃ a ∈ entries, key a ≤ offset) :
    ∃ j t, lastBefore? (entries.mergeSort fun a b => key a ≤ key b).toArray
      (fun a => key a ≤ offset) = some t ∧ Latest key entries offset j t := by
  obtain ⟨a, member, starts⟩ := start
  obtain ⟨front, t, back, cut, before, here, behind⟩ := split_sorted
    (pairwise_mergeSort_key key entries) ⟨a, List.mem_mergeSort.mpr member, starts⟩
  have together := together_of_cut cut fun b late => UInt64.lt_of_le_of_lt here (behind b late)
  obtain ⟨j, latest⟩ := latest_of_filter together here (below_of_cut cut before behind)
  refine ⟨j, t, ?_, latest⟩
  rw [cut]
  refine lastBefore_append (fun b early => ?_) (decide_eq_true here) fun b late => ?_
  · exact decide_eq_true (UInt64.le_trans (before b early) here)
  · exact decide_eq_false (UInt64.not_le.mpr (behind b late))

variable (key) in
theorem latest_of_lastBefore
    (found : lastBefore? (entries.mergeSort fun a b => key a ≤ key b).toArray
      (fun a => key a ≤ offset) = some t) : ∃ j, Latest key entries offset j t := by
  have member : t ∈ entries.mergeSort fun a b => key a ≤ key b := by
    simpa using mem_of_lastBefore found
  have test := lastBefore_holds found
  have starts : key t ≤ offset := of_decide_eq_true test
  obtain ⟨j, t', found', latest⟩ := lastBefore_latest key ⟨t, List.mem_mergeSort.mp member, starts⟩
  rw [found'] at found
  cases found
  exact ⟨j, latest⟩

end Latest

section Symbols

variable {symbols : List SymbolEntry} {s : SymbolEntry} {offset : UInt64}

/-- The symbol's own stretch, which a symbol without a size does not have. -/
def SymbolEntry.Contains (s : SymbolEntry) (offset : UInt64) : Prop :=
  s.offset ≤ offset ∧ offset.toNat < s.offset.toNat + s.size.toNat

/-- A symbol without a size reaches up to the next one. -/
def Reaches (symbols : List SymbolEntry) (s : SymbolEntry) (offset : UInt64) : Prop :=
  s.size = 0 ∧ s.offset ≤ offset ∧ ∀ u ∈ symbols, u.offset ≤ offset → u.offset ≤ s.offset

/-- A symbol that starts at or before an offset and, in the order of the table, behind another one. -/
def Behind (symbols : List SymbolEntry) (offset : UInt64) (i : Nat) (s u : SymbolEntry) : Prop :=
  ∃ j, symbols[j]? = some u ∧ u.offset ≤ offset ∧
    (s.offset < u.offset ∨ s.offset = u.offset ∧ i < j)

/-- What a table of symbols answers when it is asked what an offset belongs to. -/
structure NamesSymbol (symbols : List SymbolEntry) (offset : UInt64) : Prop where
  sound : ∀ s, (SymbolTable.ofSymbols symbols).covering? offset = some s →
    s ∈ symbols ∧ (s.Contains offset ∨ Reaches symbols s offset)
  found : ∀ i s, symbols[i]? = some s → s.Contains offset →
    (∀ j u, Latest SymbolEntry.offset symbols offset j u → u.size ≠ 0 → u.Contains offset) →
      ∃ t, (SymbolTable.ofSymbols symbols).covering? offset = some t ∧
        (t.Contains offset ∨ t.size = 0 ∧ Behind symbols offset i s t)

theorem contains_iff_sum (fits : s.offset.toNat + s.size.toNat < 2 ^ 64) :
    offset < s.offset + s.size ↔ offset.toNat < s.offset.toNat + s.size.toNat := by
  rw [UInt64.lt_iff_toNat_lt, UInt64.toNat_add, Nat.mod_eq_of_lt fits]

theorem names_symbol (fits : ∀ s ∈ symbols, s.offset.toNat + s.size.toNat < 2 ^ 64) :
    NamesSymbol symbols offset where
  sound s covered := by
    obtain ⟨found, inside⟩ := Option.filter_eq_some_iff.mp covered
    obtain ⟨j, latest⟩ := latest_of_lastBefore SymbolEntry.offset found
    have member := List.mem_of_getElem? latest.there
    refine ⟨member, ?_⟩
    rw [Bool.or_eq_true, decide_eq_true_eq, decide_eq_true_eq] at inside
    rcases inside with label | inside
    · refine .inr ⟨label, latest.starts, fun u other starts => ?_⟩
      obtain ⟨i, there⟩ := List.mem_iff_getElem?.mp other
      rcases latest.last i u there starts with less | ⟨equal, -⟩
      · exact UInt64.le_of_lt less
      · exact UInt64.le_of_eq equal
    · exact .inl ⟨latest.starts, (contains_iff_sum (fits s member)).mp inside⟩
  found i s there inside others := by
    obtain ⟨j, t, found, latest⟩ := lastBefore_latest SymbolEntry.offset
      ⟨s, List.mem_of_getElem? there, inside.1⟩
    have behind : i = j ∨ Behind symbols offset i s t := by
      rcases latest.last i s there inside.1 with less | ⟨equal, before⟩
      · exact .inr ⟨j, latest.there, latest.starts, .inl less⟩
      · exact (Nat.eq_or_lt_of_le before).imp_right fun less =>
          ⟨j, latest.there, latest.starts, .inr ⟨equal, less⟩⟩
    have reached : t.Contains offset ∨ t.size = 0 ∧ Behind symbols offset i s t := by
      rcases behind with rfl | behind
      · rw [latest.there] at there
        cases there
        exact .inl inside
      · by_cases label : t.size = 0
        · exact .inr ⟨label, behind⟩
        · exact .inl (others j t latest label)
    refine ⟨t, Option.filter_eq_some_iff.mpr ⟨found, ?_⟩, reached⟩
    rw [Bool.or_eq_true, decide_eq_true_eq, decide_eq_true_eq]
    exact reached.symm.imp And.left fun inside =>
      (contains_iff_sum (fits t (List.mem_of_getElem? latest.there))).mpr inside.2

end Symbols

section Functions

variable {functions : List FunctionInfo} {offset : UInt64}

/-- What a table of functions answers when it is asked what an offset belongs to. -/
structure NamesFunction (functions : List FunctionInfo) (offset : UInt64) : Prop where
  sound : ∀ f, (FunctionTable.ofFunctions functions).at? offset = some f →
    f ∈ functions ∧ f.contains offset = true
  found : ∀ f ∈ functions, f.contains offset = true →
    (∀ j g, Latest FunctionInfo.low functions offset j g → g.contains offset = true) →
      ∃ g, (FunctionTable.ofFunctions functions).at? offset = some g

theorem dropRepeats_distinct (distinct : functions.Pairwise fun f g => f.low ≠ g.low) :
    FunctionTable.dropRepeats functions = functions := by
  fun_induction FunctionTable.dropRepeats functions with
  | case1 => rfl
  | case2 => rfl
  | case3 f g rest same => exact absurd same ((List.pairwise_cons.mp distinct).1 g List.mem_cons_self)
  | case4 f g rest differ ih => rw [ih (List.pairwise_cons.mp distinct).2]

theorem ofFunctions_distinct (distinct : functions.Pairwise fun f g => f.low ≠ g.low) :
    (FunctionTable.ofFunctions functions).entries =
      (functions.mergeSort fun f g => f.low ≤ g.low).toArray := by
  have sorted := distinct.perm (List.mergeSort_perm functions fun f g => f.low ≤ g.low).symm
    fun differ same => differ same.symm
  rw [FunctionTable.ofFunctions, dropRepeats_distinct sorted]

theorem names_function (distinct : functions.Pairwise fun f g => f.low ≠ g.low) :
    NamesFunction functions offset where
  sound f answered := by
    rw [FunctionTable.at?, ofFunctions_distinct distinct] at answered
    obtain ⟨found, inside⟩ := Option.filter_eq_some_iff.mp answered
    obtain ⟨j, latest⟩ := latest_of_lastBefore FunctionInfo.low found
    exact ⟨List.mem_of_getElem? latest.there, inside⟩
  found f member inside others := by
    have starts : f.low ≤ offset := by
      simp only [FunctionInfo.contains, Bool.and_eq_true, decide_eq_true_eq] at inside
      exact inside.1
    obtain ⟨j, g, found, latest⟩ := lastBefore_latest FunctionInfo.low ⟨f, member, starts⟩
    refine ⟨g, ?_⟩
    rw [FunctionTable.at?, ofFunctions_distinct distinct]
    exact Option.filter_eq_some_iff.mpr ⟨found, others j g latest⟩

end Functions

/-- Names are never given to offsets they do not reach, and an offset with a containing entry is given
one where the entry that is preferred contains it too. -/
theorem lookups_named {symbols : List SymbolEntry} {functions : List FunctionInfo}
    (fits : ∀ s ∈ symbols, s.offset.toNat + s.size.toNat < 2 ^ 64)
    (distinct : functions.Pairwise fun f g => f.low ≠ g.low) (offset : UInt64) :
    NamesSymbol symbols offset ∧ NamesFunction functions offset :=
  ⟨names_symbol fits, names_function distinct⟩

def pier : SymbolEntry := ⟨"pier", "pier", 0x100, 0x40⟩

/-- A label within the pier. -/
def bollard : SymbolEntry := ⟨"bollard", "bollard", 0x110, 0⟩

def harbour : SymbolEntry := ⟨"harbour", "harbour", 0x100, 0x100⟩

/-- A stretch within the harbour. -/
def berth : SymbolEntry := ⟨"berth", "berth", 0x120, 0x10⟩

def SymbolEntry.function (s : SymbolEntry) : FunctionInfo :=
  ⟨s.name, s.offset, s.offset + s.size, .framePointer, false, [], []⟩

theorem lookups_named_pier :
    (∀ s ∈ [pier, bollard], s.offset.toNat + s.size.toNat < 2 ^ 64) ∧
      [pier.function, berth.function].Pairwise (fun f g => f.low ≠ g.low) ∧
      NamesSymbol [pier, bollard] 0x108 ∧ NamesFunction [pier.function, berth.function] 0x108 ∧
      pier.Contains 0x108 ∧ pier.function.contains 0x108 = true :=
  have fits : ∀ s ∈ [pier, bollard], s.offset.toNat + s.size.toNat < 2 ^ 64 := by decide
  have distinct : [pier.function, berth.function].Pairwise (fun f g => f.low ≠ g.low) := by decide
  have named := lookups_named fits distinct 0x108
  ⟨fits, distinct, named.1, named.2, by constructor <;> decide, by decide⟩

/-- A label that comes later hides the symbol around it, and a stretch within another one hides the
rest of that from where it ends. -/
theorem lookups_miss :
    (pier.Contains 0x120 ∧ pier.size ≠ 0 ∧
      (SymbolTable.ofSymbols [pier, bollard]).covering? 0x120 = some bollard ∧ bollard.size = 0) ∧
    (harbour.Contains 0x150 ∧ harbour.size ≠ 0 ∧
      (SymbolTable.ofSymbols [harbour, berth]).covering? 0x150 = none) ∧
    (harbour.function.contains 0x150 = true ∧
      (FunctionTable.ofFunctions [harbour.function, berth.function]).at? 0x150 = none) := by
  refine ⟨⟨by constructor <;> decide, by decide, ?_, rfl⟩, ⟨by constructor <;> decide, by decide, ?_⟩,
    by decide, ?_⟩
  · simp [SymbolTable.covering?, SymbolTable.ofSymbols, List.mergeSort_of_pairwise, lastBefore?,
      boundary, narrow, pier, bollard]
  · simp [SymbolTable.covering?, SymbolTable.ofSymbols, List.mergeSort_of_pairwise, lastBefore?,
      boundary, narrow, harbour, berth]
  · rw [FunctionTable.at?, ofFunctions_distinct (by decide)]
    simp [List.mergeSort_of_pairwise, lastBefore?, boundary, narrow, SymbolEntry.function,
      FunctionInfo.contains, harbour, berth]

end SourceDebugger
