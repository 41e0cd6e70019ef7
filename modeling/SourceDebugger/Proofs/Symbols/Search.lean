import SourceDebugger.Symbols.Search
/-!
Binary search finds the boundary that is there. A test holds of the entries before it and of none
behind it. Entries that are searched have been sorted by a key.
-/
namespace SourceDebugger

variable {α : Type}

/-- The window always holds the last entry that satisfies the test, if there is one. -/
theorem narrow_eq {test : Nat → Bool} {n base size : Nat}
    (split_ : ∀ i, i < base + size → test i = decide (i < n)) (some : 0 < size)
    (first : base < n ∨ base = 0) (last : n ≤ base + size) :
    narrow test base size = n - 1 := by
  fun_induction narrow test base size with
  | case1 base size large half ih =>
    have middle := split_ (base + half) (by omega)
    by_cases low : base + half < n
    · have holds : test (base + half) = true := middle.trans (decide_eq_true low)
      simp only [holds, dite_true, if_true] at ih ⊢
      exact ih (fun i below => split_ i (by omega)) (by omega) (.inl low) (by omega)
    · have fails : test (base + half) = false := middle.trans (decide_eq_false low)
      simp only [fails, Bool.false_eq_true, dite_false, if_false] at ih ⊢
      exact ih (fun i below => split_ i (by omega)) (by omega) first (by omega)
  | case2 base size small => omega

/-- The boundary is where the test begins to fail. -/
theorem boundary_eq {entries : Array α} {test : α → Bool} {n : Nat} (inside : n ≤ entries.size)
    (split_ : ∀ i a, entries[i]? = some a → test a = decide (i < n)) :
    boundary entries test = n := by
  unfold boundary
  lift_lets
  extract_lets holds last
  split
  · omega
  · have each (i : Nat) (below : i < entries.size) : holds i = decide (i < n) := by
      simp only [holds, Array.getElem?_eq_getElem below]
      exact split_ i _ (Array.getElem?_eq_getElem below)
    have found : last = n - 1 :=
      narrow_eq (fun i below => each i (by omega)) (by omega) (.inr rfl) (by omega)
    rw [found, each (n - 1) (by omega)]
    simp only [decide_eq_true_eq]
    split <;> omega

/-- Of entries that satisfy a test as long as any behind them does, the boundary is the number of those
in front that satisfy it. -/
theorem boundary_takeWhile {entries : List α} {test : α → Bool}
    (closed : entries.Pairwise fun a b => test b = true → test a = true) :
    boundary entries.toArray test = (entries.takeWhile test).length := by
  have front : (entries.takeWhile test).length ≤ entries.length :=
    (List.takeWhile_sublist test).length_le
  refine boundary_eq (by simpa using front) fun i a there => ?_
  rw [List.getElem?_toArray] at there
  rw [← List.takeWhile_append_dropWhile (p := test) (l := entries), List.getElem?_append] at there
  split at there
  · rename_i early
    rw [List.all_eq_true.mp List.all_takeWhile a (List.mem_of_getElem? there), decide_eq_true early]
  · rename_i late
    rw [decide_eq_false late]
    have member := List.mem_of_getElem? there
    cases behind : entries.dropWhile test with
    | nil =>
      rw [behind] at member
      cases member
    | cons b rest =>
      have fails : test b = false := by
        have head := List.head?_dropWhile_not test entries
        rw [behind] at head
        simpa using head
      rw [behind] at member
      rcases List.mem_cons.mp member with rfl | member
      · exact fails
      · have order := closed.sublist (List.dropWhile_sublist test)
        rw [behind] at order
        refine Bool.eq_false_iff.mpr fun holds => ?_
        rw [(List.pairwise_cons.mp order).1 a member holds] at fails
        cases fails

theorem mem_of_lastBefore {entries : Array α} {test : α → Bool} {a : α}
    (found : lastBefore? entries test = some a) : a ∈ entries := by
  rw [lastBefore?] at found
  split at found
  · cases found
  · exact Array.mem_of_getElem? found

/-- The window starts at the front or at an entry that satisfies the test. -/
theorem narrow_holds {test : Nat → Bool} {base size : Nat} (start : base = 0 ∨ test base = true) :
    narrow test base size = 0 ∨ test (narrow test base size) = true := by
  fun_induction narrow test base size with
  | case1 base size large half ih =>
    refine ih ?_
    split
    · exact .inr ‹_›
    · exact start
  | case2 => exact start

/-- What is found satisfies the test, whatever entries it is found among. -/
theorem lastBefore_holds {entries : Array α} {test : α → Bool} {a : α}
    (found : lastBefore? entries test = some a) : test a = true := by
  rw [lastBefore?] at found
  split at found
  · cases found
  · rename_i n last
    unfold boundary at last
    lift_lets at last
    extract_lets holds position at last
    have start : position = 0 ∨ holds position = true := narrow_holds (.inl rfl)
    have here : holds n = true := by
      split at last
      · cases last
      · split at last
        · rw [← Nat.succ.inj last]
          assumption
        · rcases start with zero | good
          · omega
          · contradiction
    simpa [holds, found] using here

/-- Of entries that satisfy a test up to one of them, that one is found. -/
theorem lastBefore_append {front back : List α} {a : α} {test : α → Bool}
    (before : ∀ b ∈ front, test b = true) (here : test a = true)
    (behind : ∀ b ∈ back, test b = false) :
    lastBefore? (front ++ a :: back).toArray test = some a := by
  have found : boundary (front ++ a :: back).toArray test = front.length + 1 := by
    refine boundary_eq (by simp) fun i b there => ?_
    rw [List.getElem?_toArray, List.getElem?_append] at there
    split at there
    · rename_i early
      rw [before b (List.mem_of_getElem? there), decide_eq_true (by omega)]
    · rename_i late
      cases n : i - front.length with
      | zero =>
        rw [n] at there
        cases there
        rw [here, decide_eq_true (by omega)]
      | succ m =>
        rw [n, List.getElem?_cons_succ] at there
        rw [behind b (List.mem_of_getElem? there), decide_eq_false (by omega)]
  rw [lastBefore?, found]
  simp

section Sorted

variable (key : α → UInt64) (entries : List α)

theorem key_le_trans (a b c : α) (first : decide (key a ≤ key b) = true)
    (second : decide (key b ≤ key c) = true) : decide (key a ≤ key c) = true :=
  decide_eq_true (UInt64.le_trans (of_decide_eq_true first) (of_decide_eq_true second))

theorem key_le_total (a b : α) : (decide (key a ≤ key b) || decide (key b ≤ key a)) = true := by
  simpa using UInt64.le_total (key a) (key b)

theorem pairwise_mergeSort_key :
    (entries.mergeSort fun a b => key a ≤ key b).Pairwise fun a b => key a ≤ key b := by
  have sorted := List.pairwise_mergeSort (key_le_trans key) (key_le_total key) entries
  exact sorted.imp of_decide_eq_true

/-- Sorting keeps entries with one key in the order in which they were. -/
theorem filter_mergeSort (k : UInt64) :
    (entries.mergeSort fun a b => key a ≤ key b).filter (key · = k) =
      entries.filter (key · = k) := by
  have level : (entries.filter (key · = k)).Pairwise fun a b => decide (key a ≤ key b) = true := by
    refine List.pairwise_of_forall_mem_list fun a first b second => ?_
    simp_all
  have kept := List.sublist_mergeSort (key_le_trans key) (key_le_total key) level List.filter_sublist
  have sub := kept.filter (key · = k)
  rw [List.filter_filter] at sub
  simp only [Bool.and_self] at sub
  exact (sub.eq_of_length ((List.mergeSort_perm entries _).filter _).length_eq.symm).symm

end Sorted

end SourceDebugger
