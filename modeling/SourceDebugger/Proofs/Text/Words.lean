import SourceDebugger.Text.Blank
/-!
Words and the blanks between them. Words joined by single blanks are read as those words, and a text
is such a row of words exactly if taking it apart and joining its words gives it back.
-/
namespace SourceDebugger.Text

/-- What can be a word of a text. -/
def Solid (w : List Char) : Prop := w ≠ [] ∧ ∀ c ∈ w, isBlank c = false

instance (w : List Char) : Decidable (Solid w) :=
  decidable_of_iff (w ≠ [] ∧ w.all (fun c => !isBlank c) = true) (by simp [Solid])

theorem isBlank_digitChar : ∀ d < 16, isBlank (Nat.digitChar d) = false := by decide

section Words

variable {w : List Char}

theorem wordsFrom_append (solid : ∀ c ∈ w, isBlank c = false) (word rest : List Char) :
    wordsFrom word (w ++ rest) = wordsFrom (w.reverse ++ word) rest := by
  induction w generalizing word with
  | nil => rfl
  | cons c w ih =>
    obtain ⟨first, others⟩ := List.forall_mem_cons.mp solid
    rw [List.cons_append, wordsFrom, first, if_neg Bool.false_ne_true, ih others]
    simp

/-- A blank ends a word. -/
theorem wordsFrom_word (solid : Solid w) {c : Char} (blank : isBlank c = true) (rest : List Char) :
    wordsFrom [] (w ++ c :: rest) = w :: wordsFrom [] rest := by
  rw [wordsFrom_append solid.2, List.append_nil, wordsFrom, if_pos blank,
    if_neg (by simpa using solid.1), List.reverse_reverse]

theorem wordsFrom_last (solid : Solid w) : wordsFrom [] w = [w] := by
  have whole := wordsFrom_append solid.2 [] []
  rw [List.append_nil, List.append_nil] at whole
  rw [whole, wordsFrom, if_neg (by simpa using solid.1), List.reverse_reverse]

theorem wordsFrom_blanks (k : Nat) (rest : List Char) :
    wordsFrom [] (List.replicate k ' ' ++ rest) = wordsFrom [] rest := by
  induction k with
  | zero => rfl
  | succ k ih =>
    rw [List.replicate_succ, List.cons_append, wordsFrom, if_pos (by decide)]
    exact ih

/-- Nothing in a word is blank. -/
theorem solid_of_mem {word cs : List Char} (begun : ∀ c ∈ word, isBlank c = false)
    (member : w ∈ wordsFrom word cs) : Solid w := by
  have ended (some : ¬ word.isEmpty = true) : Solid word.reverse :=
    ⟨by simpa using some, fun c inside => begun c (List.mem_reverse.mp inside)⟩
  induction cs generalizing word with
  | nil =>
    rw [wordsFrom] at member
    split at member
    · simp at member
    · next some =>
      rw [List.mem_singleton.mp member]
      exact ended some
  | cons c cs ih =>
    rw [wordsFrom] at member
    split at member
    · split at member
      · exact ih (by simp) member (by simp)
      · next some =>
        rcases List.mem_cons.mp member with rfl | later
        · exact ended some
        · exact ih (by simp) later (by simp)
    · next solid =>
      have longer : ∀ d ∈ c :: word, isBlank d = false :=
        List.forall_mem_cons.mpr ⟨Bool.eq_false_iff.mpr solid, begun⟩
      exact ih longer member fun _ =>
        ⟨by simp, fun d inside => longer d (List.mem_reverse.mp inside)⟩

/-- Reading goes on with the word that has been begun. -/
theorem wordsFrom_begun {word : List Char} (some : word ≠ []) (cs : List Char) :
    ∃ more rest, wordsFrom word cs = (word.reverse ++ more) :: rest := by
  induction cs generalizing word with
  | nil => exact ⟨[], [], by simp [wordsFrom, some]⟩
  | cons c cs ih =>
    rw [wordsFrom]
    split
    · exact ⟨[], wordsFrom [] cs, by simp [some]⟩
    · obtain ⟨more, rest, read⟩ := ih (List.cons_ne_nil c word)
      exact ⟨c :: more, rest, by simpa using read⟩

/-- Words that are joined by single blanks are read as those words. -/
theorem wordsFrom_intercalate {ws : List (List Char)} (solid : ∀ w ∈ ws, Solid w) :
    wordsFrom [] ([' '].intercalate ws) = ws := by
  induction ws with
  | nil => rfl
  | cons w ws ih =>
    obtain ⟨first, others⟩ := List.forall_mem_cons.mp solid
    cases ws with
    | nil =>
      rw [List.intercalate_singleton]
      exact wordsFrom_last first
    | cons v ws =>
      rw [List.intercalate_cons_cons, List.append_assoc, List.singleton_append,
        wordsFrom_word first (by decide), ih others]

end Words

section Joined

theorem words_intercalate {ws : List String} (solid : ∀ w ∈ ws, Solid w.toList) :
    words (" ".intercalate ws) = ws := by
  have lists : ∀ w ∈ ws.map String.toList, Solid w := by simpa using solid
  rw [words, String.toList_intercalate, show " ".toList = [' '] from rfl,
    wordsFrom_intercalate lists, List.map_map]
  exact (List.map_congr_left fun w _ => String.ofList_toList).trans (List.map_id ws)

theorem solid_words {s w : String} (member : w ∈ words s) : Solid w.toList := by
  obtain ⟨word, inside, rfl⟩ := List.mem_map.mp member
  rw [String.toList_ofList]
  exact solid_of_mem (by simp) inside

/-- The first word of an absolute path begins it. -/
theorem startsWith_words {p : String} (absolute : ['/'] <+: p.toList) :
    (" ".intercalate (words p)).startsWith "/" = true := by
  obtain ⟨rest, whole⟩ := absolute
  obtain ⟨more, others, read⟩ := wordsFrom_begun (List.cons_ne_nil '/' []) rest
  have first : wordsFrom [] p.toList = ('/' :: more) :: others := by
    rw [← whole, List.singleton_append, wordsFrom, if_neg (by decide), read]
    rfl
  rw [String.startsWith_string_iff, String.toList_intercalate, words, first, List.map_map]
  cases others with
  | nil => exact ⟨more, by simp⟩
  | cons v others => exact ⟨more ++ _, by simp; rfl⟩

/-- Joining the words of a text gives it back just if it is words with one blank between two. -/
theorem intercalate_words_iff (s : String) : " ".intercalate (words s) = s ↔
    ∃ ws : List String, (∀ w ∈ ws, Solid w.toList) ∧ s = " ".intercalate ws := by
  constructor
  · intro same
    exact ⟨words s, fun _ => solid_words, same.symm⟩
  · rintro ⟨ws, solid, rfl⟩
    rw [words_intercalate solid]

end Joined

end SourceDebugger.Text
