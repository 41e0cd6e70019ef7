import Mathlib.Data.List.DropRight
import Mathlib.Data.String.Basic
import SourceDebugger.Output.LineBuffer
/-!
Lines do not depend on the pieces in which output arrives. Whatever the pieces, what has come out of the
buffer is the text up to its last line feed, with plain line ends, and what is in it is the rest.
-/
namespace SourceDebugger

section Pieces

variable {sep : Char → Bool}

theorem splitAtSep_ne_nil (text : List Char) : splitAtSep sep text ≠ [] := by
  cases text with
  | nil => simp [splitAtSep]
  | cons c rest =>
    rw [splitAtSep]
    split
    · simp
    · split <;> simp

/-- Where a text is cut in two, the last piece of the first part goes on in the second. -/
theorem splitAtSep_append (text more : List Char) :
    splitAtSep sep (text ++ more) = (splitAtSep sep text).dropLast ++
      splitAtSep sep ((splitAtSep sep text).getLast (splitAtSep_ne_nil text) ++ more) := by
  induction text with
  | nil => simp [splitAtSep]
  | cons c rest ih =>
    have some : splitAtSep sep rest ≠ [] := splitAtSep_ne_nil rest
    by_cases cut : sep c = true
    · simp only [List.cons_append, splitAtSep, cut, if_true, ih]
      rw [List.dropLast_cons_of_ne_nil some, List.getLast_cons some]
      rfl
    · cases pieces : splitAtSep sep rest with
      | nil => exact absurd pieces some
      | cons piece others =>
        simp only [List.cons_append, splitAtSep, cut, pieces, ih]
        cases others with
        | nil => simp [splitAtSep, cut]
        | cons next others => simp

/-- No piece has a separator in it. -/
theorem splitAtSep_apart (text : List Char) :
    ∀ piece ∈ splitAtSep sep text, ∀ c ∈ piece, sep c = false := by
  induction text with
  | nil => simp [splitAtSep]
  | cons c rest ih =>
    rw [splitAtSep]
    by_cases cut : sep c = true
    · simp only [cut, if_true, List.forall_mem_cons, List.not_mem_nil, false_implies, implies_true]
      exact ⟨trivial, ih⟩
    · cases pieces : splitAtSep sep rest with
      | nil => exact absurd pieces (splitAtSep_ne_nil rest)
      | cons piece others =>
        rw [pieces] at ih
        rw [if_neg cut]
        obtain ⟨first, more⟩ := List.forall_mem_cons.mp ih
        exact List.forall_mem_cons.mpr
          ⟨List.forall_mem_cons.mpr ⟨by simpa using cut, first⟩, more⟩

theorem splitAtSep_piece {piece : List Char} (apart : ∀ c ∈ piece, sep c = false) {c : Char}
    (cut : sep c = true) (rest : List Char) :
    splitAtSep sep (piece ++ c :: rest) = piece :: splitAtSep sep rest := by
  induction piece with
  | nil => rw [List.nil_append, splitAtSep, if_pos cut]
  | cons d piece ih =>
    obtain ⟨first, others⟩ := List.forall_mem_cons.mp apart
    rw [List.cons_append, splitAtSep, first, if_neg Bool.false_ne_true, ih others]

theorem splitAtSep_whole {rest : List Char} (apart : ∀ c ∈ rest, sep c = false) :
    splitAtSep sep rest = [rest] := by
  induction rest with
  | nil => rfl
  | cons c rest ih =>
    obtain ⟨first, others⟩ := List.forall_mem_cons.mp apart
    rw [splitAtSep, first, if_neg Bool.false_ne_true, ih others]

/-- Lines that are ended, and a rest that is not, are taken apart into themselves. -/
theorem splitAtSep_lines {lines : List (List Char)} (apart : ∀ line ∈ lines, '\n' ∉ line)
    {rest : List Char} (unended : '\n' ∉ rest) :
    splitAtSep (· == '\n') (lines.flatMap (· ++ ['\n']) ++ rest) = lines ++ [rest] := by
  have free {piece : List Char} (none : '\n' ∉ piece) : ∀ c ∈ piece, (c == '\n') = false := by
    intro c member
    apply beq_eq_false_iff_ne.mpr
    rintro rfl
    exact none member
  induction lines with
  | nil => exact splitAtSep_whole (free unended)
  | cons line lines ih =>
    obtain ⟨first, others⟩ := List.forall_mem_cons.mp apart
    rw [List.flatMap_cons, List.append_assoc, List.append_assoc, List.singleton_append,
      splitAtSep_piece (free first) (beq_self_eq_true '\n'), ih others, List.cons_append]

end Pieces

namespace Output

/-- The text up to its last line feed. -/
def terminated (text : List Char) : List Char := text.rdropWhile (· ≠ '\n')

/-- What comes after the last line feed. -/
def unterminated (text : List Char) : List Char := text.rtakeWhile (· ≠ '\n')

/-- Each carriage return with a line feed after it becomes the line feed alone. -/
def plainEnds : List Char → List Char
  | '\r' :: '\n' :: rest => '\n' :: plainEnds rest
  | c :: rest => c :: plainEnds rest
  | [] => []

/-- A message that is one line, with its line feed. -/
def IsLine (message : String) : Prop :=
  ∃ line : List Char, '\n' ∉ line ∧ message = String.ofList (line ++ ['\n'])

/-- The lines that a text comes out of the buffer as. -/
def lines (text : List Char) : List String := (LineBuffer.empty.push (String.ofList text)).1

/-- The buffer after a text. -/
def buffered (text : List Char) : LineBuffer := (LineBuffer.empty.push (String.ofList text)).2

section Push

variable (text more : List Char)

/-- The pieces between line feeds. The last one is not ended by a line feed. -/
def pieces : List (List Char) := splitAtSep (· == '\n') text

theorem pieces_ne_nil : pieces text ≠ [] := splitAtSep_ne_nil text

/-- The piece that no line feed has ended. -/
def openPiece : List Char := (pieces text).getLast (pieces_ne_nil text)

theorem lines_eq : lines text = (pieces text).dropLast.map LineBuffer.finish := by
  simp [lines, LineBuffer.push, LineBuffer.empty, pieces]

theorem buffered_eq : buffered text = ⟨openPiece text⟩ := by
  simp [buffered, LineBuffer.push, LineBuffer.empty, openPiece, pieces,
    List.getLast?_eq_some_getLast (splitAtSep_ne_nil text)]

theorem pieces_append : pieces (text ++ more) =
    (pieces text).dropLast ++ pieces (openPiece text ++ more) := splitAtSep_append text more

theorem push_open (more : String) : (buffered text).push more =
    ((pieces (openPiece text ++ more.toList)).dropLast.map LineBuffer.finish,
      ⟨openPiece (openPiece text ++ more.toList)⟩) := by
  rw [buffered_eq]
  simp [LineBuffer.push, openPiece, pieces, List.getLast?_eq_some_getLast (splitAtSep_ne_nil _)]

/-- A text that comes in two parts comes out like the whole text. -/
theorem lines_append (more : String) :
    lines (text ++ more.toList) = lines text ++ ((buffered text).push more).1 := by
  rw [push_open, lines_eq, lines_eq, pieces_append,
    List.dropLast_append_of_ne_nil (pieces_ne_nil _), List.map_append]

theorem buffered_append (more : String) :
    buffered (text ++ more.toList) = ((buffered text).push more).2 := by
  have last : openPiece (text ++ more.toList) = openPiece (openPiece text ++ more.toList) := by
    have cut := pieces_append text more.toList
    rw [openPiece.eq_def (text ++ more.toList)]
    simp only [cut]
    exact List.getLast_append_of_ne_nil _ (pieces_ne_nil _)
  rw [push_open, buffered_eq, last]

end Push

section Whole

variable (text : List Char)

theorem apart_open : '\n' ∉ openPiece text := fun member =>
  absurd (splitAtSep_apart text _ (List.getLast_mem (pieces_ne_nil text)) _ member) (by simp)

theorem apart_pieces {piece : List Char} (member : piece ∈ (pieces text).dropLast) :
    '\n' ∉ piece := fun inside =>
  absurd (splitAtSep_apart text piece (List.dropLast_subset _ member) _ inside) (by simp)

/-- Nothing is lost: the pieces, each with its line feed, and the open piece make up the text. -/
theorem whole_text :
    (pieces text).dropLast.flatMap (· ++ ['\n']) ++ openPiece text = text := by
  induction text with
  | nil => rfl
  | cons c rest ih =>
    have some := pieces_ne_nil rest
    by_cases feed : c = '\n'
    · have cut : pieces (c :: rest) = [] :: pieces rest := by simp [pieces, splitAtSep, feed]
      simp only [openPiece, cut, List.getLast_cons some]
      rw [List.dropLast_cons_of_ne_nil some, List.flatMap_cons, feed]
      exact congrArg (List.cons '\n') ih
    · have on : ∃ piece others, pieces rest = piece :: others ∧
          pieces (c :: rest) = (c :: piece) :: others := by
        cases cut : pieces rest with
        | nil => exact absurd cut some
        | cons piece others =>
          have cut : splitAtSep (· == '\n') rest = piece :: others := cut
          exact ⟨piece, others, rfl, by simp [pieces, splitAtSep, feed, cut]⟩
      obtain ⟨piece, others, before, after⟩ := on
      simp only [openPiece, before] at ih
      simp only [openPiece, after]
      cases others with
      | nil => exact congrArg (List.cons c) ih
      | cons next others => exact congrArg (List.cons c) ih

/-- Up to the last line feed there are whole lines. -/
theorem terminated_eq : terminated text = (pieces text).dropLast.flatMap (· ++ ['\n']) := by
  have apart : ∀ c ∈ (openPiece text).reverse, decide (c ≠ '\n') = true := by
    intro c member
    have inside := List.mem_reverse.mp member
    simp only [decide_eq_true_eq]
    rintro rfl
    exact apart_open text inside
  have ends : ∀ front : List (List Char),
      (front.flatMap (· ++ ['\n'])).rdropWhile (· ≠ '\n') = front.flatMap (· ++ ['\n']) := by
    intro front
    rcases List.eq_nil_or_concat front with rfl | ⟨others, last, rfl⟩
    · rfl
    · rw [List.concat_eq_append, List.flatMap_append, List.flatMap_singleton, ← List.append_assoc]
      exact List.rdropWhile_concat_neg _ _ _ (by simp)
  conv_lhs => rw [terminated, ← whole_text text]
  rw [List.rdropWhile, List.reverse_append, List.dropWhile_append_of_pos apart]
  exact ends _

theorem unterminated_eq : unterminated text = openPiece text := by
  have parts : terminated text ++ unterminated text = text :=
    List.rdropWhile_append_rtakeWhile
  rw [terminated_eq] at parts
  exact List.append_cancel_left (parts.trans (whole_text text).symm)

/-- A line without the carriage return at its end. -/
def stripped (line : List Char) : List Char :=
  if line.getLast? = some '\r' then line.dropLast else line

theorem plainEnds_line {line : List Char} (apart : '\n' ∉ line) (more : List Char) :
    plainEnds (line ++ '\n' :: more) = stripped line ++ '\n' :: plainEnds more := by
  induction line with
  | nil => simp [plainEnds, stripped]
  | cons c line ih =>
    replace apart : '\n' ∉ line := fun inside => apart (List.mem_cons_of_mem _ inside)
    have rest := ih apart
    cases line with
    | nil =>
      by_cases back : c = '\r'
      · subst back
        rfl
      · simp [plainEnds, stripped, back]
    | cons d line =>
      have next : d ≠ '\n' := fun same => apart (same ▸ List.mem_cons_self)
      have step : plainEnds (c :: d :: line ++ '\n' :: more) =
          c :: plainEnds (d :: line ++ '\n' :: more) := by
        simp [plainEnds, next]
      have same : stripped (c :: d :: line) = c :: stripped (d :: line) := by
        simp only [stripped, List.getLast?_cons_cons]
        split <;> rfl
      rw [step, rest, same]
      rfl

theorem plainEnds_pieces {front : List (List Char)} (apart : ∀ piece ∈ front, '\n' ∉ piece)
    (more : List Char) : plainEnds (front.flatMap (· ++ ['\n']) ++ more) =
      front.flatMap (fun piece => stripped piece ++ ['\n']) ++ plainEnds more := by
  induction front with
  | nil => rfl
  | cons piece front ih =>
    obtain ⟨first, others⟩ := List.forall_mem_cons.mp apart
    simp only [List.flatMap_cons, List.append_assoc, List.cons_append, List.nil_append]
    rw [plainEnds_line first, ih others]

theorem plainEnds_apart {rest : List Char} (apart : '\n' ∉ rest) : plainEnds rest = rest := by
  induction rest with
  | nil => rfl
  | cons c rest ih =>
    replace apart : '\n' ∉ rest := fun inside => apart (List.mem_cons_of_mem _ inside)
    cases rest with
    | nil => simp [plainEnds]
    | cons d rest =>
      have next : d ≠ '\n' := fun same => apart (same ▸ List.mem_cons_self)
      rw [plainEnds.eq_2 _ _ (by simp [next]), ih apart]

theorem join_finish (front : List (List Char)) : String.join (front.map LineBuffer.finish) =
    String.ofList (front.flatMap fun piece => stripped piece ++ ['\n']) := by
  rw [String.join_eq, List.map_map, List.flatMap_def]
  congr 2
  exact List.map_congr_left fun piece _ => String.toList_ofList

/-- The lines are the text up to its last line feed, with plain line ends. -/
theorem join_lines : String.join (lines text) = String.ofList (plainEnds (terminated text)) := by
  have all := plainEnds_pieces (fun piece member => apart_pieces text member) []
  rw [List.append_nil] at all
  rw [lines_eq, join_finish, terminated_eq, all]
  simp [plainEnds]

/-- Each of them is one line. -/
theorem isLine_of_mem_lines {message : String} (member : message ∈ lines text) : IsLine message := by
  rw [lines_eq] at member
  obtain ⟨piece, inside, rfl⟩ := List.mem_map.mp member
  refine ⟨stripped piece, fun feed => apart_pieces text inside ?_, rfl⟩
  simp only [stripped] at feed
  split at feed
  · exact List.dropLast_subset _ feed
  · exact feed

/-- What is left in the buffer is what no line feed has ended. -/
theorem flush_buffered : (buffered text).flush =
    if (unterminated text).isEmpty then none else some (String.ofList (unterminated text)) := by
  rw [buffered_eq, unterminated_eq]
  rfl

/-- All that comes out in the end is the whole text, with plain line ends. -/
theorem join_all : String.join (lines text ++ (buffered text).flush.toList) =
    String.ofList (plainEnds text) := by
  have rest : String.join (buffered text).flush.toList = String.ofList (openPiece text) := by
    rw [flush_buffered, unterminated_eq]
    cases openPiece text with
    | nil => rfl
    | cons c more => simp [String.join_eq]
  have joined (ms ns : List String) : String.join (ms ++ ns) = String.join ms ++ String.join ns := by
    simp [String.join_eq]
  have all := plainEnds_pieces (fun piece member => apart_pieces text member) (openPiece text)
  rw [whole_text, plainEnds_apart (apart_open text)] at all
  rw [joined, lines_eq, join_finish, rest, all]
  simp

end Whole

end Output

end SourceDebugger
