import Mathlib.Data.List.Forall2
import SourceDebugger.Proofs.Output.Lines
/-!
Output that comes in pieces. All pieces together complete one line for each line feed of the whole
text, and what is left is what comes after the last one, wherever the text was cut.
-/
namespace SourceDebugger

/-- Adds pieces one after another; the lines that any of them completes come out. -/
def LineBuffer.pushAll (b : LineBuffer) : List String → List String × LineBuffer
  | [] => ([], b)
  | piece :: more =>
    let (lines, b) := b.push piece
    let (others, b) := b.pushAll more
    (lines ++ others, b)

namespace Output

/-- A text taken apart at its line feeds: what each of them ends, and what none does. -/
structure Divided (text : List Char) (ended : List (List Char)) (rest : List Char) : Prop where
  whole : ended.flatMap (· ++ ['\n']) ++ rest = text
  apart : ∀ line ∈ ended, '\n' ∉ line
  unended : '\n' ∉ rest

/-- How a line comes out: without the carriage return right before its line feed, if there is one. -/
inductive Shown : List Char → String → Prop
  | returned (line : List Char) : Shown (line ++ ['\r']) (String.ofList (line ++ ['\n']))
  | plain {line : List Char} : line.getLast? ≠ some '\r' →
      Shown line (String.ofList (line ++ ['\n']))

section Dividing

variable {text : List Char} {ended : List (List Char)} {rest : List Char}

theorem divided_pieces (text : List Char) :
    Divided text (pieces text).dropLast (openPiece text) where
  whole := whole_text text
  apart _ member := apart_pieces text member
  unended := apart_open text

/-- There is only one way to take a text apart. -/
theorem Divided.pieces_eq (divided : Divided text ended rest) : pieces text = ended ++ [rest] := by
  unfold pieces
  rw [← divided.whole]
  exact splitAtSep_lines divided.apart divided.unended

theorem shown_finish (line : List Char) : Shown line (LineBuffer.finish line) := by
  unfold LineBuffer.finish
  by_cases back : line.getLast? = some '\r'
  · obtain ⟨front, rfl⟩ := List.getLast?_eq_some_iff.mp back
    simpa using Shown.returned front
  · simpa [back] using Shown.plain back

theorem shown_lines (divided : Divided text ended rest) : List.Forall₂ Shown ended (lines text) := by
  have front : (pieces text).dropLast = ended := by simp [divided.pieces_eq]
  rw [lines_eq, front, List.forall₂_map_right_iff, List.forall₂_same]
  intro line _
  exact shown_finish line

theorem flush_rest (divided : Divided text ended rest) :
    (buffered text).flush = if rest = [] then none else some (String.ofList rest) := by
  have last : openPiece text = rest := by simp [openPiece, divided.pieces_eq]
  rw [buffered_eq, last]
  simp [LineBuffer.flush]

end Dividing

/-- Pieces come out like the text that they make up. -/
theorem pushAll_buffered (pieces : List String) (text : List Char) :
    lines (text ++ (String.join pieces).toList) = lines text ++ ((buffered text).pushAll pieces).1 ∧
      buffered (text ++ (String.join pieces).toList) = ((buffered text).pushAll pieces).2 := by
  induction pieces generalizing text with
  | nil => simp [LineBuffer.pushAll, String.join_eq]
  | cons piece more ih =>
    have whole : text ++ (String.join (piece :: more)).toList =
        (text ++ piece.toList) ++ (String.join more).toList := by simp [String.join_eq]
    obtain ⟨lines_more, buffered_more⟩ := ih (text ++ piece.toList)
    rw [whole, lines_more, buffered_more, lines_append, buffered_append]
    simp [LineBuffer.pushAll]

/-- However a text is cut, its lines come out one by one and its rest at the flush. -/
theorem pushAll_divided (pieces : List String) :
    (∃ ended rest, Divided (String.join pieces).toList ended rest ∧
      List.Forall₂ Shown ended (LineBuffer.empty.pushAll pieces).1 ∧
      (LineBuffer.empty.pushAll pieces).2.flush =
        if rest = [] then none else some (String.ofList rest)) ∧
    ∀ others, String.join others = String.join pieces →
      LineBuffer.empty.pushAll others = LineBuffer.empty.pushAll pieces := by
  have whole (pieces : List String) : LineBuffer.empty.pushAll pieces =
      (lines (String.join pieces).toList, buffered (String.join pieces).toList) := by
    obtain ⟨lines_all, buffered_all⟩ := pushAll_buffered pieces []
    have none : lines [] = [] := rfl
    rw [List.nil_append, none, List.nil_append] at lines_all
    rw [List.nil_append] at buffered_all
    rw [lines_all, buffered_all]
    rfl
  constructor
  · have divided := divided_pieces (String.join pieces).toList
    refine ⟨_, _, divided, ?_, ?_⟩
    · simpa [whole] using shown_lines divided
    · simpa [whole] using flush_rest divided
  · intro others same
    rw [whole, whole, same]

/-- A cut between a carriage return and its line feed, and a line that ends with two returns. -/
theorem pushAll_divided_returns :
    String.join ["one\r", "\n\ntwo\r", "", "\r\nend"] = String.join ["one\r\n", "\ntwo\r\r\nend"] ∧
      LineBuffer.empty.pushAll ["one\r", "\n\ntwo\r", "", "\r\nend"] =
        LineBuffer.empty.pushAll ["one\r\n", "\ntwo\r\r\nend"] ∧
      (LineBuffer.empty.pushAll ["one\r\n", "\ntwo\r\r\nend"]).1 = ["one\n", "\n", "two\r\n"] ∧
      (LineBuffer.empty.pushAll ["one\r\n", "\ntwo\r\r\nend"]).2.flush = some "end" := by
  have same : String.join ["one\r", "\n\ntwo\r", "", "\r\nend"] =
      String.join ["one\r\n", "\ntwo\r\r\nend"] := by decide +kernel
  exact ⟨same, (pushAll_divided _).2 _ same, by decide +kernel, by decide +kernel⟩

end Output

end SourceDebugger
