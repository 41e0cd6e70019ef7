import SourceDebugger.Command
import SourceDebugger.Proofs.Text.Numerals
import SourceDebugger.Proofs.Text.Words
/-!
The written form of a location, typed after the command that sets a breakpoint, sets it there. The
mark `0x` is kept for addresses: a file whose name begins with it cannot be named so.
-/
namespace SourceDebugger

open Text

namespace Location

/-- A location that is one word when it is written. -/
def Typable : Location → Prop
  | .source file _ => Solid file.toList
  | .address _ => True

/-- A file name that begins like an address. -/
def Marked : Location → Prop
  | .source file _ => ['0', 'x'] <+: file.toList ∨ ['0', 'X'] <+: file.toList
  | .address _ => False

section Reading

theorem atLastColon_append (front : List Char) {back : List Char} (apart : ':' ∉ back) :
    atLastColon (front ++ ':' :: back) = some (front, back) := by
  have others : ∀ c ∈ back.reverse, decide (c ≠ ':') = true := by
    intro c member
    rw [decide_eq_true_eq]
    rintro rfl
    exact apart (List.mem_reverse.mp member)
  have turned : (front ++ ':' :: back).reverse = back.reverse ++ ':' :: front.reverse := by simp
  rw [atLastColon, turned, List.dropWhile_append_of_pos others, List.takeWhile_append_of_pos others]
  simp

theorem ofText?_marked {text : String} {m : Char} {digits : List Char} (mark : m = 'x' ∨ m = 'X')
    (written : text.toList = '0' :: m :: digits) :
    ofText? text = (readWord 16 (String.ofList digits)).toOption.map .address := by
  rw [ofText?, written]
  rcases mark with rfl | rfl <;> rfl

/-- A text that does not begin like an address is cut at its last colon. -/
theorem ofText?_plain {c : Char} {file line : List Char} (apart : ':' ∉ line) {text : String}
    (written : text.toList = c :: file ++ ':' :: line)
    (plain : ¬ (['0', 'x'] <+: c :: file ∨ ['0', 'X'] <+: c :: file)) :
    ofText? text = (readNumeral 10 (2 ^ 32) (String.ofList line)).toOption.map fun n =>
      .source (String.ofList (c :: file)) (UInt32.ofNat n) := by
  have begins (m : Char) (mark : m = 'x' ∨ m = 'X') (digits : List Char) :
      text.toList ≠ '0' :: m :: digits := by
    intro marked
    rw [written] at marked
    refine plain (mark.imp ?_ ?_) <;> rintro rfl <;> cases file <;> simp_all
  rw [ofText?]
  split
  · next digits marked => exact absurd marked (begins 'x' (.inl rfl) digits)
  · next digits marked => exact absurd marked (begins 'X' (.inr rfl) digits)
  · rw [written, atLastColon_append _ apart]

end Reading

section Writing

theorem toList_render_source (file : String) (line : UInt32) :
    (render (.source file line)).toList = file.toList ++ ':' :: Nat.toDigits 10 line.toNat := by
  simp only [render, String.toList_append, Nat.toString_eq_ofList_toDigits, String.toList_ofList,
    List.append_assoc]
  rfl

theorem toList_render_address (a : UInt64) :
    (render (.address a)).toList = '0' :: 'x' :: Nat.toDigits 16 a.toNat := by
  simp only [render, hexMarked, hex, String.toList_append, String.toList_ofList]
  rfl

theorem solid_digits {base : Nat} (some : 1 < base) (small : base ≤ 16) (n : Nat) :
    ∀ c ∈ Nat.toDigits base n, isBlank c = false := by
  intro c member
  obtain ⟨d, below, rfl⟩ := mem_toDigits some member
  exact isBlank_digitChar d (Nat.lt_of_lt_of_le below small)

theorem apart_digits (n : Nat) : ':' ∉ Nat.toDigits 10 n := by
  intro member
  obtain ⟨d, below, same⟩ := mem_toDigits (by decide) member
  have digits : ∀ d < 10, ':' ≠ Nat.digitChar d := by decide
  exact digits d below same

/-- A location that can be typed is one word. -/
theorem solid_render {l : Location} (typable : l.Typable) : Solid l.render.toList := by
  cases l with
  | source file line =>
    rw [toList_render_source]
    refine ⟨by simp, List.forall_mem_append.mpr ⟨typable.2, List.forall_mem_cons.mpr ⟨by decide, ?_⟩⟩⟩
    exact solid_digits (by decide) (by decide) _
  | address a =>
    rw [toList_render_address]
    refine ⟨by simp, List.forall_mem_cons.mpr ⟨by decide, List.forall_mem_cons.mpr ⟨by decide, ?_⟩⟩⟩
    exact solid_digits (by decide) (by decide) _

/-- What is written is read back, unless it is a file that begins like an address. -/
theorem ofText?_render {l : Location} (typable : l.Typable) (plain : ¬ l.Marked) :
    ofText? l.render = some l := by
  cases l with
  | source file line =>
    obtain ⟨c, rest, whole⟩ := List.exists_cons_of_ne_nil typable.1
    have written := toList_render_source file line
    rw [Marked, whole] at plain
    rw [whole] at written
    rw [ofText?_plain (apart_digits _) written plain, ← whole, String.ofList_toList,
      readNumeral_toDigits (by decide) (by decide) line.toNat_lt]
    exact congrArg (fun n => some (Location.source file n)) UInt32.ofNat_toNat
  | address a =>
    rw [ofText?_marked (.inl rfl) (toList_render_address a), readWord_toDigits]
    rfl

/-- The colon in front of the line is no digit of an address. -/
theorem ofText?_render_marked {l : Location} (marked : l.Marked) : ofText? l.render = none := by
  cases l with
  | address a => exact marked.elim
  | source file line =>
    obtain ⟨m, mark, digits, begins⟩ : ∃ m, (m = 'x' ∨ m = 'X') ∧ ∃ digits,
        file.toList = '0' :: m :: digits := by
      rcases marked with ⟨digits, whole⟩ | ⟨digits, whole⟩
      · exact ⟨'x', .inl rfl, digits, whole.symm⟩
      · exact ⟨'X', .inr rfl, digits, whole.symm⟩
    have written := toList_render_source file line
    rw [begins, List.cons_append, List.cons_append] at written
    obtain ⟨fault, refused⟩ : ∃ fault, readNumeral 16 (2 ^ 64)
        (String.ofList (digits ++ ':' :: Nat.toDigits 10 line.toNat)) = .error fault :=
      readNumeral_foreign (c := ':') (by decide) (by decide) (by simp)
    rw [ofText?_marked mark written, readWord, refused]
    rfl

end Writing

end Location

namespace Command

theorem ofLine?_break {r : String} (solid : Solid r.toList) :
    ofLine? ("break " ++ r) = (Location.ofText? r).map .breakAt := by
  have name : Solid "break".toList := by decide
  have typed : ("break " ++ r).toList = "break".toList ++ ' ' :: r.toList := by
    rw [String.toList_append]
    rfl
  have read : words ("break " ++ r) = ["break", r] := by
    rw [words, typed, wordsFrom_word name (by decide), wordsFrom_last solid, List.map_cons,
      List.map_singleton, String.ofList_toList, String.ofList_toList]
  rw [ofLine?, read, ofWords]
  rfl

/-- A location that is typed as it is shown is set just there; a file that begins like an address is
refused, and never taken for another place. -/
theorem break_rendered (l : Location) (typable : l.Typable) :
    (¬ l.Marked → ofLine? ("break " ++ l.render) = some (.breakAt l)) ∧
      (l.Marked → ofLine? ("break " ++ l.render) = none) := by
  rw [ofLine?_break (Location.solid_render typable)]
  refine ⟨fun plain => ?_, fun marked => ?_⟩
  · rw [Location.ofText?_render typable plain]
    rfl
  · rw [Location.ofText?_render_marked marked]
    rfl

/-- A drive letter brings a colon and its path backslashes. -/
theorem break_rendered_drive : (Location.source "C:\\src\\Pier.cs" 7).Typable ∧
    ¬ (Location.source "C:\\src\\Pier.cs" 7).Marked ∧
      ofLine? ("break " ++ (Location.source "C:\\src\\Pier.cs" 7).render) =
        some (.breakAt (.source "C:\\src\\Pier.cs" 7)) ∧
    (Location.source "0x1.c" 5).Typable ∧ (Location.source "0x1.c" 5).Marked ∧
      ofLine? ("break " ++ (Location.source "0x1.c" 5).render) = none := by
  have drive : (Location.source "C:\\src\\Pier.cs" 7).Typable := show Solid _ by decide +kernel
  have plain : ¬ (Location.source "C:\\src\\Pier.cs" 7).Marked := by
    rw [Location.Marked]
    decide +kernel
  have hex : (Location.source "0x1.c" 5).Typable := show Solid _ by decide +kernel
  have marked : (Location.source "0x1.c" 5).Marked := .inl ⟨['1', '.', 'c'], rfl⟩
  exact ⟨drive, plain, (break_rendered _ drive).1 plain, hex, marked, (break_rendered _ hex).2 marked⟩

/-- A file without blanks in its name that cannot be named. -/
theorem break_mistaken : (Location.source "0x1.c" 5).Typable ∧
    ofLine? ("break " ++ (Location.source "0x1.c" 5).render) ≠
      some (.breakAt (.source "0x1.c" 5)) := by
  exact ⟨show Solid _ by decide +kernel, by decide +kernel⟩

end Command

end SourceDebugger
