import SourceDebugger.Memory.Mapping
import SourceDebugger.Proofs.Output.Lines
import SourceDebugger.Proofs.Text.Numerals
import SourceDebugger.Proofs.Text.Words
/-!
The memory map as it is written and read back. All that is kept of a line comes back as it was, but a
path only up to its blanks: what stands between two words of it comes back as one space, and what
stands behind the last word not at all.
-/
namespace SourceDebugger

open Text

section Lines

theorem mapM_map_ok {α β γ ε : Type} {f : β → Except ε γ} {g : α → β} {h : α → γ} {xs : List α}
    (each : ∀ x ∈ xs, f (g x) = .ok (h x)) : (xs.map g).mapM f = .ok (xs.map h) := by
  induction xs with
  | nil => rfl
  | cons x xs ih =>
    obtain ⟨first, others⟩ := List.forall_mem_cons.mp each
    rw [List.map_cons, List.mapM_cons, first, ih others]
    rfl

end Lines

namespace Mapping

/-- A line of the kernel's list, with what the debugger has no use for. -/
structure Row where
  start : UInt64
  stop : UInt64
  offset : UInt64
  permissions : String
  device : String
  inode : String
  path : Option String
  /-- Numbers are filled with zeros up to so many digits. -/
  digits : Nat
  /-- How many spaces stand behind the inode. -/
  gap : Nat

namespace Row

variable (r : Row)

def number (w : UInt64) : String := padLeft '0' r.digits (hex w.toNat)

def range : String := r.number r.start ++ "-" ++ r.number r.stop

def render : String :=
  r.range ++ " " ++ r.permissions ++ " " ++ r.number r.offset ++ " " ++ r.device ++ " " ++ r.inode
    ++ String.ofList (List.replicate r.gap ' ') ++ r.path.getD ""

/-- Fields are words, and a path is absolute and on one line. -/
structure Written : Prop where
  permissions : Solid r.permissions.toList
  device : Solid r.device.toList
  inode : Solid r.inode.toList
  path : ∀ p, r.path = some p → 0 < r.gap ∧ ['/'] <+: p.toList ∧ '\n' ∉ p.toList

/-- What is read of the line. -/
def mapping : Mapping where
  start := r.start
  stop := r.stop
  offset := r.offset
  executable := r.permissions.toList[2]? == some 'x'
  path := r.path.map fun p => " ".intercalate (words p)

/-- The lines of a memory map. -/
def listing (rows : List Row) : String := String.join (rows.map fun r => r.render ++ "\n")

end Row

section Reading

variable {r : Row}

theorem mem_number {c : Char} {w : UInt64} (member : c ∈ (r.number w).toList) :
    ∃ d < 16, c = Nat.digitChar d := by
  rw [Row.number, padLeft, hex, String.toList_append, String.toList_ofList, String.toList_ofList] at member
  rcases List.mem_append.mp member with zero | digit
  · exact ⟨0, by decide, List.eq_of_mem_replicate zero⟩
  · exact mem_toDigits (by decide) digit

theorem solid_number (r : Row) (w : UInt64) : Solid (r.number w).toList := by
  refine ⟨?_, fun c member => ?_⟩
  · rw [Row.number, padLeft, hex, String.toList_append, String.toList_ofList, String.toList_ofList]
    exact List.append_ne_nil_of_right_ne_nil _ Nat.toDigits_ne_nil
  · obtain ⟨d, below, rfl⟩ := mem_number member
    exact isBlank_digitChar d below

theorem toList_range (r : Row) :
    r.range.toList = (r.number r.start).toList ++ '-' :: (r.number r.stop).toList := by
  simp only [Row.range, String.toList_append, List.append_assoc]
  rfl

theorem solid_range (r : Row) : Solid r.range.toList := by
  rw [toList_range]
  exact ⟨by simp, List.forall_mem_append.mpr ⟨(solid_number r _).2,
    List.forall_mem_cons.mpr ⟨by decide, (solid_number r _).2⟩⟩⟩

theorem atHyphen_range (r : Row) :
    atHyphen r.range = some (r.number r.start, r.number r.stop) := by
  have apart : ∀ c ∈ (r.number r.start).toList, decide (c ≠ '-') = true := by
    intro c member
    obtain ⟨d, below, rfl⟩ := mem_number member
    have digits : ∀ d < 16, decide (Nat.digitChar d ≠ '-') = true := by decide
    exact digits d below
  rw [atHyphen, toList_range, List.dropWhile_append_of_pos apart, List.takeWhile_append_of_pos apart]
  simp

theorem toList_render (r : Row) : r.render.toList =
    r.range.toList ++ ' ' :: (r.permissions.toList ++ ' ' :: ((r.number r.offset).toList ++ ' ' ::
      (r.device.toList ++ ' ' :: (r.inode.toList ++
        (List.replicate r.gap ' ' ++ (r.path.getD "").toList))))) := by
  have space : " ".toList = [' '] := rfl
  simp only [Row.render, String.toList_append, String.toList_ofList, List.append_assoc, space,
    List.cons_append, List.nil_append]

theorem words_render (written : r.Written) : words r.render =
    r.range :: r.permissions :: r.number r.offset :: r.device :: r.inode :: words (r.path.getD "") := by
  have last : wordsFrom [] (r.inode.toList ++ (List.replicate r.gap ' ' ++ (r.path.getD "").toList)) =
      r.inode.toList :: wordsFrom [] (r.path.getD "").toList := by
    cases gap : r.gap with
    | zero =>
      have none : r.path = none := by
        cases path : r.path with
        | none => rfl
        | some p => exact absurd (written.path p path).1 (by omega)
      rw [none, List.replicate_zero, List.nil_append, Option.getD_none, String.toList_empty,
        List.append_nil, wordsFrom_last written.inode]
      rfl
    | succ k =>
      rw [List.replicate_succ, List.cons_append, wordsFrom_word written.inode (by decide),
        wordsFrom_blanks]
  rw [words, toList_render, wordsFrom_word (solid_range r) (by decide),
    wordsFrom_word written.permissions (by decide), wordsFrom_word (solid_number r _) (by decide),
    wordsFrom_word written.device (by decide), last]
  simp only [List.map_cons, String.ofList_toList, words]

/-- A line is read as the mapping that it stands for. -/
theorem ofLine?_render (written : r.Written) : ofLine? r.render = .ok (some r.mapping) := by
  have path : (if (" ".intercalate (words (r.path.getD ""))).startsWith "/" then
      some (" ".intercalate (words (r.path.getD ""))) else none) = r.mapping.path := by
    rw [Row.mapping]
    cases named : r.path with
    | none => exact if_neg Bool.false_ne_true
    | some p =>
      rw [Option.getD_some, if_pos (startsWith_words (written.path p named).2.1)]
      rfl
  rw [ofLine?, words_render written]
  simp only [atHyphen_range, Row.number, readWord_padLeft]
  exact congrArg (fun path => Except.ok (some { r.mapping with path })) path

theorem apart_solid {w : List Char} (solid : Solid w) : '\n' ∉ w := fun member =>
  absurd (solid.2 _ member) (by decide)

theorem apart_render (written : r.Written) : '\n' ∉ r.render.toList := by
  have path : '\n' ∉ (r.path.getD "").toList := by
    cases named : r.path with
    | none => exact List.not_mem_nil
    | some p => exact (written.path p named).2.2
  simp [toList_render, apart_solid (solid_range r), apart_solid written.permissions,
    apart_solid (solid_number r _), apart_solid written.device, apart_solid written.inode, path]

end Reading

/-- A memory map that is written line by line is read as the mappings that its lines stand for. -/
theorem ofText_listing {rows : List Row} (written : ∀ r ∈ rows, r.Written) :
    ofText (Row.listing rows) = .ok (rows.map Row.mapping) := by
  have text : (Row.listing rows).toList =
      (rows.map fun r => r.render.toList).flatMap (· ++ ['\n']) ++ [] := by
    simp [Row.listing, String.toList_join, List.flatMap_map]
  have apart : ∀ line ∈ rows.map fun r => r.render.toList, '\n' ∉ line := by
    intro line member
    obtain ⟨r, here, rfl⟩ := List.mem_map.mp member
    exact apart_render (written r here)
  have lines : (rows.map fun r => r.render.toList).mapM (fun line => ofLine? (String.ofList line)) =
      .ok (rows.map fun r => some r.mapping) :=
    mapM_map_ok fun r here => by rw [String.ofList_toList, ofLine?_render (written r here)]
  rw [ofText, text, splitAtSep_lines apart List.not_mem_nil, List.mapM_append, lines]
  have kept : (rows.map (fun r : Row => some r.mapping) ++ [none]).filterMap id = rows.map Row.mapping := by
    simp [List.filterMap_map]
  exact congrArg Except.ok kept

/-- The path of a line comes back as it was just if it is words with one space between two. -/
theorem mapping_path_iff (r : Row) : r.mapping.path = r.path ↔ ∀ p, r.path = some p →
    ∃ ws : List String, (∀ w ∈ ws, Solid w.toList) ∧ p = " ".intercalate ws := by
  rw [Row.mapping]
  cases r.path with
  | none => simp
  | some p =>
    rw [Option.map_some, Option.some_inj, intercalate_words_iff]
    simp

example : (Row.mapping ⟨0x1000, 0x2000, 0, "r-xp", "08:01", "11", some "/tmp/a  b", 8, 1⟩).path =
    some "/tmp/a b" := by decide +kernel

end Mapping

end SourceDebugger
