import Mathlib.Data.List.Forall2
import SourceDebugger.Path
import SourceDebugger.Proofs.Text.Utf8
/-!
When two names of a source file match. One of them is the other, or what stands behind a separator of
the other. That is a relation of names without order and without regard to the kind of separators,
and comparing bytes at positions counted from the end finds it without leaving the longer name.
-/
namespace SourceDebugger.SourceFile

open Text

/-- The first name goes on in front of the second one, up to a separator. -/
def Extends (long short : List Char) : Prop := short ≠ [] ∧ ∃ front, long = front ++ '/' :: short

def Agree (x y : List Char) : Prop := x = y ∨ Extends x y ∨ Extends y x

def IsSeparator (c : Char) : Prop := c = '/' ∨ c = '\\'

/-- The same name, but for the kind of its separators. -/
def Respelled (a b : String) : Prop :=
  List.Forall₂ (fun c d => c = d ∨ IsSeparator c ∧ IsSeparator d) a.toList b.toList

instance (c : Char) : Decidable (IsSeparator c) := inferInstanceAs (Decidable (_ ∨ _))

theorem Agree.symm {x y : List Char} (agree : Agree x y) : Agree y x := by
  rcases agree with same | first | second
  · exact .inl same.symm
  · exact .inr (.inr first)
  · exact .inr (.inl second)

section Ends

variable {a b : String} {x y rest : List Char}

/-- What is left over is what one of the two goes on with. -/
theorem afterCommonEnd_iff : afterCommonEnd x y = some rest ↔ x = y ++ rest ∨ y = x ++ rest := by
  fun_induction afterCommonEnd x y with
  | case1 y =>
    constructor
    · rintro ⟨⟩
      exact .inr rfl
    · rintro (none | whole)
      · obtain ⟨rfl, rfl⟩ := List.append_eq_nil_iff.mp none.symm
        rfl
      · simp [whole]
  | case2 x some =>
    constructor
    · rintro ⟨⟩
      exact .inl rfl
    · rintro (whole | none)
      · simp [whole]
      · exact (some (List.append_eq_nil_iff.mp none.symm).1).elim
  | case3 c x y ih =>
    simp [ih]
  | case4 c x d y differ =>
    simp only [reduceCtorEq, List.cons_append, List.cons.injEq, false_iff]
    rintro (⟨same, -⟩ | ⟨same, -⟩)
    · exact differ same
    · exact differ same.symm

theorem extends_reverse : x.reverse = y.reverse ++ '/' :: rest ↔ x = rest.reverse ++ '/' :: y := by
  rw [List.reverse_eq_iff]
  simp

theorem matchNames_iff (a b : String) : matchNames a b = true ↔ Agree (unify a) (unify b) := by
  have left (rest : List Char) := @afterCommonEnd_iff (unify a).reverse (unify b).reverse rest
  unfold matchNames
  dsimp only
  constructor
  · intro matched
    split at matched
    · contradiction
    · next equal =>
      rcases (left []).mp equal with same | same
      · exact .inl (List.reverse_inj.mp (by simpa using same))
      · exact .inl (List.reverse_inj.mp (by simpa using same.symm))
    · next c more found =>
      simp only [Bool.and_eq_true, beq_iff_eq, Bool.not_eq_true', List.isEmpty_eq_false_iff, ne_eq,
        List.reverse_eq_nil_iff] at matched
      obtain ⟨⟨rfl, some_a⟩, some_b⟩ := matched
      rcases (left _).mp found with long | long
      · exact .inr (.inl ⟨some_b, more.reverse, extends_reverse.mp long⟩)
      · exact .inr (.inr ⟨some_a, more.reverse, extends_reverse.mp long⟩)
  · rintro (same | ⟨some, front, long⟩ | ⟨some, front, long⟩)
    · rw [(left []).mpr (.inl (by simp [same]))]
    · rw [(left ('/' :: front.reverse)).mpr (.inl (by simp [long]))]
      simp [long, some]
    · rw [(left ('/' :: front.reverse)).mpr (.inr (by simp [long]))]
      simp [long, some]

theorem Respelled.unify_eq (respelled : Respelled a b) : unify b = unify a := by
  unfold Respelled at respelled
  unfold unify
  generalize a.toList = cs, b.toList = ds at respelled
  induction respelled with
  | nil => rfl
  | cons alike _ ih =>
    rcases alike with rfl | ⟨one, other⟩
    · simp [ih]
    · rcases one with rfl | rfl <;> rcases other with rfl | rfl <;> simp [ih]

end Ends

section Positions

def bytes (name : String) : Bytes := (unify name).flatMap String.utf8EncodeChar

/-- Whether a name ends with another one behind a separator, by the byte in front of the common end.
Nothing comes out if there is no byte at that position. -/
def endsBehind? (long short : Bytes) : Option Bool :=
  if short.isSuffixOf long then
    if long.length < short.length + 1 then none
    else do
      let before ← long[long.length - short.length - 1]?
      some (before == 0x2f && !short.isEmpty)
  else some false

def matchBytes? (a b : String) : Option Bool :=
  let a := bytes a
  let b := bytes b
  if a = b then some true
  else if b.length ≤ a.length then endsBehind? a b
  else endsBehind? b a

variable {x y : List Char}

/-- A separator among the bytes is one among the characters. -/
theorem encoded_separator {front : Bytes}
    (cut : x.flatMap String.utf8EncodeChar = front ++ 0x2f :: y.flatMap String.utf8EncodeChar) :
    ∃ before, x = before ++ '/' :: y := by
  induction x generalizing front with
  | nil => simp at cut
  | cons c x ih =>
    rw [List.flatMap_cons] at cut
    rcases List.append_eq_append_iff.mp cut with ⟨middle, rfl, behind⟩ | ⟨middle, written, behind⟩
    · obtain ⟨before, rfl⟩ := ih behind
      exact ⟨c :: before, rfl⟩
    · cases middle with
      | nil =>
        have own : x.flatMap String.utf8EncodeChar = [] ++ 0x2f :: y.flatMap String.utf8EncodeChar :=
          behind.symm
        obtain ⟨before, rfl⟩ := ih own
        exact ⟨c :: before, rfl⟩
      | cons d middle =>
        rw [List.cons_append] at behind
        obtain ⟨rfl, others⟩ := List.cons.inj behind
        obtain ⟨value, alone⟩ := encoded_ascii (c := c) (d := 0x2f) (by simp [written]) (by decide)
        have slash : c = '/' := Char.toNat_inj.mp value
        rw [alone] at written
        have none : front = [] ∧ middle = [] := by
          cases front <;> simp_all
        rw [none.2] at others
        rw [slash, encoded_inj others]
        exact ⟨[], rfl⟩

theorem bytes_inj {a b : String} : bytes a = bytes b ↔ unify a = unify b :=
  ⟨encoded_inj, fun same => by rw [bytes, bytes, same]⟩

/-- The bytes of one name go on in front of those of another, up to a separator. -/
def Behind (long short : Bytes) : Prop := short ≠ [] ∧ ∃ front, long = front ++ 0x2f :: short

theorem behind_bytes (a b : String) : Behind (bytes a) (bytes b) ↔ Extends (unify a) (unify b) := by
  have empty : bytes b = [] ↔ unify b = [] :=
    ⟨fun none => encoded_inj none, fun none => by rw [bytes, none]; rfl⟩
  unfold Behind Extends
  rw [Ne, Ne, empty]
  apply and_congr_right
  intro _
  constructor
  · rintro ⟨front, long⟩
    exact encoded_separator long
  · rintro ⟨front, long⟩
    exact ⟨front.flatMap String.utf8EncodeChar, by simp [bytes, long]; rfl⟩

theorem Behind.longer {long short : Bytes} (behind : Behind long short) :
    short.length < long.length := by
  obtain ⟨-, front, rfl⟩ := behind
  simp
  omega

/-- Where the names differ there is a byte in front of their common end. -/
theorem endsBehind?_iff {long short : Bytes} (differ : long ≠ short) :
    ∃ r, endsBehind? long short = some r ∧ (r = true ↔ Behind long short) := by
  unfold endsBehind? Behind
  by_cases common : short <:+ long
  · obtain ⟨front, rfl⟩ := common
    rcases List.eq_nil_or_concat front with rfl | ⟨front, before, rfl⟩
    · exact absurd rfl differ
    · have place : (front.concat before ++ short).length - short.length - 1 = front.length := by
        rw [List.length_append, List.length_concat]
        omega
      have found : (front.concat before ++ short)[front.length]? = some before := by simp
      have room : ¬ (front.concat before ++ short).length < short.length + 1 := by
        rw [List.length_append, List.length_concat]
        omega
      have ends : short.isSuffixOf (front.concat before ++ short) = true :=
        List.isSuffixOf_iff_suffix.mpr ⟨_, rfl⟩
      rw [if_pos ends, if_neg room, place, found]
      refine ⟨_, rfl, ?_⟩
      simp only [Bool.and_eq_true, beq_iff_eq, Bool.not_eq_true', List.isEmpty_eq_false_iff]
      constructor
      · rintro ⟨rfl, some⟩
        exact ⟨some, front, by simp⟩
      · rintro ⟨some, other, same⟩
        have last : front ++ [before] ++ short = other ++ [0x2f] ++ short := by simpa using same
        have bytes := (List.append_inj' (List.append_cancel_right last) rfl).2
        exact ⟨(List.cons.inj bytes).1, some⟩
  · rw [if_neg (by simpa using common)]
    refine ⟨false, rfl, ?_⟩
    simp only [Bool.false_eq_true, false_iff]
    rintro ⟨-, front, rfl⟩
    exact common ⟨front ++ [0x2f], by simp⟩

/-- No position outside a name is looked at, and the names match by their bytes as they do by their
characters. -/
theorem matchBytes?_eq (a b : String) : matchBytes? a b = some (matchNames a b) := by
  have agree : ∀ r, (r = true ↔ Agree (unify a) (unify b)) → some r = some (matchNames a b) :=
    fun r same => congrArg some (Bool.eq_iff_iff.mpr (same.trans (matchNames_iff a b).symm))
  unfold matchBytes?
  dsimp only
  by_cases equal : bytes a = bytes b
  · rw [if_pos equal]
    exact agree true (by simp [Agree, bytes_inj.mp equal])
  have differ : unify a ≠ unify b := fun same => equal (bytes_inj.mpr same)
  rw [if_neg equal]
  unfold Agree at agree
  rw [← behind_bytes, ← behind_bytes] at agree
  by_cases order : (bytes b).length ≤ (bytes a).length
  · obtain ⟨r, found, behind⟩ := endsBehind?_iff equal
    have other : ¬ Behind (bytes b) (bytes a) := fun longer => by have := longer.longer; omega
    rw [if_pos order, found]
    exact agree r (by simp [behind, differ, other])
  · obtain ⟨r, found, behind⟩ := endsBehind?_iff (Ne.symm equal)
    have other : ¬ Behind (bytes a) (bytes b) := fun longer => by have := longer.longer; omega
    rw [if_neg order, found]
    exact agree r (by simp [behind, differ, other])

end Positions

/-- Names match just if one is the other or stands behind a separator of it; which of them comes
first, and how its separators are written, is all the same. -/
theorem matchNames_agree (a b : String) :
    (matchNames a b = true ↔ Agree (unify a) (unify b)) ∧
      matchNames a a = true ∧ matchNames b a = matchNames a b ∧
      (∀ a' b', Respelled a a' → Respelled b b' → matchNames a' b' = matchNames a b) ∧
      matchBytes? a b = some (matchNames a b) := by
  refine ⟨matchNames_iff a b, ?_, ?_, ?_, matchBytes?_eq a b⟩
  · rw [matchNames_iff]
    exact .inl rfl
  · rw [Bool.eq_iff_iff, matchNames_iff, matchNames_iff]
    exact ⟨Agree.symm, Agree.symm⟩
  · intro a' b' first second
    rw [Bool.eq_iff_iff, matchNames_iff, matchNames_iff, first.unify_eq, second.unify_eq]

/-- A drive letter, and two ways to write the path behind it. -/
theorem matchNames_agree_drive :
    Respelled "D:\\proj\\Src\\Pier.cs" "D:/proj\\Src/Pier.cs" ∧ Respelled "Src/Pier.cs" "Src\\Pier.cs" ∧
      matchNames "D:/proj\\Src/Pier.cs" "Src\\Pier.cs" = true := by
  have path : Respelled "D:\\proj\\Src\\Pier.cs" "D:/proj\\Src/Pier.cs" := by
    unfold Respelled
    decide +kernel
  have file : Respelled "Src/Pier.cs" "Src\\Pier.cs" := by
    unfold Respelled
    decide +kernel
  refine ⟨path, file, ?_⟩
  rw [(matchNames_agree "D:\\proj\\Src\\Pier.cs" "Src/Pier.cs").2.2.2.1 _ _ path file]
  decide +kernel

end SourceDebugger.SourceFile
