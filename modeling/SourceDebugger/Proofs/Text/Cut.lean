import SourceDebugger.Proofs.Text.Utf8
import SourceDebugger.Value.Reader
/-!
Texts of which only the first bytes are read. The characters that fit are read as they are; where the
limit falls within a character, one U+FFFD stands behind them for the part of it that was read.
-/
namespace SourceDebugger.Text

/-- The characters that fit within so many bytes, up to the first that does not. -/
def fitting (limit : Nat) : List Char → List Char
  | [] => []
  | c :: cs => if c.utf8Size ≤ limit then c :: fitting (limit - c.utf8Size) cs else []

/-- What the limit leaves of the first character that does not fit. -/
def torn (limit : Nat) : List Char → Bytes
  | [] => []
  | c :: cs =>
    if c.utf8Size ≤ limit then torn (limit - c.utf8Size) cs
    else (String.utf8EncodeChar c).take limit

section Fitting

variable (limit : Nat) (cs : List Char)

theorem fitting_begins : fitting limit cs <+: cs := by
  fun_induction fitting limit cs with
  | case1 => exact List.prefix_refl _
  | case2 limit c cs fits ih => exact List.cons_prefix_cons.mpr ⟨rfl, ih⟩
  | case3 => exact List.nil_prefix

/-- Up to its limit a text is what fits and what is left of one more character. -/
theorem take_encoded : (cs.flatMap String.utf8EncodeChar).take limit =
    (fitting limit cs).flatMap String.utf8EncodeChar ++ torn limit cs := by
  fun_induction fitting limit cs with
  | case1 => simp [torn]
  | case2 limit c cs fits ih =>
    rw [torn, if_pos fits, List.flatMap_cons, List.take_append, String.length_utf8EncodeChar, ih,
      List.take_of_length_le (by rwa [String.length_utf8EncodeChar]), List.flatMap_cons,
      List.append_assoc]
  | case3 limit c cs large =>
    rw [torn, if_neg large, List.flatMap_cons, List.take_append, String.length_utf8EncodeChar,
      Nat.sub_eq_zero_of_le (by omega), List.take_zero, List.append_nil]
    rfl

theorem length_fitting : ((fitting limit cs).flatMap String.utf8EncodeChar).length ≤ limit := by
  have whole := congrArg List.length (take_encoded limit cs)
  rw [List.length_take, List.length_append] at whole
  omega

/-- Nothing longer fits. -/
theorem fitting_longest {front : List Char} (front_cs : front <+: cs)
    (short : (front.flatMap String.utf8EncodeChar).length ≤ limit) : front <+: fitting limit cs := by
  fun_induction fitting limit cs generalizing front with
  | case1 => exact front_cs
  | case2 limit c cs fits ih =>
    cases front with
    | nil => exact List.nil_prefix
    | cons d front =>
      obtain ⟨rfl, behind⟩ := List.cons_prefix_cons.mp front_cs
      rw [List.flatMap_cons, List.length_append, String.length_utf8EncodeChar] at short
      exact List.cons_prefix_cons.mpr ⟨rfl, ih behind (by omega)⟩
  | case3 limit c cs large =>
    cases front with
    | nil => exact List.nil_prefix
    | cons d front =>
      obtain ⟨rfl, -⟩ := List.cons_prefix_cons.mp front_cs
      rw [List.flatMap_cons, List.length_append, String.length_utf8EncodeChar] at short
      omega

theorem torn_cases : torn limit cs = [] ∨
    ∃ c k, 0 < k ∧ k < (String.utf8EncodeChar c).length ∧
      torn limit cs = (String.utf8EncodeChar c).take k := by
  fun_induction torn limit cs with
  | case1 => exact .inl rfl
  | case2 limit c cs fits ih => exact ih
  | case3 limit c cs large =>
    rcases Nat.eq_zero_or_pos limit with rfl | some
    · exact .inl List.take_zero
    · exact .inr ⟨c, limit, some, by rw [String.length_utf8EncodeChar]; omega, rfl⟩

/-- The beginning of a character is read as one U+FFFD. -/
theorem decodeLossy_torn {n : Nat} (room : (torn limit cs).length ≤ n) :
    decodeLossy n (torn limit cs) = if torn limit cs = [] then [] else ['\uFFFD'] := by
  rcases torn_cases limit cs with none | ⟨c, k, some, less, cut⟩
  · rw [if_pos none, none, decodeLossy_nil]
  · obtain ⟨b, more, written, head⟩ := utf8Head_cut c some less
    have length : more.length + 1 = k := by
      rw [← List.length_cons, ← written, List.length_take_of_le (Nat.le_of_lt less)]
    rw [cut, written] at room ⊢
    obtain ⟨n, rfl⟩ : ∃ j, n = j + 1 := ⟨n - 1, by rw [List.length_cons] at room; omega⟩
    rw [if_neg (List.cons_ne_nil b more), decodeLossy, head]
    dsimp only
    rw [List.drop_of_length_le (by omega), decodeLossy_nil]

/-- The limit falls within a character just if less fits than is read. -/
theorem torn_eq_nil_iff : torn limit cs = [] ↔
    ((fitting limit cs).flatMap String.utf8EncodeChar).length =
      min limit (cs.flatMap String.utf8EncodeChar).length := by
  have whole := congrArg List.length (take_encoded limit cs)
  rw [List.length_take, List.length_append] at whole
  rw [← List.length_eq_zero_iff]
  omega

end Fitting

/-- What is read of a text up to a limit. -/
def upTo (limit : Nat) (s : String) : String :=
  let front := String.ofList (fitting limit s.toList)
  if front.toUTF8.size = min limit s.toUTF8.size then front else front ++ "\uFFFD"

theorem size_toUTF8 (s : String) :
    s.toUTF8.size = (s.toList.flatMap String.utf8EncodeChar).length := by
  rw [← toUTF8_toList]
  rfl

theorem ofUtf8Lossy_take (limit : Nat) (s : String) :
    ofUtf8Lossy (s.toUTF8.data.toList.take limit) = upTo limit s := by
  have front := length_le_encoded (fitting limit s.toList)
  rw [ofUtf8Lossy, toUTF8_toList, take_encoded, decodeLossy_append, decodeLossy_torn, upTo]
  · simp only [torn_eq_nil_iff, size_toUTF8, String.toList_ofList]
    split
    · rw [List.append_nil]
    · rw [String.ofList_append]
  · rw [List.length_append]
    omega
  · rw [List.length_append]
    omega

example : upTo 2 "aé" = "a\uFFFD" := by decide +kernel

/-- A text within the limit is read as it is. -/
theorem upTo_of_le {limit : Nat} {s : String} (short : s.toUTF8.size ≤ limit) : upTo limit s = s := by
  have whole : fitting limit s.toList = s.toList := by
    have longest := fitting_longest limit s.toList (List.prefix_refl _) (by rwa [← size_toUTF8])
    exact (fitting_begins limit s.toList).eq_of_length_le longest.length_le
  rw [upTo, whole, String.ofList_toList, Nat.min_eq_right short]
  exact if_pos rfl

end SourceDebugger.Text

namespace SourceDebugger.Value

open Text

variable {δ : Type} [Debuggee δ] {d : δ} {config : Config} {generation : Nat}

/-- A text that lies in memory is read up to the limit. -/
theorem readAt_text_upTo {address pointer : UInt64} {s : String}
    (fat : readFat d address = .ok (pointer, s.toUTF8.size)) (some : pointer ≠ 0)
    (stored : ∀ n ≤ s.toUTF8.size, Debuggee.read d pointer n = .ok (s.toUTF8.data.toList.take n)) :
    readAt d config generation address .text = .text (upTo config.maxTextBytes s) := by
  have taken : readExactly d pointer (min s.toUTF8.size config.maxTextBytes) =
      .ok (s.toUTF8.data.toList.take config.maxTextBytes) := by
    have length : s.toUTF8.data.toList.length = s.toUTF8.size := rfl
    have cut : s.toUTF8.data.toList.take (min s.toUTF8.size config.maxTextBytes) =
        s.toUTF8.data.toList.take config.maxTextBytes := by
      rw [← length, Nat.min_comm, ← List.take_eq_take_min]
    rw [readExactly, stored _ (Nat.min_le_left ..), cut]
    exact if_pos (by rw [List.length_take, length, Nat.min_comm])
  rw [readAt, readType, fat]
  simp only [bind, Except.bind]
  rw [if_neg some, taken]
  exact congrArg Value.text (ofUtf8Lossy_take config.maxTextBytes s)

end SourceDebugger.Value
