import Mathlib.Data.List.TakeWhile
import SourceDebugger.Text.Utf8
/-!
Text survives its encoding. Each character is read back from the bytes it is written as, whatever
follows, so that the bytes of a text are read as that text. Where the bytes end within a character,
what there is of it is read as a beginning.
-/
namespace SourceDebugger.Text

section Heads

section Behind

variable {b low high second : UInt8} {count : Nat} (wide : 0x80 ≤ b.toNat)
  (lead : utf8Lead b = some (low, high, count)) (above : low.toNat ≤ second.toNat)
  (below : second.toNat ≤ high.toNat)

include wide lead above below

/-- What a first byte is the head of is decided by the bytes that go on from it. -/
theorem utf8Head_behind (tail rest : Bytes) (room : tail.length ≤ count - 1)
    (continues : ∀ c ∈ tail, isContinuation c = true)
    (stop : tail.length = count - 1 ∨ rest = []) : utf8Head b (second :: (tail ++ rest)) =
      if tail.length = count - 1 then
        .char (Char.ofNat (utf8CodePoint b (second :: tail))) (count + 1)
      else .cut (2 + tail.length) := by
  have inside : ¬ (second < low ∨ high < second) := by
    simp only [UInt8.lt_iff_toNat_lt]
    omega
  have taken : (List.take (count - 1) (tail ++ rest)).takeWhile isContinuation = tail := by
    rcases stop with whole | none
    · rw [← whole, List.take_left]
      exact List.takeWhile_eq_self_iff.mpr continues
    · rw [none, List.append_nil, List.take_of_length_le room]
      exact List.takeWhile_eq_self_iff.mpr continues
  have multiple : ¬ b < 0x80 := UInt8.not_lt.mpr (UInt8.le_iff_toNat_le.mpr wide)
  rw [utf8Head.eq_def, if_neg multiple, lead]
  dsimp only
  rw [if_neg (by simpa using inside), taken]
  split
  · rfl
  · next short =>
    rw [stop.resolve_left short, List.append_nil, if_pos rfl]

end Behind

theorem toNat_byte {n : Nat} (small : n < 256) : (UInt8.ofNat n).toNat = n :=
  UInt8.toNat_ofNat_of_lt' small

theorem isContinuation_ofNat (n : Nat) : isContinuation (UInt8.ofNat (n % 64 + 128)) = true := by
  have value := toNat_byte (n := n % 64 + 128) (by omega)
  have first : (0x80 : UInt8).toNat = 128 := rfl
  have last : (0xbf : UInt8).toNat = 191 := rfl
  rw [isContinuation, Bool.and_eq_true, decide_eq_true_eq, decide_eq_true_eq,
    UInt8.le_iff_toNat_le, UInt8.le_iff_toNat_le, value, first, last]
  omega

/-- The first byte says what may follow. -/
theorem utf8Lead_eq {b : UInt8} {n : Nat} (value : b.toNat = n) : utf8Lead b =
    if 0xc2 ≤ n ∧ n ≤ 0xdf then some (0x80, 0xbf, 1)
    else if n = 0xe0 then some (0xa0, 0xbf, 2)
    else if n = 0xed then some (0x80, 0x9f, 2)
    else if 0xe1 ≤ n ∧ n ≤ 0xef then some (0x80, 0xbf, 2)
    else if n = 0xf0 then some (0x90, 0xbf, 3)
    else if 0xf1 ≤ n ∧ n ≤ 0xf3 then some (0x80, 0xbf, 3)
    else if n = 0xf4 then some (0x80, 0x8f, 3)
    else none := by
  subst value
  simp only [utf8Lead, Bool.and_eq_true, decide_eq_true_eq, UInt8.le_iff_toNat_le,
    ← UInt8.toNat_inj]
  rfl

end Heads

section Characters

variable {v : Nat}

/-- A second byte is one that the first allows: no other number is written so. -/
theorem lead_two (least : 0x80 ≤ v) (most : v ≤ 0x7ff) :
    utf8Lead (UInt8.ofNat (v / 64 % 32 + 192)) = some (0x80, 0xbf, 1) := by
  rw [utf8Lead_eq (toNat_byte (by omega)), if_pos (by omega)]

theorem lead_three (least : 0x800 ≤ v) (most : v ≤ 0xffff)
    (valid : v < 0xd800 ∨ 0xdfff < v) : ∃ low high,
      utf8Lead (UInt8.ofNat (v / 4096 % 16 + 224)) = some (low, high, 2) ∧
        low.toNat ≤ v / 64 % 64 + 128 ∧ v / 64 % 64 + 128 ≤ high.toNat := by
  rw [utf8Lead_eq (toNat_byte (by omega)), if_neg (by omega)]
  by_cases first : v / 4096 % 16 + 224 = 0xe0
  · exact ⟨0xa0, 0xbf, if_pos first, by show 160 ≤ _; omega, by show _ ≤ 191; omega⟩
  rw [if_neg first]
  by_cases surrogate : v / 4096 % 16 + 224 = 0xed
  · exact ⟨0x80, 0x9f, if_pos surrogate, by show 128 ≤ _; omega, by show _ ≤ 159; omega⟩
  rw [if_neg surrogate, if_pos (by omega)]
  exact ⟨0x80, 0xbf, rfl, by show 128 ≤ _; omega, by show _ ≤ 191; omega⟩

theorem lead_four (least : 0x10000 ≤ v) (most : v ≤ 0x10ffff) : ∃ low high,
      utf8Lead (UInt8.ofNat (v / 262144 % 8 + 240)) = some (low, high, 3) ∧
        low.toNat ≤ v / 4096 % 64 + 128 ∧ v / 4096 % 64 + 128 ≤ high.toNat := by
  rw [utf8Lead_eq (toNat_byte (by omega)), if_neg (by omega), if_neg (by omega), if_neg (by omega),
    if_neg (by omega)]
  by_cases first : v / 262144 % 8 + 240 = 0xf0
  · exact ⟨0x90, 0xbf, if_pos first, by show 144 ≤ _; omega, by show _ ≤ 191; omega⟩
  rw [if_neg first]
  by_cases last : v / 262144 % 8 + 240 = 0xf4
  · rw [if_neg (by omega)]
    exact ⟨0x80, 0x8f, if_pos last, by show 128 ≤ _; omega, by show _ ≤ 143; omega⟩
  rw [if_pos (by omega)]
  exact ⟨0x80, 0xbf, rfl, by show 128 ≤ _; omega, by show _ ≤ 191; omega⟩

/-- How a character of more than one byte is written. -/
structure Spread (c : Char) (b second : UInt8) (tail : Bytes) : Prop where
  written : String.utf8EncodeChar c = b :: second :: tail
  wide : 0x80 ≤ b.toNat
  continues : ∀ d ∈ tail, isContinuation d = true
  point : utf8CodePoint b (second :: tail) = c.toNat
  lead : ∃ low high, utf8Lead b = some (low, high, tail.length + 1) ∧
    low.toNat ≤ second.toNat ∧ second.toNat ≤ high.toNat

theorem encoded_cases (c : Char) :
    c.toNat ≤ 0x7f ∧ String.utf8EncodeChar c = [UInt8.ofNat c.toNat] ∨
      ∃ b second tail, Spread c b second tail := by
  have valid : c.toNat < 0xd800 ∨ 0xdfff < c.toNat ∧ c.toNat < 0x110000 := c.valid
  have byte {n : Nat} (small : n < 256) := toNat_byte small
  have encoded := String.utf8EncodeChar.eq_1 c
  rw [show c.val.toNat = c.toNat from rfl] at encoded
  by_cases one : c.toNat ≤ 0x7f
  · exact .inl ⟨one, encoded.trans (if_pos one)⟩
  rw [if_neg one] at encoded
  refine .inr ?_
  have last := byte (n := c.toNat % 64 + 128) (by omega)
  by_cases two : c.toNat ≤ 0x7ff
  · have lead := byte (n := c.toNat / 64 % 32 + 192) (by omega)
    rw [if_pos two] at encoded
    refine ⟨_, _, [], encoded, by omega, by simp, ?_, _, _, lead_two (by omega) two, ?_, ?_⟩
    · simp only [utf8CodePoint, List.length_singleton, List.foldl_cons, List.foldl_nil, lead, last]
      omega
    · rw [last]; exact Nat.le_add_left _ _
    · rw [last]; show _ ≤ 191; omega
  rw [if_neg two] at encoded
  have third := byte (n := c.toNat / 64 % 64 + 128) (by omega)
  by_cases three : c.toNat ≤ 0xffff
  · have lead := byte (n := c.toNat / 4096 % 16 + 224) (by omega)
    obtain ⟨low, high, allows, above, below⟩ := lead_three (by omega) three (by omega)
    rw [if_pos three] at encoded
    refine ⟨_, _, [_], encoded, by omega, ?_, ?_, low, high, allows, by omega, by omega⟩
    · simp only [List.mem_singleton, forall_eq]
      exact isContinuation_ofNat _
    · simp only [utf8CodePoint, List.length_cons, List.length_nil, List.foldl_cons, List.foldl_nil,
        lead, third, last]
      omega
  · have lead := byte (n := c.toNat / 262144 % 8 + 240) (by omega)
    have second := byte (n := c.toNat / 4096 % 64 + 128) (by omega)
    obtain ⟨low, high, allows, above, below⟩ := lead_four (v := c.toNat) (by omega) (by omega)
    rw [if_neg three] at encoded
    refine ⟨_, _, [_, _], encoded, by omega, ?_, ?_, low, high, allows, by omega, by omega⟩
    · simp only [List.mem_cons, List.not_mem_nil, or_false, forall_eq_or_imp, forall_eq]
      exact ⟨isContinuation_ofNat _, isContinuation_ofNat _⟩
    · simp only [utf8CodePoint, List.length_cons, List.length_nil, List.foldl_cons, List.foldl_nil,
        lead, second, third, last]
      omega

theorem lead_low {b low high : UInt8} {count : Nat} (lead : utf8Lead b = some (low, high, count)) :
    0x80 ≤ low.toNat := by
  rw [utf8Lead_eq rfl] at lead
  split_ifs at lead <;> cases lead <;> decide

/-- A byte of the ASCII range is a character of its own, and no part of another one. -/
theorem encoded_ascii {c : Char} {d : UInt8} (member : d ∈ String.utf8EncodeChar c)
    (small : d.toNat < 0x80) : c.toNat = d.toNat ∧ String.utf8EncodeChar c = [d] := by
  rcases encoded_cases c with ⟨one, written⟩ | ⟨b, second, tail, spread⟩
  · rw [written, List.mem_singleton] at member
    subst member
    exact ⟨(toNat_byte (by omega)).symm, written⟩
  · exfalso
    obtain ⟨low, high, lead, above, -⟩ := spread.lead
    have least := lead_low lead
    have wide := spread.wide
    rw [spread.written] at member
    rcases List.mem_cons.mp member with rfl | member
    · omega
    rcases List.mem_cons.mp member with rfl | member
    · omega
    have continues := spread.continues d member
    simp only [isContinuation, Bool.and_eq_true, decide_eq_true_eq, UInt8.le_iff_toNat_le] at continues
    have first : (0x80 : UInt8).toNat = 128 := rfl
    omega

/-- What a character is written as is read as that character. -/
theorem utf8Head_encoded (c : Char) (rest : Bytes) : ∃ b more,
    String.utf8EncodeChar c = b :: more ∧
      utf8Head b (more ++ rest) = .char c (more.length + 1) := by
  have back : Char.ofNat c.toNat = c := Char.ofNat_toNat c
  rcases encoded_cases c with ⟨one, written⟩ | ⟨b, second, tail, spread⟩
  · have lead := toNat_byte (n := c.toNat) (by omega)
    have plain : UInt8.ofNat c.toNat < 0x80 :=
      UInt8.lt_iff_toNat_lt.mpr (by rw [lead]; exact Nat.lt_succ_of_le one)
    refine ⟨_, _, written, ?_⟩
    rw [utf8Head.eq_def, if_pos plain, lead, back]
    rfl
  · obtain ⟨low, high, lead, above, below⟩ := spread.lead
    refine ⟨b, second :: tail, spread.written, ?_⟩
    rw [List.cons_append, utf8Head_behind spread.wide lead above below tail rest (Nat.le_refl _)
      spread.continues (.inl rfl), if_pos (Nat.add_sub_cancel ..).symm, spread.point, back]
    rfl

/-- A character that ends too early is read as a beginning. -/
theorem utf8Head_cut (c : Char) {k : Nat} (some : 0 < k)
    (less : k < (String.utf8EncodeChar c).length) : ∃ b more,
      (String.utf8EncodeChar c).take k = b :: more ∧ utf8Head b more = .cut k := by
  rcases encoded_cases c with ⟨-, written⟩ | ⟨b, second, tail, spread⟩
  · rw [written, List.length_singleton] at less
    omega
  · obtain ⟨low, high, lead, above, below⟩ := spread.lead
    rw [spread.written, List.length_cons, List.length_cons] at less
    rw [spread.written]
    obtain ⟨k, rfl⟩ : ∃ j, k = j + 1 := ⟨k - 1, by omega⟩
    refine ⟨b, (second :: tail).take k, List.take_succ_cons, ?_⟩
    rcases k with _ | k
    · have multiple : ¬ b < 0x80 := UInt8.not_lt.mpr (UInt8.le_iff_toNat_le.mpr spread.wide)
      rw [List.take_zero, utf8Head.eq_def, if_neg multiple, lead]
    · have length : (tail.take k).length = k := List.length_take_of_le (by omega)
      have continues : ∀ d ∈ tail.take k, isContinuation d = true := fun d member =>
        spread.continues d (List.mem_of_mem_take member)
      have head := utf8Head_behind spread.wide lead above below (tail.take k) [] (by omega) continues
        (.inr rfl)
      rw [List.append_nil, length, if_neg (by omega)] at head
      rw [List.take_succ_cons, head, Nat.add_comm 2]

end Characters

section Texts

/-- Characters are read back, each in one step, before what follows them. -/
theorem decodeLossy_append (cs : List Char) (rest : Bytes) {n : Nat} (room : cs.length ≤ n) :
    decodeLossy n (cs.flatMap String.utf8EncodeChar ++ rest) =
      cs ++ decodeLossy (n - cs.length) rest := by
  induction cs generalizing n with
  | nil => rfl
  | cons c cs ih =>
    obtain ⟨b, more, written, head⟩ := utf8Head_encoded c (cs.flatMap String.utf8EncodeChar ++ rest)
    obtain ⟨n, rfl⟩ : ∃ k, n = k + 1 := ⟨n - 1, by rw [List.length_cons] at room; omega⟩
    rw [List.length_cons] at room ⊢
    rw [List.flatMap_cons, written, List.append_assoc, List.cons_append, decodeLossy, head]
    dsimp only
    rw [Nat.add_sub_cancel, List.drop_left, ih (by omega), Nat.add_sub_add_right, List.cons_append]

theorem length_le_encoded (cs : List Char) :
    cs.length ≤ (cs.flatMap String.utf8EncodeChar).length := by
  induction cs with
  | nil => exact Nat.le_refl 0
  | cons c cs ih =>
    have some := c.utf8Size_pos
    rw [List.flatMap_cons, List.length_append, String.length_utf8EncodeChar, List.length_cons]
    omega

@[simp] theorem decodeLossy_nil (n : Nat) : decodeLossy n [] = [] := by cases n <;> rfl

theorem encoded_inj {cs ds : List Char}
    (same : cs.flatMap String.utf8EncodeChar = ds.flatMap String.utf8EncodeChar) : cs = ds := by
  have first := decodeLossy_append cs [] (length_le_encoded cs)
  have second := decodeLossy_append ds [] (length_le_encoded ds)
  rw [same, second] at first
  simpa using first.symm

theorem toUTF8_toList (s : String) : s.toUTF8.data.toList = s.toList.flatMap String.utf8EncodeChar := by
  rw [String.toUTF8, ← String.utf8Encode_toList, List.utf8Encode]
  simp

/-- The bytes of a text are read as that text. -/
theorem ofUtf8Lossy_toUTF8 (s : String) : ofUtf8Lossy s.toUTF8.data.toList = s := by
  have whole := decodeLossy_append s.toList [] (length_le_encoded s.toList)
  rw [List.append_nil] at whole
  rw [toUTF8_toList, ofUtf8Lossy, whole, decodeLossy_nil, List.append_nil, String.ofList_toList]

end Texts

end SourceDebugger.Text
