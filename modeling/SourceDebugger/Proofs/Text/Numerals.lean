import SourceDebugger.Text.Numeral
/-!
Numbers survive being written. A number is read back from its digits, also with zeros in front of
them, and what holds a character that is no digit is no numeral.
-/
namespace SourceDebugger.Text

section Digits

variable {base limit : Nat}

theorem digitValue?_sixteen : ∀ d < 16, digitValue? 16 (Nat.digitChar d) = some d := by decide

/-- A digit of a base is one of every larger base. -/
theorem digitValue?_narrow (small : base ≤ 16) (c : Char) :
    digitValue? base c = (digitValue? 16 c).filter (· < base) := by
  simp only [digitValue?, Option.filter_filter]
  congr 1
  funext d
  by_cases below : d < base
  · simp [below, Nat.lt_of_lt_of_le below small]
  · simp [below]

theorem digitValue?_digitChar (small : base ≤ 16) {d : Nat} (below : d < base) :
    digitValue? base (Nat.digitChar d) = some d := by
  rw [digitValue?_narrow small, digitValue?_sixteen d (Nat.lt_of_lt_of_le below small),
    Option.filter_some, if_pos (by simpa using below)]

theorem digitValue?_zero (some : 1 < base) (small : base ≤ 16) :
    digitValue? base '0' = .some 0 :=
  digitValue?_digitChar small (Nat.zero_lt_of_lt some)

theorem mem_toDigits (some : 1 < base) {n : Nat} {c : Char} (member : c ∈ Nat.toDigits base n) :
    ∃ d < base, c = Nat.digitChar d := by
  induction n using Nat.strongRecOn with
  | ind n ih =>
    rw [Nat.toDigits_eq_if some] at member
    split at member
    · next below => exact ⟨n, below, List.mem_singleton.mp member⟩
    · next above =>
      rcases List.mem_append.mp member with front | last
      · exact ih (n / base) (Nat.div_lt_self (by omega) some) front
      · exact ⟨n % base, Nat.mod_lt n (by omega), List.mem_singleton.mp last⟩

/-- After the digits of a number, reading goes on with that number. -/
theorem readDigits_toDigits (some : 1 < base) (small : base ≤ 16) {n : Nat} (below : n < limit)
    (rest : List Char) :
    readDigits base limit 0 (Nat.toDigits base n ++ rest) = readDigits base limit n rest := by
  induction n using Nat.strongRecOn generalizing rest with
  | ind n ih =>
    rw [Nat.toDigits_eq_if some]
    split
    · next digit =>
      rw [List.singleton_append, readDigits, digitValue?_digitChar small digit]
      dsimp only
      rw [Nat.zero_mul, Nat.zero_add, if_pos below]
    · next above =>
      have less : n / base < n := Nat.div_lt_self (by omega) some
      have digit := digitValue?_digitChar small (Nat.mod_lt n (show 0 < base by omega))
      rw [List.append_assoc, ih _ less (Nat.lt_trans less below), List.singleton_append, readDigits,
        digit]
      dsimp only
      rw [Nat.div_add_mod', if_pos below]

theorem readDigits_zeros (some : 1 < base) (small : base ≤ 16) (positive : 0 < limit) (k : Nat)
    (rest : List Char) :
    readDigits base limit 0 (List.replicate k '0' ++ rest) = readDigits base limit 0 rest := by
  induction k with
  | zero => rfl
  | succ k ih =>
    rw [List.replicate_succ, List.cons_append, readDigits, digitValue?_zero some small]
    dsimp only
    rw [Nat.zero_mul, Nat.add_zero, if_pos positive]
    exact ih

/-- What holds a character that is no digit is not read. -/
theorem readDigits_foreign {c : Char} (foreign : digitValue? base c = none) {cs : List Char}
    (member : c ∈ cs) (acc : Nat) : ∃ fault, readDigits base limit acc cs = .error fault := by
  induction cs generalizing acc with
  | nil => simp at member
  | cons first rest ih =>
    rw [readDigits]
    cases value : digitValue? base first with
    | none => exact ⟨_, rfl⟩
    | some d =>
      have later : c ∈ rest := by
        refine (List.mem_cons.mp member).resolve_left fun same => ?_
        rw [← same, foreign] at value
        contradiction
      dsimp only
      split
      · exact ih later _
      · exact ⟨_, rfl⟩

end Digits

section Numerals

variable {base limit : Nat}

theorem readNumeral_digits {cs : List Char} (some : cs ≠ [])
    (digits : ∀ c ∈ cs, ∃ d, digitValue? base c = .some d) :
    readNumeral base limit (String.ofList cs) = readDigits base limit 0 cs := by
  obtain ⟨c, rest, rfl⟩ := List.exists_cons_of_ne_nil some
  obtain ⟨d, digit⟩ := digits c List.mem_cons_self
  have plus : c ≠ '+' := by
    rintro rfl
    simp [digitValue?] at digit
  have minus : c ≠ '-' := by
    rintro rfl
    simp [digitValue?] at digit
  rw [readNumeral, String.toList_ofList]
  split <;> simp_all

/-- A number is read back from its digits, whatever number of zeros stands in front of them. -/
theorem readNumeral_padLeft (some : 1 < base) (small : base ≤ 16) {n : Nat} (below : n < limit)
    (width : Nat) : readNumeral base limit
      (padLeft '0' width (String.ofList (Nat.toDigits base n))) = .ok n := by
  have positive : 0 < limit := Nat.zero_lt_of_lt below
  rw [padLeft, ← String.ofList_append, readNumeral_digits, readDigits_zeros some small positive,
    ← List.append_nil (Nat.toDigits base n), readDigits_toDigits some small below, readDigits]
  · exact List.append_ne_nil_of_right_ne_nil _ Nat.toDigits_ne_nil
  · intro c member
    rcases List.mem_append.mp member with zero | digit
    · rw [List.eq_of_mem_replicate zero]
      exact ⟨0, digitValue?_zero some small⟩
    · obtain ⟨d, below, rfl⟩ := mem_toDigits some digit
      exact ⟨d, digitValue?_digitChar small below⟩

theorem readNumeral_toDigits (some : 1 < base) (small : base ≤ 16) {n : Nat} (below : n < limit) :
    readNumeral base limit (String.ofList (Nat.toDigits base n)) = .ok n := by
  have whole := readNumeral_padLeft some small below 0
  rwa [padLeft, Nat.zero_sub, List.replicate_zero, String.ofList_nil, String.empty_append] at whole

/-- A text with a character that is neither a digit nor a sign is no numeral. -/
theorem readNumeral_foreign {c : Char} (foreign : digitValue? base c = none) (plus : c ≠ '+')
    {s : String} (member : c ∈ s.toList) : ∃ fault, readNumeral base limit s = .error fault := by
  rw [readNumeral]
  split
  · exact ⟨_, rfl⟩
  · exact ⟨_, rfl⟩
  · exact ⟨_, rfl⟩
  · next digits _ written =>
    rw [written] at member
    exact readDigits_foreign foreign ((List.mem_cons.mp member).resolve_left plus) 0
  · exact readDigits_foreign foreign member 0

/-- A word is read back from its hexadecimal digits. -/
theorem readWord_toDigits (w : UInt64) :
    readWord 16 (String.ofList (Nat.toDigits 16 w.toNat)) = .ok w := by
  rw [readWord, readNumeral_toDigits (by decide) (by decide) w.toNat_lt]
  exact congrArg Except.ok UInt64.ofNat_toNat

theorem readWord_padLeft (w : UInt64) (width : Nat) :
    readWord 16 (padLeft '0' width (hex w.toNat)) = .ok w := by
  rw [readWord, hex, readNumeral_padLeft (by decide) (by decide) w.toNat_lt]
  exact congrArg Except.ok UInt64.ofNat_toNat

end Numerals

end SourceDebugger.Text
