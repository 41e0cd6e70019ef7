import SourceDebugger.Proofs.Traps.Table
/-!
How much code is read to decode one instruction where not all of it can be read, as at the end of a
mapping. The sizes tried are halved each time, so that what is decoded is at least half of what there
is, and all of it only at some distances from the end.
-/
namespace SourceDebugger.Instrumented

variable {δ : Type} [Debuggee δ] {ts : Traps} {d : δ} {address : UInt64} {r : Nat}

/-- So many bytes and no more can be read at an address. -/
structure ReadableFor (d : δ) (address : UInt64) (r : Nat) : Prop where
  within : ∀ n ≤ r, ∃ bytes, Debuggee.read d address n = .ok bytes ∧ bytes.length = n
  beyond : ∀ n, r < n → ∃ e, Debuggee.read d address n = .error e

/-- The first size tried that can be read. -/
def window (r : Nat) : Nat := ([16, 8, 4, 2, 1].find? (· ≤ r)).getD 0

theorem attempt_eq (readable : ReadableFor d address r) {sizes : List Nat} {n : Nat}
    (first : sizes.find? (· ≤ r) = some n) {e : Fault} :
    readCode.attempt d address sizes e = Debuggee.read d address n := by
  induction sizes generalizing e with
  | nil => cases first
  | cons size rest ih =>
    rw [List.find?_cons] at first
    by_cases fits : size ≤ r
    · simp only [decide_eq_true fits, Option.some.injEq] at first
      subst first
      obtain ⟨bytes, done, -⟩ := readable.within size fits
      rw [readCode.attempt, done]
    · simp only [decide_eq_false fits] at first
      obtain ⟨e, failed⟩ := readable.beyond size (Nat.lt_of_not_le fits)
      rw [readCode.attempt, failed]
      exact ih first

theorem window_some (some : 1 ≤ r) : [16, 8, 4, 2, 1].find? (· ≤ r) = .some (window r) := by
  rw [window]
  cases found : [16, 8, 4, 2, 1].find? (· ≤ r) with
  | none => simp at found; omega
  | some n => rfl

theorem window_cases (some : 1 ≤ r) :
    (16 ≤ r ∧ window r = 16) ∨ (8 ≤ r ∧ r < 16 ∧ window r = 8) ∨ (4 ≤ r ∧ r < 8 ∧ window r = 4) ∨
      (2 ≤ r ∧ r < 4 ∧ window r = 2) ∨ (r = 1 ∧ window r = 1) := by
  unfold window
  by_cases sixteen : 16 ≤ r
  · simp [sixteen]
  by_cases eight : 8 ≤ r
  · simp [sixteen, eight]; omega
  by_cases four : 4 ≤ r
  · simp [sixteen, eight, four]; omega
  by_cases two : 2 ≤ r
  · simp [sixteen, eight, four, two]; omega
  · simp [sixteen, eight, four, two, some]; omega

/-- At least half of what could be used is used. -/
theorem window_bounds (some : 1 ≤ r) :
    window r ≤ r ∧ window r ≤ 16 ∧ min r 16 < 2 * window r := by
  rcases window_cases some with h | h | h | h | h <;> omega

/-- The fifteen bytes an instruction may have, or all that there are, are used only where there are
sixteen or their number is a power of two. -/
theorem window_full_iff (some : 1 ≤ r) :
    min r 15 ≤ window r ↔ r = 1 ∨ r = 2 ∨ r = 4 ∨ r = 8 ∨ 16 ≤ r := by
  rcases window_cases some with h | h | h | h | h <;> omega

/-- The last of the five bytes of a jump is left out where no other code can be read behind it. -/
example : window 5 = 4 := by decide

/-- At the end of what can be read, the first bytes are decoded, without traps. -/
theorem decode_window (readable : ReadableFor d address r) (some : 1 ≤ r) :
    ∃ bytes, Debuggee.read d address (window r) = .ok bytes ∧ bytes.length = window r ∧
      decode ts d address = Debuggee.decode d address (ts.mask address bytes) := by
  obtain ⟨bytes, read, length⟩ := readable.within _ (window_bounds some).1
  refine ⟨bytes, read, length, ?_⟩
  rw [decode, readCode, attempt_eq readable (window_some some), read]
  rfl

end SourceDebugger.Instrumented
