import SourceDebugger.Proofs.Machine.Dress
/-!
Bytes and words in memory. What was stored is found again where it was put, as long as no instruction
writes over it; so is a word that was pushed, where the stack pointer stood.
-/
namespace SourceDebugger.Machine

open Effect

/-- A word lies at an address. -/
def Word (x : Machine) (a w : UInt64) : Prop :=
  ∃ bytes, x.load a 8 = .ok bytes ∧ UInt64.ofNat (Bytes.toNat bytes) = w

theorem toNat_ofWord (w : UInt64) : UInt64.ofNat (Bytes.toNat (Bytes.ofWord w)) = w := by
  have small : w.toNat < 256 ^ 8 := w.toNat_lt
  rw [Bytes.ofWord, Bytes.toNat_ofNat, Nat.mod_eq_of_lt small, UInt64.ofNat_toNat]

section Words

variable {x y : Machine} {a w : UInt64}

theorem load_located {n : Nat} {s : Spot} (some : 0 < n) (located : x.locate a n = .ok s) :
    x.load a n = .ok ((x.region s.1).extract s.2 (s.2 + n)).toList := by
  rw [load, if_neg (by omega), located]
  rfl

theorem located_of_load {n : Nat} {bytes : Bytes} (some : 0 < n) (loaded : x.load a n = .ok bytes) :
    ∃ s, x.locate a n = .ok s := by
  cases located : x.locate a n with
  | ok s => exact ⟨s, rfl⟩
  | error e =>
    rw [load, if_neg (by omega), located] at loaded
    cases loaded

/-- As many bytes are read as were asked for. -/
theorem length_load {n : Nat} {bytes : Bytes} (loaded : x.load a n = .ok bytes) :
    bytes.length = n := by
  rcases Nat.eq_zero_or_pos n with rfl | some
  · cases loaded
    rfl
  obtain ⟨s, located⟩ := located_of_load some loaded
  have facts := locate_ok located
  rw [load_located some located] at loaded
  cases loaded
  simp only [Array.length_toList, Array.size_extract]
  omega

/-- What can be read stays as long as its bytes do. -/
theorem load_onward {n : Nat} {bytes : Bytes} (loaded : x.load a n = .ok bytes)
    (onward : Onward x y)
    (spared : ∀ s : Spot, a.toNat ≤ s.address → s.address < a.toNat + n → Spared s x y) :
    y.load a n = .ok bytes := by
  rcases Nat.eq_zero_or_pos n with rfl | some
  · exact loaded
  obtain ⟨⟨r, offset⟩, located⟩ := located_of_load some loaded
  have facts := locate_ok located
  rw [load_located some located] at loaded
  rw [load_located some (locate_onward onward located), ← loaded]
  refine congrArg (fun bytes => Except.ok (Array.toList bytes)) (Array.ext_getElem? fun i => ?_)
  have sizes : (x.region r).size ≤ (y.region r).size := by
    cases r with
    | code => exact Nat.le_of_eq onward.code.symm
    | stack => exact Nat.le_of_eq onward.stack.symm
    | heap => exact onward.heap
  simp only [Array.getElem?_extract]
  by_cases inside : i < n
  · rw [if_pos (by omega), if_pos (by omega)]
    refine spared (r, offset + i) ?_ ?_ ?_
    · simp only [Spot.address]; omega
    · simp only [Spot.address]; omega
    · exact Nat.lt_of_lt_of_le (by omega) facts.2.1
  · rw [if_neg (by omega), if_neg (by omega)]

/-- What has been stored can be read. -/
theorem load_store {bytes : Bytes} (stored : store a bytes x = (.ok (), y)) :
    y.load a bytes.length = .ok bytes := by
  rcases Nat.eq_zero_or_pos bytes.length with none | some
  · rw [List.length_eq_zero_iff.mp none]
    rfl
  rw [store_run] at stored
  split at stored
  · rename_i r offset located
    have facts := locate_ok located
    cases stored
    have still : Machine.locate (write _ r offset bytes) a bytes.length = .ok (r, offset) :=
      (locate_congr (fun q => size_region_write) _ _).trans located
    rw [load_located some still, region_write_same, extract_writeAt facts.2.1]
  · cases stored

/-- A word stays as long as its bytes do. -/
theorem Word.onward (word : Word x a w) (onward : Onward x y)
    (spared : ∀ s : Spot, a.toNat ≤ s.address → s.address < a.toNat + 8 → Spared s x y) :
    Word y a w := by
  obtain ⟨bytes, loaded, value⟩ := word
  exact ⟨bytes, load_onward loaded onward spared, value⟩

/-- What the instruction at the program counter reads or writes ends before one address or begins
behind another. -/
def Avoids (x : Machine) (low high : Nat) : Prop :=
  ∀ i a n, x.executable.instrAt? x.registers.pc = some i → i.accessed x.registers = some (a, n) →
    a.toNat + n ≤ low ∨ high ≤ a.toNat

theorem Avoids.not_accesses {low high address : Nat} (avoids : Avoids x low high)
    (inside : low ≤ address ∧ address < high) : ¬ x.Accesses address := by
  rintro ⟨i, a, n, found, reads, first, last⟩
  have := avoids i a n found reads
  omega

theorem load_execute {n : Nat} {bytes : Bytes} (loaded : x.load a n = .ok bytes)
    (avoids : Avoids x a.toNat (a.toNat + n)) : (execute x).2.load a n = .ok bytes :=
  load_onward loaded (onward_execute x) fun _ first last =>
    execute_spared (avoids.not_accesses ⟨first, last⟩)

theorem Word.execute (word : Word x a w) (avoids : Avoids x a.toNat (a.toNat + 8)) :
    Word (execute x).2 a w := by
  obtain ⟨bytes, loaded, value⟩ := word
  exact ⟨bytes, load_execute loaded avoids, value⟩

theorem word_of_load {bytes : Bytes} (word : Word x a w) (loaded : x.load a 8 = .ok bytes) :
    UInt64.ofNat (Bytes.toNat bytes) = w := by
  obtain ⟨others, same, value⟩ := word
  rw [loaded] at same
  cases same
  exact value

/-- A word that has been pushed is on top of the stack. -/
theorem word_push (pushed : push w x = (.ok (), y)) : Word y (x.registers.sp - 8) w := by
  rw [push_run] at pushed
  have length : (Bytes.ofWord w).length = 8 := Bytes.length_ofNat 8 _
  have loaded := load_store pushed
  rw [length] at loaded
  exact ⟨_, loaded, toNat_ofWord w⟩

end Words

end SourceDebugger.Machine
