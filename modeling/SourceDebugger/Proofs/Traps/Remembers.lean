import SourceDebugger.Proofs.Breakpoint.Scripted
import Mathlib.Logic.Function.Basic
/-!
Debuggees that keep what is written to them. The traps need no more of memory than this: a stretch
that can be read once can always be read, and a byte that can be read can be written.
-/
namespace SourceDebugger

open Effect

section Memory

/-- So many bytes from an address on. -/
def stretch (memory : UInt64 → UInt8) (a : UInt64) (n : Nat) : Bytes :=
  (List.range n).map fun i => memory (a + UInt64.ofNat i)

@[simp] theorem length_stretch (memory : UInt64 → UInt8) (a : UInt64) (n : Nat) :
    (stretch memory a n).length = n := by simp [stretch]

variable {δ : Type} [Debuggee δ]

/-- How a debuggee comes out of having a byte written. -/
structure Wrote (fit : δ → Prop) (memory : δ → UInt64 → UInt8) (a : UInt64) (byte : UInt8)
    (d e : δ) : Prop where
  fit : fit e
  memory : memory e = Function.update (memory d) a byte
  decode : ∀ b code, Debuggee.decode e b code = Debuggee.decode d b code

/-- A debuggee that, as long as it is fit, keeps what is written to it. What it refuses to read it
always refuses, and a byte that it reads it also writes. -/
structure Remembers (fit : δ → Prop) (memory : δ → UInt64 → UInt8)
    (refused : UInt64 → Nat → Option Fault) : Prop where
  read (d : δ) (a : UInt64) (n : Nat) : fit d → Debuggee.read d a n = match refused a n with
    | none => .ok (stretch (memory d) a n)
    | some e => .error e
  write (d : δ) (a : UInt64) (byte : UInt8) : fit d → refused a 1 = none →
    ∃ e, (Debuggee.write a [byte] : Access δ Unit) d = (.ok (), e) ∧ Wrote fit memory a byte d e

variable {fit : δ → Prop} {memory : δ → UInt64 → UInt8} {refused : UInt64 → Nat → Option Fault}
  {d : δ} {a : UInt64}

/-- A byte written where it is already leaves everything as it is. -/
theorem Wrote.nothing (ready : fit d) (a : UInt64) : Wrote fit memory a (memory d a) d d :=
  ⟨ready, (Function.update_eq_self a (memory d)).symm, fun _ _ => rfl⟩

namespace TrapByte

variable {t : TrapByte}

theorem insert_fresh (remembers : Remembers fit memory refused) (ready : fit d)
    (allowed : refused t.address 1 = none) (fresh : t.inserted = false) :
    ∃ e, t.insert d = (({ t with covered := memory d t.address, inserted := true }, .ok ()), e) ∧
      Wrote fit memory t.address trapByte d e := by
  obtain ⟨e, written, wrote⟩ := remembers.write d t.address trapByte ready allowed
  have read : Debuggee.read d t.address 1 = .ok [memory d t.address] := by
    rw [remembers.read d _ _ ready, allowed]
    simp [stretch]
  refine ⟨e, ?_, wrote⟩
  simp only [insert, fresh, Bool.false_eq_true, if_false]
  rw [certain_bind, certain_get]
  dsimp only
  rw [read]
  dsimp only
  rw [certain_bind, written]
  rfl

theorem insert_present (there : t.inserted = true) : t.insert d = ((t, .ok ()), d) := by
  simp only [insert, there, if_true]
  rfl

theorem remove_present (remembers : Remembers fit memory refused) (ready : fit d)
    (allowed : refused t.address 1 = none) (there : t.inserted = true) :
    ∃ e, t.remove d = (({ t with inserted := false }, .ok ()), e) ∧
      Wrote fit memory t.address t.covered d e := by
  obtain ⟨e, written, wrote⟩ := remembers.write d t.address t.covered ready allowed
  refine ⟨e, ?_, wrote⟩
  simp only [remove, there, Bool.not_true, Bool.false_eq_true, if_false]
  rw [certain_bind, written]
  rfl

theorem remove_fresh (fresh : t.inserted = false) : t.remove d = ((t, .ok ()), d) := by
  simp only [remove, fresh, Bool.not_false, if_true]
  rfl

end TrapByte

end Memory

namespace Scripted

/-- The byte at an address, as the first region that has one has it. -/
def byteAt (s : Scripted) (a : UInt64) : UInt8 :=
  ((s.memory.find? (Region.covers · a 1)).bind fun r => r.bytes[r.offset a]?).getD 0

/-- Whether one region holds a stretch. -/
def refusal (base : UInt64) (size : Nat) (a : UInt64) (n : Nat) : Option Fault :=
  if n = 0 ∨ (base ≤ a ∧ a.toNat + n ≤ base.toNat + size) ∧ inAddressSpace a n then none
  else some (unmapped a)

variable {base : UInt64} {size : Nat} {s : Scripted}

theorem Willing.region (willing : s.Willing [(base, size)]) :
    ∃ r : Region, s.memory = [r] ∧ r.base = base ∧ r.bytes.length = size := by
  have extents := willing.extents
  rw [Scripted.extents] at extents
  obtain ⟨r, memory, here⟩ := List.map_eq_singleton_iff.mp extents
  exact ⟨r, memory, congrArg Prod.fst here, congrArg Prod.snd here⟩

theorem byteAt_region {r : Region} (memory : s.memory = [r]) {a : UInt64} (low : r.base ≤ a) :
    s.byteAt a = (r.bytes[a.toNat - r.base.toNat]?).getD 0 := by
  have low : r.base.toNat ≤ a.toNat := UInt64.le_iff_toNat_le.mp low
  rw [byteAt, memory]
  by_cases covered : r.covers a 1 = true
  · simp [covered, Region.offset]
  · have beyond : r.bytes.length ≤ a.toNat - r.base.toNat := by
      simp only [Region.covers, UInt64.le_iff_toNat_le, low, decide_true, Bool.true_and,
        decide_eq_true_eq] at covered
      omega
    simp [covered, beyond]

theorem load_region (willing : s.Willing [(base, size)]) (a : UInt64) (n : Nat) :
    s.load a n = match refusal base size a n with
      | none => .ok (stretch s.byteAt a n)
      | some e => .error e := by
  obtain ⟨r, memory, rfl, rfl⟩ := willing.region
  by_cases empty : n = 0
  · simp [load, refusal, empty, stretch]
  rw [load, if_neg empty, memory, refusal]
  by_cases within : r.base ≤ a ∧ a.toNat + n ≤ r.base.toNat + r.bytes.length
  · have covered : r.covers a n = true := by simp [Region.covers, within]
    cases space : inAddressSpace a n with
    | false => simp [covered, empty]
    | true =>
      have room : a.toNat + n < 2 ^ 64 := of_decide_eq_true space
      have low : r.base.toNat ≤ a.toNat := UInt64.le_iff_toNat_le.mp within.1
      have bytes : (r.bytes.drop (r.offset a)).take n = stretch s.byteAt a n := by
        apply List.ext_getElem?
        intro i
        by_cases inside : i < n
        · have place : (a + UInt64.ofNat i).toNat = a.toNat + i := by
            rw [UInt64.toNat_add, UInt64.toNat_ofNat_of_lt' (by simp [UInt64.size]; omega)]
            exact Nat.mod_eq_of_lt (by omega)
          have above : r.base ≤ a + UInt64.ofNat i := by
            rw [UInt64.le_iff_toNat_le, place]
            omega
          have there : a.toNat - r.base.toNat + i < r.bytes.length := by omega
          have same : a.toNat + i - r.base.toNat = a.toNat - r.base.toNat + i := by omega
          rw [stretch, List.getElem?_map, List.getElem?_range inside, Option.map_some,
            byteAt_region memory above, place, same, List.getElem?_take_of_lt inside,
            List.getElem?_drop, Region.offset, List.getElem?_eq_getElem there]
          rfl
        · have short : n ≤ i := Nat.le_of_not_lt inside
          rw [List.getElem?_eq_none (by simp; omega), List.getElem?_eq_none (by simpa using short)]
      simp [covered, within, bytes]
  · have uncovered : r.covers a n = false := by simpa [Region.covers] using within
    simp [uncovered, empty, within]

theorem byteAt_below {r : Region} (memory : s.memory = [r]) {a : UInt64} (below : ¬ r.base ≤ a) :
    s.byteAt a = 0 := by
  simp [byteAt, memory, Region.covers, below]

theorem store_region (willing : s.Willing [(base, size)]) (a : UInt64) (byte : UInt8)
    (allowed : refusal base size a 1 = none) :
    ∃ t, write a [byte] s = (.ok (), t) ∧ t.Willing [(base, size)] ∧
      t.byteAt = Function.update s.byteAt a byte := by
  obtain ⟨log, acted⟩ := act_willing (.write a [byte]) willing
  have kept := write_willing willing a [byte]
  obtain ⟨r, memory, rfl, rfl⟩ := willing.region
  obtain ⟨⟨low, high⟩, space⟩ :
      (r.base ≤ a ∧ a.toNat + 1 ≤ r.base.toNat + r.bytes.length) ∧ inAddressSpace a 1 = true := by
    simpa [refusal, and_assoc] using allowed
  have inside : r.offset a < r.bytes.length := by
    have low : r.base.toNat ≤ a.toNat := UInt64.le_iff_toNat_le.mp low
    rw [Region.offset]
    omega
  have set : overwrite r.bytes (r.offset a) [byte] = r.bytes.set (r.offset a) byte := by
    rw [List.set_eq_take_append_cons_drop, if_pos inside]
    simp [overwrite]
  let q : Region := { r with bytes := r.bytes.set (r.offset a) byte }
  have stored : storeRaw { s with log } a [byte] = .ok { s with memory := [q], log } := by
    have covered : r.covers a [byte].length = true := by simp [Region.covers, low, high]
    simp only [storeRaw, memory, overwriteIn, covered, if_true, set]
    exact if_pos space
  have written : write a [byte] s = (.ok (), { s with memory := [q], log }) := by
    rw [write, bind_ok acted, bind_ok (get_run _), stored]
    rfl
  rw [written] at kept
  refine ⟨_, written, kept, funext fun b => ?_⟩
  by_cases above : r.base ≤ b
  · rw [byteAt_region (r := q) rfl above]
    by_cases same : b = a
    · rw [same, Function.update_self]
      simp [q, Region.offset] at inside ⊢
      simp [inside]
    · have apart : r.offset a ≠ b.toNat - r.base.toNat := by
        have low : r.base.toNat ≤ a.toNat := UInt64.le_iff_toNat_le.mp low
        have above : r.base.toNat ≤ b.toNat := UInt64.le_iff_toNat_le.mp above
        have different : b.toNat ≠ a.toNat := fun h => same (UInt64.toNat.inj h)
        rw [Region.offset]
        omega
      rw [Function.update_of_ne same, byteAt_region memory above, List.getElem?_set_ne apart]
  · have other : b ≠ a := fun same => above (same ▸ low)
    rw [Function.update_of_ne other, byteAt_below memory above, byteAt_below (r := q) rfl above]

/-- A script in which nothing fails, with one region of memory, keeps what is written to it. -/
theorem remembers : Remembers (Willing [(base, size)]) byteAt (refusal base size) where
  read _ a n willing := load_region willing a n
  write s a byte willing allowed := by
    obtain ⟨t, written, kept, memory⟩ := store_region willing a byte allowed
    exact ⟨t, written, kept, memory, fun _ _ => rfl⟩

end Scripted
end SourceDebugger
