import SourceDebugger.Proofs.Session.Commands
import SourceDebugger.Proofs.Session.Overrun
/-!
Breakpoints, traps, steps and code agree after whatever is done, if a program stores in its variables
what they are declared for. A program that does not can write a trap over its own code.
-/
namespace SourceDebugger.Session

open Machine Traps

variable {p : Program} {e : Executable}

/-- Whatever is done, breakpoints, traps, steps and code agree after it. -/
theorem accord_after (built : p.assemble = .ok e) (typed : p.WellTyped) (compact : p.Compact)
    (config : Config) (actions : List Action) : (after (e.host config) actions).Accord e := by
  obtain ⟨rs, asm⟩ := assemble_ok built
  exact accord_of_ready asm typed compact (ready_after asm typed compact config actions)

theorem accord_after_errand :
    errandPaused.state = .paused .breakpoint mainThread ∧ errandPaused.Accord errandCode :=
  ⟨errandPaused_state, accord_after errand_built (by decide) (by decide +kernel) .standard
    [.add (.address 0x400010), .start ⟨"/bin/errand", "/", []⟩, .pump 0]⟩

theorem overrunStart_bare : (overrunStart []).traps.entries = [] := by decide +kernel

theorem overrunStart_entered : ∃ x, Entered (overrunStart []) x :=
  entered_start rfl (by decide +kernel)

/-- There is no trap in the table, but one in the code. -/
theorem Entered.discords {s : Session Machine} {x : Machine} (entered : Entered s x)
    (bare : s.traps.entries = []) (millis : Nat) :
    ¬ (s.perform (.pump millis)).Accord (overrunCode longText) := by
  intro accord
  obtain ⟨S, H, alone, _⟩ := entered.breaks bare millis
  obtain ⟨bytes, loaded, masked⟩ := accord.code _ alone.attached
  have size : x.code.size = 0x52 := entered.code.trans (size_overrun longText)
  have code := overwritten_code x S H
  generalize x.overwritten S H = m at *
  have wide : m.code.size = 0x52 := by rw [code, size_writeAt, size]
  have located : m.locate codeBase 0x52 = .ok (.code, 0) :=
    locate_code (Nat.le_refl _) (by omega) (by decide)
  rw [size_overrun, load_located (by decide) located] at loaded
  have written : bytes[0x22]? = some 0xCC := by
    rw [← Except.ok.inj loaded, Array.getElem?_toList]
    show (m.code.extract 0 (0 + 0x52))[0x22]? = _
    rw [code, Array.getElem?_extract, if_pos (by rw [size_writeAt]; omega), writeAt_getElem?,
      if_pos ⟨Nat.le_refl 0x22, show 0x22 < 0x22 + 4 by decide, by omega⟩]
    rfl
  have untouched : (overrunCode longText).code.toList[0x22]? ≠ some 0xCC := by
    rw [Array.getElem?_toList]
    decide +kernel
  have long : bytes.length = 0x52 := by
    have same := congrArg List.length masked
    rw [Traps.length_mask] at same
    exact same.trans (Array.length_toList.trans (size_overrun longText))
  have plain (a : UInt64) (b : UInt8) : (s.perform (.pump millis)).traps.covered a b = b := by
    rw [Traps.covered, Traps.find?, alone.bare]
    rfl
  have read : ((s.perform (.pump millis)).traps.mask codeBase bytes)[0x22]? =
      (overrunCode longText).code.toList[0x22]? := by rw [masked]
  rw [Traps.mask_getElem? (by rw [long]; decide), written, Option.map_some, plain] at read
  exact untouched read.symm

/-- A program that stores what a variable is not declared for. -/
theorem accord_not_overrun : (overrun longText).assemble = .ok (overrunCode longText) ∧
    (overrun longText).Compact ∧
      ¬ (after ((overrunCode longText).host .standard)
        [.start ⟨"/bin/overrun", "/", []⟩, .pump 0]).Accord (overrunCode longText) := by
  obtain ⟨x, entered⟩ := overrunStart_entered
  have discords := entered.discords overrunStart_bare 0
  rw [overrunStart, after, List.foldl_nil] at discords
  refine ⟨overrun_built longText, by decide +kernel, ?_⟩
  rw [after, List.foldl_cons, List.foldl_cons, List.foldl_nil]
  exact discords

end SourceDebugger.Session
