import SourceDebugger.Proofs.Stack.Sums
import SourceDebugger.Script
/-!
The frames of a walk, whatever the debuggee answers. Nothing is assumed of what lies in memory: the
chain of frame pointers may be garbage, run in circles or end at the end of the address space. A walk
follows it only as long as it rises.
-/
namespace SourceDebugger.CallStack

variable {δ : Type} [Debuggee δ] {ts : Traps} {d : δ} {r : Roster} {thread : ThreadId}
  {generation room index most : Nat} {regs c : Registers} {f : Frame}

/-- The last frame of a chain may have the frame pointer 0. -/
def IsBottom (frames : List Frame) (i : Nat) (f : Frame) : Prop :=
  f.fp = 0 ∧ i + 1 = frames.length

/-- Each frame lies above the ones before it, but for one with the frame pointer 0 at the end. -/
def Rising (frames : List Frame) : Prop :=
  ∀ i j f g, frames[i]? = some f → frames[j]? = some g → i < j →
    f.fp < g.fp ∨ IsBottom frames j g

/-- A caller with a complete frame lies higher, or is the last. -/
theorem caller_rises (found : caller? d .complete regs = some c) :
    regs.fp ≠ 0 ∧ regs.fp.toNat + 16 < 2 ^ 64 ∧ (regs.fp < c.fp ∨ c.fp = 0) := by
  unfold caller? unwind? at found
  by_cases bottom : regs.fp = 0
  · simp [bottom] at found
  simp only [if_neg bottom, Option.filter_eq_some_iff] at found
  obtain ⟨unwound, accepted⟩ := found
  refine ⟨bottom, ?_, ?_⟩
  · refine Nat.lt_of_not_le fun high => ?_
    rw [unwindFramed, if_pos high] at unwound
    cases unwound
  · simp only [BEq.rfl, Bool.true_and, Bool.and_eq_true, Bool.not_eq_true', Bool.and_eq_false_iff,
      bne_eq_false_iff_eq, decide_eq_false_iff_not, UInt64.not_le] at accepted
    exact accepted.2.symm

theorem caller_bottom (bottom : regs.fp = 0) : caller? d .complete regs = none := by
  cases found : caller? d .complete regs with
  | none => rfl
  | some c => exact absurd bottom (caller_rises found).1

section Steps

variable (ts d r thread generation regs) in
theorem frameAt_outer (outer : index ≠ 0) :
    (frameAt ts d r thread generation index regs).2 = .complete ∧
      (frameAt ts d r thread generation index regs).1.fp = regs.fp := by
  simp [frameAt, outer]

theorem framesFrom_last (stop : caller? d (frameAt ts d r thread generation index regs).2 regs = none) :
    framesFrom ts d r thread generation (room + 1) index regs =
      [(frameAt ts d r thread generation index regs).1] := by
  simp [framesFrom, stop]

theorem framesFrom_more
    (next : caller? d (frameAt ts d r thread generation index regs).2 regs = some c) :
    framesFrom ts d r thread generation (room + 1) index regs =
      (frameAt ts d r thread generation index regs).1 ::
        framesFrom ts d r thread generation room (index + 1) c := by
  simp [framesFrom, next]

end Steps

theorem length_framesFrom : (framesFrom ts d r thread generation room index regs).length ≤ room := by
  induction room generalizing index regs with
  | zero => simp [framesFrom]
  | succ room ih =>
    cases next : caller? d (frameAt ts d r thread generation index regs).2 regs with
    | none => simp [framesFrom_last next]
    | some c => simp [framesFrom_more next, ih]

theorem framesFrom_ne_nil : framesFrom ts d r thread generation (room + 1) index regs ≠ [] := by
  cases next : caller? d (frameAt ts d r thread generation index regs).2 regs with
  | none => simp [framesFrom_last next]
  | some c => simp [framesFrom_more next]

/-- Asked for fewer frames, a walk gives the first of them. -/
theorem framesFrom_take {fewer : Nat} (less : fewer ≤ room) :
    framesFrom ts d r thread generation fewer index regs =
      (framesFrom ts d r thread generation room index regs).take fewer := by
  induction fewer generalizing room index regs with
  | zero => simp [framesFrom]
  | succ fewer ih =>
    obtain ⟨room, rfl⟩ : ∃ n, room = n + 1 := ⟨room - 1, by omega⟩
    cases next : caller? d (frameAt ts d r thread generation index regs).2 regs with
    | none => simp [framesFrom_last next]
    | some c => simp [framesFrom_more next, ih (Nat.le_of_succ_le_succ less)]

theorem index_framesFrom {i : Nat}
    (there : (framesFrom ts d r thread generation room index regs)[i]? = some f) :
    f.index = index + i := by
  induction room generalizing index regs i with
  | zero => simp [framesFrom] at there
  | succ room ih =>
    cases next : caller? d (frameAt ts d r thread generation index regs).2 regs with
    | none =>
      rw [framesFrom_last next, List.getElem?_singleton] at there
      split at there
      · cases there
        simp [frameAt, *]
      · cases there
    | some c =>
      rw [framesFrom_more next] at there
      cases i with
      | zero =>
        cases there
        rfl
      | succ i =>
        have := ih there
        omega

section Outward

/-- From a caller with the frame pointer 0 there is no way on. -/
theorem framesFrom_bottom (outer : index ≠ 0) (bottom : regs.fp = 0) {i : Nat}
    (there : (framesFrom ts d r thread generation room index regs)[i]? = some f) :
    IsBottom (framesFrom ts d r thread generation room index regs) i f := by
  cases room with
  | zero => simp [framesFrom] at there
  | succ room =>
    obtain ⟨complete, fp⟩ := frameAt_outer ts d r thread generation regs outer
    rw [framesFrom_last (complete ▸ caller_bottom bottom)] at there ⊢
    have only : i < 1 := (List.getElem?_eq_some_iff.mp there).1
    obtain rfl : i = 0 := by omega
    cases there
    exact ⟨fp.trans bottom, rfl⟩

/-- What lies at a caller or above lies above the frame it was called from. -/
theorem beyond_caller (outer : index ≠ 0) (next : caller? d .complete regs = some c) {i : Nat}
    (there : (framesFrom ts d r thread generation room index c)[i]? = some f)
    (above : c.fp ≤ f.fp ∨ IsBottom (framesFrom ts d r thread generation room index c) i f) :
    regs.fp < f.fp ∨ IsBottom (framesFrom ts d r thread generation room index c) i f := by
  obtain ⟨_, _, higher | zero⟩ := caller_rises next
  · exact above.imp_left (UInt64.lt_of_lt_of_le higher)
  · exact .inr (framesFrom_bottom outer zero there)

/-- Frames outward from a caller lie where it is and above. -/
theorem framesFrom_above (outer : index ≠ 0) {i : Nat}
    (there : (framesFrom ts d r thread generation room index regs)[i]? = some f) :
    regs.fp ≤ f.fp ∨ IsBottom (framesFrom ts d r thread generation room index regs) i f := by
  induction room generalizing index regs i with
  | zero => simp [framesFrom] at there
  | succ room ih =>
    obtain ⟨complete, fp⟩ := frameAt_outer ts d r thread generation regs outer
    cases i with
    | zero =>
      have first : (frameAt ts d r thread generation index regs).1 = f := by
        cases next : caller? d (frameAt ts d r thread generation index regs).2 regs with
        | none => simpa [framesFrom_last next] using there
        | some c => simpa [framesFrom_more next] using there
      rw [← first, fp]
      exact .inl (UInt64.le_refl _)
    | succ i =>
      cases next : caller? d (frameAt ts d r thread generation index regs).2 regs with
      | none => simp [framesFrom_last next] at there
      | some c =>
        rw [framesFrom_more next] at there ⊢
        rw [complete] at next
        have more := Nat.succ_ne_zero index
        rcases beyond_caller more next there (ih more there) with low | ⟨zero, last⟩
        · exact .inl (UInt64.le_of_lt low)
        · exact .inr ⟨zero, congrArg (· + 1) last⟩

theorem rising_nil : Rising [] := fun _ _ _ _ h => by simp at h

theorem rising_singleton : Rising [f] := fun i j _ _ _ h less => by
  have last : j < 1 := (List.getElem?_eq_some_iff.mp h).1
  omega

theorem Rising.cons {frames : List Frame} (chain : Rising frames)
    (above : ∀ i g, frames[i]? = some g → f.fp < g.fp ∨ IsBottom frames i g) :
    Rising (f :: frames) := by
  intro i j a b fst snd less
  obtain ⟨j, rfl⟩ : ∃ n, j = n + 1 := ⟨j - 1, by omega⟩
  have bottom : IsBottom frames j b → IsBottom (f :: frames) (j + 1) b :=
    fun ⟨zero, last⟩ => ⟨zero, congrArg (· + 1) last⟩
  cases i with
  | zero =>
    cases fst
    exact (above j b snd).imp_right bottom
  | succ i => exact (chain i j a b fst snd (Nat.lt_of_succ_lt_succ less)).imp_right bottom

theorem rising_complete
    (complete : (frameAt ts d r thread generation index regs).2 = .complete)
    (fp : (frameAt ts d r thread generation index regs).1.fp = regs.fp)
    (rest : ∀ c, Rising (framesFrom ts d r thread generation room (index + 1) c)) :
    Rising (framesFrom ts d r thread generation (room + 1) index regs) := by
  cases next : caller? d (frameAt ts d r thread generation index regs).2 regs with
  | none =>
    rw [framesFrom_last next]
    exact rising_singleton
  | some c =>
    rw [framesFrom_more next]
    rw [complete] at next
    have more := Nat.succ_ne_zero index
    exact (rest c).cons fun i g there =>
      fp ▸ beyond_caller more next there (framesFrom_above more there)

theorem rising_outer (outer : index ≠ 0) :
    Rising (framesFrom ts d r thread generation room index regs) := by
  induction room generalizing index regs with
  | zero => exact rising_nil
  | succ room ih =>
    obtain ⟨complete, fp⟩ := frameAt_outer ts d r thread generation regs outer
    exact rising_complete complete fp fun c => ih (Nat.succ_ne_zero index)

/-- The address space has no room for a longer chain. -/
theorem length_outer (outer : index ≠ 0) :
    (framesFrom ts d r thread generation room index regs).length + max 1 regs.fp.toNat ≤ 2 ^ 64 := by
  have bound := regs.fp.toNat_lt
  -- Each caller but the last lies higher, and so leaves less of the address space to those behind it.
  induction room generalizing index regs with
  | zero => simp [framesFrom]; omega
  | succ room ih =>
    have complete := (frameAt_outer ts d r thread generation regs outer).1
    cases next : caller? d (frameAt ts d r thread generation index regs).2 regs with
    | none => simp [framesFrom_last next]; omega
    | some c =>
      rw [framesFrom_more next, List.length_cons]
      rw [complete] at next
      have more : index + 1 ≠ 0 := Nat.succ_ne_zero index
      obtain ⟨linked, below, higher | zero⟩ := caller_rises next
      · have positive : regs.fp.toNat ≠ 0 := fun h => linked (UInt64.toNat_inj.mp h)
        have rest := ih more c.fp.toNat_lt
        have := UInt64.lt_iff_toNat_lt.mp higher
        omega
      · have single : (framesFrom ts d r thread generation room (index + 1) c).length ≤ 1 := by
          cases frames : framesFrom ts d r thread generation room (index + 1) c with
          | nil => simp
          | cons f rest =>
            have bottom : IsBottom (framesFrom ts d r thread generation room (index + 1) c) 0 f :=
              framesFrom_bottom more zero (by simp [frames])
            rw [frames] at bottom
            exact Nat.le_of_eq bottom.2.symm
        omega

end Outward

section Walks

/-- What is found on a walk from registers, if it may find so many frames. The claims about sums are
those of the checked walk: with rows moved as they are moved here, and with rows of which that is
checked too, since a row may reach beyond its module. -/
structure Found (ts : Traps) (d : δ) (r : Roster) (thread : ThreadId) (most generation : Nat)
    (regs : Registers) (frames : List Frame) : Prop where
  walked : walk ts d r thread most generation = .ok frames
  nonempty : 0 < frames.length
  atMost : frames.length ≤ most
  bounded : frames.length ≤ 2 ^ 64
  indices : frames.map (·.index) = List.range frames.length
  callersRise : Rising (frames.drop 1)
  rise : innermostState ts d (siteAt r regs.pc) regs.pc = .complete → Rising frames
  first : ∀ fewer ≤ most, walk ts d r thread fewer generation = .ok (frames.take fewer)
  sums : (∀ m ∈ r.modules, m.Below) →
    Checked.walk (fun m a => some (m.lineAt? a)) ts d r thread most generation = some (.ok frames)
  rowSums : (∀ m ∈ r.modules, m.Below ∧ m.RowsBelow) →
    Checked.walk Checked.lineAt ts d r thread most generation = some (.ok frames)

theorem walk_eq (read : Debuggee.registers d thread = .ok regs) :
    walk ts d r thread most generation =
      .ok (framesFrom ts d r thread generation most 0 regs) := by
  rw [walk, read]
  rfl

variable (ts d r thread generation most regs) in
theorem callers_framesFrom :
    ∃ room c, (framesFrom ts d r thread generation most 0 regs).drop 1 =
      framesFrom ts d r thread generation room 1 c := by
  cases most with
  | zero => exact ⟨0, regs, rfl⟩
  | succ room =>
    cases next : caller? d (frameAt ts d r thread generation 0 regs).2 regs with
    | none => exact ⟨0, regs, by rw [framesFrom_last next]; rfl⟩
    | some c => exact ⟨room, c, by rw [framesFrom_more next]; rfl⟩

variable (thread generation) in
theorem frameAt_innermost
    (complete : innermostState ts d (siteAt r regs.pc) regs.pc = .complete) :
    (frameAt ts d r thread generation 0 regs).2 = .complete ∧
      (frameAt ts d r thread generation 0 regs).1.fp = regs.fp := by
  simp [frameAt, complete]

theorem indices_framesFrom : (framesFrom ts d r thread generation most 0 regs).map (·.index) =
    List.range (framesFrom ts d r thread generation most 0 regs).length := by
  refine List.ext_getElem (by simp) fun i inside _ => ?_
  rw [List.length_map] at inside
  simpa using index_framesFrom (List.getElem?_eq_getElem inside)

/-- Two frames of which each says that the other called it. -/
def loop : Scripted where
  pid := 1
  registers := [(1, ⟨0x1000, 0xf0, 0x100⟩)]
  memory := [⟨0x100, [0x10, 1, 0, 0, 0, 0, 0, 0, 0x20, 0x10, 0, 0, 0, 0, 0, 0,
    0, 1, 0, 0, 0, 0, 0, 0, 0x30, 0x10, 0, 0, 0, 0, 0, 0]⟩]
  moments := []
  failures := []
  log := []

/-- A module that ends where the address space does, but for one byte. -/
def lastModule : LoadedModule where
  path := "/lib/last"
  base := 0x1010
  size := 0xffffffffffffefef
  symbols := some ⟨⟨#[⟨0, 0x40, .line "last" 1⟩]⟩, ⟨#[]⟩, ⟨#[⟨"last", "last", 0, 0x100⟩]⟩⟩

theorem lastModule_below : lastModule.Below ∧ lastModule.RowsBelow := by
  refine ⟨⟨by decide, ?_⟩, ?_⟩
  · rintro s ⟨⟩ e there
    obtain rfl : e = ⟨"last", "last", 0, 0x100⟩ := by simpa using there
    decide
  · rintro s ⟨⟩ row there
    obtain rfl : row = ⟨0, 0x40, .line "last" 1⟩ := by simpa using there
    decide

end Walks

end SourceDebugger.CallStack
