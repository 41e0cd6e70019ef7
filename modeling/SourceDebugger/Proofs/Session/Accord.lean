import SourceDebugger.Proofs.Session.Watched
/-!
Breakpoints, traps and code never drift apart. Whatever a session is told to do, its traps are those
of its bound breakpoints and of the step that is on its way, they are all in memory, and without
them the code is the program's.
-/
namespace SourceDebugger

open Machine

namespace Traps

variable {ts : Traps} {x m : Machine} {a : UInt64} {bytes : Bytes}

/-- A trap that is inserted is found in memory. -/
theorem Over.load_trap (overlaid : ts.Over x m) {t : Trap} (found : ts.find? a = some t)
    (inserted : t.byte.inserted = true) (located : ∃ s, m.locate a 1 = .ok s) :
    m.load a 1 = .ok [trapByte] := by
  obtain ⟨d, rfl, laid⟩ := overlaid
  obtain ⟨s, there⟩ := located
  have place : x.locate a 1 = .ok s := (locate_on a 1).symm.trans there
  have spot : s ∈ d.spots := (laid.mem_iff place).mpr ⟨t, found, inserted⟩
  have inside := (locate_spot place).2
  have byte : (d.on x).peek s = trapByte := by
    rw [peek, region_on, overlay_getElem?, Array.getElem?_eq_getElem inside]
    exact if_pos spot
  rw [load_one, there]
  dsimp only
  rw [byte]

/-- What is read of the code through the table is the program's code. -/
theorem Over.mask_code {p : Program} {e : Executable} {rs : List Routine} (asm : Assembled p e rs)
    (compact : p.Compact) (overlaid : ts.Over x m) (code : x.code = e.code) :
    ∃ bytes, m.load codeBase e.code.size = .ok bytes ∧ ts.mask codeBase bytes = e.code.toList := by
  obtain ⟨d, rfl, laid⟩ := overlaid
  have below := code_below asm compact
  have limit : heapBase.toNat = 0x10000000 := rfl
  have located (offset n : Nat) (inside : offset + n ≤ e.code.size) :
      x.locate (codeBase + UInt64.ofNat offset) n = .ok (.code, offset) := by
    have place : (codeBase + UInt64.ofNat offset).toNat = codeBase.toNat + offset := by
      rw [UInt64.toNat_add, UInt64.toNat_ofNat', Nat.mod_eq_of_lt (a := offset) (by omega)]
      exact Nat.mod_eq_of_lt (by omega)
    rw [locate_code (by omega) (by rw [code, place]; omega) (by omega),
      UInt64.toNat_sub_of_le _ _ (UInt64.le_iff_toNat_le.mpr (by omega)), place,
      Nat.add_sub_cancel_left]
  by_cases none : e.code.size = 0
  · refine ⟨[], by rw [none]; rfl, ?_⟩
    rw [Array.eq_empty_of_size_eq_zero none]
    rfl
  have whole : (d.on x).locate codeBase e.code.size = .ok (.code, 0) :=
    (locate_on _ _).trans (located 0 e.code.size (by omega))
  refine ⟨_, load_located (by omega) whole, ?_⟩
  rw [region_on]
  change ts.mask codeBase ((overlay d.spots .code x.code).extract 0 (0 + e.code.size)).toList = _
  rw [code, Nat.zero_add, ← size_overlay d.spots .code e.code, Array.extract_size]
  refine List.ext_getElem? fun i => ?_
  rw [mask_getElem? (by rw [Array.length_toList, size_overlay]; omega), Array.getElem?_toList,
    overlay_getElem?, Array.getElem?_toList]
  by_cases inside : i < e.code.size
  · have byte : x.code[i]? = some e.code[i] := by
      rw [code]
      exact Array.getElem?_eq_getElem inside
    rw [← code, byte]
    exact congrArg some (covered_eq laid (located i 1 (by omega)) byte)
  · rw [Array.getElem?_eq_none (by omega)]
    rfl

end Traps

namespace Tidy

variable {bs : Breakpoints} {ts : Traps} {target : Option UInt64}

theorem contains_iff (tidy : Tidy bs ts target) (a : UInt64) :
    ts.contains a = true ↔ (∃ b ∈ bs.registered, b.address? = some a) ∨ target = some a := by
  have owners : ts.contains a = true ↔ ∃ o, ts.owners a = some o := by
    rw [Traps.contains, Option.isSome_iff_exists]
    simp [Traps.owners]
  rw [owners]
  constructor
  · rintro ⟨o, owned⟩
    rcases tidy.owned a o owned with users | steps
    · obtain ⟨id, user⟩ := List.exists_mem_of_ne_nil _ users
      obtain ⟨b, member, _, registered, place⟩ := tidy.users a o owned id user
      exact .inl ⟨b, Breakpoints.mem_registered.mpr ⟨member, registered⟩, place⟩
    · have count := tidy.steps a o owned
      by_cases here : target = some a
      · exact .inr here
      · rw [if_neg here] at count
        exact absurd count steps
  · rintro (⟨b, member, place⟩ | here)
    · obtain ⟨member, registered⟩ := Breakpoints.mem_registered.mp member
      obtain ⟨o, owned, _⟩ := tidy.bound b member registered a place
      exact ⟨o, owned⟩
    · exact tidy.target a here

theorem bound_iff (tidy : Tidy bs ts target) {b : Breakpoint} (member : b ∈ bs.registered)
    (a : UInt64) : b.address? = some a ↔ b.id ∈ ts.users a := by
  obtain ⟨inside, registered⟩ := Breakpoints.mem_registered.mp member
  rw [Traps.mem_users]
  constructor
  · exact tidy.bound b inside registered a
  · rintro ⟨o, owned, user⟩
    obtain ⟨c, other, same, _, place⟩ := tidy.users a o owned _ user
    cases tidy.unique other inside same
    exact place

theorem users_registered (tidy : Tidy bs ts target) {a : UInt64} {id : BreakpointId}
    (user : id ∈ ts.users a) : ∃ b ∈ bs.registered, b.id = id := by
  obtain ⟨o, owned, user⟩ := Traps.mem_users.mp user
  obtain ⟨b, member, same, registered, _⟩ := tidy.users a o owned id user
  exact ⟨b, Breakpoints.mem_registered.mpr ⟨member, registered⟩, same⟩

theorem steps_eq (tidy : Tidy bs ts target) {a : UInt64} {t : Trap} (found : ts.find? a = some t) :
    t.steps = if target = some a then 1 else 0 :=
  tidy.steps a (t.users, t.steps) (Traps.owners_eq_some.mpr ⟨t, found, rfl⟩)

end Tidy

namespace Session

open Traps

/-- Breakpoints, traps, the step and the code of a program agree. -/
structure Accord (e : Executable) (s : Session Machine) : Prop where
  /-- There are traps for the bound breakpoints and for where a step is running to. -/
  addresses : ∀ a, s.traps.contains a = true ↔
    (∃ b ∈ s.breakpoints.registered, b.address? = some a) ∨ s.goal.map (·.address) = some a
  /-- A breakpoint is bound where it owns a trap. -/
  bound : ∀ b ∈ s.breakpoints.registered, ∀ a, b.address? = some a ↔ b.id ∈ s.traps.users a
  users : ∀ a, ∀ id ∈ s.traps.users a, ∃ b ∈ s.breakpoints.registered, b.id = id
  /-- The step on its way owns one trap, once. -/
  steps : ∀ a t, s.traps.find? a = some t →
    t.steps = if s.goal.map (·.address) = some a then 1 else 0
  paused : s.state.isPaused = true → s.goal = none
  inserted : ∀ m, s.debuggee = some m → ∀ a, s.traps.contains a = true →
    m.load a 1 = .ok [trapByte]
  code : ∀ m, s.debuggee = some m → ∃ bytes, m.load codeBase e.code.size = .ok bytes ∧
    s.traps.mask codeBase bytes = e.code.toList
  detached : s.debuggee = none → s.traps.entries = [] ∧
    ∀ b ∈ s.breakpoints.items, b.address? = none

variable {p : Program} {e : Executable} {rs : List Routine} {config : Config} {s : Session Machine}
  {m : Machine}

theorem accord_of_sound (asm : Assembled p e rs) (typed : p.WellTyped) (compact : p.Compact)
    (sound : Sound (e.sight config) s m none) (paused : s.state.isPaused = true → s.goal = none) :
    s.Accord e where
  addresses := sound.tidy.contains_iff
  bound b member := sound.tidy.bound_iff member
  users a id user := sound.tidy.users_registered user
  steps a t found := sound.tidy.steps_eq found
  paused := paused
  inserted n attached a present := by
    cases sound.attached.symm.trans attached
    obtain ⟨_, x, calls, overlaid, _⟩ := sound.seen
    obtain ⟨t, found⟩ := Traps.contains_iff.mp present
    exact overlaid.load_trap found (sound.seated.inserted a t found) (sound.seated.located a t found)
  code n attached := by
    cases sound.attached.symm.trans attached
    obtain ⟨_, x, calls, overlaid, lived⟩ := sound.seen
    exact overlaid.mask_code asm compact (lived.framed asm typed compact).code
  detached gone := by
    rw [sound.attached] at gone
    cases gone

theorem accord_of_detached (detached : Detached s) : s.Accord e := by
  have goal : s.goal = none := by rw [Session.goal, detached.stepless]; rfl
  have tidy : Tidy s.breakpoints s.traps (s.goal.map (·.address)) := by
    rw [goal]
    exact detached.tidy
  refine ⟨tidy.contains_iff, fun b member => tidy.bound_iff member, fun a id => tidy.users_registered,
    fun a t => tidy.steps_eq, fun _ => goal, ?_, ?_, fun _ => ⟨?_, detached.unbound⟩⟩
  · intro m attached
    rw [detached.gone] at attached
    cases attached
  · intro m attached
    rw [detached.gone] at attached
    cases attached
  · refine List.eq_nil_iff_forall_not_mem.mpr fun t member => ?_
    have empty := detached.empty t.address
    rw [owners, Option.map_eq_none_iff, find?, List.find?_eq_none] at empty
    simpa using empty t member

theorem accord_of_ready (asm : Assembled p e rs) (typed : p.WellTyped) (compact : p.Compact)
    (ready : Ready (e.sight config) s none) : s.Accord e := by
  cases ready with
  | idle detached => exact accord_of_detached detached
  | paused sound rest stepless =>
    exact accord_of_sound asm typed compact sound fun _ => by rw [goal, stepless]; rfl
  | running sound running =>
    exact accord_of_sound asm typed compact sound fun paused => by rw [running] at paused; cases paused

theorem ready_after (asm : Assembled p e rs) (typed : p.WellTyped) (compact : p.Compact)
    (config : Config) (actions : List Action) :
    Ready (e.sight config) (after (e.host config) actions) none :=
  after_ready (sight_lasting asm typed compact config) rfl actions

end Session

end SourceDebugger
