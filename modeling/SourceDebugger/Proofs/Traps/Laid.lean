import SourceDebugger.Proofs.Traps.Memory
/-!
What traps leave of a machine. The machine without them is the same before and after every operation
on the table: only the spots change. A trap in the table lies in memory, and memory does not go
away, so only a new trap can fail.
-/
namespace SourceDebugger

open Machine

namespace Traps

open Instrumented

variable {ts : Traps} {x : Machine} {spots : List Spot} {a : UInt64} {t : Trap} {s : Spot}

/-- The spots are those of the inserted traps, each of which knows the byte it covers. -/
structure Laid (ts : Traps) (x : Machine) (spots : List Spot) : Prop where
  spot_iff : ∀ s, s ∈ spots ↔
    ∃ a t, ts.find? a = some t ∧ t.byte.inserted = true ∧ x.locate a 1 = .ok s
  covered : ∀ a t s, ts.find? a = some t → t.byte.inserted = true → x.locate a 1 = .ok s →
    t.byte.covered = x.peek s

theorem locate_spot {m : Machine} (located : m.locate a 1 = .ok s) :
    s.address = a.toNat ∧ s.2 < (m.region s.1).size := by
  obtain ⟨r, offset⟩ := s
  have facts := locate_ok located
  exact ⟨facts.1, by simpa [Nat.succ_le_iff] using facts.2.1⟩

theorem locate_injective {m : Machine} {b : UInt64} (here : m.locate a 1 = .ok s)
    (there : m.locate b 1 = .ok s) : a = b :=
  UInt64.toNat.inj ((locate_spot here).1.symm.trans (locate_spot there).1)

theorem Laid.inside (laid : Laid ts x spots) : Inside spots x := by
  intro s spot
  obtain ⟨a, t, _, _, located⟩ := (laid.spot_iff s).mp spot
  exact (locate_spot located).2

theorem Laid.mem_iff (laid : Laid ts x spots) (located : x.locate a 1 = .ok s) :
    s ∈ spots ↔ ∃ t, ts.find? a = some t ∧ t.byte.inserted = true := by
  rw [laid.spot_iff]
  constructor
  · rintro ⟨b, t, found, inserted, there⟩
    exact ⟨t, locate_injective there located ▸ found, inserted⟩
  · rintro ⟨t, found, inserted⟩
    exact ⟨a, t, found, inserted, located⟩

/-- Owners come and go without a trace in memory. -/
theorem Laid.update (laid : Laid ts x spots) {f : Trap → Trap} (keeps : ∀ t, (f t).byte = t.byte) :
    Laid (ts.update a f) x spots := by
  have address (t : Trap) (here : t.address = a) : (f t).address = a :=
    (congrArg TrapByte.address (keeps t)).trans here
  constructor
  · intro s
    rw [laid.spot_iff]
    refine exists_congr fun b => ?_
    rw [find?_update address]
    split
    · cases ts.find? b <;> simp [keeps]
    · rfl
  · intro b t s found inserted located
    rw [find?_update address] at found
    split at found
    · obtain ⟨u, before, rfl⟩ := Option.map_eq_some_iff.mp found
      rw [keeps] at inserted ⊢
      exact laid.covered b u s before inserted located
    · exact laid.covered b t s found inserted located

/-- With a trap at an address, its spot is covered. -/
theorem Laid.add (laid : Laid ts x spots) (located : x.locate a 1 = .ok s) {others : Traps}
    (elsewhere : ∀ b, b ≠ a → others.find? b = ts.find? b)
    (here : others.find? a = some t) (inserted : t.byte.inserted = true)
    (covers : t.byte.covered = x.peek s) : Laid others x (s :: spots) := by
  constructor
  · intro q
    rw [List.mem_cons, laid.spot_iff]
    constructor
    · rintro (rfl | ⟨b, u, found, there, place⟩)
      · exact ⟨a, t, here, inserted, located⟩
      · by_cases same : b = a
        · subst same
          exact ⟨b, t, here, inserted, place⟩
        · exact ⟨b, u, (elsewhere b same).trans found, there, place⟩
    · rintro ⟨b, u, found, there, place⟩
      by_cases same : b = a
      · subst same
        rw [located] at place
        exact .inl (Except.ok.inj place).symm
      · exact .inr ⟨b, u, (elsewhere b same).symm.trans found, there, place⟩
  · intro b u q found there place
    by_cases same : b = a
    · subst same
      rw [located] at place
      rw [here] at found
      cases found
      cases Except.ok.inj place
      exact covers
    · exact laid.covered b u q ((elsewhere b same).symm.trans found) there place

/-- Without the trap at an address, its spot is free. -/
theorem Laid.remove (laid : Laid ts x spots) (located : x.locate a 1 = .ok s) {others : Traps}
    (elsewhere : ∀ b, b ≠ a → others.find? b = ts.find? b)
    (gone : ∀ t, others.find? a = some t → t.byte.inserted = false) :
    Laid others x (spots.filter (· ≠ s)) := by
  constructor
  · intro q
    rw [List.mem_filter, laid.spot_iff]
    constructor
    · rintro ⟨⟨b, t, found, inserted, there⟩, other⟩
      have away : b ≠ a := by
        rintro rfl
        rw [located] at there
        simp [Except.ok.inj there] at other
      exact ⟨b, t, (elsewhere b away).trans found, inserted, there⟩
    · rintro ⟨b, t, found, inserted, there⟩
      have away : b ≠ a := by
        rintro rfl
        simp [gone t found] at inserted
      refine ⟨⟨b, t, (elsewhere b away).symm.trans found, inserted, there⟩, ?_⟩
      have different : q ≠ s := by
        rintro rfl
        exact away (locate_injective there located)
      simpa using different
  · intro b t q found inserted there
    have away : b ≠ a := by
      rintro rfl
      simp [gone t found] at inserted
    exact laid.covered b t q ((elsewhere b away).symm.trans found) inserted there

end Traps

namespace Machine

variable {d : Dress} {x : Machine} {ts : Traps}

/-- An instruction under a trap is not executed; any other is executed as on the machine without
traps, which touches none of their spots. -/
theorem execute_dressed (laid : Traps.Laid ts x d.spots) (clear : ∀ s ∈ d.spots, ¬ x.Accesses s.address) :
    (∃ t, ts.find? x.registers.pc = some t ∧ t.byte.inserted = true ∧
      (∃ i, x.executable.instrAt? x.registers.pc = some i) ∧
        execute (d.on x) = (.ok true, (d.on x).trapped)) ∨
      (x.place ∈ d.spots → x.executable.instrAt? x.registers.pc = none) ∧
        execute (d.on x) = ((execute x).1, d.on (execute x).2) := by
  by_cases spot : x.place ∈ d.spots
  · cases found : x.executable.instrAt? x.registers.pc with
    | none => exact .inr ⟨fun _ => rfl, execute_on laid.inside clear fun _ => found⟩
    | some i =>
      obtain ⟨a, t, present, inserted, located⟩ := (laid.spot_iff x.place).mp spot
      have above : codeBase ≤ x.registers.pc := by
        rw [Executable.instrAt?] at found
        split at found
        · cases found
        · rename_i low
          exact UInt64.not_lt.mp low
      have place := (Traps.locate_spot located).1
      have offset := UInt64.toNat_sub_of_le _ _ above
      have base : Region.code.base = codeBase.toNat := rfl
      have same : a = x.registers.pc := by
        simp only [Machine.place, Spot.address] at place
        rw [UInt64.le_iff_toNat_le] at above
        exact UInt64.toNat.inj (by omega)
      subst same
      exact .inl ⟨t, present, inserted, ⟨i, rfl⟩, execute_on_trap found laid.inside spot⟩
  · exact .inr ⟨fun h => absurd h spot, execute_on laid.inside clear fun h => absurd h spot⟩

end Machine

namespace Machine

variable {d : Dress} {x : Machine} {s : Spot}

theorem peek_on (free : s ∉ d.spots) : (d.on x).peek s = x.peek s := by
  simp only [peek, region_on]
  rw [overlay_getElem?_free (r := s.1) (i := s.2) free]

/-- Writing one byte changes which spots are covered at most at that byte. -/
theorem poke_on {b : UInt8} {others : List Spot} (within : s.2 < (x.region s.1).size)
    (here : b = if s ∈ others then trapByte else x.peek s)
    (elsewhere : ∀ q, q ≠ s → (q ∈ others ↔ q ∈ d.spots)) :
    (d.on x).poke s b = Dress.on { d with spots := others } x := by
  obtain ⟨r, i⟩ := s
  have written : writeAt (overlay d.spots r (x.region r)) i [b] =
      overlay others r (x.region r) := by
    apply Array.ext_getElem?
    intro j
    rw [writeAt_getElem?, overlay_getElem?, overlay_getElem?, size_overlay]
    by_cases same : j = i
    · subst same
      have inside : j < (x.region r).size := within
      simp only [peek, Array.getElem?_eq_getElem inside, Option.getD_some] at here
      simp [inside, here]
    · have outside : ¬ (i ≤ j ∧ j < i + [b].length ∧ j < (x.region r).size) := by simp; omega
      rw [if_neg outside]
      simp only [elsewhere (r, j) fun h => same (Prod.mk.inj h).2]
  have kept (q : Region) (other : q ≠ r) : overlay d.spots q (x.region q) =
      overlay others q (x.region q) :=
    overlay_congr (fun j => (elsewhere (q, j) fun h => other (Prod.mk.inj h).1).symm) _
  cases r with
  | code =>
    have stack := kept .stack (by decide)
    have heap := kept .heap (by decide)
    simp only [region] at written stack heap
    simp only [poke, write, Dress.on, written, stack, heap]
  | stack =>
    have code := kept .code (by decide)
    have heap := kept .heap (by decide)
    simp only [region] at written code heap
    simp only [poke, write, Dress.on, written, code, heap]
  | heap =>
    have code := kept .code (by decide)
    have stack := kept .stack (by decide)
    simp only [region] at written code stack
    simp only [poke, write, Dress.on, written, code, stack]

theorem poke_lay (within : s.2 < (x.region s.1).size) :
    (d.on x).poke s trapByte = Dress.on { d with spots := s :: d.spots } x :=
  poke_on within (by simp) fun q other => by simp [other]

theorem poke_clear (within : s.2 < (x.region s.1).size) :
    (d.on x).poke s (x.peek s) = Dress.on { d with spots := d.spots.filter (· ≠ s) } x :=
  poke_on within (by simp) fun q other => by simp [other]

end Machine

namespace Traps

/-- Every trap of the table is somewhere in memory, and all but a lifted one are inserted. -/
structure Seated (i : Instrumented Machine) (lifted : Option UInt64) : Prop where
  located : ∀ a t, i.traps.find? a = some t → ∃ s, i.debuggee.locate a 1 = .ok s
  inserted : ∀ a t, i.traps.find? a = some t → t.byte.inserted = !(lifted == some a)
  present : ∀ a, lifted = some a → i.traps.contains a = true

/-- From one to the other only bytes under traps were exchanged for what they cover, or back. -/
structure Repaint (i j : Instrumented Machine) : Prop where
  rest : ∃ code stack heap, j.debuggee = { i.debuggee with code, stack, heap }
  sizes : ∀ r, (j.debuggee.region r).size = (i.debuggee.region r).size
  laid : ∀ (d : Dress) (x : Machine), i.debuggee = d.on x → Laid i.traps x d.spots →
    ∃ spots, j.debuggee = Dress.on { d with spots } x ∧ Laid j.traps x spots

theorem Repaint.refl (i : Instrumented Machine) : Repaint i i :=
  ⟨⟨_, _, _, rfl⟩, fun _ => rfl, fun d _ h laid => ⟨d.spots, h, laid⟩⟩

theorem Repaint.trans {i j k : Instrumented Machine} (first : Repaint i j) (second : Repaint j k) :
    Repaint i k := by
  refine ⟨?_, fun r => (second.sizes r).trans (first.sizes r), fun d x h laid => ?_⟩
  · obtain ⟨_, _, _, h⟩ := first.rest
    obtain ⟨code, stack, heap, h'⟩ := second.rest
    exact ⟨code, stack, heap, by rw [h', h]⟩
  · obtain ⟨spots, h, laid⟩ := first.laid d x h laid
    exact second.laid { d with spots } x h laid

theorem Repaint.locate {i j : Instrumented Machine} (paint : Repaint i j) (a : UInt64) (n : Nat) :
    j.debuggee.locate a n = i.debuggee.locate a n := locate_congr paint.sizes a n

theorem repaint_poke {m : Machine} {ts ts' : Traps} {s : Spot} {b : UInt8}
    (laid : ∀ (d : Dress) (x : Machine), m = d.on x → Laid ts x d.spots →
      ∃ spots, m.poke s b = Dress.on { d with spots } x ∧ Laid ts' x spots) :
    Repaint ⟨ts, m⟩ ⟨ts', m.poke s b⟩ := by
  refine ⟨?_, fun r => by simp [poke], laid⟩
  obtain ⟨r, i⟩ := s
  cases r <;> exact ⟨_, _, _, rfl⟩

theorem repaint_update {i : Instrumented Machine} {a : UInt64} {f : Trap → Trap}
    (keeps : ∀ t, (f t).byte = t.byte) : Repaint i ⟨i.traps.update a f, i.debuggee⟩ :=
  ⟨⟨_, _, _, rfl⟩, fun _ => rfl, fun d _ h laid => ⟨d.spots, h, laid.update keeps⟩⟩

theorem Seated.update {i : Instrumented Machine} {lifted : Option UInt64} {a : UInt64}
    {f : Trap → Trap} (seated : Seated i lifted) (keeps : ∀ t, (f t).byte = t.byte) :
    Seated ⟨i.traps.update a f, i.debuggee⟩ lifted := by
  have address (t : Trap) (here : t.address = a) : (f t).address = a :=
    (congrArg TrapByte.address (keeps t)).trans here
  have before {b : UInt64} {t : Trap} (found : (i.traps.update a f).find? b = some t) :
      ∃ u, i.traps.find? b = some u ∧ t.byte = u.byte := by
    rw [find?_update address] at found
    split at found
    · obtain ⟨u, h, rfl⟩ := Option.map_eq_some_iff.mp found
      exact ⟨u, h, keeps u⟩
    · exact ⟨t, found, rfl⟩
  constructor
  · intro b t found
    obtain ⟨u, h, _⟩ := before found
    exact seated.located b u h
  · intro b t found
    obtain ⟨u, h, same⟩ := before found
    rw [same]
    exact seated.inserted b u h
  · intro b up
    obtain ⟨t, found⟩ := contains_iff.mp (seated.present b up)
    refine contains_iff.mpr ?_
    simp only [find?_update address]
    split
    · rename_i same
      subst same
      exact ⟨f t, by simp [found]⟩
    · exact ⟨t, found⟩

end Traps

namespace Instrumented

open Traps

variable {i : Instrumented Machine} {a : UInt64} {lifted : Option UInt64}

theorem Seated.of_sizes {ts : Traps} {m n : Machine}
    (sizes : ∀ r, (n.region r).size = (m.region r).size)
    (before : ∀ b u, ts.find? b = some u → (∃ s, m.locate b 1 = .ok s) ∧
      u.byte.inserted = !(lifted == some b))
    (present : ∀ b, lifted = some b → ts.contains b = true) : Seated ⟨ts, n⟩ lifted :=
  ⟨fun b u found => locate_congr sizes b 1 ▸ (before b u found).1,
    fun b u found => (before b u found).2, present⟩

/-- A new trap either cannot be inserted, and nothing happens, or has no owner yet. -/
theorem acquire_spec (seated : Seated i lifted) :
    (∃ e, acquire a i = (.error e, i)) ∨
      ∃ j, acquire a i = (.ok (), j) ∧ Repaint i j ∧ Seated j lifted ∧ ∀ b, j.traps.owners b =
        if b = a then some ((i.traps.owners a).getD ([], 0)) else i.traps.owners b := by
  rw [acquire_run]
  by_cases present : i.traps.contains a = true
  · rw [if_pos present]
    refine .inr ⟨i, rfl, .refl i, seated, fun b => ?_⟩
    obtain ⟨t, found⟩ := contains_iff.mp present
    split
    · rename_i same
      simp [owners, same, found]
    · rfl
  · rw [if_neg present]
    have absent : i.traps.contains a = false := by simpa using present
    cases located : i.debuggee.locate a 1 with
    | error e => exact .inl ⟨e, rfl⟩
    | ok s =>
      let t : Trap := ⟨⟨a, i.debuggee.peek s, true⟩, [], 0⟩
      have address : t.address = a := rfl
      refine .inr ⟨_, rfl, repaint_poke fun d x h laid => ?_, ?_, fun b => ?_⟩
      · have place : x.locate a 1 = .ok s := by rw [← locate_on (d := d), ← h, located]
        have free : s ∉ d.spots := by
          rw [laid.mem_iff place]
          rintro ⟨t, found, _⟩
          exact present (contains_iff.mpr ⟨t, found⟩)
        rw [h, peek_on free, poke_lay (locate_spot place).2]
        refine ⟨_, rfl, laid.add (t := ⟨⟨a, x.peek s, true⟩, [], 0⟩) place ?_ ?_ rfl rfl⟩
        · exact fun b away => (find?_insert _).trans (if_neg (Ne.symm away))
        · exact (find?_insert _).trans (if_pos rfl)
      · refine Seated.of_sizes (m := i.debuggee) (fun r => by simp [poke])
          (fun b u found => ?_) fun b up => ?_
        · rw [find?_insert t, address] at found
          split at found
          · rename_i same
            cases found
            refine ⟨⟨s, same ▸ located⟩, ?_⟩
            have other : (lifted == some b) = false := by
              refine beq_false_of_ne fun up => present ?_
              rw [same]
              exact seated.present b up
            rw [other]
            rfl
          · exact ⟨seated.located b u found, seated.inserted b u found⟩
        · obtain ⟨u, there⟩ := contains_iff.mp (seated.present b up)
          refine contains_iff.mpr ?_
          rw [find?_insert t]
          split
          · exact ⟨_, rfl⟩
          · exact ⟨u, there⟩
      · have none : i.traps.find? a = none := by simpa [contains] using absent
        show ((i.traps.insert t).find? b).map _ = _
        rw [find?_insert t, address]
        by_cases same : a = b
        · subst same
          simp [owners, none, t]
        · simp [owners, same, Ne.symm same]

theorem owned_spec {f : Trap → Trap} {g : Owners → Owners}
    {op : Access (Instrumented Machine) Unit}
    (run : ∀ i, op i = match acquire a i with
      | (.ok (), i) => (.ok (), ⟨i.traps.update a f, i.debuggee⟩)
      | (.error e, i) => (.error e, i)) (seated : Seated i lifted)
    (keeps : ∀ t, (f t).byte = t.byte)
    (does : ∀ t, ((f t).users, (f t).steps) = g (t.users, t.steps)) :
    (∃ e, op i = (.error e, i)) ∨
      ∃ j, op i = (.ok (), j) ∧ Repaint i j ∧ Seated j lifted ∧ ∀ b, j.traps.owners b =
        if b = a then some (g ((i.traps.owners a).getD ([], 0))) else i.traps.owners b := by
  rcases acquire_spec (a := a) seated with ⟨e, failed⟩ | ⟨j, done, paint, seated, owners⟩
  · exact .inl ⟨e, by rw [run, failed]⟩
  · refine .inr ⟨⟨j.traps.update a f, j.debuggee⟩, by rw [run, done],
      paint.trans (repaint_update keeps), seated.update keeps, fun b => ?_⟩
    rw [owners_update keeps does, owners, owners]
    by_cases same : b = a <;> simp [same]

/-- A breakpoint becomes an owner of the trap at an address. -/
theorem addUser_spec (id : BreakpointId) (seated : Seated i lifted) :
    (∃ e, addUser a id i = (.error e, i)) ∨
      ∃ j, addUser a id i = (.ok (), j) ∧ Repaint i j ∧ Seated j lifted ∧ ∀ b, j.traps.owners b =
        if b = a then some (((i.traps.owners a).getD ([], 0)).withUser id)
        else i.traps.owners b :=
  owned_spec (g := (·.withUser id)) (addUser_run a id) seated (fun _ => rfl) fun _ => rfl

/-- A step becomes an owner of the trap at an address. -/
theorem addStep_spec (seated : Seated i lifted) :
    (∃ e, addStep a i = (.error e, i)) ∨
      ∃ j, addStep a i = (.ok (), j) ∧ Repaint i j ∧ Seated j lifted ∧ ∀ b, j.traps.owners b =
        if b = a then some ((i.traps.owners a).getD ([], 0)).withStep else i.traps.owners b :=
  owned_spec (g := (·.withStep)) (addStep_run a) seated (fun _ => rfl) fun _ => rfl

theorem release_spec (seated : Seated i none) :
    ∃ j, release a i = (.ok (), j) ∧ Repaint i j ∧ Seated j none ∧ ∀ b, j.traps.owners b =
      if b = a then (i.traps.owners a).bind Owners.remaining else i.traps.owners b := by
  cases found : i.traps.find? a with
  | none =>
    have absent : i.traps.contains a = false := by simp [contains, found]
    refine ⟨i, release_absent absent, .refl i, seated, fun b => ?_⟩
    by_cases same : b = a <;> simp [same, owners, found]
  | some t =>
    obtain ⟨s, located⟩ := seated.located a t found
    have present : t.byte.inserted = true := seated.inserted a t found
    rw [release_run found present located]
    by_cases unused : t.isUnused = true
    · rw [if_pos unused]
      refine ⟨_, rfl, repaint_poke fun d x h laid => ?_, ?_, fun b => ?_⟩
      · have place : x.locate a 1 = .ok s := by rw [← locate_on (d := d), ← h, located]
        rw [h, laid.covered a t s found present place, poke_clear (locate_spot place).2]
        refine ⟨_, rfl, laid.remove place (fun b away => ?_) fun t gone => ?_⟩
        · rw [find?_erase, if_neg away]
        · simp [find?_erase] at gone
      · refine Seated.of_sizes (m := i.debuggee) (fun r => by simp [poke])
          (fun b u there => ?_) fun b up => (by cases up)
        rw [find?_erase] at there
        split at there
        · cases there
        · exact ⟨seated.located b u there, seated.inserted b u there⟩
      · have none : Owners.remaining (t.users, t.steps) = none := if_pos unused
        simp only [owners, find?_erase]
        by_cases same : b = a <;> simp [same, found, none]
    · rw [if_neg unused]
      have kept : Owners.remaining (t.users, t.steps) = some (t.users, t.steps) := if_neg unused
      refine ⟨i, rfl, .refl i, seated, fun b => ?_⟩
      by_cases same : b = a <;> simp [same, owners, found, kept]

theorem disowned_spec {f : Trap → Trap} {g : Owners → Owners}
    {op : Access (Instrumented Machine) Unit}
    (run : ∀ i, op i = release a ⟨i.traps.update a f, i.debuggee⟩) (seated : Seated i none)
    (keeps : ∀ t, (f t).byte = t.byte)
    (does : ∀ t, ((f t).users, (f t).steps) = g (t.users, t.steps)) :
    ∃ j, op i = (.ok (), j) ∧ Repaint i j ∧ Seated j none ∧ ∀ b, j.traps.owners b =
      if b = a then (i.traps.owners a).bind fun o => (g o).remaining else i.traps.owners b := by
  obtain ⟨j, done, paint, seated, owners⟩ := release_spec (a := a) (seated.update (a := a) keeps)
  refine ⟨j, by rw [run, done], (repaint_update keeps).trans paint, seated, fun b => ?_⟩
  rw [owners, owners_update keeps does, owners_update keeps does]
  by_cases same : b = a
  · cases i.traps.owners a <;> simp [same]
  · simp [same]

/-- A breakpoint is no longer an owner of the trap at an address. -/
theorem removeUser_spec (id : BreakpointId) (seated : Seated i none) :
    ∃ j, removeUser a id i = (.ok (), j) ∧ Repaint i j ∧ Seated j none ∧ ∀ b, j.traps.owners b =
      if b = a then (i.traps.owners a).bind fun o => (o.withoutUser id).remaining
      else i.traps.owners b :=
  disowned_spec (g := (·.withoutUser id)) (removeUser_run a id) seated (fun _ => rfl) fun _ => rfl

/-- A step is no longer an owner of the trap at an address. -/
theorem removeStep_spec (seated : Seated i none) :
    ∃ j, removeStep a i = (.ok (), j) ∧ Repaint i j ∧ Seated j none ∧ ∀ b, j.traps.owners b =
      if b = a then (i.traps.owners a).bind fun o => o.withoutStep.remaining
      else i.traps.owners b :=
  disowned_spec (g := (·.withoutStep)) (removeStep_run a) seated (fun _ => rfl) fun _ => rfl

/-- The byte under a trap comes back for a while. -/
theorem lift_spec (seated : Seated i none) (present : i.traps.contains a = true) :
    ∃ j, lift a i = (.ok (), j) ∧ Repaint i j ∧ Seated j (some a) ∧
      ∀ b, j.traps.owners b = i.traps.owners b := by
  obtain ⟨t, found⟩ := contains_iff.mp present
  obtain ⟨s, located⟩ := seated.located a t found
  have inserted : t.byte.inserted = true := seated.inserted a t found
  let u : Trap := { t with byte := { t.byte with inserted := false } }
  have address (v : Trap) (_ : v.address = a) : u.address = a := find?_address (t := t) found
  rw [lift_run found inserted located]
  refine ⟨_, rfl, repaint_poke fun d x h laid => ?_, ?_, fun b => ?_⟩
  · have place : x.locate a 1 = .ok s := by rw [← locate_on (d := d), ← h, located]
    rw [h, laid.covered a t s found inserted place, poke_clear (locate_spot place).2]
    refine ⟨_, rfl, laid.remove place (fun b away => ?_) fun v there => ?_⟩
    · rw [find?_update address, if_neg away]
    · rw [find?_update address, if_pos rfl, found] at there
      cases there
      rfl
  · refine Seated.of_sizes (m := i.debuggee) (fun r => by simp [poke])
      (fun b v there => ?_) fun b up => ?_
    · rw [find?_update address] at there
      split at there
      · rename_i same
        subst same
        rw [found] at there
        cases there
        exact ⟨⟨s, located⟩, by simp [u]⟩
      · rename_i away
        have other : (some a == some b) = false := by simpa using Ne.symm away
        exact ⟨seated.located b v there, other ▸ seated.inserted b v there⟩
    · cases up
      exact contains_iff.mpr ⟨u, by rw [find?_update address, if_pos rfl, found]; rfl⟩
  · exact owners_replace found (find?_address (t := t) found) rfl rfl

/-- What was lifted is put back. -/
theorem restore_spec (seated : Seated i (some a)) :
    ∃ j, restore a i = (.ok (), j) ∧ Repaint i j ∧ Seated j none ∧
      ∀ b, j.traps.owners b = i.traps.owners b := by
  obtain ⟨t, found⟩ := contains_iff.mp (seated.present a rfl)
  obtain ⟨s, located⟩ := seated.located a t found
  have absent : t.byte.inserted = false := by simpa using seated.inserted a t found
  let u : Trap :=
    { t with byte := { t.byte with covered := i.debuggee.peek s, inserted := true } }
  have address (v : Trap) (_ : v.address = a) : u.address = a := find?_address (t := t) found
  rw [restore_run found absent located]
  refine ⟨_, rfl, repaint_poke fun d x h laid => ?_, ?_, fun b => ?_⟩
  · have place : x.locate a 1 = .ok s := by rw [← locate_on (d := d), ← h, located]
    have free : s ∉ d.spots := by
      rw [laid.mem_iff place]
      rintro ⟨v, there, inserted⟩
      rw [found] at there
      cases there
      simp [absent] at inserted
    have same : i.debuggee.peek s = x.peek s := by rw [h, peek_on free]
    rw [h, poke_lay (locate_spot place).2, ← h]
    refine ⟨_, rfl, laid.add (t := u) place ?_ ?_ rfl same⟩
    · exact fun b away => by rw [find?_update address, if_neg away]
    · rw [find?_update address, if_pos rfl, found]
      rfl
  · refine Seated.of_sizes (m := i.debuggee) (fun r => by simp [poke])
      (fun b v there => ?_) fun b up => (by cases up)
    rw [find?_update address] at there
    split at there
    · rename_i same
      subst same
      rw [found] at there
      cases there
      exact ⟨⟨s, located⟩, rfl⟩
    · rename_i away
      have other : (some a == some b) = false := by simpa using Ne.symm away
      have flag := seated.inserted b v there
      rw [other] at flag
      exact ⟨seated.located b v there, flag⟩
  · exact owners_replace found (find?_address (t := t) found) rfl rfl

end Instrumented

end SourceDebugger
