import SourceDebugger.Proofs.Machine.Data
import SourceDebugger.Proofs.Program.Records
import SourceDebugger.Proofs.Program.Slots
/-!
Frames that are filled. The slots of a frame hold what the record says of its activation; an instruction
that reaches nowhere into the frame leaves them alone, and one that writes a slot leaves the others
alone.
-/
namespace SourceDebugger.Machine

/-- Where the frame pointer of an activation stands once its frame is set up. -/
def Activation.base (c : Activation) : UInt64 := c.top - 16

theorem Activation.base_eq {c : Activation} {fp : UInt64} (sum : c.top.toNat = fp.toNat + 16) :
    c.base = fp := by
  have sixteen : (16 : UInt64).toNat = 16 := rfl
  refine UInt64.toNat.inj ?_
  rw [base, UInt64.toNat_sub_of_le _ _ (UInt64.le_iff_toNat_le.mpr (by omega))]
  omega

/-- A datum is of the type of a variable. -/
def Datum.Fits (d : Datum) (type : ValueType) : Prop :=
  ∃ t : VarType, t.valueType = type ∧ d.hasType t = true

theorem Datum.Fits.size {d : Datum} {type : ValueType} (fits : d.Fits type) :
    d.size = type.byteSize.toNat := by
  obtain ⟨t, rfl, typed⟩ := fits
  exact size_of_hasType typed

/-- The slots of a frame hold what has been stored there. Those of the first arguments hold what was
given for them until something is stored. -/
structure Filled (f : Function) (x : Machine) (fp : UInt64) (spilled : Nat) (h : Holding) : Prop where
  stored : ∀ v ∈ f.known, ∀ offset d, v.place = .frame offset → h.stored offset = some d →
    d.Fits v.type ∧ d.Lies x (fp + offset.toUInt64)
  given : ∀ index v offset d, index < spilled → f.parameters[index]? = some v →
    v.place = .frame offset → h.stored offset = none → h.given index = some d → d.Fits v.type →
      d.Lies x (fp + offset.toUInt64)

theorem filled_fresh (f : Function) (x : Machine) (fp : UInt64) (set : Nat → Option Datum) :
    Filled f x fp 0 (.fresh set) := by
  constructor
  · intro v known offset d place stored
    cases stored
  · intro index v offset d first
    exact absurd first (Nat.not_lt_zero _)

section Frames

variable {p : Program} {e : Executable} {rs : List Routine} {r q : Routine} {x y : Machine}
  {fp : UInt64} {n : Nat} {h : Holding}

theorem parameter_known {f : Function} {index : Nat} {v : VariableInfo}
    (found : f.parameters[index]? = some v) : v ∈ f.known :=
  List.mem_append_left _ (List.mem_of_getElem? found)

/-- A frame stays filled as long as the data in its slots stay. -/
theorem Filled.keep {f : Function} (filled : Filled f x fp n h)
    (lies : ∀ v ∈ f.known, ∀ offset (d : Datum), v.place = .frame offset → d.Fits v.type →
      d.Lies x (fp + offset.toUInt64) → d.Lies y (fp + offset.toUInt64)) : Filled f y fp n h := by
  constructor
  · intro v known offset d place stored
    obtain ⟨fits, there⟩ := filled.stored v known offset d place stored
    exact ⟨fits, lies v known offset d place fits there⟩
  · intro index v offset d first found place unstored given fits
    exact lies v (parameter_known found) offset d place fits
      (filled.given index v offset d first found place unstored given fits)

theorem Avoids.mono {low high below above : Nat} (avoids : Avoids x low high) (first : low ≤ below)
    (last : above ≤ high) : Avoids x below above := by
  intro i a n found reads
  have := avoids i a n found reads
  omega

theorem Datum.Lies.execute {d : Datum} {a : UInt64} (lies : d.Lies x a)
    (heap : HeapKept x (execute x).2) (avoids : Avoids x a.toNat (a.toNat + d.size)) :
    d.Lies (Machine.execute x).2 a :=
  lies.kept heap fun _ loaded => load_execute loaded avoids

/-- Instructions that reach nowhere into a frame leave it filled. -/
theorem Filled.execute (asm : Assembled p e rs) (member : r ∈ rs)
    (filled : Filled r.layout.function x fp n h)
    (room : r.layout.function.frame.toNat ≤ fp.toNat) (heap : HeapKept x (execute x).2)
    (avoids : Avoids x (fp.toNat - r.layout.function.frame.toNat) fp.toNat) :
    Filled r.layout.function (Machine.execute x).2 fp n h := by
  refine filled.keep fun v known offset d place fits lies => lies.execute heap ?_
  obtain ⟨_, low, top⟩ := slot_reach asm member fp room known place
  rw [fits.size]
  exact avoids.mono (by omega) (by omega)

theorem Deeper.apart {f : Function} {v w : VariableInfo} {offset other : Int64} (deeper : Deeper v w)
    (small : f.footprint < 2 ^ 62) (known : w ∈ f.known) (room : f.frame.toNat ≤ fp.toNat)
    (place : v.place = .frame offset) (below : w.place = .frame other) :
    (fp + other.toUInt64).toNat + w.type.byteSize.toNat ≤ (fp + offset.toUInt64).toNat := by
  obtain ⟨c, d, above, under, gap⟩ := deeper
  obtain ⟨depth, at_, _, inside⟩ := f.slot_known small known
  cases slotAt_injective (under.symm.trans at_)
  cases place.symm.trans above
  cases below.symm.trans under
  have upper := toNat_sub_small (a := fp) (d := c) (by omega)
  have lower := toNat_sub_small (a := fp) (d := d) (by omega)
  rw [slot_address, slot_address]
  omega

/-- An instruction that writes one slot leaves the others alone. -/
theorem avoids_beside (asm : Assembled p e rs) (member : r ∈ rs) {i : Instr} {v w : VariableInfo}
    {offset other : Int64} (found : x.executable.instrAt? x.registers.pc = some i)
    (room : r.layout.function.frame.toNat ≤ fp.toNat)
    (reads : i.accessed x.registers = some (fp + offset.toUInt64, v.type.byteSize.toNat))
    (one : v ∈ r.layout.function.known) (another : w ∈ r.layout.function.known) (apart : v ≠ w)
    (place : v.place = .frame offset) (beside : w.place = .frame other) :
    Avoids x (fp + other.toUInt64).toNat
      ((fp + other.toUInt64).toNat + w.type.byteSize.toNat) := by
  intro j a m there accessed
  cases found.symm.trans there
  cases reads.symm.trans accessed
  have small := asm.function_small member
  rcases r.layout.function.known_cases small one another with same | deeper | deeper
  · exact absurd same apart
  · exact .inr (deeper.apart small another room place beside)
  · exact .inl (deeper.apart small one room beside place)

/-- What is stored into a slot lies there, beside what lay in the others. -/
theorem Filled.store (asm : Assembled p e rs) (member : r ∈ rs)
    (filled : Filled r.layout.function x x.registers.fp n h) {offset : Int64} {d : Datum}
    {v : VariableInfo} {b : Bool}
    (found : x.executable.instrAt? x.registers.pc = some (.store offset d))
    (free : ¬ Blocked x (.store offset d)) (done : Machine.execute x = (.ok b, y))
    (heap : HeapKept x y) (room : heapBase.toNat + y.heap.size + r.layout.function.frame.toNat ≤
      x.registers.fp.toNat) (known : v ∈ r.layout.function.known) (place : v.place = .frame offset)
    (fits : d.Fits v.type) : Filled r.layout.function y x.registers.fp n (h.store offset d) := by
  have reads : (Instr.store offset d).accessed x.registers =
      some (x.registers.fp + offset.toUInt64, v.type.byteSize.toNat) := by
    rw [← fits.size]
    rfl
  have others (w : VariableInfo) (there : w ∈ r.layout.function.known) (other : Int64) (c : Datum)
      (beside : w.place = .frame other) (apart : other ≠ offset) (fits : c.Fits w.type)
      (lies : c.Lies x (x.registers.fp + other.toUInt64)) :
      c.Lies y (x.registers.fp + other.toUInt64) := by
    have same : (Machine.execute x).2 = y := by rw [done]
    subst same
    refine lies.execute heap ?_
    rw [fits.size]
    refine avoids_beside asm member found (by omega) reads known there (fun same => ?_) place beside
    subst same
    exact apart (Place.frame.inj (beside.symm.trans place))
  constructor
  · intro w there other c beside stored
    rw [Holding.stored_store] at stored
    by_cases same : other = offset
    · rw [if_pos same] at stored
      cases stored
      subst same
      cases r.layout.function.known_injective (asm.function_small member) there known
        (beside.trans place.symm)
      obtain ⟨_, low, _⟩ := slot_reach asm member x.registers.fp (by omega) known place
      exact ⟨fits, lies_store found free done (by omega)⟩
    · rw [if_neg same] at stored
      obtain ⟨fits, lies⟩ := filled.stored w there other c beside stored
      exact ⟨fits, others w there other c beside same fits lies⟩
  · intro index w other c first parameter beside unstored given fits
    rw [Holding.stored_store] at unstored
    by_cases same : other = offset
    · rw [if_pos same] at unstored
      cases unstored
    · rw [if_neg same] at unstored
      exact others w (parameter_known parameter) other c beside same fits
        (filled.given index w other c first parameter beside unstored given fits)

/-- An argument that is spilled lies in its slot, beside those spilled before. -/
theorem Filled.spill (asm : Assembled p e rs) (member : r ∈ rs) {set : Nat → Option Datum}
    {index : Nat} (filled : Filled r.layout.function x x.registers.fp index (.fresh set))
    {offset : Int64} {v : VariableInfo} {b : Bool}
    (found : x.executable.instrAt? x.registers.pc = some (.spill index offset v.type.byteSize))
    (free : ¬ Blocked x (.spill index offset v.type.byteSize))
    (done : Machine.execute x = (.ok b, y)) (heap : HeapKept x y)
    (room : heapBase.toNat + x.heap.size + r.layout.function.frame.toNat ≤ x.registers.fp.toNat)
    (parameter : r.layout.function.parameters[index]? = some v) (place : v.place = .frame offset)
    (passed : ∀ j d, set j = some d → Passed x j d) :
    Filled r.layout.function y x.registers.fp (index + 1) (.fresh set) := by
  have known := parameter_known parameter
  have small := asm.function_small member
  constructor
  · intro w there other c beside stored
    cases stored
  · intro j w other c first found' beside _ given fits
    by_cases last : j = index
    · subst last
      cases parameter.symm.trans found'
      cases place.symm.trans beside
      obtain ⟨_, low, _⟩ := slot_reach asm member x.registers.fp (by omega) known place
      exact lies_spill found free done (by omega) (passed j c given) fits.size
    · have lies := filled.given j w other c (by omega) found' beside rfl given fits
      have same : (Machine.execute x).2 = y := by rw [done]
      subst same
      refine lies.execute heap ?_
      rw [fits.size]
      refine avoids_beside asm member found (by omega) rfl known (parameter_known found')
        (fun same => last ?_) place beside
      subst same
      have nodup : r.layout.function.parameters.Nodup :=
        (r.layout.function.known_nodup small).of_append_left
      exact (List.getElem?_inj (List.getElem?_eq_some_iff.mp found').1 nodup).mp
        (found'.trans parameter.symm)

end Frames

end SourceDebugger.Machine
