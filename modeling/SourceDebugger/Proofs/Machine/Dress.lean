import SourceDebugger.Proofs.Machine.Turn
/-!
A machine as a debugger has dressed it: trap bytes laid over some spots of its memory, and a way of
driving it. An instruction does the same with the dress on as without it, as long as it reads and
writes none of the spots and no trap stands in its own place.
-/
namespace SourceDebugger.Machine

open Effect

/-- A byte of a region. -/
abbrev Spot := Region × Nat

def Spot.address (s : Spot) : Nat := s.1.base + s.2

/-- The bytes of a region with trap bytes at some of them. -/
def overlay (spots : List Spot) (r : Region) (bytes : Array UInt8) : Array UInt8 :=
  bytes.mapIdx fun i b => if (r, i) ∈ spots then trapByte else b

@[simp] theorem size_overlay (spots : List Spot) (r : Region) (bytes : Array UInt8) :
    (overlay spots r bytes).size = bytes.size := by simp [overlay]

theorem overlay_getElem? (spots : List Spot) (r : Region) (bytes : Array UInt8) (i : Nat) :
    (overlay spots r bytes)[i]? = bytes[i]?.map fun b => if (r, i) ∈ spots then trapByte else b := by
  simp [overlay]

@[simp] theorem overlay_nil (r : Region) (bytes : Array UInt8) : overlay [] r bytes = bytes := by
  refine Array.ext_getElem? fun i => ?_
  simp [overlay_getElem?]

theorem overlay_getElem?_free {spots : List Spot} {r : Region} {i : Nat} (free : (r, i) ∉ spots)
    (bytes : Array UInt8) : (overlay spots r bytes)[i]? = bytes[i]? := by
  rw [overlay_getElem?]
  cases bytes[i]? <;> simp [free]

theorem overlay_congr {spots others : List Spot} {r : Region}
    (same : ∀ i, (r, i) ∈ spots ↔ (r, i) ∈ others) (bytes : Array UInt8) :
    overlay spots r bytes = overlay others r bytes := by
  simp only [overlay, same]

theorem overlay_writeAt {spots : List Spot} {r : Region} {start : Nat} {new : Bytes}
    (clear : ∀ i, (r, i) ∈ spots → ¬ (start ≤ i ∧ i < start + new.length)) (bytes : Array UInt8) :
    overlay spots r (writeAt bytes start new) = writeAt (overlay spots r bytes) start new := by
  apply Array.ext_getElem?
  intro i
  rw [overlay_getElem?, writeAt_getElem?, writeAt_getElem?, size_overlay, overlay_getElem?]
  by_cases inside : start ≤ i ∧ i < start + new.length ∧ i < bytes.size
  · rw [if_pos inside, if_pos inside]
    have free : (r, i) ∉ spots := fun h => clear i h ⟨inside.1, inside.2.1⟩
    cases new[i - start]? <;> simp [free]
  · rw [if_neg inside, if_neg inside]

theorem overlay_append {spots : List Spot} {r : Region} {bytes : Array UInt8}
    (inside : ∀ i, (r, i) ∈ spots → i < bytes.size) (more : Bytes) :
    overlay spots r (bytes ++ more) = overlay spots r bytes ++ more := by
  apply Array.ext_getElem?
  intro i
  rw [overlay_getElem?, append_list_getElem?, append_list_getElem?, size_overlay,
    overlay_getElem?]
  by_cases within : i < bytes.size
  · rw [if_pos within, if_pos within]
  · rw [if_neg within, if_neg within]
    have free : (r, i) ∉ spots := fun h => within (inside i h)
    cases more[i - bytes.size]? <;> simp [free]

theorem overlay_extract {spots : List Spot} {r : Region} {start stop : Nat}
    (clear : ∀ i, (r, i) ∈ spots → ¬ (start ≤ i ∧ i < stop)) (bytes : Array UInt8) :
    (overlay spots r bytes).extract start stop = bytes.extract start stop := by
  apply Array.ext_getElem?
  intro i
  simp only [Array.getElem?_extract, size_overlay]
  split
  · rename_i inside
    exact overlay_getElem?_free (fun h => clear _ h ⟨by omega, by omega⟩) bytes
  · rfl

/-- What a debugger lays over a machine. -/
structure Dress where
  spots : List Spot
  /-- Events that were pending before. -/
  earlier : List Event
  motion : Motion
  interrupt : Bool

/-- The machine with the dress on. A stop or an end of its own stays. -/
def Dress.on (d : Dress) (x : Machine) : Machine :=
  { x with
    code := overlay d.spots .code x.code
    stack := overlay d.spots .stack x.stack
    heap := overlay d.spots .heap x.heap
    pending := d.earlier ++ x.pending
    motion := if x.motion = .running then d.motion else x.motion
    interruptRequested := d.interrupt }

/-- No spot lies in a stretch of addresses. -/
def Clear (spots : List Spot) (address : UInt64) (length : Nat) : Prop :=
  ∀ s ∈ spots, ¬ (address.toNat ≤ s.address ∧ s.address < address.toNat + length)

/-- All spots are in memory. -/
def Inside (spots : List Spot) (x : Machine) : Prop := ∀ s ∈ spots, s.2 < (x.region s.1).size

section On

variable {d : Dress} {x : Machine}

theorem region_on (r : Region) : (d.on x).region r = overlay d.spots r (x.region r) := by
  cases r <;> rfl

theorem locate_on (address : UInt64) (length : Nat) :
    (d.on x).locate address length = x.locate address length :=
  locate_congr (fun q => by rw [region_on, size_overlay]) address length

theorem load_on {address : UInt64} {length : Nat} (clear : Clear d.spots address length) :
    (d.on x).load address length = x.load address length := by
  simp only [load, locate_on]
  split
  · rfl
  · cases located : x.locate address length with
    | error e => rfl
    | ok place =>
      obtain ⟨r, offset⟩ := place
      have facts := locate_ok located
      have free : ∀ i, (r, i) ∈ d.spots → ¬ (offset ≤ i ∧ i < offset + length) := by
        intro i spot range
        refine clear (r, i) spot ?_
        simp only [Spot.address]
        omega
      show Except.ok _ = Except.ok _
      rw [region_on, overlay_extract free]

theorem write_on {r : Region} {offset : Nat} {bytes : Bytes}
    (clear : ∀ i, (r, i) ∈ d.spots → ¬ (offset ≤ i ∧ i < offset + bytes.length)) :
    (d.on x).write r offset bytes = d.on (x.write r offset bytes) := by
  cases r <;> simp only [write, Dress.on] <;> rw [overlay_writeAt clear] <;> rfl

theorem store_on {address : UInt64} {bytes : Bytes} (clear : Clear d.spots address bytes.length) :
    store address bytes (d.on x) = ((store address bytes x).1, d.on (store address bytes x).2) := by
  simp only [store_run, locate_on]
  cases located : x.locate address bytes.length with
  | error e => rfl
  | ok place =>
    obtain ⟨r, offset⟩ := place
    have facts := locate_ok located
    dsimp only
    rw [write_on]
    intro i spot range
    refine clear (r, i) spot ?_
    simp only [Spot.address]
    omega

end On

/-- The stretch of memory that an instruction reads or writes, other than at the end of the heap. -/
def Instr.accessed (regs : Registers) : Instr → Option (UInt64 × Nat)
  | .pushFrame | .call _ => some (regs.sp - 8, 8)
  | .spill _ offset size => some (regs.fp + offset.toUInt64, size.toNat)
  | .leave => some (regs.fp, 8)
  | .ret => some (regs.sp, 8)
  | .store offset datum => some (regs.fp + offset.toUInt64, datum.size)
  | _ => none

theorem on_grow {d : Dress} {x : Machine} (inside : Inside d.spots x) (more : Bytes) :
    { d.on x with heap := (d.on x).heap.appendList more } =
      d.on { x with heap := x.heap.appendList more } := by
  have heap : overlay d.spots .heap (x.heap.appendList more) =
      (overlay d.spots .heap x.heap).appendList more :=
    overlay_append (fun i spot => inside (.heap, i) spot) more
  simp only [Dress.on, heap]

theorem outcome_on {α : Type} {d : Dress} (b : Bool) (r : Except Fault α × Machine) :
    outcome b (r.1, d.on r.2) = ((outcome b r).1, d.on (outcome b r).2) := by
  rcases r with ⟨_ | _, _⟩ <;> rfl

theorem push_on {d : Dress} {x : Machine} {word : UInt64}
    (clear : Clear d.spots (x.registers.sp - 8) 8) :
    push word (d.on x) = ((push word x).1, d.on (push word x).2) := by
  rw [push_run, push_run]
  have length : (Bytes.ofWord word).length = 8 := Bytes.length_ofNat 8 _
  exact store_on (x := { x with registers := { x.registers with sp := x.registers.sp - 8 } })
    (length ▸ clear)

theorem length_argumentBytes (x : Machine) (index size : Nat) :
    (argumentBytes x index size).length = size := by
  simp only [argumentBytes, List.length_append, List.length_take, List.length_replicate]
  omega

theorem effect_on {d : Dress} {x : Machine} {i : Instr} {next : UInt64}
    (inside : Inside d.spots x)
    (clear : ∀ a n, i.accessed x.registers = some (a, n) → Clear d.spots a n) :
    effect next i (d.on x) = ((effect next i x).1, d.on (effect next i x).2) := by
  rw [effect_run, effect_run]
  cases i with
  | pushFrame =>
    dsimp only
    rw [← outcome_on, ← push_on (clear _ _ rfl)]
    rfl
  | spill index offset size =>
    dsimp only
    have free : Clear d.spots (x.registers.fp + offset.toUInt64)
        (argumentBytes x index size.toNat).length := by
      rw [length_argumentBytes]
      exact clear _ _ rfl
    rw [← outcome_on, ← store_on free]
    rfl
  | leave =>
    have same : (d.on x).load x.registers.fp 8 = x.load x.registers.fp 8 := load_on (clear _ _ rfl)
    rw [show (d.on x).registers = x.registers from rfl]
    rw [same]
    cases x.load x.registers.fp 8 <;> rfl
  | ret =>
    have same : (d.on x).load x.registers.sp 8 = x.load x.registers.sp 8 := load_on (clear _ _ rfl)
    dsimp only
    rw [show (d.on x).registers = x.registers from rfl]
    rw [same]
    cases x.load x.registers.sp 8 with
    | error e => rfl
    | ok bytes =>
      dsimp only
      split
      · simp [Dress.on]
      · rfl
  | call target =>
    dsimp only
    rw [push_on (clear _ _ rfl)]
    rcases push next x with ⟨_ | _, _⟩ <;> rfl
  | setArg index datum =>
    have size : (d.on x).heap.size = x.heap.size := size_overlay _ _ _
    have grown := on_grow inside datum.payload
    dsimp only
    rw [size]
    exact congrArg (fun m : Machine => (Except.ok false,
      { m with arguments := setArgument x.arguments index (datum.slot x.heap.size) })) grown
  | store offset datum =>
    have size : (d.on x).heap.size = x.heap.size := size_overlay _ _ _
    dsimp only
    have free : Clear d.spots (x.registers.fp + offset.toUInt64)
        (datum.slot x.heap.size).length := by
      rw [length_slot]
      exact clear _ _ rfl
    rw [size, on_grow inside, ← outcome_on, ← store_on free]
    rfl
  | load index =>
    dsimp only
    rw [show (d.on x).executable = x.executable from rfl]
    cases x.executable.libraries[index]? <;> simp [Dress.on]
  | setFrame | reserve | nop | «break» | jump => rfl
  | print | spawn | endThread | fault | exit => simp [Dress.on]

/-- An address that the instruction at the program counter reads or writes. -/
def Accesses (x : Machine) (address : Nat) : Prop :=
  ∃ i a n, x.executable.instrAt? x.registers.pc = some i ∧
    i.accessed x.registers = some (a, n) ∧ a.toNat ≤ address ∧ address < a.toNat + n

theorem accessed_stepped (i j : Instr) (x : Machine) :
    j.accessed (x.stepped i).registers = j.accessed x.registers := by cases j <;> rfl

/-- The spot of the program counter. -/
def place (x : Machine) : Spot := (.code, (x.registers.pc - codeBase).toNat)

theorem blocked_on {d : Dress} {x : Machine} {i : Instr} (free : x.place ∉ d.spots) :
    Blocked (d.on x) i ↔ Blocked x i := by
  have same : (d.on x).code[(x.registers.pc - codeBase).toNat]? =
      x.code[(x.registers.pc - codeBase).toNat]? := overlay_getElem?_free free x.code
  show (d.on x).code[(x.registers.pc - codeBase).toNat]? = some trapByte ∨ _ ↔ _
  rw [same]
  rfl

theorem execute_on {d : Dress} {x : Machine} (inside : Inside d.spots x)
    (clear : ∀ s ∈ d.spots, ¬ x.Accesses s.address)
    (free : x.place ∈ d.spots → x.executable.instrAt? x.registers.pc = none) :
    execute (d.on x) = ((execute x).1, d.on (execute x).2) := by
  have pc : (d.on x).registers = x.registers := rfl
  have executable : (d.on x).executable = x.executable := rfl
  rw [execute_run, execute_run, pc, executable]
  cases found : x.executable.instrAt? x.registers.pc with
  | none => simp [strayed, Dress.on]
  | some i =>
    have free : x.place ∉ d.spots := fun spot => by simp [free spot] at found
    dsimp only
    by_cases blocked : Blocked x i
    · rw [if_pos blocked, if_pos ((blocked_on free).mpr blocked)]
      simp [trapped, Dress.on]
    · rw [if_neg blocked, if_neg (mt (blocked_on free).mp blocked)]
      refine effect_on (x := x.stepped i) inside fun a n reads s spot range => ?_
      rw [accessed_stepped] at reads
      exact clear s spot ⟨i, a, n, found, reads, range.1, range.2⟩

/-- Where a trap is laid over an instruction, the machine stops behind the trap. -/
theorem execute_on_trap {d : Dress} {x : Machine} {i : Instr}
    (found : x.executable.instrAt? x.registers.pc = some i) (inside : Inside d.spots x)
    (trap : x.place ∈ d.spots) : execute (d.on x) = (.ok true, (d.on x).trapped) := by
  rw [execute_run]
  have pc : (d.on x).executable.instrAt? (d.on x).registers.pc = some i := found
  have byte : (d.on x).code[(x.registers.pc - codeBase).toNat]? = some trapByte := by
    have within : (x.registers.pc - codeBase).toNat < x.code.size := inside _ trap
    show (overlay d.spots .code x.code)[_]? = _
    rw [overlay_getElem?, Array.getElem?_eq_getElem within, Option.map_some]
    exact congrArg some (if_pos trap)
  rw [pc]
  exact if_pos (Or.inl byte)

section Spared

/-- A byte of memory stays. -/
def Spared (s : Spot) (x y : Machine) : Prop :=
  s.2 < (x.region s.1).size → (y.region s.1)[s.2]? = (x.region s.1)[s.2]?

theorem spared_of_regions {s : Spot} {x y : Machine} (same : ∀ r, y.region r = x.region r) :
    Spared s x y := fun _ => by rw [same]

theorem spared_store {s : Spot} {address : UInt64} {bytes : Bytes} {x : Machine}
    (clear : ¬ (address.toNat ≤ s.address ∧ s.address < address.toNat + bytes.length)) :
    Spared s x (store address bytes x).2 := by
  intro _
  rw [store_run]
  cases located : x.locate address bytes.length with
  | error e => rfl
  | ok place =>
    obtain ⟨r, offset⟩ := place
    have facts := locate_ok located
    by_cases same : s.1 = r
    · subst same
      simp only [Spot.address] at clear
      dsimp only
      rw [region_write_same, writeAt_getElem?, if_neg (by omega)]
    · dsimp only
      rw [region_write_other same]

theorem spared_grow {s : Spot} {x : Machine} (more : Bytes) :
    Spared s x { x with heap := x.heap.appendList more } := by
  intro within
  obtain ⟨r, i⟩ := s
  cases r with
  | heap =>
    show (x.heap ++ more)[i]? = _
    rw [append_list_getElem?]
    exact if_pos within
  | code | stack => rfl

theorem Spared.trans {s : Spot} {x y z : Machine} (first : Spared s x y)
    (grown : (x.region s.1).size ≤ (y.region s.1).size) (second : Spared s y z) : Spared s x z :=
  fun within => (second (Nat.lt_of_lt_of_le within grown)).trans (first within)

theorem effect_spared {s : Spot} {next : UInt64} {i : Instr} {x : Machine}
    (clear : ∀ a n, i.accessed x.registers = some (a, n) →
      ¬ (a.toNat ≤ s.address ∧ s.address < a.toNat + n)) : Spared s x (effect next i x).2 := by
  rw [effect_run]
  have word (w : UInt64) : (Bytes.ofWord w).length = 8 := Bytes.length_ofNat 8 _
  cases i with
  | pushFrame =>
    dsimp only
    rw [outcome_snd, push_run]
    exact spared_store (x := { x with registers := { x.registers with sp := x.registers.sp - 8 } })
      (word _ ▸ clear _ _ rfl)
  | spill index offset size =>
    dsimp only
    rw [outcome_snd]
    refine spared_store ?_
    rw [length_argumentBytes]
    exact clear _ _ rfl
  | leave => dsimp only; split <;> exact spared_of_regions fun r => by cases r <;> rfl
  | ret =>
    dsimp only
    split
    · split <;> exact spared_of_regions fun r => by cases r <;> rfl
    · exact fun _ => rfl
  | call target =>
    have pushed : Spared s x (push next x).2 := by
      rw [push_run]
      exact spared_store (x := { x with registers := { x.registers with sp := x.registers.sp - 8 } })
        (word _ ▸ clear _ _ rfl)
    dsimp only
    split
    · rename_i h
      rw [h] at pushed
      refine fun within => (Eq.trans ?_ (pushed within))
      cases s.1 <;> rfl
    · rename_i h
      rwa [h] at pushed
  | setArg index datum =>
    refine fun within => (Eq.trans ?_ (spared_grow (s := s) datum.payload within))
    cases s.1 <;> rfl
  | store offset datum =>
    dsimp only
    rw [outcome_snd]
    refine (spared_grow datum.payload).trans ?_ (spared_store ?_)
    · cases s.1 <;> simp [region]
    · rw [length_slot]
      exact clear _ _ rfl
  | load index => dsimp only; split <;> exact spared_of_regions fun r => by cases r <;> rfl
  | setFrame | reserve | nop | «break» | jump | print | spawn | endThread | fault | exit =>
    exact spared_of_regions fun r => by cases r <;> rfl

theorem execute_spared {s : Spot} {x : Machine} (clear : ¬ x.Accesses s.address) :
    Spared s x (execute x).2 := by
  rw [execute_run]
  split
  · exact spared_of_regions fun r => by cases r <;> rfl
  · rename_i i found
    split
    · exact spared_of_regions fun r => by cases r <;> rfl
    · refine fun within => (effect_spared (x := x.stepped i) ?_ ?_).trans ?_
      · intro a n reads range
        rw [accessed_stepped] at reads
        exact clear ⟨i, a, n, found, reads, range.1, range.2⟩
      · exact within
      · cases s.1 <;> rfl

end Spared

end SourceDebugger.Machine
