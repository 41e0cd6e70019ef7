import SourceDebugger.Machine.Control
import SourceDebugger.Proofs.Effects
/-!
The memory of the machine. A stretch of addresses is located as a whole or not at all; where it lies
depends on the sizes of the regions only. Encoding a datum never fails, and what it puts on the heap
is a function of the datum alone.
-/
namespace SourceDebugger.Machine

open Effect

/-- The machine with bytes written into a region. -/
def write (m : Machine) (r : Region) (offset : Nat) (bytes : Bytes) : Machine :=
  match r with
  | .code => { m with code := writeAt m.code offset bytes }
  | .stack => { m with stack := writeAt m.stack offset bytes }
  | .heap => { m with heap := writeAt m.heap offset bytes }

@[simp] theorem size_writeAt (bytes : Array UInt8) (at_ : Nat) (new : Bytes) :
    (writeAt bytes at_ new).size = bytes.size := by
  induction new generalizing bytes at_ with
  | nil => rfl
  | cons b rest ih => simp [writeAt, ih]

theorem writeAt_getElem? (bytes : Array UInt8) (at_ : Nat) (new : Bytes) (i : Nat) :
    (writeAt bytes at_ new)[i]? =
      if at_ ≤ i ∧ i < at_ + new.length ∧ i < bytes.size then new[i - at_]? else bytes[i]? := by
  induction new generalizing bytes at_ with
  | nil =>
    have never : ¬ (at_ ≤ i ∧ i < at_ + ([] : Bytes).length ∧ i < bytes.size) := by simp; omega
    rw [writeAt, if_neg never]
  | cons b rest ih =>
    rw [writeAt, ih, Array.size_setIfInBounds, Array.getElem?_setIfInBounds]
    rcases Nat.lt_trichotomy i at_ with before | here | behind
    · rw [if_neg (by omega), if_neg (by omega), if_neg (by omega)]
    · subst here
      rw [if_neg (by omega), if_pos rfl]
      by_cases inside : i < bytes.size
      · simp [inside]
      · rw [if_neg inside, if_neg (by omega), Array.getElem?_eq_none (by omega)]
    · have shifted : i - at_ = (i - (at_ + 1)) + 1 := by omega
      rw [List.length_cons, if_neg (by omega : ¬ at_ = i), shifted, List.getElem?_cons_succ]
      exact ite_congr (propext (by omega)) (fun _ => rfl) (fun _ => rfl)

theorem writeAt_append (bytes : Array UInt8) (at_ : Nat) (new more : Bytes) :
    writeAt bytes at_ (new ++ more) = writeAt (writeAt bytes at_ new) (at_ + new.length) more := by
  induction new generalizing bytes at_ with
  | nil => rfl
  | cons b rest ih =>
    rw [List.cons_append, writeAt, ih, writeAt, List.length_cons, Nat.add_assoc, Nat.add_comm 1]

theorem extract_writeAt {bytes : Array UInt8} {at_ : Nat} {new : Bytes}
    (inside : at_ + new.length ≤ bytes.size) :
    ((writeAt bytes at_ new).extract at_ (at_ + new.length)).toList = new := by
  refine List.ext_getElem? fun i => ?_
  rw [Array.getElem?_toList, Array.getElem?_extract, writeAt_getElem?, size_writeAt]
  by_cases within : i < new.length
  · rw [if_pos (by omega), if_pos (by omega), Nat.add_sub_cancel_left]
  · rw [if_neg (by omega), List.getElem?_eq_none (by omega)]

theorem extract_writeAt_apart {bytes : Array UInt8} {at_ low high : Nat} {new : Bytes}
    (apart : high ≤ at_ ∨ at_ + new.length ≤ low) :
    (writeAt bytes at_ new).extract low high = bytes.extract low high := by
  refine Array.ext_getElem? fun i => ?_
  rw [Array.getElem?_extract, Array.getElem?_extract, size_writeAt]
  split
  · rw [writeAt_getElem?, if_neg (by omega)]
  · rfl

/-- The length is the upper word of a fat pointer. -/
theorem extract_fatPointer {bytes : Array UInt8} {at_ : Nat} (inside : at_ + 16 ≤ bytes.size)
    (a : UInt64) (length : Nat) :
    ((writeAt bytes at_ (fatPointer a length)).extract (at_ + 8) (at_ + 16)).toList =
      Bytes.ofNat 8 length := by
  have first : (Bytes.ofWord a).length = 8 := Bytes.length_ofNat 8 _
  have second : (Bytes.ofNat 8 length).length = 8 := Bytes.length_ofNat 8 _
  have whole : at_ + 16 = at_ + 8 + (Bytes.ofNat 8 length).length := by rw [second]
  rw [fatPointer, writeAt_append, first, whole]
  exact extract_writeAt (by rw [size_writeAt, second]; omega)

@[simp] theorem size_append_list {α : Type} (items : Array α) (more : List α) :
    (items ++ more).size = items.size + more.length := by
  rw [← Array.length_toList, Array.toList_appendList]
  simp

theorem append_list_getElem? {α : Type} (items : Array α) (more : List α) (i : Nat) :
    (items ++ more)[i]? = if i < items.size then items[i]? else more[i - items.size]? := by
  rw [← Array.getElem?_toList, Array.toList_appendList, List.getElem?_append]
  simp

section Regions

variable {m n : Machine} {r q : Region} {offset : Nat} {bytes : Bytes}

@[simp] theorem region_write_same :
    (m.write r offset bytes).region r = writeAt (m.region r) offset bytes := by cases r <;> rfl

theorem region_write_other (other : q ≠ r) :
    (m.write r offset bytes).region q = m.region q := by
  cases r <;> cases q <;> first | rfl | exact absurd rfl other

@[simp] theorem size_region_write :
    ((m.write r offset bytes).region q).size = (m.region q).size := by
  by_cases same : q = r
  · subst same; simp
  · rw [region_write_other same]

@[simp] theorem write_registers : (m.write r offset bytes).registers = m.registers := by
  cases r <;> rfl

@[simp] theorem write_executable : (m.write r offset bytes).executable = m.executable := by
  cases r <;> rfl

@[simp] theorem write_arguments : (m.write r offset bytes).arguments = m.arguments := by
  cases r <;> rfl

@[simp] theorem write_threads : (m.write r offset bytes).threads = m.threads := by
  cases r <;> rfl

@[simp] theorem write_pending : (m.write r offset bytes).pending = m.pending := by
  cases r <;> rfl

@[simp] theorem write_motion : (m.write r offset bytes).motion = m.motion := by
  cases r <;> rfl

@[simp] theorem write_interruptRequested :
    (m.write r offset bytes).interruptRequested = m.interruptRequested := by cases r <;> rfl

@[simp] theorem write_pendingSignal : (m.write r offset bytes).pendingSignal = m.pendingSignal := by
  cases r <;> rfl

/-- A stretch of addresses lies in a region. -/
def Holds (m : Machine) (address : UInt64) (length : Nat) (r : Region) : Prop :=
  r.base ≤ address.toNat ∧ address.toNat + length ≤ r.base + (m.region r).size

instance (m : Machine) (address : UInt64) (length : Nat) (r : Region) :
    Decidable (Holds m address length r) := inferInstanceAs (Decidable (_ ∧ _))

/-- Of regions that overlap, code comes first, and then the stack. -/
theorem locate_run (m : Machine) (address : UInt64) (length : Nat) :
    m.locate address length =
      if 2 ^ 64 ≤ address.toNat + length then .error (.addressOverflow address)
      else if Holds m address length .code then .ok (.code, address.toNat - Region.code.base)
      else if Holds m address length .stack then .ok (.stack, address.toNat - Region.stack.base)
      else if Holds m address length .heap then .ok (.heap, address.toNat - Region.heap.base)
      else .error (.unmapped address) := by
  have test : (fun r : Region => r.base ≤ address.toNat &&
      decide (address.toNat + length ≤ r.base + (m.region r).size)) =
        fun r => decide (Holds m address length r) := by
    funext r
    exact (Bool.decide_and _ _).symm
  simp only [locate, test, List.find?_cons, List.find?_nil]
  split
  · rfl
  · by_cases code : Holds m address length .code
    · simp [code]
    · by_cases stack : Holds m address length .stack
      · simp [code, stack]
      · by_cases heap : Holds m address length .heap <;> simp [code, stack, heap]

theorem locate_congr (sizes : ∀ q, (m.region q).size = (n.region q).size) (address : UInt64)
    (length : Nat) : m.locate address length = n.locate address length := by
  simp only [locate, sizes]

theorem locate_ok {address : UInt64} {length : Nat}
    (located : m.locate address length = .ok (r, offset)) :
    r.base + offset = address.toNat ∧ offset + length ≤ (m.region r).size ∧
      address.toNat + length < 2 ^ 64 := by
  simp only [locate] at located
  split at located
  · cases located
  · split at located
    · rename_i fits q found
      obtain ⟨rfl, rfl⟩ := Prod.mk.inj (Except.ok.inj located)
      have holds := List.find?_some found
      simp only [Bool.and_eq_true, decide_eq_true_eq] at holds
      omega
    · cases located

end Regions

theorem store_run (address : UInt64) (bytes : Bytes) (m : Machine) :
    store address bytes m = match m.locate address bytes.length with
      | .ok (r, offset) => (.ok (), m.write r offset bytes)
      | .error e => (.error e, m) := by
  rw [store, bind_run, look_run]
  rcases m.locate address bytes.length with e | ⟨r, offset⟩
  · rfl
  · cases r <;> rfl

theorem setPc_run (pc : UInt64) (m : Machine) :
    setPc pc m = (.ok (), { m with registers := { m.registers with pc } }) := rfl

theorem setSp_run (sp : UInt64) (m : Machine) :
    setSp sp m = (.ok (), { m with registers := { m.registers with sp } }) := rfl

theorem setFp_run (fp : UInt64) (m : Machine) :
    setFp fp m = (.ok (), { m with registers := { m.registers with fp } }) := rfl

theorem push_run (word : UInt64) (m : Machine) :
    push word m = store (m.registers.sp - 8) (Bytes.ofWord word)
      { m with registers := { m.registers with sp := m.registers.sp - 8 } } := by
  rw [push, bind_ok (get_run m), bind_ok (setSp_run _ m)]

theorem pop_run (m : Machine) :
    pop m = match m.load m.registers.sp 8 with
      | .ok bytes => (.ok (UInt64.ofNat (Bytes.toNat bytes)),
          { m with registers := { m.registers with sp := m.registers.sp + 8 } })
      | .error e => (.error e, m) := by
  rw [pop, bind_ok (get_run m), bind_run, look_run]
  cases m.load m.registers.sp 8 with
  | error e => rfl
  | ok bytes => exact bind_ok (setSp_run _ m)

/-- What a slot of a datum holds when the heap has a size. -/
def Datum.slot (heapSize : Nat) : Datum → Bytes
  | .int n => Bytes.ofNat 4 n.toUInt32.toNat
  | .bool b => [if b then 1 else 0]
  | .text none => fatPointer 0 0
  | .text (some s) => fatPointer (heapBase + UInt64.ofNat heapSize) s.toUTF8.data.toList.length
  | .ints ns => fatPointer (heapBase + UInt64.ofNat heapSize) ns.length
  | .object none => Bytes.ofWord 0
  | .object (some _) => Bytes.ofWord (heapBase + UInt64.ofNat heapSize)

/-- Whole words. -/
def padded (bytes : Bytes) : Bytes := bytes ++ List.replicate ((8 - bytes.length % 8) % 8) 0

/-- What a datum puts on the heap. -/
def Datum.payload : Datum → Bytes
  | .text (some s) => padded s.toUTF8.data.toList
  | .ints ns => padded (ns.flatMap fun n => Bytes.ofNat 4 n.toUInt32.toNat)
  | .object (some bytes) => padded bytes
  | _ => []

/-- How many bytes of a slot a datum takes. -/
def Datum.size : Datum → Nat
  | .int _ => 4
  | .bool _ => 1
  | .text _ | .ints _ => 16
  | .object _ => 8

theorem alloc_run (bytes : Bytes) (m : Machine) :
    alloc bytes m = (.ok (heapBase + UInt64.ofNat m.heap.size),
      { m with heap := m.heap.appendList (padded bytes) }) := by
  rw [alloc, bind_ok (get_run m), bind_ok (modify_run _ m)]
  rfl

theorem encode_run (datum : Datum) (m : Machine) :
    encode datum m =
      (.ok (datum.slot m.heap.size), { m with heap := m.heap.appendList datum.payload }) := by
  cases datum with
  | int n => simp [encode, Datum.slot, Datum.payload]
  | bool b => simp [encode, Datum.slot, Datum.payload]
  | text s =>
    cases s with
    | none => simp [encode, Datum.slot, Datum.payload]
    | some s => simp [encode, alloc_run, Datum.slot, Datum.payload]
  | ints ns => simp [encode, alloc_run, Datum.slot, Datum.payload]
  | object bytes =>
    cases bytes with
    | none => simp [encode, Datum.slot, Datum.payload]
    | some bytes => simp [encode, alloc_run, Datum.slot, Datum.payload]

theorem length_slot (datum : Datum) (heapSize : Nat) : (datum.slot heapSize).length = datum.size := by
  rcases datum with n | b | (_ | s) | ns | (_ | bytes) <;>
    simp [Datum.slot, Datum.size, fatPointer, Bytes.ofWord, Bytes.length_ofNat]

end SourceDebugger.Machine
