import SourceDebugger.Proofs.Machine.Words
/-!
Data in memory. A datum lies where its slot can be read, with what the slot points to on the heap. It
stays there as long as nothing is written over it; the heap only grows.
-/
namespace SourceDebugger.Machine

open Effect

/-- Bytes lie on a heap, from a place on. -/
structure Backed (heap : Array UInt8) (start : Nat) (bytes : Bytes) : Prop where
  room : start + bytes.length ≤ heap.size
  same : ∀ j b, bytes[j]? = some b → heap[start + j]? = some b

/-- A datum lies at an address, and what it points to on the heap. -/
def Datum.Lies (x : Machine) (a : UInt64) (d : Datum) : Prop :=
  ∃ start, x.load a d.size = .ok (d.slot start) ∧ Backed x.heap start d.payload

/-- An argument is set for the next call. -/
def Passed (x : Machine) (index : Nat) (d : Datum) : Prop :=
  ∃ start, x.arguments[index]? = some (d.slot start) ∧ Backed x.heap start d.payload

/-- What was on the heap is still there. -/
def HeapKept (x y : Machine) : Prop := ∀ j < x.heap.size, y.heap[j]? = x.heap[j]?

section Data

variable {x y : Machine} {a : UInt64} {d : Datum}

/-- A heap from which nothing is lost does not shrink. -/
theorem HeapKept.size (kept : HeapKept x y) : x.heap.size ≤ y.heap.size := by
  rcases Nat.eq_zero_or_pos x.heap.size with none | some
  · omega
  · have inside : x.heap.size - 1 < x.heap.size := by omega
    have last := kept _ inside
    rw [Array.getElem?_eq_getElem inside] at last
    obtain ⟨inside, _⟩ := Array.getElem?_eq_some_iff.mp last
    exact Nat.le_of_pred_lt inside

theorem Backed.kept {start : Nat} {bytes : Bytes} (backed : Backed x.heap start bytes)
    (kept : HeapKept x y) : Backed y.heap start bytes := by
  refine ⟨Nat.le_trans backed.room kept.size, fun j b there => ?_⟩
  have found := backed.same j b there
  rw [kept _ (Array.getElem?_eq_some_iff.mp found).1, found]

theorem Datum.Lies.kept (lies : d.Lies x a) (kept : HeapKept x y)
    (loads : ∀ bytes, x.load a d.size = .ok bytes → y.load a d.size = .ok bytes) : d.Lies y a := by
  obtain ⟨start, loaded, backed⟩ := lies
  exact ⟨start, loads _ loaded, backed.kept kept⟩

theorem Passed.kept {index : Nat} (passed : Passed x index d) (kept : HeapKept x y)
    (same : y.arguments[index]? = x.arguments[index]?) : Passed y index d := by
  obtain ⟨start, there, backed⟩ := passed
  exact ⟨start, same.trans there, backed.kept kept⟩

/-- What a datum points to is put at the end of the heap. -/
theorem backed_grown (heap : Array UInt8) (bytes : Bytes) :
    Backed (heap.appendList bytes) heap.size bytes := by
  refine ⟨Nat.le_of_eq (size_append_list heap bytes).symm, fun j b there => ?_⟩
  show (heap ++ bytes)[_]? = _
  rw [append_list_getElem?, if_neg (by omega), Nat.add_sub_cancel_left, there]

/-- Instructions that reach nowhere into the heap leave it as it is. -/
theorem heapKept_execute (low : ∀ j < x.heap.size, ¬ x.Accesses (heapBase.toNat + j)) :
    HeapKept x (execute x).2 :=
  fun j inside => execute_spared (s := (.heap, j)) (low j inside) inside

end Data

section Growth

/-- What an instruction puts on the heap. -/
def Instr.payload : Instr → Bytes
  | .setArg _ d | .store _ d => d.payload
  | _ => []

theorem heap_store (a : UInt64) (bytes : Bytes) (m : Machine) :
    (store a bytes m).2.heap.size = m.heap.size := by
  rw [store_run]
  rcases m.locate a bytes.length with e | ⟨r, offset⟩
  · rfl
  · cases r <;> simp [write]

/-- The heap grows by what an instruction puts there, also if the instruction fails. -/
theorem heap_effect (next : UInt64) (i : Instr) (m : Machine) :
    (effect next i m).2.heap.size = m.heap.size + i.payload.length := by
  rw [effect_run]
  cases i with
  | pushFrame => dsimp only; rw [outcome_snd, push_run]; exact heap_store _ _ _
  | spill => dsimp only; rw [outcome_snd]; exact heap_store _ _ _
  | store offset d =>
    dsimp only
    rw [outcome_snd, heap_store]
    exact size_append_list _ _
  | setArg index d => exact size_append_list _ _
  | leave => dsimp only; split <;> rfl
  | ret =>
    dsimp only
    split
    · split <;> rfl
    · rfl
  | call target =>
    have pushed : (push next m).2.heap.size = m.heap.size := by
      rw [push_run]
      exact heap_store _ _ _
    dsimp only
    split
    · rename_i h
      rw [h] at pushed
      exact pushed
    · rename_i h
      rwa [h] at pushed
  | load => dsimp only; split <;> rfl
  | setFrame | reserve | nop | «break» | print | jump | spawn | endThread | fault | exit => rfl

theorem heap_execute {x : Machine} (bare : ∀ i, x.executable.instrAt? x.registers.pc = some i →
    i.payload = []) : (execute x).2.heap.size = x.heap.size := by
  rw [execute_run]
  split
  · rfl
  · rename_i i found
    split
    · rfl
    · rw [heap_effect, bare i found]
      rfl

end Growth

section Arguments

theorem setArgument_getElem? (arguments : Array Bytes) (index other : Nat) (bytes : Bytes)
    (inside : other < arguments.size ∨ other = index) :
    (setArgument arguments index bytes)[other]? =
      if other = index then some bytes else arguments[other]? := by
  have grown (more : List Bytes) (short : more.length = index + 1 - arguments.size) :
      ((arguments ++ more).setIfInBounds index bytes)[other]? =
        if other = index then some bytes else arguments[other]? := by
    rw [Array.getElem?_setIfInBounds, append_list_getElem?, size_append_list, short]
    by_cases same : other = index
    · rw [if_pos same.symm, if_pos (by omega), if_pos same]
    · rw [if_neg (Ne.symm same), if_pos (by omega), if_neg same]
  exact grown _ List.length_replicate

theorem arguments_store (a : UInt64) (bytes : Bytes) (m : Machine) :
    (store a bytes m).2.arguments = m.arguments := by
  rw [store_run]
  split
  · exact write_arguments
  · rfl

theorem arguments_push (word : UInt64) (m : Machine) : (push word m).2.arguments = m.arguments := by
  rw [push_run]
  exact arguments_store _ _ _

/-- Whether an instruction sets an argument of the next call. -/
def Instr.setsArgument : Instr → Bool
  | .setArg _ _ => true
  | _ => false

theorem arguments_effect {next : UInt64} {i : Instr} (m : Machine) (other : i.setsArgument = false) :
    (effect next i m).2.arguments = m.arguments := by
  rw [effect_run]
  cases i with
  | pushFrame => dsimp only; rw [outcome_snd]; exact arguments_push _ _
  | spill | store => dsimp only; rw [outcome_snd]; exact arguments_store _ _ _
  | leave => dsimp only; split <;> rfl
  | ret =>
    dsimp only
    split
    · split <;> rfl
    · rfl
  | call target =>
    have pushed := arguments_push next m
    dsimp only
    split
    · rename_i h
      rw [h] at pushed
      exact pushed
    · rename_i h
      rwa [h] at pushed
  | setArg index datum => cases other
  | load => dsimp only; split <;> rfl
  | setFrame | reserve | nop | «break» | print | jump | spawn | endThread | fault | exit => rfl

end Arguments

section Steps

variable {x y : Machine} {i : Instr} {b : Bool} {d : Datum}

/-- What is set for the next call changes only where an argument is set. -/
theorem arguments_execute (found : x.executable.instrAt? x.registers.pc = some i)
    (other : i.setsArgument = false) : (execute x).2.arguments = x.arguments := by
  by_cases blocked : Blocked x i
  · rw [execute_run, found]
    dsimp only
    rw [if_pos blocked]
    rfl
  · rw [execute_free found blocked]
    exact arguments_effect _ other

/-- An argument that has been set is passed, and no other one is touched. -/
theorem passed_execute {index : Nat}
    (found : x.executable.instrAt? x.registers.pc = some (.setArg index d))
    (free : ¬ Blocked x (.setArg index d)) : Passed (execute x).2 index d ∧
      ∀ j c, j ≠ index → Passed x j c → Passed (execute x).2 j c := by
  have done : execute x = (.ok false, { x.stepped (.setArg index d) with
      heap := x.heap.appendList d.payload
      arguments := setArgument x.arguments index (d.slot x.heap.size) }) := by
    rw [execute_free found free, effect_run]
    rfl
  rw [done]
  refine ⟨⟨x.heap.size, ?_, backed_grown x.heap d.payload⟩, fun j c other passed => ?_⟩
  · exact (setArgument_getElem? _ _ _ _ (.inr rfl)).trans (if_pos rfl)
  · obtain ⟨start, there, backed⟩ := passed
    refine ⟨start, ?_, backed.kept fun k inside => ?_⟩
    · have inside := (Array.getElem?_eq_some_iff.mp there).1
      exact (setArgument_getElem? _ _ _ _ (.inl inside)).trans ((if_neg other).trans there)
    · exact (append_list_getElem? x.heap d.payload k).trans (if_pos inside)

/-- What is written behind the heap leaves the heap alone. -/
theorem heapKept_store {a : UInt64} (bytes : Bytes) (low : heapBase.toNat + x.heap.size ≤ a.toNat) :
    HeapKept x (store a bytes x).2 := by
  intro j inside
  refine spared_store (s := (.heap, j)) (fun range => ?_) inside
  have base : Region.heap.base = heapBase.toNat := rfl
  simp only [Spot.address] at range
  omega

theorem store_of_outcome {a : UInt64} {bytes : Bytes}
    (done : outcome false (store a bytes x) = (.ok b, y)) : store a bytes x = (.ok (), y) := by
  rcases stored : store a bytes x with ⟨e | u, z⟩
  · rw [stored] at done
    cases done
  · rw [stored] at done
    cases done
    rfl

/-- A datum that has been stored behind the heap lies there. -/
theorem lies_store {offset : Int64}
    (found : x.executable.instrAt? x.registers.pc = some (.store offset d))
    (free : ¬ Blocked x (.store offset d)) (done : execute x = (.ok b, y))
    (low : heapBase.toNat + y.heap.size ≤ (x.registers.fp + offset.toUInt64).toNat) :
    d.Lies y (x.registers.fp + offset.toUInt64) := by
  have onward := onward_store (x.registers.fp + offset.toUInt64) (d.slot x.heap.size)
    { x.stepped (.store offset d) with heap := x.heap.appendList d.payload }
  rw [execute_free found free, effect_run] at done
  have stored : store (x.registers.fp + offset.toUInt64) (d.slot x.heap.size)
      { x.stepped (.store offset d) with heap := x.heap.appendList d.payload } = (.ok (), y) :=
    store_of_outcome done
  have loaded := load_store stored
  rw [length_slot] at loaded
  rw [stored] at onward
  have kept := heapKept_store (d.slot x.heap.size) (Nat.le_trans
    (Nat.add_le_add_left onward.heap _) low)
  rw [stored] at kept
  exact ⟨x.heap.size, loaded, (backed_grown _ _).kept kept⟩

/-- An argument that has been spilled into a slot of its size lies there. -/
theorem lies_spill {index : Nat} {offset : Int64} {size : UInt64}
    (found : x.executable.instrAt? x.registers.pc = some (.spill index offset size))
    (free : ¬ Blocked x (.spill index offset size)) (done : execute x = (.ok b, y))
    (low : heapBase.toNat + x.heap.size ≤ (x.registers.fp + offset.toUInt64).toNat)
    (passed : Passed x index d) (fits : d.size = size.toNat) :
    d.Lies y (x.registers.fp + offset.toUInt64) := by
  obtain ⟨start, there, backed⟩ := passed
  have bytes : argumentBytes (x.stepped (.spill index offset size)) index size.toNat =
      d.slot start := by
    have whole : (d.slot start).length = size.toNat := (length_slot d start).trans fits
    have set : (x.stepped (.spill index offset size)).arguments[index]? = some (d.slot start) := there
    simp only [argumentBytes, set, Option.getD_some]
    rw [List.take_of_length_le (Nat.le_of_eq whole), whole, Nat.sub_self, List.replicate_zero,
      List.append_nil]
  rw [execute_free found free, effect_run] at done
  have stored : store (x.registers.fp + offset.toUInt64) (d.slot start)
      (x.stepped (.spill index offset size)) = (.ok (), y) := by
    rw [← bytes]
    exact store_of_outcome done
  have loaded := load_store stored
  rw [length_slot] at loaded
  have kept := heapKept_store (x := x.stepped (.spill index offset size)) (d.slot start) low
  rw [stored] at kept
  exact ⟨start, loaded, Backed.kept (x := x.stepped (.spill index offset size)) backed kept⟩

end Steps

end SourceDebugger.Machine
