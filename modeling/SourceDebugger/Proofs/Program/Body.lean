import SourceDebugger.Proofs.Program.Assembled
/-!
What stands where in an assembled function, and where its variables lie. A variable has its slot
below the frame pointer and within the room that the function makes there.
-/
namespace SourceDebugger.Machine

section Slots

/-- The type that a function declares for a name; of variables with one name, for the last. -/
def Function.declared? (f : Function) (name : String) : Option VarType :=
  ((f.arguments ++ f.locals).reverse.find? (·.1 = name)).map (·.2)

/-- Whether an operation gives a variable only data of its type. -/
def Op.suits (f : Function) : Op → Bool
  | .store name datum => (f.declared? name).all datum.hasType
  | _ => true

/-- Variables are given data of their types only. -/
def Program.WellTyped (p : Program) : Prop :=
  ∀ f ∈ p.functions, ∀ s ∈ f.body, ∀ op ∈ s.ops, op.suits f = true

instance (p : Program) : Decidable p.WellTyped :=
  inferInstanceAs (Decidable (∀ f ∈ p.functions, ∀ s ∈ f.body, ∀ op ∈ s.ops, _ = true))

theorem Program.WellTyped.store {p : Program} (typed : p.WellTyped) {f : Function}
    (known : f ∈ p.functions) {s : Statement} (statement : s ∈ f.body) {name : String} {datum : Datum}
    (member : .store name datum ∈ s.ops) {type : VarType} (declared : f.declared? name = some type) :
    datum.hasType type = true := by
  have suits := typed f known s statement _ member
  rwa [Op.suits, declared, Option.all_some] at suits

theorem size_of_hasType {datum : Datum} {type : VarType} (typed : datum.hasType type = true) :
    datum.size = type.valueType.byteSize.toNat := by
  cases datum <;> cases type <;> first | rfl | simp [Datum.hasType] at typed

/-- A slot so many bytes below the frame pointer. -/
def slotAt (depth : UInt64) : Place := .frame (-depth.toInt64)

theorem mem_slots {used : UInt64} {vars : List (String × VarType)} {v : VariableInfo}
    (room : used.toNat + 16 * vars.length < 2 ^ 64) (member : v ∈ (slots used vars).1) :
    ∃ depth, v.place = slotAt depth ∧ used.toNat + v.type.byteSize.toNat ≤ depth.toNat ∧
      depth.toNat ≤ (slots used vars).2.toNat := by
  induction vars generalizing used with
  | nil => cases member
  | cons first rest ih =>
    obtain ⟨name, type⟩ := first
    rw [List.length_cons] at room
    obtain ⟨slot, fits⟩ := byteSize_slot type
    have sum : (used + alignUp type.valueType.byteSize 8).toNat =
        used.toNat + (alignUp type.valueType.byteSize 8).toNat := by
      rw [UInt64.toNat_add]
      exact Nat.mod_eq_of_lt (by omega)
    have step : slots used ((name, type) :: rest) =
        (⟨name, type.valueType, slotAt (used + alignUp type.valueType.byteSize 8)⟩ ::
          (slots (used + alignUp type.valueType.byteSize 8) rest).1,
          (slots (used + alignUp type.valueType.byteSize 8) rest).2) := rfl
    rw [step] at member ⊢
    have behind := slots_room (used + alignUp type.valueType.byteSize 8) rest (by omega)
    rcases List.mem_cons.mp member with rfl | later
    · exact ⟨_, rfl, by simp only; omega, behind.1⟩
    · obtain ⟨depth, place, fits, below⟩ := ih (by omega) later
      exact ⟨depth, place, by omega, below⟩

theorem names_slots (used : UInt64) (vars : List (String × VarType)) :
    (slots used vars).1.map (fun v => (v.name, v.type)) =
      vars.map fun v => (v.1, v.2.valueType) := by
  induction vars generalizing used with
  | nil => rfl
  | cons v rest ih =>
    rw [slots]
    exact congrArg (List.cons _) (ih _)

namespace Function

theorem names_known (f : Function) : f.known.map (fun v => (v.name, v.type)) =
    (f.arguments ++ f.locals).map fun v => (v.1, v.2.valueType) := by
  rw [known, parameters, List.map_append, names_slots, names_slots, List.map_append]

theorem size_positive {f : Function} {v : VariableInfo} (known : v ∈ f.known) :
    0 < v.type.byteSize.toNat := by
  have named : (v.name, v.type) ∈ (f.arguments ++ f.locals).map fun v => (v.1, v.2.valueType) := by
    rw [← f.names_known]
    exact List.mem_map_of_mem known
  obtain ⟨⟨_, type⟩, _, same⟩ := List.mem_map.mp named
  rw [← (Prod.mk.inj same).2]
  show 0 < type.valueType.byteSize.toNat
  cases type with
  | object name => exact (by decide : 0 < (8 : UInt64).toNat)
  | int | bool | text | ints => decide

/-- Every variable lies in the room a function makes. -/
theorem slot_known {f : Function} (small : f.footprint < 2 ^ 62) {v : VariableInfo}
    (member : v ∈ f.known) :
    ∃ depth, v.place = slotAt depth ∧ v.type.byteSize.toNat ≤ depth.toNat ∧
      depth.toNat ≤ f.frame.toNat := by
  have frame := (f.frame_bounds small).1
  rw [footprint] at small
  have zero : (0 : UInt64).toNat = 0 := rfl
  have first := slots_room 0 f.arguments (by omega)
  have second := slots_room (slots 0 f.arguments).2 f.locals (by omega)
  have total : (slots (slots 0 f.arguments).2 f.locals).2 = f.room := rfl
  rcases List.mem_append.mp member with argument | local_
  · obtain ⟨depth, place, fits, below⟩ := mem_slots (by omega) argument
    exact ⟨depth, place, by omega, by rw [total] at second; omega⟩
  · obtain ⟨depth, place, fits, below⟩ := mem_slots (by omega) local_
    exact ⟨depth, place, by omega, by rw [total] at below; omega⟩

theorem frame_empty {f : Function} (bare : f.hasStorage = false) : f.frame = 0 := by
  simp only [hasStorage, Bool.or_eq_false_iff, Bool.not_eq_false', List.isEmpty_iff] at bare
  rw [frame, bare.1, bare.2]
  rfl

end Function

/-- The slot by which a name is resolved is that of the variable whose type is declared. -/
theorem slotOf_declared {s : Scope} {f : Function} (known : s.known = f.known) {name : String}
    {offset : Int64} (found : s.slotOf? name = some offset) :
    ∃ v ∈ f.known, v.place = .frame offset ∧
      (f.declared? name).map (·.valueType) = some v.type := by
  rw [Scope.slotOf?, known] at found
  split at found
  · rename_i written type place last
    cases found
    have member := List.mem_reverse.mp (List.mem_of_find?_eq_some last)
    refine ⟨_, member, rfl, ?_⟩
    have same : f.known.reverse.map (fun v => (v.name, v.type)) =
        (f.arguments ++ f.locals).reverse.map fun v => (v.1, v.2.valueType) := by
      rw [List.map_reverse, f.names_known, List.map_reverse]
    have left := List.find?_map (f := fun v : VariableInfo => (v.name, v.type))
      (p := fun v : String × ValueType => decide (v.1 = name)) (l := f.known.reverse)
    have right := List.find?_map (f := fun v : String × VarType => (v.1, v.2.valueType))
      (p := fun v : String × ValueType => decide (v.1 = name))
      (l := (f.arguments ++ f.locals).reverse)
    rw [same] at left
    have both := left.symm.trans right
    simp only [Function.comp_def] at both
    rw [last] at both
    cases declared : (f.arguments ++ f.locals).reverse.find? (·.1 = name) with
    | none =>
      rw [declared] at both
      cases both
    | some d =>
      rw [declared] at both
      simp only [Option.map_some, Option.some.injEq, Prod.mk.injEq] at both
      rw [Function.declared?, declared, Option.map_some, Option.map_some, both.2]
  · cases found

end Slots

namespace Routine

/-- What stands where in a function. -/
inductive Stands (p : Program) (r : Routine) : Nat → Instr → Prop
  | pushFrame : Stands p r 0 .pushFrame
  | setFrame : Stands p r 1 .setFrame
  | reserve : r.layout.function.hasStorage = true →
      Stands p r 2 (.reserve r.layout.function.frame)
  | spill {k : Nat} {offset : Int64} (index : Nat) (v : VariableInfo) :
      v ∈ r.layout.function.known → v.place = .frame offset → 2 < k → k + 2 < r.code.length →
      r.layout.function.parameters[index]? = some v → k = index + 3 →
      Stands p r k (.spill index offset v.type.byteSize)
  | op {k : Nat} {i : Instr} (s : Statement) (op : Op) : s ∈ r.layout.function.body →
      op ∈ s.ops → op.assemble (p.scope r.layout) = .ok i →
      r.layout.function.opening.length ≤ k → k + 2 < r.code.length → Stands p r k i
  | leave {k : Nat} : k + 2 = r.code.length → Stands p r k .leave
  | ret {k : Nat} : k + 1 = r.code.length → Stands p r k .ret

theorem length_opening (f : Function) :
    f.opening.length = 2 + (if f.hasStorage then 1 else 0) + f.arguments.length := by
  rw [Function.opening, prologue, List.length_append, List.length_append, List.length_mapIdx,
    Function.parameters, Function.length_slots]
  split <;> rfl

theorem length_code {p : Program} {r : Routine} (compiled : r.Compiled p) :
    r.code.length = r.layout.function.opening.length + r.body.flatten.length + 2 := by
  rw [code_eq compiled, List.length_append, List.length_append, Nat.add_assoc]
  rfl

theorem mem_body {p : Program} {r : Routine} (compiled : r.Compiled p) {i : Instr}
    (member : i ∈ r.body.flatten) : ∃ s ∈ r.layout.function.body, ∃ op ∈ s.ops,
      op.assemble (p.scope r.layout) = .ok i := by
  obtain ⟨code, known, inside⟩ := List.mem_flatten.mp member
  obtain ⟨s, statement, ops⟩ := exists_of_forall₂ compiled known
  obtain ⟨op, mem, done⟩ := exists_of_forall₂ ops inside
  exact ⟨s, statement, op, mem, done⟩

theorem stands {p : Program} {r : Routine} (compiled : r.Compiled p)
    (small : r.layout.function.footprint < 2 ^ 62) {k : Nat} {i : Instr}
    (there : r.code[k]? = some i) : Stands p r k i := by
  have total := length_code compiled
  have start := length_opening r.layout.function
  rw [code_eq compiled, List.getElem?_append, List.getElem?_append] at there
  split at there
  · rename_i early
    rw [Function.opening, prologue, List.append_assoc] at there
    rcases k with _ | _ | k
    · cases there
      exact .pushFrame
    · cases there
      exact .setFrame
    · have storage : r.layout.function.hasStorage = true := by
        by_contra bare
        have none : r.layout.function.arguments = [] := by
          simp only [Function.hasStorage, Bool.or_eq_true, not_or, Bool.not_eq_true,
            Bool.not_eq_false', List.isEmpty_iff] at bare
          exact bare.1
        rw [if_neg bare, none] at start
        simp at start
        omega
      rw [if_pos storage] at there
      cases k with
      | zero =>
        cases there
        exact .reserve storage
      | succ k =>
        have spill : (r.layout.function.parameters.mapIdx _)[k]? = some i := there
        rw [List.getElem?_mapIdx] at spill
        obtain ⟨v, found, rfl⟩ := Option.map_eq_some_iff.mp spill
        have member : v ∈ r.layout.function.known :=
          List.mem_append_left _ (List.mem_of_getElem? found)
        obtain ⟨depth, place, _, _⟩ := r.layout.function.slot_known small member
        rw [place]
        exact .spill k v member place (by omega) (by omega) found rfl
  · split at there
    · rename_i late early
      obtain ⟨s, statement, op, mem, done⟩ := mem_body compiled (List.mem_of_getElem? there)
      exact .op s op statement mem done (by omega) (by omega)
    · rename_i late later
      have end_ : k - r.layout.function.opening.length - r.body.flatten.length < 2 :=
        (List.getElem?_eq_some_iff.mp there).1
      rcases n : k - r.layout.function.opening.length - r.body.flatten.length with _ | _ | m
      · rw [n] at there
        cases there
        exact .leave (by omega)
      · rw [n] at there
        cases there
        exact .ret (by omega)
      · omega

/-- A statement begins at an instruction of the body, or where the frame is taken down. -/
theorem statement_address {p : Program} {r : Routine} (compiled : r.Compiled p)
    (planned : r.layout.statements = (Function.statementStarts
      (r.layout.low + r.layout.function.prologueLength) r.layout.function.body).1)
    {index : Nat} {a : UInt64} (starts : r.layout.statements[index]? = some a) :
    ∃ k, a = r.address k ∧ r.layout.function.opening.length ≤ k ∧ k + 2 ≤ r.code.length := by
  have each {s : Scope} {body : List Statement} {codes : List (List Instr)} {b : UInt64}
      (done : List.Forall₂ (fun st code => List.Forall₂ (fun op i => Op.assemble s op = .ok i)
        st.ops code) body codes) {index : Nat}
      (starts : (Function.statementStarts b body).1[index]? = some a) :
      ∃ j ≤ codes.flatten.length, a = b + UInt64.ofNat (span (codes.flatten.take j)) := by
    induction done generalizing b index with
    | nil => cases starts
    | @cons st code rest codes first _ ih =>
      have step : (Function.statementStarts b (st :: rest)).1 =
          b :: (Function.statementStarts (b + st.length) rest).1 := rfl
      rw [step] at starts
      cases index with
      | zero =>
        cases starts
        exact ⟨0, Nat.zero_le _, by simp⟩
      | succ index =>
        have behind : b + st.length = endOf b code := by
          rw [endOf_eq, Statement.length, length_statement first]
          simp
        obtain ⟨j, inside, rfl⟩ := ih starts
        refine ⟨code.length + j, by rw [List.flatten_cons, List.length_append]; omega, ?_⟩
        rw [behind, endOf_eq, List.flatten_cons, List.take_length_add_append, span_append,
          UInt64.ofNat_add, UInt64.add_assoc]
  rw [planned] at starts
  obtain ⟨j, inside, rfl⟩ := each compiled starts
  have total := length_code compiled
  refine ⟨r.layout.function.opening.length + j, ?_, by omega, by omega⟩
  rw [address, code_eq compiled, List.take_length_add_append, List.take_append_of_le_length inside,
    span_append, Function.prologueLength_eq, UInt64.ofNat_add, UInt64.add_assoc]

end Routine

end SourceDebugger.Machine
