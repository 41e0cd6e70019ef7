import SourceDebugger.Proofs.Machine.Memory
import SourceDebugger.Proofs.Program.Routine
/-!
An assembled program as a whole. Its functions lie one behind the other in the order of the program,
none reaches into the next, and all addresses are far below the end of the address space.
-/
namespace SourceDebugger.Machine

section Extent

/-- The bytes of the operations of a body. -/
def bodyExtent (body : List Statement) : Nat :=
  (body.map fun s => (s.ops.map fun op => op.length.toNat).sum).sum

/-- The bytes of a function's code. -/
def Function.extent (f : Function) : Nat := span f.opening + bodyExtent f.body + 5

theorem length_ops (ops : List Op) (total : UInt64) :
    (ops.map Op.length).foldl (· + ·) total =
      total + UInt64.ofNat (ops.map fun op => op.length.toNat).sum := by
  induction ops generalizing total with
  | nil => simp
  | cons op rest ih =>
    rw [List.map_cons, List.foldl_cons, ih, List.map_cons, List.sum_cons, UInt64.ofNat_add,
      UInt64.ofNat_toNat, UInt64.add_assoc]

theorem statementStarts_stop (a : UInt64) (body : List Statement) :
    (Function.statementStarts a body).2 = a + UInt64.ofNat (bodyExtent body) := by
  induction body generalizing a with
  | nil => simp [Function.statementStarts, bodyExtent]
  | cons s rest ih =>
    have step : (Function.statementStarts a (s :: rest)).2 =
        (Function.statementStarts (a + s.length) rest).2 := rfl
    have sum : bodyExtent (s :: rest) =
        (s.ops.map fun op => op.length.toNat).sum + bodyExtent rest := rfl
    rw [step, ih, sum, Statement.length, length_ops, UInt64.ofNat_add]
    simp [UInt64.add_assoc]

theorem opLength_le (op : Op) : op.length.toNat ≤ 5 := by cases op <;> simp [Op.length]

theorem bodyExtent_le (body : List Statement) :
    bodyExtent body ≤ 5 * (body.map (·.ops.length)).sum := by
  have ops (ops : List Op) : (ops.map fun op => op.length.toNat).sum ≤ 5 * ops.length := by
    induction ops with
    | nil => simp
    | cons op rest ih =>
      have one := opLength_le op
      simp only [List.map_cons, List.sum_cons, List.length_cons]
      omega
  induction body with
  | nil => simp [bodyExtent]
  | cons s rest ih =>
    have sum : bodyExtent (s :: rest) =
        (s.ops.map fun op => op.length.toNat).sum + bodyExtent rest := rfl
    have here := ops s.ops
    rw [sum, List.map_cons, List.sum_cons]
    omega

theorem toNat_alignUp (n step : UInt64) (positive : 0 < step.toNat)
    (room : n.toNat + step.toNat ≤ 2 ^ 64) :
    (alignUp n step).toNat = (n.toNat + step.toNat - 1) / step.toNat * step.toNat := by
  have one : (1 : UInt64).toNat = 1 := rfl
  have sum : (n + step - 1).toNat = n.toNat + step.toNat - 1 := by
    rw [UInt64.toNat_sub, UInt64.toNat_add, one]
    omega
  have product : (n.toNat + step.toNat - 1) / step.toNat * step.toNat < 2 ^ 64 :=
    Nat.lt_of_le_of_lt (Nat.div_mul_le_self _ _) (by omega)
  rw [alignUp, UInt64.toNat_mul, UInt64.toNat_div, sum, Nat.mod_eq_of_lt product]

theorem byteSize_slot (type : VarType) : (alignUp type.valueType.byteSize 8).toNat ≤ 16 ∧
    type.valueType.byteSize.toNat ≤ (alignUp type.valueType.byteSize 8).toNat := by
  cases type with
  | object name =>
    have word : (alignUp 8 8).toNat ≤ 16 ∧ (8 : UInt64).toNat ≤ (alignUp 8 8).toNat := by decide
    exact word
  | int | bool | text | ints => exact ⟨by decide, by decide⟩

theorem slots_room (used : UInt64) (vars : List (String × VarType))
    (room : used.toNat + 16 * vars.length < 2 ^ 64) :
    used.toNat ≤ (slots used vars).2.toNat ∧
      (slots used vars).2.toNat ≤ used.toNat + 16 * vars.length := by
  induction vars generalizing used with
  | nil => exact ⟨Nat.le_refl _, Nat.le_refl _⟩
  | cons v rest ih =>
    obtain ⟨name, type⟩ := v
    have slot := (byteSize_slot type).1
    rw [List.length_cons] at room ⊢
    have sum : (used + alignUp type.valueType.byteSize 8).toNat =
        used.toNat + (alignUp type.valueType.byteSize 8).toNat := by
      rw [UInt64.toNat_add]
      exact Nat.mod_eq_of_lt (by omega)
    have behind := ih (used + alignUp type.valueType.byteSize 8) (by omega)
    have step : (slots used ((name, type) :: rest)).2 =
        (slots (used + alignUp type.valueType.byteSize 8) rest).2 := rfl
    rw [step]
    omega

namespace Function

/-- The room of all slots together. -/
def room (f : Function) : UInt64 := (slots (slots 0 f.arguments).2 f.locals).2

theorem frame_bounds (f : Function) (small : f.footprint < 2 ^ 62) :
    f.room.toNat ≤ f.frame.toNat ∧ f.frame.toNat ≤ 16 * (f.arguments.length + f.locals.length) := by
  rw [footprint] at small
  have zero : (0 : UInt64).toNat = 0 := rfl
  have sixteen : (16 : UInt64).toNat = 16 := rfl
  have first := slots_room 0 f.arguments (by omega)
  have second := slots_room (slots 0 f.arguments).2 f.locals (by omega)
  have room : (slots (slots 0 f.arguments).2 f.locals).2 = f.room := rfl
  rw [room] at second
  have aligned := toNat_alignUp f.room 16 (by decide) (by omega)
  have frame : f.frame = alignUp f.room 16 := rfl
  rw [frame, aligned, sixteen]
  omega

/-- The footprint of a function has room for its code, its frame, and a little more. -/
theorem extent_footprint (f : Function) (small : f.footprint < 2 ^ 62) :
    f.extent + f.frame.toNat + 54 ≤ f.footprint := by
  have frame := (f.frame_bounds small).2
  have body := bodyExtent_le f.body
  have storage : f.hasStorage = true → 1 ≤ f.arguments.length + f.locals.length := by
    intro h
    simp only [hasStorage, Bool.or_eq_true, Bool.not_eq_true', List.isEmpty_eq_false_iff] at h
    rcases h with h | h
    · have := List.length_pos_iff.mpr h
      omega
    · have := List.length_pos_iff.mpr h
      omega
  rw [extent, span_opening, footprint]
  split
  · have := storage ‹_›
    omega
  · omega

end Function

end Extent

section Layouts

/-- A function with its alignment. -/
def spread (fs : List Function) : Nat := (fs.map fun f => f.extent + 16).sum

theorem layout_planned {cursor : UInt64} {fs : List Function} {l : Layout}
    (member : l ∈ layouts cursor fs) :
    l.function ∈ fs ∧ l.statements =
        (Function.statementStarts (l.low + l.function.prologueLength) l.function.body).1 ∧
      l.high = l.low + UInt64.ofNat l.function.extent := by
  induction fs generalizing cursor with
  | nil => cases member
  | cons f rest ih =>
    have step : layouts cursor (f :: rest) =
        ⟨f, cursor, (Function.statementStarts (cursor + f.prologueLength) f.body).1,
          (Function.statementStarts (cursor + f.prologueLength) f.body).2 +
            Function.epilogueLength⟩ ::
          layouts (alignUp ((Function.statementStarts (cursor + f.prologueLength) f.body).2 +
            Function.epilogueLength) alignment) rest := rfl
    rw [step] at member
    rcases List.mem_cons.mp member with rfl | later
    · refine ⟨List.mem_cons_self, rfl, ?_⟩
      have five : Function.epilogueLength = UInt64.ofNat 5 := rfl
      show _ + _ = cursor + UInt64.ofNat f.extent
      rw [statementStarts_stop, Function.prologueLength_eq, Function.extent, UInt64.ofNat_add,
        UInt64.ofNat_add, five]
      simp only [UInt64.add_assoc]
    · obtain ⟨known, h⟩ := ih later
      exact ⟨List.mem_cons_of_mem _ known, h⟩

/-- Where functions lie, when there is room for all of them. -/
theorem layouts_bounds (cursor : UInt64) (fs : List Function)
    (room : cursor.toNat + spread fs < 2 ^ 64) :
    (∀ l ∈ layouts cursor fs, cursor.toNat ≤ l.low.toNat ∧
        l.high.toNat = l.low.toNat + l.function.extent ∧
          l.high.toNat + 16 ≤ cursor.toNat + spread fs) ∧
      (layouts cursor fs).Pairwise fun l k => l.high.toNat ≤ k.low.toNat := by
  induction fs generalizing cursor with
  | nil => exact ⟨fun l h => (by cases h), List.Pairwise.nil⟩
  | cons f rest ih =>
    have step : layouts cursor (f :: rest) =
        ⟨f, cursor, (Function.statementStarts (cursor + f.prologueLength) f.body).1,
          (Function.statementStarts (cursor + f.prologueLength) f.body).2 +
            Function.epilogueLength⟩ ::
          layouts (alignUp ((Function.statementStarts (cursor + f.prologueLength) f.body).2 +
            Function.epilogueLength) alignment) rest := rfl
    have sum : spread (f :: rest) = f.extent + 16 + spread rest := rfl
    have planned := (layout_planned (l := ⟨f, cursor, _, _⟩) (step ▸ List.mem_cons_self)).2.2
    simp only at planned
    rw [step]
    generalize (Function.statementStarts (cursor + f.prologueLength) f.body).2 +
      Function.epilogueLength = high at planned ⊢
    rw [sum] at room ⊢
    have top : high.toNat = cursor.toNat + f.extent := by
      have small : f.extent < 2 ^ 64 := by omega
      rw [planned, UInt64.toNat_add, UInt64.toNat_ofNat_of_lt' small]
      exact Nat.mod_eq_of_lt (by omega)
    have sixteen : alignment.toNat = 16 := rfl
    have aligned := toNat_alignUp high alignment (by decide) (by omega)
    rw [sixteen] at aligned
    obtain ⟨bounds, apart⟩ := ih (alignUp high alignment) (by omega)
    constructor
    · intro l member
      rcases List.mem_cons.mp member with rfl | later
      · exact ⟨Nat.le_refl _, top, by simp only; omega⟩
      · have here := bounds l later
        omega
    · refine List.pairwise_cons.mpr ⟨fun k later => ?_, apart⟩
      have here := bounds k later
      simp only
      omega

end Layouts

/-- All instructions with their addresses. -/
def placed (rs : List Routine) : List (UInt64 × Instr) :=
  rs.flatMap fun r => placeFrom r.layout.low r.code

/-- Where an instruction lies in the code. -/
def offsetOf (entry : UInt64 × Instr) : Nat := (entry.1 - codeBase).toNat

def writeOpcode (bytes : Array UInt8) (entry : UInt64 × Instr) : Array UInt8 :=
  writeAt bytes (offsetOf entry) (entry.2.opcode entry.1)

def setInstr (is : Array (Option Instr)) (entry : UInt64 × Instr) : Array (Option Instr) :=
  is.setIfInBounds (offsetOf entry) (some entry.2)

/-- An executable that has been assembled from a program, function by function. -/
structure Assembled (p : Program) (e : Executable) (rs : List Routine) : Prop where
  layouts : rs.map (·.layout) = p.layouts
  compiled : ∀ r ∈ rs, r.Compiled p
  entry : addressOf? p.layouts p.entry = some e.entry
  symbols : e.symbols = .ofTables
    (rs.flatMap fun r => rowsFrom p.sourceFile r.layout.low r.stretches) (rs.map (·.info))
  code : e.code = (placed rs).foldl writeOpcode (Array.replicate (codeSize p.layouts) filler)
  instrs : e.instrs = (placed rs).foldl setInstr (Array.replicate (codeSize p.layouts) none)
  path : e.path = p.path
  libraries : e.libraries = p.libraries
  small : p.footprint < 2 ^ 62

theorem routines_of_pieces {p : Program} {plan : List Layout} {pieces : List Piece}
    (known : ∀ l ∈ plan, l ∈ p.layouts)
    (each : List.Forall₂ (fun l piece => Layout.assemble p p.layouts l = .ok piece) plan pieces) :
    ∃ rs : List Routine, rs.map (·.layout) = plan ∧ pieces = rs.map (·.piece p) ∧
      ∀ r ∈ rs, r.Compiled p := by
  induction each with
  | nil => exact ⟨[], rfl, rfl, fun r h => by cases h⟩
  | cons done _ ih =>
    obtain ⟨rs, same, rfl, compiled⟩ := ih fun l member => known l (List.mem_cons_of_mem _ member)
    obtain ⟨r, rfl, first, rfl⟩ :=
      layout_assemble (layout_planned (known _ List.mem_cons_self)).2.1 done
    refine ⟨r :: rs, by rw [List.map_cons, same], rfl, fun q member => ?_⟩
    rcases List.mem_cons.mp member with rfl | later
    · exact first
    · exact compiled q later

theorem assemble_ok {p : Program} {e : Executable} (done : p.assemble = .ok e) :
    ∃ rs, Assembled p e rs := by
  rw [Program.assemble] at done
  by_cases large : largestFootprint ≤ p.footprint
  · simp [large, bind, Except.bind] at done
  · rw [if_neg large] at done
    cases entry : addressOf? p.layouts p.entry with
    | none => simp [entry] at done
    | some a =>
      cases assembled : p.layouts.mapM (Layout.assemble p p.layouts) with
      | error fault =>
        simp [entry, assembled, bind, Except.bind] at done
      | ok pieces =>
        obtain ⟨rs, same, rfl, compiled⟩ :=
          routines_of_pieces (fun l member => member) (mapM_ok assembled)
        simp only [entry, assembled, bind, Except.bind, List.map_map, List.flatMap_map] at done
        cases done
        exact ⟨rs, same, compiled, entry, rfl, rfl, rfl, rfl, rfl, Nat.lt_of_not_le large⟩

section Placement

/-- Instructions in the order of their places, none of which reaches into the next. -/
def Apart (entries : List (UInt64 × Instr)) : Prop :=
  entries.Pairwise fun p q => offsetOf p + p.2.length.toNat ≤ offsetOf q

theorem length_opcode (a : UInt64) (i : Instr) : (i.opcode a).length ≤ i.length.toNat := by
  cases i with
  | call => exact Nat.le_of_eq (congrArg (· + 1) (Bytes.length_ofNat 4 _))
  | _ => first | exact Nat.zero_le _ | exact Nat.le_refl 1

theorem size_foldl_setInstr (entries : List (UInt64 × Instr)) (is : Array (Option Instr)) :
    (entries.foldl setInstr is).size = is.size := by
  induction entries generalizing is with
  | nil => rfl
  | cons q rest ih => rw [List.foldl_cons, ih, setInstr, Array.size_setIfInBounds]

theorem size_foldl_writeOpcode (entries : List (UInt64 × Instr)) (bytes : Array UInt8) :
    (entries.foldl writeOpcode bytes).size = bytes.size := by
  induction entries generalizing bytes with
  | nil => rfl
  | cons q rest ih => rw [List.foldl_cons, ih, writeOpcode, size_writeAt]

theorem setInstr_other {entries : List (UInt64 × Instr)} {n : Nat}
    (other : ∀ q ∈ entries, offsetOf q ≠ n) (is : Array (Option Instr)) :
    (entries.foldl setInstr is)[n]? = is[n]? := by
  induction entries generalizing is with
  | nil => rfl
  | cons q rest ih =>
    rw [List.foldl_cons, ih fun q member => other q (List.mem_cons_of_mem _ member), setInstr,
      Array.getElem?_setIfInBounds, if_neg (other q List.mem_cons_self)]

/-- At its own place stands each instruction. -/
theorem setInstr_there {entries : List (UInt64 × Instr)} (apart : Apart entries)
    {q : UInt64 × Instr} (member : q ∈ entries) (is : Array (Option Instr))
    (inside : offsetOf q < is.size) : (entries.foldl setInstr is)[offsetOf q]? = some (some q.2) := by
  induction entries generalizing is with
  | nil => cases member
  | cons first rest ih =>
    obtain ⟨behind, apart⟩ := List.pairwise_cons.mp apart
    rw [List.foldl_cons]
    rcases List.mem_cons.mp member with rfl | later
    · rw [setInstr_other, setInstr, Array.getElem?_setIfInBounds, if_pos rfl]
      · exact if_pos inside
      · intro k later
        have gap := behind k later
        have long := (length_bounds q.2).1
        omega
    · exact ih apart later _ (by rwa [setInstr, Array.size_setIfInBounds])

theorem writeOpcode_other {entries : List (UInt64 × Instr)} {n : Nat}
    (other : ∀ q ∈ entries, ¬ (offsetOf q ≤ n ∧ n < offsetOf q + (q.2.opcode q.1).length))
    (bytes : Array UInt8) : (entries.foldl writeOpcode bytes)[n]? = bytes[n]? := by
  induction entries generalizing bytes with
  | nil => rfl
  | cons q rest ih =>
    have away := other q List.mem_cons_self
    rw [List.foldl_cons, ih fun q member => other q (List.mem_cons_of_mem _ member), writeOpcode,
      writeAt_getElem?, if_neg fun h => away ⟨h.1, h.2.1⟩]

/-- The byte by which an instruction is told from others. -/
def mark (q : UInt64 × Instr) : UInt8 := (q.2.opcode q.1).headD filler

theorem writeOpcode_there {entries : List (UInt64 × Instr)} (apart : Apart entries)
    {q : UInt64 × Instr} (member : q ∈ entries) {bytes : Array UInt8}
    (blank : bytes[offsetOf q]? = some filler) :
    (entries.foldl writeOpcode bytes)[offsetOf q]? = some (mark q) := by
  induction entries generalizing bytes with
  | nil => cases member
  | cons first rest ih =>
    obtain ⟨behind, apart⟩ := List.pairwise_cons.mp apart
    rw [List.foldl_cons]
    rcases List.mem_cons.mp member with rfl | later
    · rw [writeOpcode_other, writeOpcode, writeAt_getElem?]
      · have inside : offsetOf q < bytes.size := (Array.getElem?_eq_some_iff.mp blank).1
        cases opcode : q.2.opcode q.1 with
        | nil =>
          rw [if_neg (by simp), mark, opcode]
          exact blank
        | cons b rest =>
          rw [if_pos ⟨Nat.le_refl _, by simp, inside⟩, mark, opcode]
          simp
      · intro k later
        have gap := behind k later
        have long := (length_bounds q.2).1
        have short := length_opcode k.1 k.2
        omega
    · refine ih apart later ?_
      have gap := behind q later
      have short := length_opcode first.1 first.2
      have long := (length_bounds first.2).1
      rw [writeOpcode, writeAt_getElem?, if_neg (by omega), blank]

theorem placeFrom_apart (a : UInt64) (code : List Instr) (low : codeBase.toNat ≤ a.toNat)
    (room : a.toNat + span code < 2 ^ 64) :
    Apart (placeFrom a code) ∧ ∀ q ∈ placeFrom a code, a.toNat ≤ codeBase.toNat + offsetOf q ∧
      codeBase.toNat + offsetOf q + q.2.length.toNat ≤ a.toNat + span code := by
  induction code generalizing a with
  | nil => exact ⟨List.Pairwise.nil, fun q h => by cases h⟩
  | cons i rest ih =>
    rw [span_cons] at room ⊢
    have sum : (a + i.length).toNat = a.toNat + i.length.toNat := by
      rw [UInt64.toNat_add]
      exact Nat.mod_eq_of_lt (by omega)
    have here : offsetOf (a, i) = a.toNat - codeBase.toNat :=
      UInt64.toNat_sub_of_le _ _ low
    obtain ⟨apart, bounds⟩ := ih (a + i.length) (by omega) (by omega)
    constructor
    · refine List.pairwise_cons.mpr ⟨fun q later => ?_, apart⟩
      have there := bounds q later
      simp only
      omega
    · intro q member
      rcases List.mem_cons.mp member with rfl | later
      · simp only
        omega
      · have there := bounds q later
        omega

end Placement

namespace Routine

/-- Where an instruction of a function stands; the one behind the last stands at its end. -/
def address (r : Routine) (k : Nat) : UInt64 :=
  r.layout.low + UInt64.ofNat (span (r.code.take k))

theorem code_eq {p : Program} {r : Routine} (compiled : r.Compiled p) :
    r.code = r.layout.function.opening ++ (r.body.flatten ++ closing) := by
  have lengths : r.body.length ≤ (r.layout.function.body.map (·.line)).length := by
    exact Nat.le_of_eq (by rw [List.length_map, compiled.length_eq])
  simp only [code, stretches, List.map_cons, List.map_append, List.map_snd_zip lengths,
    List.map_nil, List.flatten_cons, List.flatten_append, List.flatten_nil, List.append_nil]

theorem span_code {p : Program} {r : Routine} (compiled : r.Compiled p) :
    span r.code = r.layout.function.extent := by
  have ops {s : Scope} {ops : List Op} {code : List Instr}
      (each : List.Forall₂ (fun op i => Op.assemble s op = .ok i) ops code) :
      span code = (ops.map fun op => op.length.toNat).sum := by
    induction each with
    | nil => rfl
    | cons first _ ih => rw [span_cons, length_assemble first, ih, List.map_cons, List.sum_cons]
  have body {s : Scope} {body : List Statement} {codes : List (List Instr)}
      (each : List.Forall₂ (fun st code => List.Forall₂ (fun op i => Op.assemble s op = .ok i)
        st.ops code) body codes) : span codes.flatten = bodyExtent body := by
    induction each with
    | nil => rfl
    | cons first _ ih =>
      rw [List.flatten_cons, span_append, ih, ops first]
      rfl
  rw [code_eq compiled, span_append, span_append, body compiled, Function.extent]
  have five : span closing = 5 := rfl
  rw [five, Nat.add_assoc]

end Routine

namespace Assembled

variable {p : Program} {e : Executable} {rs : List Routine} {r q : Routine}

theorem mem_functions (asm : Assembled p e rs) (member : r ∈ rs) :
    r.layout ∈ p.layouts ∧ r.layout.function ∈ p.functions := by
  have planned : r.layout ∈ p.layouts := asm.layouts ▸ List.mem_map_of_mem member
  exact ⟨planned, (layout_planned planned).1⟩

theorem footprint_le {fs : List Function} {f : Function} (member : f ∈ fs) :
    f.footprint ≤ (fs.map Function.footprint).sum := by
  induction fs with
  | nil => cases member
  | cons g rest ih =>
    rw [List.map_cons, List.sum_cons]
    rcases List.mem_cons.mp member with rfl | later
    · exact Nat.le_add_right _ _
    · exact Nat.le_trans (ih later) (Nat.le_add_left _ _)

theorem footprints (asm : Assembled p e rs) : (p.functions.map Function.footprint).sum < 2 ^ 62 := by
  have small := asm.small
  rw [Program.footprint] at small
  omega

theorem spread_le {fs : List Function} (small : (fs.map Function.footprint).sum < 2 ^ 62) :
    spread fs + 38 * fs.length ≤ (fs.map Function.footprint).sum := by
  induction fs with
  | nil => simp [spread]
  | cons f rest ih =>
    rw [List.map_cons, List.sum_cons] at small ⊢
    have here := f.extent_footprint (by omega)
    have behind := ih (by omega)
    have sum : spread (f :: rest) = f.extent + 16 + spread rest := rfl
    rw [sum, List.length_cons]
    omega

theorem room (asm : Assembled p e rs) :
    (codeBase + alignment).toNat + spread p.functions < 2 ^ 63 := by
  have base : (codeBase + alignment).toNat = 0x400010 := by decide
  have small := asm.footprints
  have below := spread_le small
  omega

theorem apart_layouts (asm : Assembled p e rs) :
    rs.Pairwise fun r q => r.layout.high.toNat ≤ q.layout.low.toNat := by
  have room := asm.room
  have apart := (layouts_bounds (codeBase + alignment) p.functions (by omega)).2
  rw [show Machine.layouts _ _ = p.layouts from rfl, ← asm.layouts] at apart
  exact List.pairwise_map.mp apart

theorem toNat_codeBase : codeBase.toNat = 0x400000 := by decide

/-- The code ends sixteen bytes behind the last function. -/
theorem size (asm : Assembled p e rs) :
    e.instrs.size = e.code.size ∧ (∀ r ∈ rs, r.layout.high.toNat + 16 ≤ codeBase.toNat + e.code.size) ∧
      e.code.size ≤ 16 + spread p.functions := by
  have room := asm.room
  have base : (codeBase + alignment).toNat = 0x400010 := by decide
  obtain ⟨bounds, apart⟩ :=
    layouts_bounds (codeBase + alignment) p.functions (by omega)
  rw [show Machine.layouts _ _ = p.layouts from rfl] at bounds apart
  rw [base] at bounds
  have code : e.code.size = codeSize p.layouts := by
    rw [asm.code, size_foldl_writeOpcode, Array.size_replicate]
  have instrs : e.instrs.size = codeSize p.layouts := by
    rw [asm.instrs, size_foldl_setInstr, Array.size_replicate]
  refine ⟨instrs.trans code.symm, ?_⟩
  cases last : p.layouts.getLast? with
  | none =>
    have entry := asm.entry
    rw [List.getLast?_eq_none_iff.mp last] at entry
    cases entry
  | some l =>
    have there := bounds l (List.mem_of_getLast? last)
    have above : codeBase.toNat ≤ l.high.toNat := by rw [toNat_codeBase]; omega
    have size : (l.high - codeBase + 16).toNat = l.high.toNat - 0x400000 + 16 := by
      rw [UInt64.toNat_add, UInt64.toNat_sub_of_le _ _ (UInt64.le_iff_toNat_le.mpr above),
        toNat_codeBase]
      exact Nat.mod_eq_of_lt (by simp; omega)
    rw [code, codeSize, last, Option.map_some, Option.getD_some, size, toNat_codeBase]
    refine ⟨fun r member => ?_, by omega⟩
    obtain ⟨before, split⟩ := List.getLast?_eq_some_iff.mp last
    have planned := (asm.mem_functions member).1
    rw [split] at planned apart
    rcases List.mem_append.mp planned with earlier | same
    · have behind := (List.pairwise_append.mp apart).2.2 _ earlier l (List.mem_singleton_self l)
      omega
    · rw [List.mem_singleton.mp same]
      omega

theorem bounds (asm : Assembled p e rs) (member : r ∈ rs) :
    codeBase.toNat + 16 ≤ r.layout.low.toNat ∧
      r.layout.high.toNat = r.layout.low.toNat + span r.code ∧
        r.layout.high.toNat + 16 ≤ codeBase.toNat + e.code.size ∧
          codeBase.toNat + e.code.size < 2 ^ 63 := by
  have room := asm.room
  have base : (codeBase + alignment).toNat = 0x400010 := by decide
  have bounds := (layouts_bounds (codeBase + alignment) p.functions (by omega)).1
    r.layout (asm.mem_functions member).1
  obtain ⟨_, highs, total⟩ := asm.size
  have high := highs r member
  rw [r.span_code (asm.compiled r member)]
  rw [base] at bounds room
  rw [toNat_codeBase] at high ⊢
  omega

theorem toNat_address (asm : Assembled p e rs) (member : r ∈ rs) (k : Nat) :
    (r.address k).toNat = r.layout.low.toNat + span (r.code.take k) := by
  have bounds := asm.bounds member
  have some : span (r.code.take k) ≤ span r.code := by
    have whole := congrArg span (List.take_append_drop k r.code)
    rw [span_append] at whole
    omega
  have small : span (r.code.take k) < 2 ^ 64 := by omega
  rw [Routine.address, UInt64.toNat_add, UInt64.toNat_ofNat_of_lt' small]
  exact Nat.mod_eq_of_lt (by omega)

theorem span_take_succ {code : List Instr} {k : Nat} {i : Instr} (there : code[k]? = some i) :
    span (code.take (k + 1)) = span (code.take k) + i.length.toNat := by
  rw [List.take_add_one, there, span_append]
  simp

/-- An instruction and the one behind it. -/
theorem address_succ {k : Nat} {i : Instr} (there : r.code[k]? = some i) :
    r.address (k + 1) = r.address k + i.length := by
  rw [Routine.address, Routine.address, span_take_succ there, UInt64.ofNat_add, UInt64.ofNat_toNat,
    UInt64.add_assoc]

theorem mem_placed {a : UInt64} {i : Instr} :
    (a, i) ∈ placed rs ↔ ∃ r ∈ rs, ∃ k, r.code[k]? = some i ∧ a = r.address k := by
  simp only [placed, List.mem_flatMap, mem_placeFrom, Routine.address]

theorem apart (asm : Assembled p e rs) : Apart (placed rs) := by
  have one : ∀ r ∈ rs, Apart (placeFrom r.layout.low r.code) ∧
      ∀ q ∈ placeFrom r.layout.low r.code, r.layout.low.toNat ≤ codeBase.toNat + offsetOf q ∧
        codeBase.toNat + offsetOf q + q.2.length.toNat ≤ r.layout.high.toNat := by
    intro r member
    have bounds := asm.bounds member
    have placed := placeFrom_apart r.layout.low r.code (by omega) (by omega)
    exact ⟨placed.1, fun q there => by have := placed.2 q there; omega⟩
  refine List.pairwise_flatMap.mpr ⟨fun r member => (one r member).1, ?_⟩
  refine (List.Pairwise.and_mem.mp asm.apart_layouts).imp fun h x first y second => ?_
  obtain ⟨here, there, below⟩ := h
  have low := ((one _ here).2 x first).2
  have high := ((one _ there).2 y second).1
  omega

theorem offset_inside (asm : Assembled p e rs) (member : r ∈ rs) {k : Nat} {i : Instr}
    (there : r.code[k]? = some i) : (r.address k - codeBase).toNat = (r.address k).toNat - 0x400000 ∧
      (r.address k - codeBase).toNat + i.length.toNat + 16 ≤ e.code.size ∧
        codeBase.toNat ≤ (r.address k).toNat := by
  have bounds := asm.bounds member
  have here := asm.toNat_address member k
  have next := span_take_succ there
  have some : span (r.code.take (k + 1)) ≤ span r.code := by
    have whole := congrArg span (List.take_append_drop (k + 1) r.code)
    rw [span_append] at whole
    omega
  have above : codeBase.toNat ≤ (r.address k).toNat := by omega
  rw [UInt64.toNat_sub_of_le _ _ (UInt64.le_iff_toNat_le.mpr above), toNat_codeBase] at *
  omega

theorem instrAt_address (asm : Assembled p e rs) (member : r ∈ rs) {k : Nat} {i : Instr}
    (there : r.code[k]? = some i) : e.instrAt? (r.address k) = some i := by
  obtain ⟨_, inside, above⟩ := asm.offset_inside member there
  have set := setInstr_there asm.apart (mem_placed.mpr ⟨r, member, k, there, rfl⟩)
    (Array.replicate (codeSize p.layouts) none) (by
      rw [Array.size_replicate, offsetOf]
      have size := asm.size.1
      rw [asm.instrs, size_foldl_setInstr, Array.size_replicate] at size
      simp only
      omega)
  rw [← asm.instrs, offsetOf] at set
  rw [Executable.instrAt?, if_neg (UInt64.not_lt.mpr (UInt64.le_iff_toNat_le.mpr above)), set]
  rfl

/-- Instructions are found where functions have been placed, and nowhere else. -/
theorem instrAt_iff (asm : Assembled p e rs) {a : UInt64} {i : Instr} :
    e.instrAt? a = some i ↔ ∃ r ∈ rs, ∃ k, r.code[k]? = some i ∧ a = r.address k := by
  constructor
  · intro found
    rw [Executable.instrAt?] at found
    split at found
    · cases found
    · rename_i above
      replace above : codeBase.toNat ≤ a.toNat :=
        UInt64.le_iff_toNat_le.mp (UInt64.not_lt.mp above)
      have entry : e.instrs[(a - codeBase).toNat]? = some (some i) := by
        cases h : e.instrs[(a - codeBase).toNat]? with
        | none => simp [h] at found
        | some o =>
          rw [h, Option.join_some] at found
          rw [found]
      have hit : ∃ q ∈ placed rs, offsetOf q = (a - codeBase).toNat := by
        by_contra none
        rw [asm.instrs, setInstr_other fun q member same => none ⟨q, member, same⟩,
          Array.getElem?_replicate] at entry
        split at entry <;> cases entry
      obtain ⟨⟨b, j⟩, member, same⟩ := hit
      obtain ⟨r, known, k, there, rfl⟩ := mem_placed.mp member
      obtain ⟨_, _, low⟩ := asm.offset_inside known there
      have equal : r.address k = a := by
        have position : (r.address k - codeBase).toNat = (a - codeBase).toNat := same
        rw [UInt64.toNat_sub_of_le _ _ (UInt64.le_iff_toNat_le.mpr low),
          UInt64.toNat_sub_of_le _ _ (UInt64.le_iff_toNat_le.mpr above)] at position
        exact UInt64.toNat.inj (by omega)
      subst equal
      have set := setInstr_there asm.apart member (Array.replicate (codeSize p.layouts) none) (by
        have inside := (asm.offset_inside known there).2.1
        have size := asm.size.1
        rw [asm.instrs, size_foldl_setInstr, Array.size_replicate] at size
        rw [Array.size_replicate, offsetOf]
        simp only
        omega)
      rw [← asm.instrs, offsetOf, entry] at set
      exact ⟨r, known, k, by rw [there]; exact (Option.some.inj set).symm, rfl⟩
  · rintro ⟨r, member, k, there, rfl⟩
    exact asm.instrAt_address member there

theorem code_mark (asm : Assembled p e rs) (member : r ∈ rs) {k : Nat} {i : Instr}
    (there : r.code[k]? = some i) :
    e.code[(r.address k - codeBase).toNat]? = some (mark (r.address k, i)) := by
  have inside := (asm.offset_inside member there).2.1
  have size : e.code.size = codeSize p.layouts := by
    rw [asm.code, size_foldl_writeOpcode, Array.size_replicate]
  rw [asm.code]
  refine writeOpcode_there asm.apart (mem_placed.mpr ⟨r, member, k, there, rfl⟩) ?_
  rw [Array.getElem?_replicate, if_pos]
  rw [offsetOf]
  simp only
  omega

/-- No address lies in two functions. -/
theorem unique (asm : Assembled p e rs) (hr : r ∈ rs) (hq : q ∈ rs) {n : Nat}
    (inr : r.layout.low.toNat ≤ n ∧ n < r.layout.high.toNat)
    (inq : q.layout.low.toNat ≤ n ∧ n < q.layout.high.toNat) : r = q := by
  have ordered {r q : Routine} : r.layout.high.toNat ≤ q.layout.low.toNat →
      r.layout.low.toNat ≤ n ∧ n < r.layout.high.toNat →
        ¬ (q.layout.low.toNat ≤ n ∧ n < q.layout.high.toNat) := by omega
  have apart := asm.apart_layouts
  clear asm
  induction rs with
  | nil => cases hr
  | cons first rest ih =>
    obtain ⟨behind, apart⟩ := List.pairwise_cons.mp apart
    rcases List.mem_cons.mp hr with rfl | later
    · rcases List.mem_cons.mp hq with rfl | other
      · rfl
      · exact absurd inq (ordered (behind q other) inr)
    · rcases List.mem_cons.mp hq with rfl | other
      · exact absurd inr (ordered (behind r later) inq)
      · exact ih later other apart

end Assembled

end SourceDebugger.Machine
