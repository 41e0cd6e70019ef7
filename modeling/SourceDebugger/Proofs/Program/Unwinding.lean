import SourceDebugger.CallStack
import SourceDebugger.Proofs.Program.Decoding
/-!
The walk over the frames of an assembled program finds the activations that there are. It tells from
the code how far the innermost frame is set up, and follows the words on the stack outward.
-/
namespace SourceDebugger.Machine

open CallStack LineTable Traps

/-- The program's own module is the one that is found at its code. -/
def Executable.Shown (e : Executable) (ros : Roster) : Prop :=
  ∀ a : UInt64, codeBase.toNat ≤ a.toNat → a.toNat < codeBase.toNat + e.code.size →
    ros.moduleAt? a = some e.module

/-- The segment of the row that contains an address. -/
def Executable.segmentAt (e : Executable) (a : UInt64) : Option Segment :=
  (e.symbols.lines.rows.toList.find? (·.contains (a - codeBase))).map (·.segment)

/-- How far the frame is set up where an instruction stands. -/
def Routine.frameState (r : Routine) (k : Nat) : FrameState :=
  if k = 0 ∨ k + 1 = r.code.length then .absent else if k = 1 then .pushed else .complete

section Sites

variable {p : Program} {e : Executable} {rs : List Routine} {r : Routine} {ros : Roster}
  {ts : Traps} {x m : Machine} {a w : UInt64} {floor : Nat}

theorem shown_of_first (asm : Assembled p e rs) (first : ros.modules.head? = some e.module) :
    e.Shown ros := by
  intro a low high
  obtain ⟨_, _, size⟩ := asm.size
  have room := asm.room
  have base : (codeBase + alignment).toNat = 0x400010 := by decide
  have small : e.code.size < 2 ^ 64 := by omega
  have own : codeBase.toNat = 0x400000 := Assembled.toNat_codeBase
  have stop : (codeBase + UInt64.ofNat e.code.size).toNat = codeBase.toNat + e.code.size := by
    rw [UInt64.toNat_add, UInt64.toNat_ofNat_of_lt' small]
    exact Nat.mod_eq_of_lt (by omega)
  have inside : e.module.contains a = true := by
    rw [LoadedModule.contains, Bool.and_eq_true, decide_eq_true_eq, decide_eq_true_eq]
    refine ⟨UInt64.le_iff_toNat_le.mpr low, UInt64.lt_iff_toNat_lt.mpr ?_⟩
    show _ < (codeBase + UInt64.ofNat e.code.size).toNat
    omega
  rw [Roster.moduleAt?]
  cases modules : ros.modules with
  | nil =>
    rw [modules] at first
    cases first
  | cons l rest =>
    rw [modules] at first
    cases first
    rw [List.find?_cons, inside]

theorem site_at (asm : Assembled p e rs) (shown : e.Shown ros) (member : r ∈ rs)
    (low : r.layout.low.toNat ≤ a.toNat) (high : a.toNat < r.layout.high.toNat) :
    siteAt ros a = ⟨some e.module, some (Assembled.entryOf e r)⟩ := by
  have bounds := asm.bounds member
  rw [siteAt, shown a (by omega) (by omega), Option.bind_some, asm.function_at member low high]

theorem address_lt (asm : Assembled p e rs) (member : r ∈ rs) {j k : Nat} (before : j < k)
    (inside : k ≤ r.code.length) : (r.address j).toNat < (r.address k).toNat := by
  have there : (r.code.take k)[j]? = some r.code[j] := by
    rw [List.getElem?_take_of_lt before, List.getElem?_eq_getElem (by omega)]
  have room := span_take_le there
  have long := (length_bounds r.code[j]).1
  rw [List.take_take, Nat.min_eq_left (by omega)] at room
  rw [asm.toNat_address member, asm.toNat_address member]
  omega

theorem address_inside (asm : Assembled p e rs) (member : r ∈ rs) {k : Nat} {i : Instr}
    (there : r.code[k]? = some i) : r.layout.low.toNat ≤ (r.address k).toNat ∧
      (r.address k).toNat + i.length.toNat ≤ r.layout.high.toNat := by
  have bounds := asm.bounds member
  have place := asm.toNat_address member k
  have room := span_take_le there
  omega

theorem address_entry (r : Routine) : r.address 0 = r.layout.low := by simp [Routine.address]

theorem decodesTo_address (asm : Assembled p e rs) (covering : ts.Covering floor x m)
    (code : x.code = e.code) (member : r ∈ rs) {k : Nat} {i : Instr} (there : r.code[k]? = some i)
    (test : Instruction → Bool) :
    decodesTo ts m (r.address k) test = test ⟨r.address k, i.length, i.kind⟩ := by
  rw [decodesTo, decode_address asm covering code member there]

/-- A function begins by saving the frame pointer. -/
theorem opening_stands (asm : Assembled p e rs) (member : r ∈ rs) :
    r.code[0]? = some .pushFrame := by
  have long := asm.four_le member
  have there := List.getElem?_eq_getElem (l := r.code) (i := 0) (by omega)
  rw [there]
  cases asm.stands member there with
  | pushFrame => rfl
  | op _ _ _ _ _ low =>
    have length := Routine.length_opening r.layout.function
    omega

/-- A function returns by its last instruction only. -/
theorem kind_return (asm : Assembled p e rs) (member : r ∈ rs) {k : Nat} {i : Instr}
    (there : r.code[k]? = some i) : i.kind = .return ↔ k + 1 = r.code.length := by
  have long := asm.four_le member
  have stands := asm.stands member there
  constructor
  · intro kind
    cases stands with
    | ret last => exact last
    | op s op _ _ done =>
      rw [Op.assemble.eq_def] at done
      cases op with
      | call | store | jump | load =>
        dsimp only at done
        split at done
        · cases done
          cases kind
        · cases done
      | nop | setArg | print | «break» | spawn | endThread | fault | exit =>
        cases done
        cases kind
    | pushFrame | setFrame | reserve | spill | leave => cases kind
  · intro last
    cases stands with
    | ret => rfl
    | pushFrame | setFrame => omega
    | reserve storage =>
      have length := r.length_code (asm.compiled r member)
      have opened := Routine.length_opening r.layout.function
      rw [storage, if_pos rfl] at opened
      omega
    | spill | op | leave => omega

theorem address_eq_iff (asm : Assembled p e rs) (member : r ∈ rs) {j k : Nat}
    (first : j < r.code.length) (second : k < r.code.length) :
    r.address j = r.address k ↔ j = k := by
  refine ⟨fun same => ?_, fun same => by rw [same]⟩
  rcases Nat.lt_trichotomy j k with before | here | behind
  · have less := address_lt asm member before (by omega)
    rw [same] at less
    omega
  · exact here
  · have less := address_lt asm member behind (by omega)
    rw [same] at less
    omega

/-- An address tells whose instruction begins there, and which. -/
theorem place_unique (asm : Assembled p e rs) {q : Routine} (one : r ∈ rs) (other : q ∈ rs) {j k : Nat}
    (first : j < r.code.length) (second : k < q.code.length) (same : r.address j = q.address k) :
    r = q ∧ j = k := by
  have here := address_inside asm one (List.getElem?_eq_getElem first)
  have there := address_inside asm other (List.getElem?_eq_getElem second)
  have long := (length_bounds r.code[j]).1
  have longer := (length_bounds q.code[k]).1
  rw [same] at here
  cases asm.unique one other (n := (q.address k).toNat) (by omega) (by omega)
  exact ⟨rfl, (address_eq_iff asm one first second).mp same⟩

/-- A function is told by where it begins. -/
theorem entry_injective (asm : Assembled p e rs) {q : Routine} (one : r ∈ rs) (other : q ∈ rs)
    (same : r.layout.low = q.layout.low) : r = q := by
  have long := asm.four_le one
  have longer := asm.four_le other
  refine (place_unique asm one other (j := 0) (k := 0) (by omega) (by omega) ?_).1
  rw [address_entry, address_entry, same]

/-- The code tells how far the frame is set up. -/
theorem innermostState_eq (asm : Assembled p e rs) (covering : ts.Covering floor x m)
    (code : x.code = e.code) (member : r ∈ rs) {k : Nat} (there : k < r.code.length) :
    innermostState ts m ⟨some e.module, some (Assembled.entryOf e r)⟩ (r.address k) =
      r.frameState k := by
  have long := asm.four_le member
  obtain ⟨i, found⟩ : ∃ i, r.code[k]? = some i := ⟨_, List.getElem?_eq_getElem there⟩
  have opening := opening_stands asm member
  have start : e.module.base + (Assembled.entryOf e r).low = r.address 0 := by
    rw [address_entry]
    show codeBase + (r.layout.low - codeBase) = _
    rw [UInt64.add_comm, UInt64.sub_add_cancel]
  have next : Instruction.next ⟨r.address 0, Instr.pushFrame.length, Instr.pushFrame.kind⟩ =
      r.address 1 := (Assembled.address_succ opening).symm
  have entry := address_eq_iff asm member there (k := 0) (by omega)
  have second := address_eq_iff asm member (j := 1) (by omega) there
  have step : innermostState ts m ⟨some e.module, some (Assembled.entryOf e r)⟩ (r.address k) =
      if r.address k = r.address 0 then .absent
      else if decodesTo ts m (r.address 0)
          fun i => i.kind = .pushFramePointer && i.next = r.address k then .pushed
      else if decodesTo ts m (r.address k) (·.kind = .return) then .absent else .complete := by
    rw [← start]
    rfl
  rw [step, decodesTo_address asm covering code member opening,
    decodesTo_address asm covering code member found]
  simp only [next, entry, second, kind_return asm member found, Routine.frameState]
  have push : Instr.pushFrame.kind = .pushFramePointer := rfl
  simp only [push, decide_true, Bool.true_and, decide_eq_true_eq]
  by_cases first : k = 0
  · simp [first]
  · rw [if_neg first]
    by_cases pushed : k = 1
    · rw [if_pos pushed.symm, if_neg (by omega), if_pos pushed]
    · rw [if_neg (fun same => pushed same.symm)]
      by_cases last : k + 1 = r.code.length <;> simp [first, pushed, last]

end Sites

section Callers

variable {p : Program} {e : Executable} {rs : List Routine} {r : Routine} {floor : Nat} {ros : Roster}
  {ts : Traps} {x m : Machine} {site : Option UInt64} {calls : List Activation} {f : UInt64}

/-- Where no trap stands, memory is read as it is. -/
theorem read_covering (covering : ts.Covering floor x m) {a : UInt64} {n : Nat} {bytes : Bytes}
    (loaded : x.load a n = .ok bytes) (above : floor ≤ a.toNat) (top : a.toNat + n ≤ stackTop.toNat) :
    Debuggee.read m a n = .ok bytes := by
  obtain ⟨d, rfl, laid, aside⟩ := covering
  have clear : Clear d.spots a n := by
    intro s spot range
    have outside := aside s spot
    omega
  exact (load_on clear).trans loaded

/-- A word of the stack is read through the traps. -/
theorem readWord_covering (covering : ts.Covering floor x m) {a w : UInt64} (word : Word x a w)
    (above : floor ≤ a.toNat) (top : a.toNat + 8 ≤ stackTop.toNat) :
    Debuggee.readWord m a = .ok w := by
  obtain ⟨bytes, loaded, rfl⟩ := word
  have length := length_load loaded
  have read : Debuggee.read m a Scalar.u64.size = .ok bytes :=
    read_covering covering loaded above top
  have size : Scalar.u64.size = 8 := rfl
  rw [Debuggee.readWord, Debuggee.readScalar, read]
  have value : Scalar.u64.read? bytes = some (Bytes.toNat bytes : Int) := by
    rw [Scalar.read?, size, if_pos length]
    rfl
  simp only [bind, Except.bind, value]
  have whole : ((Bytes.toNat bytes : Int) % 2 ^ 64).toNat = Bytes.toNat bytes % 2 ^ 64 := by omega
  rw [UInt64.ofInt, whole]
  exact congrArg Except.ok (UInt64.ofNat_mod_size)

/-- The registers of the activation that made a call. -/
def callerOf (high : Nat) (f : UInt64) (site : Option UInt64) : Option Registers :=
  site.map fun a => ⟨a + 5, UInt64.ofNat high, f⟩

theorem backOf_ne_zero (asm : Assembled p e rs) {low : Nat} {a : UInt64}
    (linked : Linked rs floor x low f (some a) calls) : a + 5 ≠ 0 := by
  cases linked with
  | @cons _ _ _ q k target c rest known entry there =>
    intro zero
    have place := address_inside asm known there
    have bounds := asm.bounds known
    have length : (Instr.call target).length = 5 := rfl
    have sum := congrArg UInt64.toNat zero
    rw [UInt64.toNat_add] at sum
    have five : (5 : UInt64).toNat = 5 := rfl
    have none : (0 : UInt64).toNat = 0 := rfl
    rw [length, five] at place
    omega

/-- Words that a frame consists of are unwound. -/
theorem unwindFramed_eq (covering : ts.Covering floor x m)
    {fp back : UInt64} (above : floor ≤ fp.toNat) (top : fp.toNat + 16 ≤ stackTop.toNat)
    (saved : Word x fp f) (word : Word x (fp + 8) back) :
    unwindFramed m fp = .ok ⟨back, fp + 16, f⟩ := by
  have limit : stackTop.toNat = 0x7fff0000 := rfl
  have next := toNat_above top
  rw [unwindFramed, if_neg (by omega), readWord_covering covering word (by omega) (by omega),
    readWord_covering covering saved (by omega) (by omega)]
  rfl

theorem caller_of_site (asm : Assembled p e rs) {high : Nat}
    (linked : Linked rs floor x high f site calls) {state : FrameState} {regs : Registers}
    (unwound : unwind? m state regs = some ⟨backOf site, UInt64.ofNat high, f⟩)
    (rising : state = .complete → f = 0 ∨ regs.fp < f) :
    caller? m state regs = callerOf high f site := by
  rw [caller?, unwound, callerOf]
  cases site with
  | none => rfl
  | some a =>
    have back : backOf (some a) = a + 5 := rfl
    have alive := backOf_ne_zero asm linked
    have goes : (backOf (some a) != 0 &&
        !(state == .complete && f != 0 && decide (f ≤ regs.fp))) = true := by
      rw [back, Bool.and_eq_true]
      refine ⟨by simpa using alive, ?_⟩
      by_cases complete : state = .complete
      · rcases rising complete with zero | less
        · simp [zero]
        · simp [UInt64.not_le.mpr less]
      · simp [complete]
    rw [Option.filter, if_pos goes]
    rfl

theorem rising_of_linked {low : Nat} {fp : UInt64} (linked : Linked rs floor x low f site calls)
    (below : fp.toNat < low) : f = 0 ∨ fp < f := by
  cases linked with
  | outermost => exact .inl rfl
  | cons _ _ _ sum => exact .inr (UInt64.lt_iff_toNat_lt.mpr (by omega))

/-- The frame of an activation that waits is unwound to that of its caller. -/
theorem caller_complete (asm : Assembled p e rs) (covering : ts.Covering floor x m)
    (below : codeBase.toNat + x.code.size ≤ floor) {pc sp fp : UInt64} (above : floor ≤ fp.toNat)
    (saved : Word x fp f) (word : Word x (fp + 8) (backOf site))
    (linked : Linked rs floor x (fp.toNat + 16) f site calls) :
    caller? m .complete ⟨pc, sp, fp⟩ = callerOf (fp.toNat + 16) f site := by
  have top := linked.low_le
  have limit : stackTop.toNat = 0x7fff0000 := rfl
  have base : codeBase.toNat = 0x400000 := Assembled.toNat_codeBase
  have nonzero : fp ≠ 0 := by
    intro zero
    rw [zero] at above
    have none : (0 : UInt64).toNat = 0 := rfl
    omega
  have sum : UInt64.ofNat (fp.toNat + 16) = fp + 16 := by
    rw [UInt64.ofNat_add, UInt64.ofNat_toNat]
    rfl
  refine caller_of_site asm linked ?_ fun _ => rising_of_linked linked ?_
  swap
  · show fp.toNat < fp.toNat + 16
    omega
  rw [unwind?, if_neg nonzero, unwindFramed_eq covering above top saved word, sum]
  rfl

/-- Whatever the frame of the innermost activation is set up to, its caller is found. -/
theorem caller_poised (asm : Assembled p e rs) (covering : ts.Covering floor x m)
    (below : codeBase.toNat + x.code.size ≤ floor) {k high : Nat} (long : 4 ≤ r.code.length)
    (poised : Poised floor x r (backOf site) f high k)
    (linked : Linked rs floor x high f site calls) :
    caller? m (r.frameState k) x.registers = callerOf high f site := by
  have top := linked.low_le
  have limit : stackTop.toNat = 0x7fff0000 := rfl
  have absent (sum : x.registers.sp.toNat + 8 = high) (above : floor ≤ x.registers.sp.toNat)
      (word : Word x x.registers.sp (backOf site)) (same : x.registers.fp = f) :
      caller? m .absent x.registers = callerOf high f site := by
    have next : UInt64.ofNat high = x.registers.sp + 8 := by
      rw [← sum, UInt64.ofNat_add, UInt64.ofNat_toNat]
      rfl
    refine caller_of_site asm linked ?_ fun h => by cases h
    rw [unwind?, unwindFrameless, if_neg (by omega), readWord_covering covering word (by omega) (by omega), next, same]
    rfl
  cases poised with
  | entered sum above word same =>
    rw [Routine.frameState, if_pos (.inl rfl)]
    exact absent sum above word same
  | pushed sum above saved word same =>
    have next : UInt64.ofNat high = x.registers.sp + 16 := by
      rw [← sum, UInt64.ofNat_add, UInt64.ofNat_toNat]
      rfl
    rw [Routine.frameState, if_neg (by omega), if_pos rfl]
    refine caller_of_site asm linked ?_ fun h => by cases h
    rw [unwind?, unwindFramed_eq covering above (by omega) saved word, next]
    rfl
  | inside first last sum above saved word =>
    subst sum
    rw [Routine.frameState, if_neg (by omega), if_neg (by omega)]
    exact caller_complete asm covering below above saved word linked
  | leaving last sum above word same =>
    rw [Routine.frameState, if_pos (.inr last)]
    exact absent sum above word same

end Callers

/-- What a frame says of an activation. -/
structure Told where
  pc : UInt64
  function : String
  segment : Option Segment
  deriving DecidableEq, Repr

/-- The name of the function that begins at an address. -/
def Program.nameAt (p : Program) (entry : UInt64) : String :=
  ((p.layouts.find? (·.low = entry)).map (·.function.name)).getD ""

/-- What frames should say of activations, from the innermost one outward: it stands at an
instruction, those outside it at their calls, to return behind them. -/
def told (p : Program) (e : Executable) (pc stands : UInt64) : List Activation → List Told
  | [] => []
  | c :: calls =>
    ⟨pc, p.nameAt c.entry, e.segmentAt stands⟩ :: told p e (backOf c.site) (c.site.getD 0) calls

end SourceDebugger.Machine

namespace SourceDebugger

def Frame.told (f : Frame) : Machine.Told := ⟨f.pc, f.function, f.segment⟩

end SourceDebugger

namespace SourceDebugger.Machine

open CallStack LineTable Traps

section Walk

variable {p : Program} {e : Executable} {rs : List Routine} {r : Routine} {floor : Nat} {ros : Roster}
  {ts : Traps} {x m : Machine} {site : Option UInt64} {calls : List Activation} {f : UInt64}

theorem nameAt_low (asm : Assembled p e rs) (member : r ∈ rs) :
    p.nameAt r.layout.low = r.layout.function.name := by
  cases found : p.layouts.find? (·.low = r.layout.low) with
  | none =>
    have planned := (asm.mem_functions member).1
    exact absurd (decide_eq_true rfl) (List.find?_eq_none.mp found r.layout planned)
  | some l =>
    have known := List.mem_of_find?_eq_some found
    have same : l.low = r.layout.low := by simpa using List.find?_some found
    rw [← asm.layouts] at known
    obtain ⟨q, here, rfl⟩ := List.mem_map.mp known
    cases entry_injective asm here member same
    rw [Program.nameAt, found]
    rfl

theorem segment_shift (row : Option CodeRange) (base : UInt64) :
    (row.map (·.shift base)).map (·.segment) = row.map (·.segment) := by
  cases row <;> rfl

/-- The row found anywhere in an instruction is the row that contains its beginning. -/
theorem segment_of_code (asm : Assembled p e rs) (member : r ∈ rs) {k j : Nat} {i : Instr}
    (there : r.code[k]? = some i) (inside : j < i.length.toNat) {a : UInt64}
    (place : a.toNat = (r.address k).toNat + j) :
    (e.module.lineAt? a).map (·.segment) = e.segmentAt (r.address k) := by
  have above := (asm.offset_inside member there).2.2
  have long := (length_bounds i).1
  obtain ⟨rows, table, order, _⟩ := asm.lines
  have looked : e.segmentAt (r.address k) =
      (e.symbols.lines.lookup (r.address k - codeBase)).map (·.segment) := by
    rw [Executable.segmentAt, table, lookup_eq_find order]
  have low : ¬ a < codeBase := UInt64.not_lt.mpr (UInt64.le_iff_toNat_le.mpr (by omega))
  have here := toNat_offset (a := a) (by omega)
  have first := asm.line_of_code member there (j := 0) long (toNat_offset above)
  have second := asm.line_of_code member there (j := j) inside (by omega : (a - codeBase).toNat + _ = _)
  rw [looked, first, ← second]
  have asked : e.module.lineAt? a =
      (e.symbols.lines.lookup (a - codeBase)).map (·.shift codeBase) := by
    have answer : e.module.ask a (fun s offset => s.lines.lookup offset) =
        if a < codeBase then none else e.symbols.lines.lookup (a - codeBase) := rfl
    rw [LoadedModule.lineAt?, answer, if_neg low]
    rfl
  rw [asked, segment_shift]

/-- What the frame of an activation says, wherever in its instruction it is looked up. -/
theorem frameAt_told (asm : Assembled p e rs) (shown : e.Shown ros) (member : r ∈ rs) {k j : Nat}
    {i : Instr} (there : r.code[k]? = some i) (inside : j < i.length.toNat) {index generation : Nat}
    {regs : Registers}
    (place : (if index = 0 || regs.pc = 0 then regs.pc else regs.pc - 1).toNat =
      (r.address k).toNat + j) :
    (frameAt ts m ros mainThread generation index regs).1.told =
      ⟨regs.pc, r.layout.function.name, e.segmentAt (r.address k)⟩ := by
  have room := address_inside asm member there
  have site := site_at asm shown member (a := if index = 0 || regs.pc = 0 then regs.pc
    else regs.pc - 1) (by omega) (by omega)
  have segment := segment_of_code asm member there inside place
  simp only [frameAt, Frame.told]
  rw [site]
  simp only [Option.bind_some, segment]
  rfl

theorem frameAt_state {index generation : Nat} {regs : Registers} (outer : index ≠ 0) :
    (frameAt ts m ros mainThread generation index regs).2 = .complete := if_neg outer

/-- A return address is looked up within the call that it belongs to. -/
theorem look_call (asm : Assembled p e rs) (member : r ∈ rs) {k : Nat} {target : UInt64}
    (there : r.code[k]? = some (.call target)) (index : Nat) :
    (if index + 1 = 0 || r.address k + 5 = 0 then r.address k + 5 else r.address k + 5 - 1).toNat =
      (r.address k).toNat + 4 := by
  have place := address_inside asm member there
  have limits := asm.bounds member
  have length : (Instr.call target).length.toNat = 5 := rfl
  have five : (5 : UInt64).toNat = 5 := rfl
  have one : (1 : UInt64).toNat = 1 := rfl
  have none : (0 : UInt64).toNat = 0 := rfl
  have next : (r.address k + 5).toNat = (r.address k).toNat + 5 := by
    rw [UInt64.toNat_add, five]
    exact Nat.mod_eq_of_lt (by omega)
  have alive : r.address k + 5 ≠ 0 := fun zero => by
    rw [zero] at next
    omega
  rw [if_neg (by simp [alive]), UInt64.toNat_sub_of_le _ _ (UInt64.le_iff_toNat_le.mpr (by omega)),
    next, one]
  omega

/-- The walk from an activation that waits outward. -/
theorem framesFrom_waiting (asm : Assembled p e rs) (covering : ts.Covering floor x m)
    (below : codeBase.toNat + x.code.size ≤ floor) {pc sp fp : UInt64} (above : floor ≤ fp.toNat)
    (saved : Word x fp f) (word : Word x (fp + 8) (backOf site))
    (linked : Linked rs floor x (fp.toNat + 16) f site calls) (room index generation : Nat) :
    framesFrom ts m ros mainThread generation (room + 1) (index + 1) ⟨pc, sp, fp⟩ =
      (frameAt ts m ros mainThread generation (index + 1) ⟨pc, sp, fp⟩).1 ::
        (site.map fun a => framesFrom ts m ros mainThread generation room (index + 2)
          ⟨a + 5, UInt64.ofNat (fp.toNat + 16), f⟩).getD [] := by
  rw [framesFrom]
  dsimp only
  rw [frameAt_state (by omega), caller_complete asm covering below above saved word linked]
  cases site <;> rfl

/-- The frames of activations that wait. -/
theorem framesFrom_linked (asm : Assembled p e rs) (covering : ts.Covering floor x m)
    (shown : e.Shown ros) (below : codeBase.toNat + x.code.size ≤ floor) {low : Nat} {a : UInt64}
    (linked : Linked rs floor x low f (some a) calls) (room index generation : Nat) :
    (framesFrom ts m ros mainThread generation room (index + 1) ⟨a + 5, UInt64.ofNat low, f⟩).map
      Frame.told = (told p e (a + 5) a calls).take room := by
  induction room generalizing low a f calls index with
  | zero => rfl
  | succ room ih =>
    cases linked with
    | @cons _ _ g r k target c rest known entry there sum above start saved word outer =>
      have said : (frameAt ts m ros mainThread generation (index + 1)
          ⟨r.address k + 5, UInt64.ofNat low, f⟩).1.told = _ :=
        frameAt_told asm shown known there (Nat.lt_succ_self 4) (look_call asm known there index)
      rw [framesFrom_waiting asm covering below above saved word outer, List.map_cons, said, told,
        ← entry, nameAt_low asm known, List.take_succ_cons]
      cases site : c.site with
      | none =>
        rw [site] at outer
        cases outer
        simp [told]
      | some b =>
        rw [site] at outer
        rw [Option.map_some, Option.getD_some, ih outer]
        rfl

section Innermost

variable {c : Activation} {rest : List Activation} {k high : Nat}

theorem innermostState_seat (asm : Assembled p e rs) (covering : ts.Covering floor x m)
    (shown : e.Shown ros) (code : x.code = e.code) (seat : Seat rs floor x c rest r k high f) :
    innermostState ts m (siteAt ros x.registers.pc) x.registers.pc = r.frameState k := by
  obtain ⟨i, there⟩ : ∃ i, r.code[k]? = some i := ⟨_, List.getElem?_eq_getElem seat.there⟩
  have place := address_inside asm seat.known there
  have long := (length_bounds i).1
  rw [site_at asm shown seat.known (by rw [seat.pc]; omega) (by rw [seat.pc]; omega), seat.pc]
  exact innermostState_eq asm covering code seat.known seat.there

/-- How far the innermost frame is set up. -/
theorem frameAt_seat (asm : Assembled p e rs) (covering : ts.Covering floor x m)
    (shown : e.Shown ros) (code : x.code = e.code) (seat : Seat rs floor x c rest r k high f)
    {generation : Nat} :
    (frameAt ts m ros mainThread generation 0 x.registers).2 = r.frameState k :=
  innermostState_seat asm covering shown code seat

/-- The canonical address of a frame is where the stack pointer stood before its call. -/
theorem canonicalAddress_seat (asm : Assembled p e rs) (covering : ts.Covering floor x m)
    (shown : e.Shown ros) (code : x.code = e.code) (seat : Seat rs floor x c rest r k high f) :
    canonicalAddress ts m ros x.registers = c.top := by
  have long := asm.four_le seat.known
  have low := seat.linked.low_le
  have limit : stackTop.toNat = 0x7fff0000 := rfl
  have raised {a : UInt64} {n : Nat} (small : n < 2 ^ 64) (sum : a.toNat + n = high) :
      a + UInt64.ofNat n = c.top := by
    refine UInt64.toNat.inj ?_
    rw [seat.top, UInt64.toNat_add, UInt64.toNat_ofNat_of_lt' small,
      Nat.mod_eq_of_lt (by omega), sum]
  rw [canonicalAddress, innermostState_seat asm covering shown code seat]
  have state : r.frameState k = if k = 0 ∨ k + 1 = r.code.length then .absent
      else if k = 1 then .pushed else .complete := rfl
  cases seat.poised with
  | entered sum =>
    rw [state, if_pos (.inl rfl)]
    exact raised (n := 8) (by decide) sum
  | pushed sum =>
    rw [state, if_neg (by omega), if_pos rfl]
    exact raised (n := 16) (by decide) sum
  | inside first last sum =>
    rw [state, if_neg (by omega), if_neg (by omega)]
    exact raised (n := 16) (by decide) sum
  | leaving last sum =>
    rw [state, if_pos (.inr last)]
    exact raised (n := 8) (by decide) sum

/-- The caller that a step outward runs to, if there is one. -/
theorem framesFrom_caller (asm : Assembled p e rs) (covering : ts.Covering floor x m)
    (shown : e.Shown ros) (code : x.code = e.code) (below : codeBase.toNat + e.code.size ≤ floor)
    (seat : Seat rs floor x c rest r k high f) (generation : Nat) :
    ((framesFrom ts m ros mainThread generation 2 0 x.registers)[1]?).map
      (fun frame => (frame.pc, frame.sp)) = c.site.map fun a => (a + 5, c.top) := by
  have top : UInt64.ofNat high = c.top := by rw [← seat.top, UInt64.ofNat_toNat]
  rw [framesFrom]
  dsimp only
  rw [frameAt_seat asm covering shown code seat, caller_poised asm covering
    (by rw [code]; exact below) (asm.four_le seat.known) seat.poised seat.linked]
  cases c.site with
  | none => rfl
  | some a =>
    rw [callerOf, Option.map_some, top]
    dsimp only
    rw [framesFrom]
    dsimp only
    split <;> rfl

end Innermost

/-- The walk finds the activations that there are, as many of them as it is asked for. -/
theorem walk_framed (asm : Assembled p e rs) (covering : ts.Covering floor x m) (shown : e.Shown ros)
    (below : codeBase.toNat + e.code.size ≤ floor) (framed : Framed e rs floor x calls)
    (most generation : Nat) :
    ∃ frames, walk ts m ros mainThread most generation = .ok frames ∧
      frames.map Frame.told =
        (told p e x.registers.pc x.registers.pc calls).take most := by
  have registers : m.registers = x.registers := by
    obtain ⟨d, rfl, _⟩ := covering
    rfl
  refine ⟨framesFrom ts m ros mainThread generation most 0 x.registers, ?_, ?_⟩
  · rw [← registers]
    rfl
  · obtain ⟨c, rest, r, k, high, f, rfl, seat⟩ := framed.seated
    cases most with
    | zero => rfl
    | succ room =>
      obtain ⟨i, there⟩ : ∃ i, r.code[k]? = some i := ⟨_, List.getElem?_eq_getElem seat.there⟩
      have place := address_inside asm seat.known there
      have long := (length_bounds i).1
      have said : (frameAt ts m ros mainThread generation 0 x.registers).1.told =
          ⟨x.registers.pc, r.layout.function.name, e.segmentAt (r.address k)⟩ :=
        frameAt_told asm shown seat.known there (j := 0) (by omega) (by rw [← seat.pc]; rfl)
      have caller := caller_poised asm covering (by rw [framed.code]; exact below)
        (asm.four_le seat.known) seat.poised seat.linked
      rw [framesFrom]
      dsimp only
      rw [frameAt_seat asm covering shown framed.code seat, caller, told, ← seat.entry, nameAt_low asm seat.known, List.take_succ_cons]
      have linked := seat.linked
      cases site : c.site with
      | none =>
        rw [site] at linked
        cases linked
        simp [callerOf, said, seat.pc, told]
      | some b =>
        rw [site] at linked
        rw [callerOf, Option.map_some]
        dsimp only
        rw [List.map_cons, said, framesFrom_linked asm covering shown
          (by rw [framed.code]; exact below) linked, seat.pc]
        rfl

end Walk

end SourceDebugger.Machine
