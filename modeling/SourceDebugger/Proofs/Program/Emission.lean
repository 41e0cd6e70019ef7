import Mathlib.Logic.ExistsUnique
import SourceDebugger.Proofs.Program.Decoding
/-!
The two passes of the assembler and the bytes they write. The second pass puts every instruction where
the first has planned room for it, and whoever decodes the bytes there finds the instruction again.
-/
namespace SourceDebugger.Machine

/-- Instructions found one behind the other from one address up to another. -/
def Executable.Spans (e : Executable) (a : UInt64) : List Instr → UInt64 → Prop
  | [], b => a = b
  | i :: rest, b => e.instrAt? a = some i ∧ a < a + i.length ∧ e.Spans (a + i.length) rest b

/-- Statements found one behind the other, each where it was planned. -/
def Executable.Holds (e : Executable) (a : UInt64) : List UInt64 → List (List Instr) → UInt64 → Prop
  | [], [], b => a = b
  | start :: starts, code :: codes, b =>
    start = a ∧ ∃ next, e.Spans a code next ∧ e.Holds next starts codes b
  | _, _, _ => False

/-- The code of a function as it was planned. -/
structure Layout.Kept (p : Program) (e : Executable) (l : Layout) (codes : List (List Instr)) :
    Prop where
  compiled : List.Forall₂ (fun s code =>
    List.Forall₂ (fun op i => Op.assemble (p.scope l) op = .ok i) s.ops code) l.function.body codes
  opening : e.Spans l.low l.function.opening (l.low + l.function.prologueLength)
  body : e.Holds (l.low + l.function.prologueLength) l.statements codes
    (l.high - Function.epilogueLength)
  closing : e.Spans (l.high - Function.epilogueLength) Routine.closing l.high

/-- An instruction is found whose bytes reach over an address. -/
def Executable.Covers (e : Executable) (n : Nat) (q : UInt64 × Instr) : Prop :=
  e.instrAt? q.1 = some q.2 ∧ q.1.toNat ≤ n ∧ n < q.1.toNat + q.2.length.toNat

/-- The bytes of the code from an address on. -/
def Executable.codeFrom (e : Executable) (a : UInt64) : Bytes :=
  e.code.toList.drop (a - codeBase).toNat

/-- What the plan of a program says of the code that is emitted for it. -/
structure Emitted (p : Program) (e : Executable) : Prop where
  laid : p.layouts.map (·.function) = p.functions
  kept : ∀ l ∈ p.layouts, ∃ codes, l.Kept p e codes
  tiled : ∀ l ∈ p.layouts, ∀ n, l.low.toNat ≤ n → n < l.high.toNat → ∃! q, e.Covers n q
  within : ∀ a i, e.instrAt? a = some i →
    ∃ l ∈ p.layouts, l.low.toNat ≤ a.toNat ∧ a.toNat + i.length.toNat ≤ l.high.toNat
  apart : p.layouts.Pairwise fun l k => l.high.toNat ≤ k.low.toNat
  aligned : ∀ l ∈ p.layouts, l.low.toNat % 16 = 0
  calls : ∀ a target, e.instrAt? a = some (.call target) →
    e.instrAt? target = some .pushFrame ∧ ∃ l ∈ p.layouts, l.low = target
  jumps : ∀ a target, e.instrAt? a = some (.jump target) → (∃ i, e.instrAt? target = some i) ∧
    ∃ l ∈ p.layouts, l.low ≤ a ∧ a < l.high ∧ target ∈ l.statements
  decoded : ∀ a i, e.instrAt? a = some i → ∀ m : Machine, ∀ n, 0 < n →
    Debuggee.decode m a ((e.codeFrom a).take n) = .ok ⟨a, i.length, i.kind⟩
  returns : ∀ x y : Machine, ∀ target, x.executable = e →
    e.instrAt? x.registers.pc = some (.call target) → execute x = (.ok false, y) →
      y.registers.pc = target ∧ ∀ n, 0 < n → ∃ call : Instruction,
        Debuggee.decode x x.registers.pc ((e.codeFrom x.registers.pc).take n) = .ok call ∧
          Word y y.registers.sp call.next

section Plans

theorem map_function_layouts (cursor : UInt64) (fs : List Function) :
    (layouts cursor fs).map (·.function) = fs := by
  induction fs generalizing cursor with
  | nil => rfl
  | cons f rest ih => exact congrArg (f :: ·) (ih _)

theorem alignUp_aligned (n : UInt64) : (alignUp n alignment).toNat % 16 = 0 := by
  have sixteen : alignment.toNat = 16 := rfl
  have bound := (n + alignment - 1).toNat_lt
  rw [alignUp, UInt64.toNat_mul, UInt64.toNat_div, sixteen,
    Nat.mod_eq_of_lt (Nat.lt_of_le_of_lt (Nat.div_mul_le_self _ _) bound)]
  exact Nat.mul_mod_left _ _

theorem layouts_aligned {cursor : UInt64} {fs : List Function} (start : cursor.toNat % 16 = 0) :
    ∀ l ∈ layouts cursor fs, l.low.toNat % 16 = 0 := by
  induction fs generalizing cursor with
  | nil => exact fun l member => by cases member
  | cons f rest ih =>
    intro l member
    rcases List.mem_cons.mp member with rfl | later
    · exact start
    · exact ih (alignUp_aligned _) l later

end Plans

namespace Assembled

variable {p : Program} {e : Executable} {rs : List Routine} {r : Routine} {front code back : List Instr}

theorem spans (asm : Assembled p e rs) (member : r ∈ rs) (front code back : List Instr)
    (cut : r.code = front ++ (code ++ back)) :
    e.Spans (r.address front.length) code (r.address (front.length + code.length)) := by
  induction code generalizing front with
  | nil => rfl
  | cons i rest ih =>
    have there : r.code[front.length]? = some i := by rw [cut]; simp
    have next := address_succ there
    have bounds := asm.bounds member
    have here := asm.offset_inside member there
    have long := length_bounds i
    have behind := ih (front ++ [i]) (by rw [cut]; simp)
    rw [List.length_append, List.length_singleton, next] at behind
    refine ⟨asm.instrAt_address member there, ?_, ?_⟩
    · rw [UInt64.lt_iff_toNat_lt, UInt64.toNat_add]
      omega
    · rw [List.length_cons, Nat.add_comm rest.length, ← Nat.add_assoc]
      exact behind

theorem address_front (cut : r.code = front ++ code) :
    r.address front.length = r.layout.low + UInt64.ofNat (span front) := by
  rw [Routine.address, cut, List.take_left]

/-- Statements that have been assembled are found where their lengths put them. -/
theorem holds (asm : Assembled p e rs) (member : r ∈ rs) {s : Scope} {body : List Statement}
    {codes : List (List Instr)}
    (each : List.Forall₂ (fun st code => List.Forall₂ (fun op i => Op.assemble s op = .ok i)
      st.ops code) body codes)
    (cut : r.code = front ++ (codes.flatten ++ back)) :
    e.Holds (r.address front.length) (Function.statementStarts (r.address front.length) body).1 codes
      (r.address (front.length + codes.flatten.length)) := by
  induction each generalizing front with
  | nil => rfl
  | @cons st code rest codes first _ ih =>
    rw [List.flatten_cons, List.append_assoc] at cut
    have cut' : r.code = (front ++ code) ++ (codes.flatten ++ back) := by
      rw [cut, List.append_assoc]
    have next : r.address front.length + st.length = r.address (front ++ code).length := by
      rw [address_front cut, address_front cut', Statement.length, length_statement first, span_append,
        UInt64.ofNat_add, UInt64.zero_add, UInt64.add_assoc]
    have behind := ih cut'
    rw [← next, List.length_append] at behind
    refine ⟨rfl, _, asm.spans member _ _ _ cut, ?_⟩
    rw [List.flatten_cons, List.length_append, ← Nat.add_assoc, ← List.length_append, ← next]
    rwa [List.length_append]

/-- The end of a function's code is the planned one, and so is where its frame is taken down. -/
theorem address_end (asm : Assembled p e rs) (member : r ∈ rs)
    (cut : r.code = front ++ Routine.closing) :
    r.address front.length = r.layout.high - Function.epilogueLength ∧
      r.address (front.length + 2) = r.layout.high := by
  have high := (layout_planned (asm.mem_functions member).1).2.2
  have five : UInt64.ofNat (span Routine.closing) = Function.epilogueLength := rfl
  have total : r.layout.high =
      r.layout.low + UInt64.ofNat (span front) + Function.epilogueLength := by
    rw [high, ← Routine.span_code (asm.compiled r member), cut, span_append, UInt64.ofNat_add, five,
      UInt64.add_assoc]
  constructor
  · rw [address_front cut, total, UInt64.add_sub_cancel]
  · have none : r.code = (front ++ Routine.closing) ++ [] := by rw [cut, List.append_nil]
    have behind := address_front none
    rw [List.length_append, span_append, UInt64.ofNat_add, five, ← UInt64.add_assoc] at behind
    exact behind.trans total.symm

theorem kept (asm : Assembled p e rs) (member : r ∈ rs) : r.layout.Kept p e r.body := by
  have compiled := asm.compiled r member
  have cut := Routine.code_eq compiled
  have planned := (layout_planned (asm.mem_functions member).1).2.1
  have first : r.layout.low + r.layout.function.prologueLength =
      r.address r.layout.function.opening.length := by
    rw [address_front cut, Function.prologueLength_eq]
  have ending : r.code = (r.layout.function.opening ++ r.body.flatten) ++ Routine.closing := by
    rw [cut, List.append_assoc]
  obtain ⟨last, final⟩ := asm.address_end member ending
  refine ⟨compiled, ?_, ?_, ?_⟩
  · have found := asm.spans member [] _ _ (cut.trans (List.nil_append _).symm)
    rw [first]
    simpa [Routine.address] using found
  · rw [planned, first, ← last, List.length_append]
    exact asm.holds member compiled cut
  · rw [← last, ← final]
    exact asm.spans member _ _ [] (by rw [ending, List.append_nil])

theorem exists_covering {code : List Instr} {n : Nat} (inside : n < span code) :
    ∃ k i, code[k]? = some i ∧ span (code.take k) ≤ n ∧ n < span (code.take k) + i.length.toNat := by
  induction code generalizing n with
  | nil => simp at inside
  | cons i rest ih =>
    rw [span_cons] at inside
    by_cases here : n < i.length.toNat
    · exact ⟨0, i, rfl, Nat.zero_le _, by simpa using here⟩
    · obtain ⟨k, j, there, low, high⟩ := ih (n := n - i.length.toNat) (by omega)
      refine ⟨k + 1, j, there, ?_, ?_⟩ <;> rw [List.take_succ_cons, span_cons] <;> omega

/-- No two instructions share a byte. -/
theorem covers_unique (asm : Assembled p e rs) {n : Nat} {q₁ q₂ : UInt64 × Instr}
    (first : e.Covers n q₁) (second : e.Covers n q₂) : q₁ = q₂ := by
  have place {q : UInt64 × Instr} (covers : e.Covers n q) :
      q ∈ placed rs ∧ offsetOf q ≤ n - 0x400000 ∧ n - 0x400000 < offsetOf q + q.2.length.toNat := by
    obtain ⟨a, i⟩ := q
    obtain ⟨found, low, high⟩ := covers
    obtain ⟨r, member, k, there, rfl⟩ := asm.instrAt_iff.mp found
    obtain ⟨offset, -, base⟩ := asm.offset_inside member there
    rw [toNat_codeBase] at base
    refine ⟨mem_placed.mpr ⟨r, member, k, there, rfl⟩, ?_⟩
    simp only [offsetOf] at low high ⊢
    omega
  -- Both are placed, and of two that are placed one ends before the other begins.
  obtain ⟨i, inside₁, rfl⟩ := List.mem_iff_getElem.mp (place first).1
  obtain ⟨j, inside₂, rfl⟩ := List.mem_iff_getElem.mp (place second).1
  have apart := List.pairwise_iff_getElem.mp asm.apart
  have here := (place first).2
  have there := (place second).2
  rcases Nat.lt_trichotomy i j with less | rfl | less
  · have := apart i j inside₁ inside₂ less
    omega
  · rfl
  · have := apart j i inside₂ inside₁ less
    omega

theorem tiled (asm : Assembled p e rs) (member : r ∈ rs) {n : Nat} (first : r.layout.low.toNat ≤ n)
    (last : n < r.layout.high.toNat) : ∃! q, e.Covers n q := by
  have bounds := asm.bounds member
  have inside : n - r.layout.low.toNat < span r.code := by omega
  obtain ⟨k, i, there, low, high⟩ := exists_covering inside
  have here := asm.toNat_address member k
  have covers : e.Covers n (r.address k, i) := by
    refine ⟨asm.instrAt_address member there, ?_, ?_⟩ <;> simp only <;> omega
  exact ⟨_, covers, fun q other => asm.covers_unique other covers⟩

/-- An instruction lies within the function it was emitted for. -/
theorem address_within (asm : Assembled p e rs) (member : r ∈ rs) {k : Nat} {i : Instr}
    (there : r.code[k]? = some i) : r.layout.low.toNat ≤ (r.address k).toNat ∧
      (r.address k).toNat + i.length.toNat ≤ r.layout.high.toNat := by
  have bounds := asm.bounds member
  have here := asm.toNat_address member k
  have next := span_take_succ there
  have whole := congrArg span (List.take_append_drop (k + 1) r.code)
  rw [span_append] at whole
  omega

theorem entry_pushFrame (asm : Assembled p e rs) (member : r ∈ rs) :
    e.instrAt? r.layout.low = some .pushFrame := by
  have there : r.code[0]? = some .pushFrame := by
    rw [Routine.code_eq (asm.compiled r member)]
    rfl
  have found := asm.instrAt_address member there
  simpa [Routine.address] using found

/-- A jump leads to a statement of its own function, where an instruction is. -/
theorem jump_stands (asm : Assembled p e rs) (member : r ∈ rs) {k : Nat} {target : UInt64}
    (there : r.code[k]? = some (.jump target)) :
    (∃ i, e.instrAt? target = some i) ∧ target ∈ r.layout.statements := by
  cases asm.stands member there with
  | op s op statement inside done first last =>
    rw [Op.assemble.eq_def] at done
    cases op with
    | jump index =>
      dsimp only at done
      split at done
      · rename_i starts
        cases done
        have planned := (layout_planned (asm.mem_functions member).1).2.1
        obtain ⟨j, rfl, -, room⟩ :=
          Routine.statement_address (asm.compiled r member) planned starts
        have inside : j < r.code.length := by omega
        exact ⟨⟨_, asm.instrAt_address member (List.getElem?_eq_getElem inside)⟩,
          List.mem_of_getElem? starts⟩
      · cases done
    | call | store | load => dsimp only at done; split at done <;> cases done
    | nop | setArg | print | «break» | spawn | endThread | fault | exit => cases done

/-- The bytes written for an instruction are those it is decoded from. -/
theorem decoded (asm : Assembled p e rs) {a : UInt64} {i : Instr} (found : e.instrAt? a = some i)
    {n : Nat} (some : 0 < n) :
    classify a ((e.codeFrom a).take n) = .ok ⟨a, i.length, i.kind⟩ := by
  obtain ⟨r, member, k, there, rfl⟩ := asm.instrAt_iff.mp found
  have byte := asm.code_mark member there
  obtain ⟨m, rfl⟩ : ∃ m, n = m + 1 := ⟨n - 1, by omega⟩
  have first : (e.codeFrom (r.address k)).head? = .some (mark (r.address k, i)) := by
    rw [Executable.codeFrom, List.head?_drop, Array.getElem?_toList, byte]
  obtain ⟨rest, bytes⟩ := List.head?_eq_some_iff.mp first
  rw [bytes, List.take_succ_cons, classify_mark]

end Assembled

/-- What a call pushes is the address of the instruction behind it. -/
theorem call_pushes {x y : Machine} {target : UInt64}
    (found : x.executable.instrAt? x.registers.pc = some (.call target))
    (done : execute x = (.ok false, y)) :
    y.registers.pc = target ∧ Word y y.registers.sp (x.registers.pc + (Instr.call target).length) := by
  have own : Blocked x (.call target) → (Instr.call target) = .break := by
    intro blocked
    rw [execute_run, found] at done
    dsimp only at done
    rw [if_pos blocked] at done
    cases done
  have turned := execute_turned found own done
  cases turned with
  | call _ registers word =>
    rw [registers]
    exact ⟨rfl, word⟩
  | straight _ _ plain => cases plain

/-- A program that can be assembled is emitted as it was planned. -/
theorem assemble_emitted {p : Program} {e : Executable} (done : p.assemble = .ok e) : Emitted p e := by
  obtain ⟨rs, asm⟩ := assemble_ok done
  have routine {l : Layout} (member : l ∈ p.layouts) : ∃ r ∈ rs, r.layout = l := by
    rw [← asm.layouts] at member
    exact List.mem_map.mp member
  refine
    { laid := map_function_layouts _ _
      kept := fun l member => ?_
      tiled := fun l member n first last => ?_
      within := fun a i found => ?_
      apart := ?_
      aligned := layouts_aligned (by decide)
      calls := fun a target found => ?_
      jumps := fun a target found => ?_
      decoded := fun a i found _ n some => asm.decoded found some
      returns := fun x y target built found run => ?_ }
  · obtain ⟨r, known, rfl⟩ := routine member
    exact ⟨r.body, asm.kept known⟩
  · obtain ⟨r, known, rfl⟩ := routine member
    exact asm.tiled known first last
  · obtain ⟨r, known, k, there, rfl⟩ := asm.instrAt_iff.mp found
    exact ⟨r.layout, (asm.mem_functions known).1, asm.address_within known there⟩
  · rw [← asm.layouts]
    exact List.pairwise_map.mpr asm.apart_layouts
  · obtain ⟨r, known, k, there, rfl⟩ := asm.instrAt_iff.mp found
    obtain ⟨-, -, q, callee, rfl⟩ := asm.call_stands known there
    exact ⟨asm.entry_pushFrame callee, q.layout, (asm.mem_functions callee).1, rfl⟩
  · obtain ⟨r, known, k, there, rfl⟩ := asm.instrAt_iff.mp found
    obtain ⟨lands, start⟩ := asm.jump_stands known there
    have bounds := asm.address_within known there
    have long := length_bounds (.jump target)
    refine ⟨lands, r.layout, (asm.mem_functions known).1, ?_, ?_, start⟩
    · exact UInt64.le_iff_toNat_le.mpr bounds.1
    · exact UInt64.lt_iff_toNat_lt.mpr (by omega)
  · subst built
    obtain ⟨pc, word⟩ := call_pushes found run
    exact ⟨pc, fun n some => ⟨_, asm.decoded found some, word⟩⟩

/-- A function that calls another one, with an argument, over and over again. -/
def courier : Program :=
  ⟨"courier", "courier.src", "main",
    [⟨"main", [], [], some 1, some 4,
        [.of (some 2) [.setArg 0 (.int 1), .call "work"], .of (some 3) [.break, .jump 0]]⟩,
      ⟨"work", [("n", .int)], [("s", .text)], some 5, some 7,
        [.of (some 6) [.store "s" (.text none)]]⟩], []⟩

def courierCode : Executable := courier.assemble.toOption.getD default

theorem courier_built : courier.assemble = .ok courierCode := by rfl

theorem assemble_emitted_courier : courier.assemble = .ok courierCode ∧ Emitted courier courierCode ∧
    courierCode.instrAt? 0x400019 = some (.call 0x400030) ∧
      courierCode.instrAt? 0x40001f = some (.jump 0x400015) :=
  ⟨courier_built, assemble_emitted courier_built, by decide +kernel, by decide +kernel⟩

end SourceDebugger.Machine
