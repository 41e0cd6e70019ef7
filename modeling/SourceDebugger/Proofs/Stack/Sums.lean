import SourceDebugger.CallStack
import SourceDebugger.Proofs.Symbols.Search
/-!
The sums a walk makes of addresses. The walk is written a second time with sums that fail where they
leave the 64 bits; wherever it is used, it comes to the same frames. The differences it makes are all of
a kind that cannot fail.
-/
namespace SourceDebugger

/-- The module and the stretches its symbols stand for end at addresses. -/
structure LoadedModule.Below (m : LoadedModule) : Prop where
  extent : m.base.toNat + m.size.toNat < 2 ^ 64
  symbols : ∀ s, m.symbols = some s → ∀ e ∈ s.symbols.entries,
    e.offset.toNat + e.size.toNat < 2 ^ 64

/-- The code of the module's statements ends at addresses. -/
def LoadedModule.RowsBelow (m : LoadedModule) : Prop :=
  ∀ s, m.symbols = some s → ∀ row ∈ s.lines.rows, row.stop.toNat + m.base.toNat < 2 ^ 64

namespace Checked

/-- A sum of addresses, where it is one of 64 bits. -/
def sum (a b : UInt64) : Option UInt64 :=
  if a.toNat + b.toNat < 2 ^ 64 then some (a + b) else none

theorem sum_eq {a b : UInt64} (fits : a.toNat + b.toNat < 2 ^ 64) : sum a b = some (a + b) :=
  if_pos fits

theorem sum_below {a b c : UInt64} (le : b ≤ c - a) (above : a ≤ c) : sum a b = some (a + b) := by
  refine sum_eq ?_
  have bound := c.toNat_lt
  rw [UInt64.le_iff_toNat_le] at le above
  rw [UInt64.toNat_sub_of_le _ _ (UInt64.le_iff_toNat_le.mpr above)] at le
  omega

section Modules

variable {m : LoadedModule} {r : Roster} {address offset : UInt64} {t : SymbolTable}
  {symbols : ModuleSymbols}

def contains (m : LoadedModule) (address : UInt64) : Option Bool :=
  if m.base ≤ address then do return address < (← sum m.base m.size) else some false

theorem contains_eq (below : m.Below) : contains m address = some (m.contains address) := by
  unfold contains LoadedModule.contains
  by_cases above : m.base ≤ address
  · simp [above, sum_eq below.extent]
  · simp [above]

def firstAt (address : UInt64) : List LoadedModule → Option (Option LoadedModule)
  | [] => some none
  | m :: rest => do if ← contains m address then return some m else firstAt address rest

theorem firstAt_eq {ms : List LoadedModule} (below : ∀ m ∈ ms, m.Below) :
    firstAt address ms = some (ms.find? (·.contains address)) := by
  induction ms with
  | nil => rfl
  | cons m ms ih =>
    rw [firstAt, contains_eq (below m List.mem_cons_self), List.find?_cons]
    have rest := ih fun m member => below m (List.mem_cons_of_mem _ member)
    cases here : m.contains address with
    | true => simp
    | false => simpa using rest

def covering (t : SymbolTable) (offset : UInt64) : Option (Option SymbolEntry) :=
  match lastBefore? t.entries fun s => s.offset ≤ offset with
  | none => some none
  | some s =>
    if s.size = 0 then some (some s)
    else do if offset < (← sum s.offset s.size) then return some s else return none

theorem covering_eq (below : ∀ s ∈ t.entries, s.offset.toNat + s.size.toNat < 2 ^ 64) :
    covering t offset = some (t.covering? offset) := by
  unfold covering SymbolTable.covering?
  cases found : lastBefore? t.entries fun s => s.offset ≤ offset with
  | none => rfl
  | some s =>
    have fits := below s (mem_of_lastBefore found)
    by_cases label : s.size = 0
    · simp [label, Option.filter_some]
    · by_cases inside : offset < s.offset + s.size
      · simp [label, inside, sum_eq fits, Option.filter_some]
      · simp [label, inside, sum_eq fits, Option.filter_some]

def functionAt (m : LoadedModule) (address : UInt64) : Option (Option FunctionInfo) :=
  match m.symbols with
  | none => some none
  | some s =>
    if address < m.base then some none
    else
      let offset := address - m.base
      match s.functions.at? offset with
      | some f => some (some f)
      | none => do return (← covering s.symbols offset).map (ModuleSymbols.functionOfSymbol offset)

theorem functionAt_eq (below : m.Below) : functionAt m address = some (m.functionAt? address) := by
  unfold functionAt LoadedModule.functionAt? LoadedModule.ask
  cases known : m.symbols with
  | none => rfl
  | some s =>
    by_cases low : address < m.base
    · simp [low]
    · simp only [low, if_false, Option.bind_eq_bind, Option.bind_some, ModuleSymbols.functionAt?]
      cases s.functions.at? (address - m.base) with
      | some f => rfl
      | none => simp [covering_eq (below.symbols s known)]

def lineAt (m : LoadedModule) (address : UInt64) : Option (Option CodeRange) :=
  match m.ask address fun s offset => s.lines.lookup offset with
  | none => some none
  | some row => do
    let start ← sum row.start m.base
    let stop ← sum row.stop m.base
    return some { row with start, stop }

/-- What is asked of the symbols is asked at or above the base. -/
theorem ask_some {α : Type} {question : ModuleSymbols → UInt64 → Option α} {answer : α}
    (asked : m.ask address question = some answer) :
    m.base ≤ address ∧ ∃ s, m.symbols = some s ∧ question s (address - m.base) = some answer := by
  unfold LoadedModule.ask at asked
  obtain ⟨s, known, asked⟩ := Option.bind_eq_some_iff.mp asked
  split at asked
  · cases asked
  · rename_i above
    exact ⟨UInt64.not_lt.mp above, s, known, asked⟩

/-- A row that is found starts at or before the address it is found for. Where it ends is not known. -/
theorem lineAt_eq (below : m.RowsBelow) : lineAt m address = some (m.lineAt? address) := by
  unfold lineAt LoadedModule.lineAt?
  cases asked : m.ask address fun s offset => s.lines.lookup offset with
  | none => rfl
  | some row =>
    obtain ⟨above, s, known, found⟩ := ask_some asked
    obtain ⟨found, inside⟩ := Option.filter_eq_some_iff.mp found
    have stop := below s known row (mem_of_lastBefore found)
    have order : row.start.toNat ≤ row.stop.toNat := by
      simp only [CodeRange.contains, Bool.and_eq_true, decide_eq_true_eq] at inside
      exact UInt64.le_iff_toNat_le.mp (UInt64.le_of_lt (UInt64.lt_of_le_of_lt inside.1 inside.2))
    simp [sum_eq (a := row.start) (b := m.base) (by omega), sum_eq stop, CodeRange.shift]

theorem low_of_functionAt {f : FunctionInfo} (found : m.functionAt? address = some f) :
    m.base ≤ address ∧ f.low ≤ address - m.base := by
  obtain ⟨above, s, -, found⟩ := ask_some found
  refine ⟨above, ?_⟩
  rcases Option.or_eq_some_iff.mp found with recorded | ⟨-, named⟩
  · obtain ⟨-, inside⟩ := Option.filter_eq_some_iff.mp recorded
    simp only [FunctionInfo.contains, Bool.and_eq_true, decide_eq_true_eq] at inside
    exact inside.1
  · obtain ⟨e, covered, rfl⟩ := Option.map_eq_some_iff.mp named
    obtain ⟨found, -⟩ := Option.filter_eq_some_iff.mp covered
    have first := lastBefore_holds found
    exact of_decide_eq_true first

end Modules

section Frames

open CallStack

variable {δ : Type} [Debuggee δ] {ts : Traps} {d : δ} {r : Roster} {thread : ThreadId}
  {generation room index most : Nat} {regs : Registers} {pc fp address : UInt64} {state : FrameState}

def siteAt (r : Roster) (address : UInt64) : Option Site := do
  match ← firstAt address r.modules with
  | none => return ⟨none, none⟩
  | some m => return ⟨some m, ← functionAt m address⟩

theorem siteAt_eq (below : ∀ m ∈ r.modules, m.Below) :
    siteAt r address = some (CallStack.siteAt r address) := by
  unfold siteAt CallStack.siteAt Roster.moduleAt?
  rw [firstAt_eq below]
  cases found : r.modules.find? (·.contains address) with
  | none => rfl
  | some m => simp [functionAt_eq (below m (List.mem_of_find?_eq_some found))]

def innermostState (ts : Traps) (d : δ) (site : Site) (pc : UInt64) : Option FrameState :=
  match site.loaded, site.info with
  | some m, some f => do
    let entry ← sum m.base f.low
    if pc = entry then return .absent
    else if decodesTo ts d entry fun i => i.kind = .pushFramePointer && i.next = pc then
      return .pushed
    else return stateByInstruction ts d pc
  | _, _ => some (stateByInstruction ts d pc)

/-- A function that was found starts below the address it was found for. -/
theorem innermostState_eq : innermostState ts d (CallStack.siteAt r address) pc =
    some (CallStack.innermostState ts d (CallStack.siteAt r address) pc) := by
  unfold innermostState CallStack.innermostState
  cases loaded : (CallStack.siteAt r address).loaded with
  | none => rfl
  | some m =>
    cases info : (CallStack.siteAt r address).info with
    | none => rfl
    | some f =>
      have found : m.functionAt? address = some f := by
        simp only [CallStack.siteAt] at loaded info
        rw [loaded] at info
        exact info
      obtain ⟨above, low⟩ := low_of_functionAt found
      simp only [sum_below low above, Option.bind_eq_bind, Option.bind_some]
      split
      · rfl
      · split <;> rfl

def unwindFramed (d : δ) (fp : UInt64) : Option (Except Fault Registers) :=
  if 2 ^ 64 ≤ fp.toNat + 16 then some (.error (.notStackAddress fp))
  else do
    let upper ← sum fp 8
    return do
      let pc ← Debuggee.readWord d upper
      let callerFp ← Debuggee.readWord d fp
      .ok ⟨pc, fp + 16, callerFp⟩

theorem unwindFramed_eq : unwindFramed d fp = some (CallStack.unwindFramed d fp) := by
  unfold unwindFramed CallStack.unwindFramed
  split
  · rfl
  · rename_i room
    have fits : fp.toNat + (8 : UInt64).toNat < 2 ^ 64 := by
      have : (8 : UInt64).toNat = 8 := rfl
      omega
    rw [sum_eq fits]
    rfl

def unwind (d : δ) (state : FrameState) (regs : Registers) : Option (Option Registers) :=
  match state with
  | .absent => some (unwindFrameless d regs.sp regs.fp).toOption
  | .pushed => do return (← unwindFramed d regs.sp).toOption
  | .complete => if regs.fp = 0 then some none else do return (← unwindFramed d regs.fp).toOption

theorem unwind_eq : unwind d state regs = some (unwind? d state regs) := by
  cases state with
  | absent => rfl
  | pushed => simp [unwind, unwind?, unwindFramed_eq]
  | complete =>
    by_cases bottom : regs.fp = 0
    · simp [unwind, unwind?, bottom]
    · simp [unwind, unwind?, bottom, unwindFramed_eq]

def caller (d : δ) (state : FrameState) (regs : Registers) : Option (Option Registers) := do
  return (← unwind d state regs).filter fun c =>
    c.pc != 0 && !(state == .complete && c.fp != 0 && c.fp ≤ regs.fp)

theorem caller_eq : caller d state regs = some (caller? d state regs) := by
  simp [caller, caller?, unwind_eq]

section Lines

variable (line : LoadedModule → UInt64 → Option (Option CodeRange))

/-- How the rows of a module are moved to addresses is left open. -/
def segmentAt (site : Site) (address : UInt64) : Option (Option Segment) :=
  match site.loaded with
  | none => some none
  | some m => do return (← line m address).map (·.segment)

def stateAt (ts : Traps) (d : δ) (site : Site) (index : Nat) (pc : UInt64) : Option FrameState :=
  if index = 0 then innermostState ts d site pc else some .complete

def frameAt (ts : Traps) (d : δ) (r : Roster) (thread : ThreadId) (generation index : Nat)
    (regs : Registers) : Option (Frame × FrameState) := do
  let lookup := if index = 0 || regs.pc = 0 then regs.pc else regs.pc - 1
  let site ← siteAt r lookup
  let segment ← segmentAt line site lookup
  let state ← stateAt ts d site index regs.pc
  let fp := match state with
    | .absent => regs.sp - 8
    | .pushed => regs.sp
    | .complete => regs.fp
  return ({ index, thread, generation, pc := regs.pc, sp := regs.sp, fp, info := site.info, segment
            function := match site.info with
              | some f => f.name
              | none => "<unknown " ++ Text.hexMarked regs.pc.toNat ++ ">"
            moduleName := site.loaded.map (·.name)
            base := (site.info.map (·.frameBase)).getD .framePointer }, state)

def framesFrom (ts : Traps) (d : δ) (r : Roster) (thread : ThreadId) (generation : Nat) :
    (room index : Nat) → Registers → Option (List Frame)
  | 0, _, _ => some []
  | room + 1, index, regs => do
    let (frame, state) ← frameAt line ts d r thread generation index regs
    match ← caller d state regs with
    | none => return [frame]
    | some c => return frame :: (← framesFrom ts d r thread generation room (index + 1) c)

def walk (ts : Traps) (d : δ) (r : Roster) (thread : ThreadId) (most generation : Nat) :
    Option (Except Fault (List Frame)) :=
  match Debuggee.registers d thread with
  | .error e => some (.error e)
  | .ok regs => do return .ok (← framesFrom line ts d r thread generation most 0 regs)

end Lines

section Agreement

variable {line : LoadedModule → UInt64 → Option (Option CodeRange)}

theorem segmentAt_eq (rows : ∀ m ∈ r.modules, ∀ a, line m a = some (m.lineAt? a)) :
    segmentAt line (CallStack.siteAt r address) address =
      some (((CallStack.siteAt r address).loaded.bind (·.lineAt? address)).map (·.segment)) := by
  unfold segmentAt
  cases loaded : (CallStack.siteAt r address).loaded with
  | none => rfl
  | some m => simp [rows m (List.mem_of_find?_eq_some loaded) address]

theorem stateAt_eq : stateAt ts d (CallStack.siteAt r address) index pc =
    some (if index = 0 then CallStack.innermostState ts d (CallStack.siteAt r address) pc
      else .complete) := by
  unfold stateAt
  split
  · exact innermostState_eq
  · rfl

theorem frameAt_eq (below : ∀ m ∈ r.modules, m.Below)
    (rows : ∀ m ∈ r.modules, ∀ a, line m a = some (m.lineAt? a)) :
    frameAt line ts d r thread generation index regs =
      some (CallStack.frameAt ts d r thread generation index regs) := by
  simp only [frameAt, siteAt_eq below, segmentAt_eq rows, stateAt_eq, Option.bind_eq_bind,
    Option.bind_some]
  rfl

theorem framesFrom_eq (below : ∀ m ∈ r.modules, m.Below)
    (rows : ∀ m ∈ r.modules, ∀ a, line m a = some (m.lineAt? a)) :
    framesFrom line ts d r thread generation room index regs =
      some (CallStack.framesFrom ts d r thread generation room index regs) := by
  induction room generalizing index regs with
  | zero => rfl
  | succ room ih =>
    simp only [framesFrom, CallStack.framesFrom, frameAt_eq below rows, caller_eq,
      Option.bind_eq_bind, Option.bind_some]
    cases caller? d (CallStack.frameAt ts d r thread generation index regs).2 regs with
    | none => rfl
    | some c => simp [ih]

/-- A walk makes no sum that is not an address. -/
theorem walk_eq (below : ∀ m ∈ r.modules, m.Below)
    (rows : ∀ m ∈ r.modules, ∀ a, line m a = some (m.lineAt? a)) :
    walk line ts d r thread most generation =
      some (CallStack.walk ts d r thread most generation) := by
  unfold walk CallStack.walk
  cases Debuggee.registers d thread with
  | error e => rfl
  | ok regs =>
    simp only [framesFrom_eq below rows]
    rfl

end Agreement

end Frames

end Checked

end SourceDebugger
