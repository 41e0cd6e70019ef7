import SourceDebugger.Proofs.Program.Reading
import SourceDebugger.Proofs.Session.Commands
import SourceDebugger.Proofs.Session.Freshness
/-!
What a paused session shows of variables. In every frame that is set up it shows the data that the
program has stored there and, of arguments, those that were set for the call.
-/
namespace SourceDebugger

open Machine Traps CallStack

namespace Machine

/-- The datum that an activation has last stored in a variable. -/
def Holding.value? (h : Holding) (s : Scope) (name : String) : Option Datum :=
  (s.slotOf? name).bind h.stored

/-- The datum that an argument should have: the one last stored, or else the one that was set for it
when the activation began, provided it was of the type. -/
def Holding.Argument (h : Holding) (s : Scope) (index : Nat) (name : String) (type : VarType)
    (d : Datum) : Prop :=
  h.value? s name = some d ∨
    h.value? s name = none ∧ h.given index = some d ∧ d.hasType type = true

end Machine

namespace Session

/-- What a session shows of a datum. -/
def Shown (s : Session Machine) : Datum → Value → Prop
  | .int n, v => v = .primitive (.int n.toInt)
  | .bool b, v => v = .primitive (.bool b)
  | .text none, v => ∃ typeName, v = .null typeName
  | .text (some t), v => t.toUTF8.size ≤ s.host.config.maxTextBytes → v = .text t
  | .ints ns, v => ns.length ≤ s.host.config.maxElements → ∃ a : ArrayValue, v = .array a ∧
      a.length = ns.length ∧ ∀ i n, ns[i]? = some n →
        arrayElement a i s = (.ok (.primitive (.int n.toInt)), s)
  | .object none, v => ∃ typeName, v = .null typeName
  | .object (some bytes), v => ∃ typeName address m, v = .object typeName address ∧
      s.debuggee = some m ∧ Debuggee.read m address bytes.length = .ok bytes

/-- Variables are listed as they are declared, each with the datum that it should have. -/
structure Lists (s : Session Machine) (vars : List Variable) (declared : List (String × VarType))
    (due : Nat → String → VarType → Datum → Prop) : Prop where
  named : vars.map (fun v => (v.name, v.typeName)) =
    declared.map fun d => (d.1, d.2.valueType.render)
  valued : ∀ i v name type d, vars[i]? = some v → declared[i]? = some (name, type) →
    due i name type d → s.Shown d v.value

/-- In a frame the variables of a function are listed with the data that an activation holds. -/
structure Displays (s : Session Machine) (p : Program) (l : Layout) (h : Holding) (frame : Frame) :
    Prop where
  arguments : ∃ vars, arguments frame s = (.ok vars, s) ∧
    s.Lists vars l.function.arguments (h.Argument (p.scope l))
  locals : ∃ vars, locals frame s = (.ok vars, s) ∧
    s.Lists vars l.function.locals fun _ name _ d => h.value? (p.scope l) name = some d

/-- The call stack shows, from the innermost frame out, what the activations hold. The innermost frame
does so from the end of its function's prologue on. -/
def Mirrors (s : Session Machine) (p : Program) (pc : UInt64) (calls : List Activation) (q : Stock) :
    Prop :=
  q.holdings.length = calls.length ∧
  ∃ frames, frames.length = min s.host.config.maxFrames calls.length ∧
    callstack mainThread s = (if s.roster.threads.contains mainThread then .ok frames
      else .error (.threadNotFound mainThread), s) ∧
    ∀ i frame c h, frames[i]? = some frame → calls[i]? = some c → q.holdings[i]? = some h →
      ∃ l ∈ p.layouts, l.low = c.entry ∧
        ((i = 0 → l.low.toNat + l.function.prologueLength.toNat ≤ pc.toNat) →
          s.Displays p l h frame)

variable {p : Program} {e : Executable} {rs : List Routine} {config : Config} {s : Session Machine}
  {m x : Machine} {reason : PauseReason} {thread : ThreadId} {calls : List Activation} {q : Stock}

/-- A datum that lies in memory above the code is shown. -/
theorem shown_of_lies (attached : s.debuggee = some m) (paused : s.state = .paused reason thread)
    (covering : s.traps.Covering heapBase.toNat x m) (parted : Parted x) {d : Datum}
    {type : ValueType} (fits : d.Fits type) {a : UInt64} (lies : d.Lies x a)
    (above : heapBase.toNat ≤ a.toNat) (top : a.toNat + type.byteSize.toNat ≤ stackTop.toNat) :
    s.Shown d (Value.readAt m s.host.config s.generation a type) := by
  rw [← fits.size] at top
  obtain ⟨t, rfl, typed⟩ := fits
  cases d with
  | int n =>
    cases t with
    | int =>
      obtain ⟨_, loaded, _⟩ := lies
      exact readAt_int covering loaded above top
    | bool | text | ints | object => cases typed
  | bool b =>
    cases t with
    | bool =>
      obtain ⟨_, loaded, _⟩ := lies
      exact readAt_bool covering loaded above top
    | int | text | ints | object => cases typed
  | text t' =>
    cases t with
    | text =>
      cases t' with
      | none => exact ⟨_, readAt_text_none covering parted lies above top⟩
      | some t => exact fun short => readAt_text covering parted lies above top short
    | int | bool | ints | object => cases typed
  | ints ns =>
    cases t with
    | ints =>
      intro short
      obtain ⟨a, read, length, generation, elements⟩ :=
        readAt_ints s.generation covering parted lies above top short
      refine ⟨a, read, length, fun i n there => ?_⟩
      have inside := (List.getElem?_eq_some_iff.mp there).1
      rw [arrayElement_run, paused]
      dsimp only
      rw [if_neg (not_not_intro generation), if_neg (by omega), inspect_run, attached]
      exact congrArg (fun v => (Except.ok v, s)) (elements i n there)
    | int | bool | text | object => cases typed
  | object bytes =>
    cases t with
    | object name =>
      cases bytes with
      | none => exact ⟨name, readAt_object_none covering lies above top name⟩
      | some bytes =>
        obtain ⟨address, shown, read⟩ := readAt_object s.host.config s.generation
          covering parted lies above top name
        exact ⟨name, address, m, shown, attached, read⟩
    | int | bool | text | ints => cases typed

theorem lists_of_lies (attached : s.debuggee = some m) (paused : s.state = .paused reason thread)
    (covering : s.traps.Covering heapBase.toNat x m) (parted : Parted x) {frame : Frame}
    (base : frame.base = .framePointer) {infos : List VariableInfo}
    {declared : List (String × VarType)} {due : Nat → String → VarType → Datum → Prop}
    (named : infos.map (fun v => (v.name, v.type)) = declared.map fun d => (d.1, d.2.valueType))
    (lies : ∀ i v type d, infos[i]? = some v → i < declared.length → v.type = type.valueType →
      due i v.name type d → ∃ offset, v.place = .frame offset ∧ d.Fits v.type ∧
        d.Lies x (frame.fp + offset.toUInt64) ∧
          heapBase.toNat ≤ (frame.fp + offset.toUInt64).toNat ∧
            (frame.fp + offset.toUInt64).toNat + v.type.byteSize.toNat ≤ stackTop.toNat) :
    s.Lists (infos.map (Value.readVariable m s.host.config s.generation frame)) declared due := by
  constructor
  · have both := congrArg (List.map fun v : String × ValueType => (v.1, v.2.render)) named
    rw [List.map_map, List.map_map] at both
    rw [List.map_map]
    exact both
  · intro i v name type d found there is_due
    rw [List.getElem?_map] at found
    obtain ⟨info, known, rfl⟩ := Option.map_eq_some_iff.mp found
    have same := congrArg (·[i]?) named
    simp only [List.getElem?_map, known, there, Option.map_some, Option.some.injEq,
      Prod.mk.injEq] at same
    obtain ⟨rfl, typed⟩ := same
    obtain ⟨offset, place, fits, there, above, top⟩ :=
      lies i info type d known (List.getElem?_eq_some_iff.mp there).1 typed is_due
    have address : Value.addressOf frame info.place = .ok (frame.fp + offset.toUInt64) := by
      rw [place, Value.addressOf, base]
    rw [Value.readVariable, address]
    exact shown_of_lies attached paused covering parted fits there above top

/-- The variables of a frame that is set up are listed with the data that the record says. -/
theorem lists_of_filled (asm : Assembled p e rs) (distinct : ∀ f ∈ p.functions, f.Distinct)
    (attached : s.debuggee = some m) (paused : s.state = .paused reason thread)
    (covering : s.traps.Covering heapBase.toNat x m) (parted : Parted x) {r : Routine}
    (member : r ∈ rs) {frame : Frame} (base : frame.base = .framePointer)
    (room : heapBase.toNat + r.layout.function.frame.toNat ≤ frame.fp.toNat)
    (top : frame.fp.toNat ≤ stackTop.toNat) {h : Holding}
    (filled : Filled r.layout.function x frame.fp r.layout.function.arguments.length h) :
    s.Lists (r.info.arguments.map (Value.readVariable m s.host.config s.generation frame))
        r.layout.function.arguments (h.Argument (p.scope r.layout)) ∧
      s.Lists (r.info.locals.map (Value.readVariable m s.host.config s.generation frame))
        r.layout.function.locals fun _ name _ d => h.value? (p.scope r.layout) name = some d := by
  have small := asm.function_small member
  have distinct := distinct _ (asm.mem_functions member).2
  have placed (v : VariableInfo) (known : v ∈ r.layout.function.known) :
      ∃ offset, v.place = .frame offset ∧
        (∀ h : Holding, h.value? (p.scope r.layout) v.name = h.stored offset) ∧
          heapBase.toNat ≤ (frame.fp + offset.toUInt64).toNat ∧
            (frame.fp + offset.toUInt64).toNat + v.type.byteSize.toNat ≤ stackTop.toNat := by
    obtain ⟨depth, place, _⟩ := r.layout.function.slot_known small known
    obtain ⟨_, low, high⟩ := slot_reach asm member frame.fp (by omega) known place
    have slot := r.layout.function.slotOf_known distinct small (s := p.scope r.layout) rfl known
    rw [place] at slot
    obtain ⟨offset, resolved, same⟩ := Option.map_eq_some_iff.mp slot
    cases same
    exact ⟨_, place, fun h => by rw [Holding.value?, resolved, Option.bind_some], by omega, by omega⟩
  constructor
  · refine lists_of_lies attached paused covering parted base (names_slots 0 _)
      fun i v type d found inside same due => ?_
    have known := parameter_known (f := r.layout.function) found
    obtain ⟨offset, place, value, above, top⟩ := placed v known
    rcases due with stored | ⟨unstored, given, typed⟩
    · rw [value] at stored
      obtain ⟨fits, lies⟩ := filled.stored v known offset d place stored
      exact ⟨offset, place, fits, lies, above, top⟩
    · rw [value] at unstored
      have fits : d.Fits v.type := ⟨type, same.symm, typed⟩
      exact ⟨offset, place, fits, filled.given i v offset d inside found place unstored given fits,
        above, top⟩
  · refine lists_of_lies attached paused covering parted base (names_slots _ _)
      fun i v type d found inside same stored => ?_
    have known : v ∈ r.layout.function.known := List.mem_append_right _ (List.mem_of_getElem? found)
    obtain ⟨offset, place, value, above, top⟩ := placed v known
    rw [value] at stored
    obtain ⟨fits, lies⟩ := filled.stored v known offset d place stored
    exact ⟨offset, place, fits, lies, above, top⟩

theorem displays_of_filled (asm : Assembled p e rs) (distinct : ∀ f ∈ p.functions, f.Distinct)
    (attached : s.debuggee = some m) (paused : s.state = .paused reason thread)
    (covering : s.traps.Covering heapBase.toNat x m) (parted : Parted x) {r : Routine}
    (member : r ∈ rs) {frame : Frame} {c : Activation}
    (depicts : Depicts e s.generation frame c r)
    (room : heapBase.toNat + r.layout.function.frame.toNat ≤ c.base.toNat)
    (top : c.base.toNat ≤ stackTop.toNat) {h : Holding}
    (filled : Filled r.layout.function x c.base r.layout.function.arguments.length h) :
    s.Displays p r.layout h frame := by
  rw [← depicts.fp] at room top filled
  obtain ⟨first, second⟩ := lists_of_filled asm distinct attached paused covering parted member
    depicts.base room top filled
  have read (operation : Operation) (pick : FunctionInfo → List VariableInfo) :
      readVariables frame operation pick s = (.ok ((pick (Assembled.entryOf e r)).map
        (Value.readVariable m s.host.config s.generation frame)), s) := by
    rw [readVariables_run, if_neg (not_not_intro depicts.generation), paused, inspect_run, attached]
    dsimp only
    rw [depicts.info]
    rfl
  exact ⟨⟨_, read _ _, first⟩, ⟨_, read _ _, second⟩⟩

theorem callstack_paused (attached : s.debuggee = some m) (paused : s.state = .paused reason thread)
    {frames : List Frame}
    (walked : CallStack.walk s.traps m s.roster mainThread s.host.config.maxFrames s.generation =
      .ok frames) :
    callstack mainThread s = (if s.roster.threads.contains mainThread then .ok frames
      else .error (.threadNotFound mainThread), s) := by
  rw [callstack, Effect.bind_run, requirePaused_run, paused]
  dsimp only
  rw [Effect.bind_ok (Effect.get_run s), Effect.ite_run]
  split
  · rw [walk, inspect_run, attached]
    dsimp only
    rw [walked]
  · rfl

/-- A program whose main function gives another one arguments, of which that one changes the second. -/
def parcel : Program where
  path := "/bin/parcel"
  sourceFile := "parcel.src"
  entry := "main"
  functions :=
    [⟨"main", [], [("done", .bool)], some 1, some 3,
        [.of (some 2) [.setArg 0 (.int 7), .setArg 1 (.bool true), .call "work"]]⟩,
      ⟨"work", [("n", .int), ("flag", .bool)], [("m", .int)], some 5, some 8,
        [.of (some 6) [.store "m" (.int 1), .store "flag" (.bool false)], .of (some 7) [.break]]⟩]
  libraries := []

def parcelCode : Executable := parcel.assemble.toOption.getD default

theorem parcel_built : parcel.assemble = .ok parcelCode := by rfl

/-- The session at the break in the function that is called. -/
def parcelPaused : Session Machine :=
  ((new (parcelCode.host .standard)).perform (.start ⟨"/bin/parcel", "/", []⟩)).pumps
    (List.replicate 100 0)

theorem parcelPaused_reachable : parcelPaused.Reachable parcelCode .standard :=
  Reachable.pumps ⟨[.start ⟨"/bin/parcel", "/", []⟩], rfl⟩ _

theorem parcelPaused_state : parcelPaused.state = .paused .break mainThread := by
  obtain ⟨rs, asm⟩ := assemble_ok parcel_built
  have startable : (new (parcelCode.host .standard)).Startable parcelCode .standard :=
    .after parcelCode .standard [] rfl
  have starts : Starts parcelCode ⟨"/bin/parcel", "/", []⟩ := by decide +kernel
  cases startable.start asm (by decide +kernel) ⟨"/bin/parcel", "/", []⟩ with
  | begun _ begun =>
    obtain ⟨now, pause, _⟩ := begun.pauses asm (by decide) (by decide +kernel) (by decide +kernel)
      (by decide +kernel) 20
      (show _ = some (Halt.paused .break, ⟨⟨0x40004a, 0x7ffeffb0, 0x7ffeffd0⟩,
        [⟨0x400030, some 0x400021, 0x7ffeffe0⟩, ⟨0x400010, none, 0x7fff0000⟩]⟩) by decide +kernel)
      (List.replicate 100 0) (by decide)
    exact pause.view.state
  | refused not => exact absurd starts not
  | unfinished not => exact absurd starts not

end Session

end SourceDebugger
