import SourceDebugger.Proofs.Program.History
import SourceDebugger.Proofs.Program.Modules
import SourceDebugger.Proofs.Session.Requests
/-!
A program under a debugger. Its machine is at every time one that the program comes to on its own, with
the traps laid over it; and the program's own module is the one that is found at its code. Both hold
whatever the debugger is told to do, as long as data stay in their slots.
-/
namespace SourceDebugger

open Machine

namespace Traps

/-- A machine is a plain one with traps in it, and driven in some way. -/
def Over (ts : Traps) (x m : Machine) : Prop := ∃ d : Dress, m = d.on x ∧ Laid ts x d.spots

variable {p : Program} {e : Executable} {rs : List Routine} {x y m n : Machine} {ts : Traps}
  {calls : List Activation} {b : Bool} {spots : List Spot}

theorem Laid.congr (laid : Laid ts x spots) (regions : ∀ q, y.region q = x.region q) :
    Laid ts y spots := by
  have same (a : UInt64) : y.locate a 1 = x.locate a 1 :=
    locate_congr (fun q => by rw [regions q]) a 1
  constructor
  · intro s
    simp only [laid.spot_iff, same]
  · intro a t s found inserted located
    rw [same] at located
    rw [laid.covered a t s found inserted located, peek, peek, regions]

/-- However a machine is driven, the traps in it are the same. -/
theorem Over.drive (overlaid : ts.Over x m) (pending : List Event) (motion : Motion)
    (interrupt : Bool) (signal : Option Int) (threads : List ThreadId) :
    ts.Over { x.calm with pendingSignal := signal, threads }
      { m with pending, motion, interruptRequested := interrupt, pendingSignal := signal
               threads } := by
  obtain ⟨d, rfl, laid⟩ := overlaid
  refine ⟨⟨d.spots, pending, motion, interrupt⟩, ?_, laid.congr fun q => by cases q <;> rfl⟩
  simp [Dress.on, calm]

/-- Who drives a machine leaves the signal that waits for it and its threads alone. -/
theorem Over.driven (overlaid : ts.Over x m) (pending : List Event) (motion : Motion)
    (interrupt : Bool) :
    ts.Over x.calm { m with pending, motion, interruptRequested := interrupt } := by
  obtain ⟨d, rfl, laid⟩ := overlaid
  exact Over.drive ⟨d, rfl, laid⟩ pending motion interrupt x.pendingSignal x.threads

theorem Over.registers (overlaid : ts.Over x m) : m.registers = x.registers := by
  obtain ⟨d, rfl, _⟩ := overlaid
  rfl

theorem Over.executable (overlaid : ts.Over x m) : m.executable = x.executable := by
  obtain ⟨d, rfl, _⟩ := overlaid
  rfl

theorem Over.heap_size (overlaid : ts.Over x m) : m.heap.size = x.heap.size := by
  obtain ⟨d, rfl, _⟩ := overlaid
  exact size_overlay d.spots .heap x.heap

theorem Over.paint {i j : Instrumented Machine} (overlaid : i.traps.Over x i.debuggee)
    (paint : Repaint i j) : j.traps.Over x j.debuggee := by
  obtain ⟨d, dressed, laid⟩ := overlaid
  obtain ⟨spots, same, others⟩ := paint.laid d x dressed laid
  exact ⟨{ d with spots }, same, others⟩

/-- Where no trap stands, none is laid. -/
theorem over_bare (none : ∀ a, ts.owners a = none) (x : Machine) : ts.Over x.calm x := by
  refine ⟨⟨[], x.pending, x.motion, x.interruptRequested⟩, ?_, ?_, ?_⟩
  · simp [Dress.on, calm]
  · intro s
    simp only [List.not_mem_nil, false_iff, not_exists]
    rintro a t ⟨found, _⟩
    have := none a
    rw [owners, found] at this
    cases this
  · intro a t s found
    have := none a
    rw [owners, found] at this
    cases this

/-- Traps that stand aside of the stack are laid aside of it. -/
theorem Over.covering (overlaid : ts.Over x m) (aside : ∀ a, ts.contains a = true → Aside a) :
    ts.Covering heapBase.toNat x m := by
  obtain ⟨d, dressed, laid⟩ := overlaid
  refine ⟨d, dressed, laid, fun s member => ?_⟩
  obtain ⟨a, t, found, _, located⟩ := (laid.spot_iff s).mp member
  rw [(locate_spot located).1]
  exact aside a (contains_iff.mpr ⟨t, found⟩)

/-- Whatever is laid has an address. -/
theorem Over.covering_code (overlaid : ts.Over x m) : ts.Covering (2 ^ 64) x m := by
  obtain ⟨d, dressed, laid⟩ := overlaid
  refine ⟨d, dressed, laid, fun s member => .inl ?_⟩
  obtain ⟨a, t, _, _, located⟩ := (laid.spot_iff s).mp member
  rw [(locate_spot located).1]
  exact a.toNat_lt

/-- Traps stay laid as long as nothing is written where they stand. -/
theorem Laid.onward (laid : Laid ts x spots) (onward : Onward x y)
    (located : ∀ a t, ts.find? a = some t → ∃ s, x.locate a 1 = .ok s)
    (spared : ∀ s ∈ spots, Spared s x y) : Laid ts y spots := by
  have there {a : UInt64} {t : Trap} {s : Spot} (found : ts.find? a = some t)
      (at_ : y.locate a 1 = .ok s) : x.locate a 1 = .ok s := by
    obtain ⟨s', before⟩ := located a t found
    rw [locate_onward onward before] at at_
    cases at_
    exact before
  constructor
  · intro s
    rw [laid.spot_iff]
    constructor
    · rintro ⟨a, t, found, inserted, at_⟩
      exact ⟨a, t, found, inserted, locate_onward onward at_⟩
    · rintro ⟨a, t, found, inserted, at_⟩
      exact ⟨a, t, found, inserted, there found at_⟩
  · intro a t s found inserted at_
    have before := there found at_
    have member := (laid.spot_iff s).mpr ⟨a, t, found, inserted, before⟩
    rw [laid.covered a t s found inserted before, peek, peek,
      spared s member (locate_spot before).2]

/-- An instruction of a program under a debugger is stopped by a trap in its place, or does what it
does on its own. -/
theorem Over.execute (asm : Assembled p e rs) (typed : p.WellTyped) (compact : p.Compact)
    (overlaid : ts.Over x m) (framed : Framed e rs heapBase.toNat x calls)
    (seated : ∀ a, ts.contains a = true → Aside a ∧ ∃ s, m.locate a 1 = .ok s) :
    (∃ t, ts.find? m.registers.pc = some t ∧ t.byte.inserted = true ∧
        Machine.execute m = (.ok true, m.trapped)) ∨
      ∃ d : Dress, m = d.on x ∧ Laid ts (Machine.execute x).2 d.spots ∧
        (∀ t, ts.find? x.registers.pc = some t → t.byte.inserted = true →
          x.locate x.registers.pc 1 = .ok x.place → x.executable.instrAt? x.registers.pc = none) ∧
          Machine.execute m = ((Machine.execute x).1, d.on (Machine.execute x).2) := by
  obtain ⟨d, rfl, laid⟩ := overlaid
  have clear (s : Spot) (member : s ∈ d.spots) : ¬ x.Accesses s.address := by
    obtain ⟨a, t, found, _, located⟩ := (laid.spot_iff s).mp member
    obtain ⟨address, inside⟩ := locate_spot located
    refine framed.not_accesses asm typed compact inside ?_
    rw [address]
    exact (seated a (contains_iff.mpr ⟨t, found⟩)).1
  rcases execute_dressed laid clear with ⟨t, found, inserted, _, stop⟩ | ⟨free, done⟩
  · exact .inl ⟨t, found, inserted, stop⟩
  · refine .inr ⟨d, rfl, ?_, fun t found inserted located =>
      free ((laid.mem_iff located).mpr ⟨t, found, inserted⟩), done⟩
    refine laid.onward (onward_execute x) (fun a t found => ?_) fun s member =>
      execute_spared (clear s member)
    obtain ⟨s, located⟩ := (seated a (contains_iff.mpr ⟨t, found⟩)).2
    exact ⟨s, by rwa [locate_on] at located⟩

end Traps

namespace Machine

open Traps

/-- What is to be seen of a program that is debugged and has come to one of some states. -/
def Executable.watched (e : Executable) (config : Config)
    (among : Machine → List Activation → Prop) : Sight where
  host := e.host config
  program := e
  site := Aside
  sees mods ts m := e.module ∈ mods ∧ ∃ x calls, ts.Over x m ∧ among x calls

/-- What is to be seen of a program that is debugged. -/
def Executable.sight (e : Executable) (config : Config) : Sight := e.watched config (Lived e)

/-- What is to be seen of a program that has not run yet. -/
def Executable.entering (e : Executable) (config : Config) : Sight :=
  e.watched config fun x calls => x = (boot e).calm ∧ calls = [e.outermost]

section Sight

variable {p : Program} {e : Executable} {rs : List Routine} {x m n : Machine} {ts : Traps}
  {calls : List Activation} {config : Config} {l : LoadedModule} {ros : Roster}

/-- What is left of an instruction when nobody drives the machine. -/
theorem on_calm (d : Dress) (y : Machine) :
    d.on y = Dress.on ⟨d.spots, (d.on y).pending, (d.on y).motion, d.interrupt⟩ y.calm := by
  simp [Dress.on, calm]

theorem part_of_known (config : Config) (known : (e.sight config).Known l) : e.Part l := by
  obtain ⟨path, base, size, notice, rfl⟩ := known
  cases notice with
  | program =>
    have own : (e.sight config).loaded e.path codeBase (UInt64.ofNat e.code.size) = e.module :=
      (own_eq e).symm
    exact own ▸ .own
  | library index lib found => exact .library index lib found

theorem aside_of_part (asm : Assembled p e rs) (compact : p.Compact) (part : e.Part l)
    {location : Location} {b : Binding} (bound : Breakpoint.bindingIn l location = some b) :
    Aside b.address := by
  cases part with
  | own => exact .inl (Nat.lt_of_lt_of_le (binding_own asm bound) (code_below asm compact))
  | library index lib found => exact .inr (binding_library asm found bound)

theorem base_ne (asm : Assembled p e rs) {index : Nat} {lib : Library}
    (found : e.libraries[index]? = some lib) : codeBase ≠ libraryBase index := by
  intro same
  have high := library_high asm found
  rw [← same] at high
  exact absurd high (by decide)

/-- A program ends with its exit. -/
theorem exited_report {x y : Machine} {b : Bool} (running : x.motion = .running)
    (done : execute x = (.ok b, y)) (ended : y.motion = .exited) :
    ∃ code, y.pending = x.pending ++ [.exited code] := by
  rcases execute_report done with ⟨rfl, rfl⟩ | report
  · cases ended
  · cases report with
    | nothing _ kept | notice _ _ _ kept => simp [kept, running] at ended
    | signal _ _ _ _ stopped => simp [stopped] at ended
    | exit code exits => exact ⟨code, exits⟩

/-- As long as a program does not run, it is in the same state. -/
theorem watched_still (asm : Assembled p e rs) (compact : p.Compact) (config : Config)
    {among : Machine → List Activation → Prop} (launch : among (boot e).calm [e.outermost])
    (calm : ∀ x calls, among x calls → x.calm = x) : (e.watched config among).Still where
  entry none := by
    refine ⟨?_, (boot e).calm, [e.outermost], over_bare none _, launch⟩
    have own : (e.sight config).loaded e.path codeBase (UInt64.ofNat e.code.size) = e.module :=
      (own_eq e).symm
    exact List.mem_singleton.mpr own.symm
  paint paint seen := by
    obtain ⟨own, x, calls, overlaid, inside⟩ := seen
    exact ⟨own, x, calls, overlaid.paint paint, inside⟩
  drive pending motion interrupt seen := by
    obtain ⟨own, x, calls, overlaid, inside⟩ := seen
    have driven := overlaid.driven pending motion interrupt
    rw [calm x calls inside] at driven
    exact ⟨own, x, calls, driven, inside⟩
  load {mods ts m l} known seen := by
    obtain ⟨own, overlaid⟩ := seen
    refine ⟨?_, overlaid⟩
    cases part_of_known config known with
    | own => exact List.mem_append_right _ List.mem_cons_self
    | library index lib found =>
      refine List.mem_append_left _ (List.mem_filter.mpr ⟨own, ?_⟩)
      exact decide_eq_true (base_ne asm found)
  bind known bound := aside_of_part asm compact (part_of_known config known) bound

theorem entering_still (asm : Assembled p e rs) (compact : p.Compact) (config : Config) :
    (e.entering config).Still :=
  watched_still asm compact config ⟨rfl, rfl⟩ fun x calls same => by rw [same.1]; rfl

theorem sight_steady (asm : Assembled p e rs) (typed : p.WellTyped) (compact : p.Compact)
    (config : Config) : (e.sight config).Steady where
  toStill := watched_still asm compact config .launch fun x calls lived => lived.calm_eq
  alter {_ _ m} signal threads seen := by
    obtain ⟨own, x, calls, overlaid, lived⟩ := seen
    have altered := overlaid.drive m.pending m.motion m.interruptRequested signal threads
    rw [lived.calm_eq] at altered
    exact ⟨own, _, calls, altered, .driven signal threads lived⟩
  execute {mods ts m b n} _ seated seen done := by
    obtain ⟨own, x, calls, overlaid, lived⟩ := seen
    have framed := lived.framed asm typed compact
    rcases overlaid.execute asm typed compact framed seated with
      ⟨t, found, inserted, stop⟩ | ⟨d, rfl, laid, _, same⟩
    · rw [stop] at done
      cases done
      exact .inl ⟨rfl, t, found, inserted⟩
    · rw [same] at done
      obtain ⟨success, rfl⟩ := Prod.mk.inj done
      have does : execute x = (.ok b, (execute x).2) := Prod.ext success rfl
      refine .inr ?_
      rcases framed.execute asm typed compact does with next | ⟨_, _, _, ended⟩
      · refine .inr ⟨own, (execute x).2.calm, follow x calls, ?_, lived.step does next.alive⟩
        exact ⟨_, on_calm d _, laid.congr fun q => by cases q <;> rfl⟩
      · obtain ⟨code, exits⟩ := exited_report (lived.calm_eq ▸ rfl) does ended
        exact .inl ⟨code, (congrArg (d.earlier ++ ·) exits).trans (List.append_assoc _ _ _).symm⟩

/-- Behind an instruction of the program there is still code of it. -/
theorem next_aside (asm : Assembled p e rs) (compact : p.Compact) {r : Routine} (member : r ∈ rs)
    {k : Nat} {i : Instr} (there : r.code[k]? = some i) : Aside (r.address k + i.length) := by
  have bounds := asm.bounds member
  have below := code_below asm compact
  have inside := address_inside asm member there
  refine .inl ?_
  rw [UInt64.toNat_add, Nat.mod_eq_of_lt (by omega)]
  omega

theorem sight_lasting (asm : Assembled p e rs) (typed : p.WellTyped) (compact : p.Compact)
    (config : Config) : (e.sight config).Lasting where
  toSteady := sight_steady asm typed compact config
  call {mods ts m i} seen decoded := by
    obtain ⟨own, x, calls, overlaid, lived⟩ := seen
    have framed := lived.framed asm typed compact
    rw [overlaid.registers] at decoded
    obtain ⟨c, rest, r, k, high, f, rfl, seat⟩ := framed.seated
    obtain ⟨j, there⟩ : ∃ j, r.code[k]? = some j := ⟨_, List.getElem?_eq_getElem seat.there⟩
    rw [seat.pc, decode_address asm overlaid.covering_code framed.code seat.known there] at decoded
    cases decoded
    exact next_aside asm compact seat.known there
  caller {ts m c r generation} known site seen found := by
    obtain ⟨own, x, calls, overlaid, lived⟩ := seen
    have framed := lived.framed asm typed compact
    have shown := shown_of_parts asm compact own fun l member => part_of_known config (known l member)
    rw [overlaid.registers] at found
    obtain ⟨a, rest, q, k, high, f, rfl, seat⟩ := framed.seated
    have caller := framesFrom_caller asm (overlaid.covering site) shown framed.code
      (code_below asm compact) seat generation
    rw [found] at caller
    have linked := seat.linked
    cases site : a.site with
    | none =>
      rw [site] at caller
      cases caller
    | some b =>
      rw [site] at caller linked
      cases linked with
      | cons known _ there =>
        have back := (Prod.mk.inj (Option.some.inj caller)).1
        rw [back]
        exact next_aside asm compact known there

end Sight

end Machine

end SourceDebugger
