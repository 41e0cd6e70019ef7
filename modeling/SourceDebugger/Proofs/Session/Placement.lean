import SourceDebugger.Proofs.Breakpoint.Binding
import SourceDebugger.Proofs.Machine.Recorder
import SourceDebugger.Proofs.Session.Held
import SourceDebugger.Proofs.Session.Persistence
import SourceDebugger.Proofs.Session.Silence
/-!
When a breakpoint is added does not matter. Modules may come before it, after it, or while the debuggee
is on its way over a trap: in the end it is where the first module that has a place for it puts it.
Modules that are replaced or unloaded are another matter, and nothing is said about them here.
-/
namespace SourceDebugger

open Effect Event

/-- The bases of the modules that events bring. -/
def Event.bases (events : List Event) : List UInt64 := events.filterMap fun
  | .moduleLoaded _ base _ => some base
  | _ => none

/-- The modules that events bring, in their order. -/
def LoadedModule.among (symbols : String → Option ModuleSymbols) (events : List Event) :
    List LoadedModule := events.filterMap fun
  | .moduleLoaded path base size => some ⟨path, base, size, symbols path⟩
  | _ => none

/-- Modules come to lie at bases of their own, and stay. -/
structure Event.Gathers (events : List Event) : Prop where
  distinct : (bases events).Nodup
  kept : ∀ base, .moduleUnloaded base ∉ events

section Events

variable {symbols : String → Option ModuleSymbols} {es fs : List Event}

theorem LoadedModule.among_append :
    among symbols (es ++ fs) = among symbols es ++ among symbols fs := List.filterMap_append

theorem LoadedModule.among_bases : (among symbols es).map (·.base) = bases es := by
  rw [among, bases, List.map_filterMap]
  congr 1
  funext e
  cases e <;> rfl

theorem Event.Gathers.before (gathers : Gathers (es ++ fs)) : Gathers es where
  distinct := by
    have distinct := gathers.distinct
    rw [bases, List.filterMap_append] at distinct
    exact (List.nodup_append.mp distinct).1
  kept base member := gathers.kept base (List.mem_append_left fs member)

/-- A stop or an end brings no module. -/
theorem LoadedModule.among_halt {e : Event} (halts : e.isStop = true ∨ e.isExit = true) :
    among symbols [e] = [] := by
  cases e with
  | moduleLoaded => simp [isStop, isExit] at halts
  | threadStarted | threadEnded | moduleUnloaded | output | trap | signal | exited => rfl

end Events

/-- A debuggee together with all that it has reported. -/
structure Overheard (δ : Type) where
  debuggee : δ
  told : List Event

namespace Overheard

variable {δ : Type} [Debuggee δ]

/-- An operation in which nothing is reported. -/
def carry {α : Type} (a : Access δ α) : Access (Overheard δ) α := fun d =>
  let (r, debuggee) := a d.debuggee
  (r, { d with debuggee })

instance : Debuggee (Overheard δ) where
  pid d := Debuggee.pid d.debuggee
  poll millis := fun d =>
    let (r, debuggee) := Debuggee.poll millis d.debuggee
    (r, ⟨debuggee, d.told ++ found r⟩)
  resume mode := carry (Debuggee.resume mode)
  read d := Debuggee.read d.debuggee
  write address bytes := carry (Debuggee.write address bytes)
  registers d := Debuggee.registers d.debuggee
  setRegisters thread regs := carry (Debuggee.setRegisters thread regs)
  decode d := Debuggee.decode d.debuggee
  interrupt := carry Debuggee.interrupt
  terminate := carry Debuggee.terminate
  clock d := Debuggee.clock d.debuggee

/-- Who listens has no part in what the debuggee does. -/
theorem faithful : Faithful (Overheard.debuggee (δ := δ)) where
  pid _ := rfl
  poll _ := by rintro d _ rfl; exact ⟨rfl, rfl⟩
  resume _ := by rintro d _ rfl; exact ⟨rfl, rfl⟩
  read _ _ _ := rfl
  write _ _ := by rintro d _ rfl; exact ⟨rfl, rfl⟩
  registers _ _ := rfl
  setRegisters _ _ := by rintro d _ rfl; exact ⟨rfl, rfl⟩
  decode _ _ _ := rfl
  interrupt := by rintro d _ rfl; exact ⟨rfl, rfl⟩
  terminate := by rintro d _ rfl; exact ⟨rfl, rfl⟩

/-- Nothing more has been reported. -/
def Mum (d d' : Overheard δ) : Prop := d'.told = d.told

omit [Debuggee δ] in
theorem mum_onwards : Onwards (Mum (δ := δ)) where
  refl _ := rfl
  trans first second := Eq.trans second first

theorem write_mum (address : UInt64) (bytes : Bytes) :
    Keeps Mum (Debuggee.write address bytes : Access (Overheard δ) Unit) := fun _ => rfl

variable {can : UInt64 → Bool} {fit : δ → Prop}

/-- A dependable debuggee is one also with someone listening. -/
theorem dependable (dependable : Dependable can fit) :
    Dependable can fun d : Overheard δ => fit d.debuggee where
  insert d address is_fit := by
    have able := dependable.insert d.debuggee address is_fit
    rwa [insert_viewed faithful] at able
  poll millis d := dependable.poll millis d.debuggee
  resume mode d := dependable.resume mode d.debuggee
  write address bytes d := dependable.write address bytes d.debuggee
  setRegisters thread regs d := dependable.setRegisters thread regs d.debuggee
  interrupt d := dependable.interrupt d.debuggee
  terminate d := dependable.terminate d.debuggee

end Overheard

namespace Session

variable {δ : Type} [Debuggee δ] {can : UInt64 → Bool} {fit : δ → Prop} {s t : Session (Overheard δ)}

/-- Debuggees are fit, and there are traps only where they can be. -/
structure Sure (can : UInt64 → Bool) (fit : δ → Prop) (s : Session (Overheard δ)) : Prop where
  launches : ∀ n request d, s.host.launch n request = .ok d → fit d.debuggee ∧ d.told = []
  fit : ∀ d, s.debuggee = some d → fit d.debuggee
  can : ∀ a, s.traps.contains a = true → can a = true

/-- A change in which something of the session stays the same. -/
def Undisturbed {β : Type} (can : UInt64 → Bool) (fit : δ → Prop) (f : Session (Overheard δ) → β)
    (s t : Session (Overheard δ)) : Prop :=
  s.Sure can fit → t.host = s.host ∧ t.Sure can fit ∧ f t = f s

/-- What is looked at has nothing to do with the run state, a step or the traps, and of the debuggee
only with what it has reported. -/
structure Aloof {β : Type} (f : Session (Overheard δ) → β) : Prop where
  stepper (s : Session (Overheard δ)) (stepper : Option Stepper) : f { s with stepper } = f s
  count (s : Session (Overheard δ)) (users : List BreakpointId) :
    f { s with breakpoints := s.breakpoints.count users } = f s
  pause (s : Session (Overheard δ)) (reason : PauseReason) (thread : ThreadId) :
    f (s.pause reason thread) = f s
  leavePause (s : Session (Overheard δ)) : f (leavePause s) = f s
  debuggee {s : Session (Overheard δ)} {d d' : Overheard δ} (traps : Traps) :
    s.debuggee = some d → d'.told = d.told → f { s with debuggee := some d', traps } = f s

section Undisturbed

variable {β : Type} {f : Session (Overheard δ) → β}

omit [Debuggee δ] in
theorem undisturbed_onwards : Onwards (Undisturbed can fit f) where
  refl _ sure := ⟨rfl, sure, rfl⟩
  trans first second sure := by
    obtain ⟨host, between, same⟩ := first sure
    obtain ⟨host', after, same'⟩ := second between
    exact ⟨host'.trans host, after, same'.trans same⟩

omit [Debuggee δ] in
/-- The debuggee and its traps have no part in this. -/
theorem undisturbed_aside (host : t.host = s.host) (debuggee : t.debuggee = s.debuggee)
    (traps : t.traps = s.traps) (same : f t = f s) : Undisturbed can fit f s t := fun sure =>
  ⟨host, ⟨host ▸ sure.launches, debuggee ▸ sure.fit, traps ▸ sure.can⟩, same⟩

variable (aloof : Aloof f)

include aloof

omit [Debuggee δ] in
theorem access_undisturbed {α : Type} {a : Access (Overheard δ) α} (mum : Keeps Overheard.Mum a)
    (keeps : Keeps (Stays fun d : Overheard δ => fit d.debuggee) a) :
    Keeps (Undisturbed can fit f) (access a) := by
  intro s
  cases present : s.debuggee with
  | none =>
    obtain ⟨_, _, _, _, _, _, _, _, _, _, _, _⟩ := s
    cases present
    exact undisturbed_onwards.refl _
  | some d =>
    rw [access_run present]
    refine fun sure => ⟨rfl, ⟨sure.launches, ?_, sure.can⟩, aloof.debuggee s.traps present (mum d)⟩
    rintro _ ⟨⟩
    exact keeps d (sure.fit d present)

omit [Debuggee δ] in
theorem instrumented_undisturbed {α : Type} {a : Access (Instrumented (Overheard δ)) α}
    (mum : Keeps (Instrumented.Kept Overheard.Mum) a)
    (keeps : Keeps (Stays (Instrumented.Sure can fun d : Overheard δ => fit d.debuggee)) a) :
    Keeps (Undisturbed can fit f) (instrumented a) := by
  intro s
  cases present : s.debuggee with
  | none =>
    obtain ⟨_, _, _, _, _, _, _, _, _, _, _, _⟩ := s
    cases present
    exact undisturbed_onwards.refl _
  | some d =>
    rw [instrumented_run present]
    refine fun sure => ?_
    have after := keeps ⟨s.traps, d⟩ ⟨sure.fit d present, sure.can⟩
    refine ⟨rfl, ⟨sure.launches, ?_, after.can⟩, aloof.debuggee _ present (mum ⟨s.traps, d⟩)⟩
    rintro _ ⟨⟩
    exact after.fit

theorem undisturbed_bides (dependable : Dependable can fit) : Bides (Undisturbed can fit f) := by
  have heard := Overheard.dependable dependable
  have mum := Overheard.mum_onwards (δ := δ)
  exact {
    toOnwards := undisturbed_onwards
    stepper := fun s stepper => undisturbed_aside rfl rfl rfl (aloof.stepper s stepper)
    count := fun s users => undisturbed_aside rfl rfl rfl (aloof.count s users)
    pause := fun s reason thread _ => undisturbed_aside rfl rfl rfl (aloof.pause s reason thread)
    mark := fun s thread => undisturbed_aside rfl rfl rfl (aloof.pause s .breakpoint thread)
    leavePause := fun s => undisturbed_aside rfl rfl rfl (aloof.leavePause s)
    resume := fun mode => access_undisturbed aloof (fun _ => rfl) (heard.resume mode)
    setRegisters := fun thread regs =>
      access_undisturbed aloof (fun _ => rfl) (heard.setRegisters thread regs)
    addStep := fun a => instrumented_undisturbed aloof
      (Instrumented.addStep_keeps mum Overheard.write_mum a) (Instrumented.addStep_stays heard a)
    removeStep := fun a => instrumented_undisturbed aloof
      (Instrumented.removeStep_keeps mum Overheard.write_mum a) (Instrumented.removeStep_stays heard a)
    lift := fun a => instrumented_undisturbed aloof
      (Instrumented.lift_keeps mum Overheard.write_mum a) (Instrumented.lift_stays heard a)
    restore := fun a => instrumented_undisturbed aloof
      (Instrumented.restore_keeps mum Overheard.write_mum a) (Instrumented.restore_stays heard a) }

end Undisturbed

/-- What is to be seen of one breakpoint. -/
structure Place where
  location : Location
  registered : Bool
  binding : Option Binding

/-- The modules, the places of the breakpoints, and what has been reported. -/
structure Outlook where
  modules : List LoadedModule
  places : List Place
  told : Option (List Event)

def place (b : Breakpoint) : Place := ⟨b.location, b.registered, b.binding⟩

def outlook (s : Session (Overheard δ)) : Outlook :=
  ⟨s.roster.modules, s.breakpoints.items.map place, s.debuggee.map (·.told)⟩

/-- The breakpoints that there have been, and whether they still count. -/
def labels {δ : Type} (s : Session δ) : List (BreakpointId × Location × Bool) :=
  s.breakpoints.items.map fun b => (b.id, b.location, b.registered)

omit [Debuggee δ] in
/-- Hits are no part of what else is known of breakpoints. -/
theorem map_count {α : Type} {g : Breakpoint → α} (blind : ∀ b hits, g { b with hits } = g b)
    (bs : Breakpoints) (users : List BreakpointId) :
    (bs.count users).items.map g = bs.items.map g := by
  rw [Breakpoints.count, List.map_map]
  refine List.map_congr_left fun b _ => ?_
  dsimp only [Function.comp]
  split
  · exact blind b _
  · rfl

omit [Debuggee δ] in
/-- Nor is where they are. -/
theorem map_unbind {α : Type} {g : Breakpoint → α} (blind : ∀ b, g b.unbound = g b)
    (bs : Breakpoints) (test : UInt64 → Bool) :
    (bs.unbindWhere test).items.map g = bs.items.map g := by
  rw [Breakpoints.unbindWhere, List.map_map]
  refine List.map_congr_left fun b _ => ?_
  dsimp only [Function.comp]
  split
  · exact blind b
  · rfl

omit [Debuggee δ] in
theorem outlook_aloof : Aloof (outlook (δ := δ)) where
  stepper _ _ := rfl
  count _ _ := by
    rw [outlook, map_count (fun _ _ => rfl)]
    rfl
  pause _ _ _ := rfl
  leavePause _ := rfl
  debuggee traps present told := by rw [outlook, outlook, present, Option.map_some, Option.map_some, told]

omit [Debuggee δ] in
theorem labels_aloof : Aloof (labels (δ := Overheard δ)) where
  stepper _ _ := rfl
  count _ _ := map_count (fun _ _ => rfl) _ _
  pause _ _ _ := rfl
  leavePause _ := rfl
  debuggee _ _ _ := rfl

section Loading

/-- A module that is loaded serves the breakpoints that have no place yet. -/
theorem load_sure (dependable : Dependable can fit) (sure : s.Sure can fit) {d : Overheard δ}
    (attached : s.debuggee = some d) (path : String) (base size : UInt64) :
    ∃ d' traps, d'.told = d.told ∧
      let m : LoadedModule := ⟨path, base, size, s.host.symbols path⟩
      let t := { s with
        roster := s.roster.addModule m, debuggee := some d', traps
        breakpoints := { s.breakpoints with items := s.breakpoints.items.map (·.seek can [m]) } }
      loadModule path base size s = (.ok (), t) ∧ t.Sure can fit := by
  have heard := Overheard.dependable dependable
  have before : Instrumented.Sure can (fun d : Overheard δ => fit d.debuggee) ⟨s.traps, d⟩ :=
    ⟨sure.fit d attached, sure.can⟩
  obtain ⟨bound, after⟩ := Instrumented.bindIn_sure heard before
    ⟨path, base, size, s.host.symbols path⟩ s.breakpoints.items
  have mum := Instrumented.bindIn_keeps Overheard.mum_onwards Overheard.write_mum
    ⟨path, base, size, s.host.symbols path⟩ s.breakpoints.items ⟨s.traps, d⟩
  refine ⟨_, _, mum, ?_, sure.launches, ?_, after.can⟩
  · rw [loadModule_run attached, ← bound]
  · rintro _ ⟨⟩
    exact after.fit

/-- A new breakpoint is looked for in all modules. -/
theorem bindAll_sure (dependable : Dependable can fit) (sure : s.Sure can fit) {d : Overheard δ}
    (attached : s.debuggee = some d) :
    ∃ d' traps, d'.told = d.told ∧
      let t := { s with
        debuggee := some d', traps
        breakpoints := { s.breakpoints with
          items := s.breakpoints.items.map (·.seek can s.roster.modules) } }
      s.bindAll = t ∧ t.Sure can fit := by
  have heard := Overheard.dependable dependable
  have before : Instrumented.Sure can (fun d : Overheard δ => fit d.debuggee) ⟨s.traps, d⟩ :=
    ⟨sure.fit d attached, sure.can⟩
  obtain ⟨bound, after⟩ := Instrumented.bindings_sure heard before s.roster.modules s.breakpoints.items
  have mum := (bindAll_mute Overheard.mum_onwards Overheard.write_mum s).debuggee
  have run := bindAll_run attached
  rw [run, attached] at mum
  cases mum with
  | some mum =>
    refine ⟨_, _, mum, ?_, sure.launches, ?_, after.can⟩
    · rw [run, ← bound]
    · rintro _ ⟨⟩
      exact after.fit

/-- Where the breakpoints are, while some reports have still to be taken note of. Without a debuggee they
are nowhere. -/
structure Outlook.Settled (can : UInt64 → Bool) (symbols : String → Option ModuleSymbols)
    (carried : List Event) (c : Outlook) : Prop where
  modules : ∀ told, c.told = some told → Gathers told →
    LoadedModule.among symbols told = c.modules ++ LoadedModule.among symbols carried
  heard : ∀ told, c.told = some told → ∀ e ∈ carried, e ∈ told
  places : ∀ told, c.told = some told → Gathers told → ∀ p ∈ c.places, p.registered = true →
    p.binding = Breakpoint.place? can c.modules p.location
  ended : c.told = none → ∀ p ∈ c.places, p.registered = true → p.binding = none

/-- The session has settled its breakpoints, apart from what some reports bring. -/
structure Thrives (can : UInt64 → Bool) (fit : δ → Prop) (carried : List Event)
    (s : Session (Overheard δ)) : Prop where
  sure : s.Sure can fit
  settled : s.outlook.Settled can s.host.symbols carried

variable {carried rest : List Event}

omit [Debuggee δ] in
theorem Thrives.undisturbed (thrives : Thrives can fit carried s)
    (undisturbed : Undisturbed can fit outlook s t) :
    Thrives can fit carried t := by
  obtain ⟨host, sure, same⟩ := undisturbed thrives.sure
  refine ⟨sure, ?_⟩
  rw [host, same]
  exact thrives.settled

omit [Debuggee δ] in
/-- Reports that bring no module need not be waited for. -/
theorem Thrives.drop (es : List Event) (thrives : Thrives can fit (es ++ rest) s)
    (nothing : ∀ symbols, LoadedModule.among symbols es = []) : Thrives can fit rest s where
  sure := thrives.sure
  settled := {
    modules := fun told heard gathers => by
      rw [thrives.settled.modules told heard gathers, LoadedModule.among_append, nothing, List.nil_append]
    heard := fun told heard e member =>
      thrives.settled.heard told heard e (List.mem_append_right es member)
    places := thrives.settled.places
    ended := thrives.settled.ended }

/-- The place once the modules have been looked at in turn. -/
def Place.seek (can : UInt64 → Bool) (ms : List LoadedModule) (p : Place) : Place :=
  if p.registered then { p with binding := p.binding.or (Breakpoint.place? can ms p.location) } else p

omit [Debuggee δ] in
theorem place_seek {ms : List LoadedModule} (b : Breakpoint) :
    place (b.seek can ms) = (place b).seek can ms := by
  rw [Breakpoint.seek, Place.seek, place, place]
  dsimp only
  split <;> rfl

/-- A module has been loaded. -/
def Outlook.load (can : UInt64 → Bool) (m : LoadedModule) (c : Outlook) : Outlook :=
  { c with modules := c.modules.filter (·.base ≠ m.base) ++ [m]
           places := c.places.map (·.seek can [m]) }

omit [Debuggee δ] in
/-- A module at a base of its own is the last of all. -/
theorem Outlook.Settled.load {symbols : String → Option ModuleSymbols} {path : String}
    {base size : UInt64} {told : List Event} {c : Outlook}
    (settled : c.Settled can symbols (.moduleLoaded path base size :: rest))
    (present : c.told = some told) :
    (c.load can ⟨path, base, size, symbols path⟩).Settled can symbols rest := by
  have all := settled.modules told present
  have alone (gathers : Gathers told) : c.modules.filter (·.base ≠ base) = c.modules := by
    have distinct := gathers.distinct
    rw [← @LoadedModule.among_bases symbols, all gathers, List.map_append,
      List.nodup_append] at distinct
    refine List.filter_eq_self.mpr fun l member => ?_
    simpa using distinct.2.2 l.base (List.mem_map_of_mem member) base (by simp [LoadedModule.among])
  refine ⟨fun told' heard gathers => ?_, fun told' heard e member => ?_,
    fun told' heard gathers p member registered => ?_, fun gone => ?_⟩
  · cases present.symm.trans heard
    rw [Outlook.load, alone gathers, List.append_assoc]
    exact all gathers
  · exact settled.heard told' heard e (List.mem_cons_of_mem _ member)
  · cases present.symm.trans heard
    obtain ⟨q, before, rfl⟩ := List.mem_map.mp member
    cases known : q.registered with
    | false =>
      rw [Place.seek, known] at registered
      exact absurd (known.symm.trans registered) Bool.false_ne_true
    | true =>
      rw [Outlook.load, alone gathers, Place.seek, if_pos known,
        settled.places told present gathers q before known]
      exact List.findSome?_append.symm
  · cases present.symm.trans gone

theorem Thrives.load (dependable : Dependable can fit) {path : String} {base size : UInt64}
    (thrives : Thrives can fit (.moduleLoaded path base size :: rest) s)
    (attached : s.debuggee.isSome = true) : Thrives can fit rest (loadModule path base size s).2 := by
  obtain ⟨d, attached⟩ := Option.isSome_iff_exists.mp attached
  obtain ⟨d', traps, mum, run, sure⟩ := load_sure dependable thrives.sure attached path base size
  have present : s.outlook.told = some d.told := by rw [outlook, attached]; rfl
  rw [run]
  refine ⟨sure, ?_⟩
  have after := thrives.settled.load present
  have same : s.outlook.load can ⟨path, base, size, s.host.symbols path⟩ =
      ⟨(s.roster.addModule ⟨path, base, size, s.host.symbols path⟩).modules,
        (s.breakpoints.items.map (·.seek can [⟨path, base, size, s.host.symbols path⟩])).map place,
        some d'.told⟩ := by
    rw [Outlook.load, outlook, attached, mum, List.map_map, List.map_map]
    congr 1
    exact List.map_congr_left fun b _ => (place_seek b).symm
  rw [same] at after
  exact after

theorem Thrives.note (dependable : Dependable can fit) {e : Event}
    (thrives : Thrives can fit (e :: rest) s) (attached : s.debuggee.isSome = true) :
    Thrives can fit rest (notice e s).2 := by
  cases e with
  | moduleLoaded path base size => exact thrives.load dependable attached
  | threadStarted | threadEnded | output =>
    exact (thrives.drop [_] fun _ => rfl).undisturbed (undisturbed_aside rfl rfl rfl rfl)
  | trap | signal | exited => exact thrives.drop [_] fun _ => rfl
  | moduleUnloaded base =>
    obtain ⟨d, attached⟩ := Option.isSome_iff_exists.mp attached
    have present : s.outlook.told = some d.told := by rw [outlook, attached]; rfl
    have never : ¬ Gathers d.told := fun gathers =>
      gathers.kept base (thrives.settled.heard _ present _ List.mem_cons_self)
    have unloaded : (unloadModule base s).2.Sure can fit ∧
        (unloadModule base s).2.outlook.told = some d.told := by
      rw [unloadModule, modify_run]
      dsimp only
      cases s.roster.moduleBased? base with
      | none => exact ⟨thrives.sure, present⟩
      | some m =>
        exact ⟨⟨thrives.sure.launches, thrives.sure.fit, fun a there =>
          thrives.sure.can a (Traps.contains_of_forget there)⟩, present⟩
    refine ⟨unloaded.1, ?_, ?_, ?_, fun gone => ?_⟩
    · intro told heard gathers
      cases unloaded.2.symm.trans heard
      exact absurd gathers never
    · intro told heard e member
      cases unloaded.2.symm.trans heard
      exact thrives.settled.heard _ present e (List.mem_cons_of_mem _ member)
    · intro told heard gathers
      cases unloaded.2.symm.trans heard
      exact absurd gathers never
    · cases unloaded.2.symm.trans gone

end Loading

section Moves

variable {move : Move}

/-- A look finds what is reported. -/
theorem Thrives.look (dependable : Dependable can fit) (thrives : Thrives can fit carried s)
    (millis : Nat) :
    Thrives can fit (carried ++ found (access (Debuggee.poll millis) s).1)
      (access (Debuggee.poll millis) s).2 := by
  cases present : s.debuggee with
  | none =>
    obtain ⟨_, _, _, _, _, _, _, _, _, _, _, _⟩ := s
    cases present
    simpa [access, found] using thrives
  | some d =>
    have was : s.outlook.told = some d.told := by rw [outlook, present]; rfl
    rw [access_run present]
    refine ⟨⟨thrives.sure.launches, ?_, thrives.sure.can⟩, ?_, ?_, ?_, fun gone => by cases gone⟩
    · rintro _ ⟨⟩
      exact dependable.poll millis d.debuggee (thrives.sure.fit d present)
    · rintro _ ⟨⟩ gathers
      show LoadedModule.among _ (d.told ++ _) = _
      rw [LoadedModule.among_append, thrives.settled.modules _ was gathers.before,
        LoadedModule.among_append, List.append_assoc]
      rfl
    · rintro _ ⟨⟩ e member
      refine List.mem_append.mpr ((List.mem_append.mp member).imp_left ?_)
      exact thrives.settled.heard _ was e
    · rintro _ ⟨⟩ gathers
      exact thrives.settled.places _ was gathers.before

theorem Thrives.notes (dependable : Dependable can fit) {es : List Event}
    (thrives : Thrives can fit (es ++ rest) s) (active : s.Active) :
    ∃ t, es.forM notice s = (.ok (), t) ∧ Thrives can fit rest t := by
  induction es generalizing s with
  | nil => exact ⟨s, rfl, thrives⟩
  | cons e es ih =>
    obtain ⟨t, done, informs⟩ := notice_informs active e
    have next := thrives.note dependable active.attached
    rw [done] at next
    obtain ⟨u, others, after⟩ := ih next (informs.active active)
    refine ⟨u, ?_, after⟩
    show (notice e >>= fun _ => es.forM notice) s = _
    rw [bind_ok done]
    exact others

omit [Debuggee δ] in
/-- Where nothing moves, and what was in hand stays there or brings no module. -/
theorem Thrives.goes {a : Change (Overheard δ) (Option Move)} {next : Option Move}
    (thrives : Thrives can fit carried s) (nothing : ∀ symbols, LoadedModule.among symbols carried = [])
    (keeps : Keeps (Undisturbed can fit outlook) a)
    (hands : Yields (fun next => Move.Idle next ∨ Move.carries next = carried) a)
    (done : a s = (.ok next, t)) : Thrives can fit (Move.carries next) t := by
  have after := thrives.undisturbed (keeps s)
  rw [done] at after
  rcases hands s next t done with idle | same
  · rw [idle]
    exact Thrives.drop carried (by rwa [List.append_nil]) nothing
  · rw [same]
    exact after

omit [Debuggee δ] in
theorem Thrives.passes {a : Change (Overheard δ) (Option Move)} {next : Option Move}
    (thrives : Thrives can fit carried s) (nothing : ∀ symbols, LoadedModule.among symbols carried = [])
    (keeps : Keeps (Undisturbed can fit outlook) a) (idle : Yields Move.Idle a)
    (done : a s = (.ok next, t)) : Thrives can fit (Move.carries next) t :=
  thrives.goes nothing keeps (fun s next t done => .inl (idle s next t done)) done

omit [Debuggee δ] in
theorem exit_sure (sure : s.Sure can fit) (code : Option Int) (fault : Option Fault) :
    (s.exit code fault).Sure can fit := by
  rw [exit]
  cases s.output.flush <;>
    exact ⟨sure.launches, fun _ same => (by cases same), fun a there =>
      sure.can a (Traps.contains_of_forget there)⟩

omit [Debuggee δ] in
/-- At the end of a run no breakpoint is anywhere. -/
theorem settled_exited {symbols : String → Option ModuleSymbols} (orderly : s.Orderly)
    (exited : s.state.isExited = true) : s.outlook.Settled can symbols [] := by
  have gone := detached_of_exited orderly exited
  have nobody : s.outlook.told = none := by rw [outlook, gone]; rfl
  refine ⟨fun told heard => ?_, fun told heard => ?_, fun told heard => ?_, fun _ p member registered => ?_⟩
  · cases nobody.symm.trans heard
  · cases nobody.symm.trans heard
  · cases nobody.symm.trans heard
  · obtain ⟨b, inside, rfl⟩ := List.mem_map.mp member
    have unbound := (orderly.exited exited).1 b (List.mem_filter.mpr ⟨inside, registered⟩)
    simpa [Breakpoint.address?, place] using unbound

theorem handle_thrives (dependable : Dependable can fit) {e : Event} {next : Option Move}
    (thrives : Thrives can fit [e] s) (is_open : s.Open (.handle e))
    (done : handleEvent e s = (.ok next, t)) : Thrives can fit (Move.carries next) t := by
  have bides := undisturbed_bides outlook_aloof dependable
  have noted (handles : (handleEvent e : Change (Overheard δ) _) = (notice e >>= fun _ => pure none)) :
      Thrives can fit (Move.carries next) t := by
    obtain ⟨u, run, _⟩ := notice_informs is_open.active e
    have after := thrives.note dependable is_open.attached
    rw [run] at after
    rw [handles, bind_ok run] at done
    cases done
    exact after
  cases e with
  | trap thread pc kind =>
    exact thrives.passes (fun _ => rfl) (bides.handleTrap thread pc kind)
      (handleTrap_idle thread pc kind) done
  | signal thread number description =>
    exact thrives.passes (fun _ => rfl) (bides.pauseAt (by simp) _) (pauseAt_idle _ _) done
  | exited code =>
    cases done
    have exited : (s.exit (some code) none).state.isExited = true := by rw [exit_state]; rfl
    exact ⟨exit_sure thrives.sure _ _, settled_exited (exit_orderly s _ _) exited⟩
  | threadStarted | threadEnded | moduleLoaded | moduleUnloaded | output => exact noted rfl

theorem afterLift_thrives (dependable : Dependable can fit) {thread : ThreadId} {pc : UInt64}
    {mode : ResumeMode} {notices : List Event} {stop : Event} {next : Option Move}
    (thrives : Thrives can fit (notices ++ [stop]) s) (active : s.Active)
    (halts : stop.isStop = true ∨ stop.isExit = true)
    (done : afterLift thread pc mode notices stop s = (.ok next, t)) :
    Thrives can fit (Move.carries next) t := by
  have bides := undisturbed_bides outlook_aloof dependable
  have settles (here : Bool) {s : Session (Overheard δ)} (thrives : Thrives can fit (notices ++ [stop]) s)
      (active : s.Active) (done : (notices.forM notice >>= fun _ =>
        if here then
          if mode = .step thread then registers thread >>= fun regs =>
            pure (some (.stepped thread regs.pc))
          else access (Debuggee.resume mode) >>= fun _ => pure none
        else pure (some (.handle stop)) : Change (Overheard δ) (Option Move)) s = (.ok next, t)) :
      Thrives can fit (Move.carries next) t := by
    obtain ⟨u, noted, after⟩ := thrives.notes dependable active
    have idle {next : Option Move} (carries : Move.carries next = []) : Move.Idle next := carries
    rw [bind_ok noted] at done
    refine after.goes (fun _ => LoadedModule.among_halt halts) (.branch (.branch ?_ ?_)
      (.answer bides.toOnwards _)) (.branch (.branch (.seq fun _ => .answer (.inl (idle rfl)))
        (.seq fun _ => .answer (.inl (idle rfl)))) (.answer (.inr rfl))) done
    · exact .seq bides.toOnwards (registers_keeps bides.toOnwards thread) fun _ =>
        .answer bides.toOnwards _
    · exact .seq bides.toOnwards (bides.resume mode) fun _ => .answer bides.toOnwards _
  unfold afterLift at done
  rw [ite_run] at done
  split at done
  · exact settles _ thrives active done
  · have kept := bides.restore pc s
    have hushed := instrumented_hushed (Instrumented.restore pc) s
    rw [bind_run] at done
    rcases run : instrumented (Instrumented.restore pc) s with ⟨e | _, u⟩ <;> rw [run] at done kept hushed
    · cases done
    · exact settles _ (thrives.undisturbed kept) (hushed.active active) done

theorem await_thrives (dependable : Dependable can fit) {thread : ThreadId} {pc : UInt64}
    {mode : ResumeMode} {notices : List Event} {next : Option Move}
    (thrives : Thrives can fit notices s) (is_open : s.Open (.await thread pc mode notices))
    (done : awaitStop thread pc mode notices s = (.ok next, t)) :
    Thrives can fit (Move.carries next) t := by
  have seen := thrives.look dependable s.host.config.pollMillis
  have hushed := access_hushed (Debuggee.poll s.host.config.pollMillis : Access (Overheard δ) _) s
  rw [awaitStop, bind_ok (get_run s), bind_run] at done
  rcases looked : access (Debuggee.poll s.host.config.pollMillis) s with ⟨e | _ | event, u⟩ <;>
    rw [looked] at seen hushed done
  · cases done
  · cases done
    simpa [found, Move.carries] using seen
  · dsimp only at done
    rw [ite_run] at done
    split at done
    · rename_i halts
      exact afterLift_thrives dependable seen (hushed.active is_open.active) (by simpa using halts) done
    · cases done
      exact seen

/-- No move loses sight of a breakpoint. -/
theorem advance_thrives (dependable : Dependable can fit) {next : Option Move}
    (thrives : Thrives can fit (Move.carries (some move)) s) (is_open : s.Open move)
    (done : advance move s = (.ok next, t)) : Thrives can fit (Move.carries next) t := by
  have bides := undisturbed_bides outlook_aloof dependable
  have nothing (symbols : String → Option ModuleSymbols) : LoadedModule.among symbols [] = [] := rfl
  cases move with
  | handle e => exact handle_thrives dependable thrives is_open done
  | await thread pc mode notices => exact await_thrives dependable thrives is_open done
  | resume thread mode =>
    exact thrives.passes nothing (bides.resumeThread thread mode) (resumeThread_idle thread mode) done
  | stepped thread pc =>
    exact thrives.passes nothing (bides.afterStep thread pc) (afterStep_idle thread pc) done
  | arrived thread => exact thrives.passes nothing (bides.arrive thread) (arrive_idle thread) done
  | act thread => exact thrives.passes nothing (bides.act thread) (act_idle thread) done
  | stepOut thread => exact thrives.passes nothing (bides.stepOut thread) (stepOut_idle thread) done
  | runTo thread target =>
    exact thrives.passes nothing (bides.runTo thread target) (runTo_idle thread target) done

theorem drive_thrives (dependable : Dependable can fit) (most : Nat) {move : Option Move}
    (thrives : Thrives can fit (Move.carries move) s) (is_open : ∀ m, move = some m → s.Open m)
    (done : drive most move s = (.ok (), t)) : Thrives can fit [] t := by
  induction most generalizing s move with
  | zero =>
    cases move with
    | none =>
      cases done
      exact thrives
    | some move => cases done
  | succ most ih =>
    cases move with
    | none =>
      cases done
      exact thrives
    | some move =>
      have goes := advance_goes (is_open move rfl)
      rw [drive, bind_run] at done
      rcases advanced : advance move s with ⟨e | next, u⟩ <;> rw [advanced] at done goes
      · cases done
      · have after := advance_thrives dependable thrives (is_open move rfl) advanced
        refine ih after ?_ done
        rintro m rfl
        exact goes.2

theorem settle_thrives (dependable : Dependable can fit) (is_open : s.Open move)
    (thrives : Thrives can fit (Move.carries (some move)) s)
    (done : settle move s = (.ok (), t)) : Thrives can fit [] t := by
  rw [settle, bind_ok (get_run s)] at done
  refine drive_thrives dependable _ thrives ?_ done
  rintro m ⟨⟩
  exact is_open

end Moves

end Session

end SourceDebugger
