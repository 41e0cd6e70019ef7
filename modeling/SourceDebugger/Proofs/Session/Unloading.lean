import SourceDebugger.Proofs.Breakpoint.Binding
import SourceDebugger.Proofs.Session.Held
/-!
Modules that are loaded and unloaded. A module that goes takes the breakpoints that are bound in it along,
and nobody looks for another place for them: that is done when a breakpoint is added. So a breakpoint that
is bound is always where a loaded module has a place for it, but one that has lost its place waits for the
next addition, even if another module could serve it.
-/
namespace SourceDebugger

open Effect

/-- The places that a module has for locations lie in the module. -/
def LoadedModule.Contained (m : LoadedModule) : Prop :=
  ∀ l binding, Breakpoint.bindingIn m l = some binding →
    m.base ≤ binding.address ∧ binding.address < Session.stretchEnd m.base m.size

/-- What is bound is where one of the modules has a place for it. -/
def Served (can : UInt64 → Bool) (ms : List LoadedModule) (bs : List Breakpoint) : Prop :=
  ∀ b ∈ bs, b.registered = true → ∀ binding, b.binding = some binding →
    ∃ m ∈ ms, Breakpoint.placeIn? can m b.location = some binding

/-- What none of the modules has a place for is all that is not bound. -/
def Sought (can : UInt64 → Bool) (ms : List LoadedModule) (bs : List Breakpoint) : Prop :=
  ∀ b ∈ bs, b.registered = true → b.binding = none → Breakpoint.place? can ms b.location = none

section Seek

variable {can : UInt64 → Bool} {ms ns : List LoadedModule} {bs : List Breakpoint}

theorem Served.seek (served : Served can ms bs) (stay : ∀ m ∈ ms, m ∈ ns) {news : List LoadedModule}
    (come : ∀ m ∈ news, m ∈ ns) : Served can ns (bs.map (·.seek can news)) := by
  intro c member registered binding bound
  obtain ⟨b, before, rfl⟩ := List.mem_map.mp member
  rw [Breakpoint.seek_registered] at registered
  rw [Breakpoint.seek_binding registered] at bound
  rw [Breakpoint.seek_location]
  rcases Option.or_eq_some_iff.mp bound with old | ⟨-, new⟩
  · obtain ⟨m, inside, place⟩ := served b before registered binding old
    exact ⟨m, stay m inside, place⟩
  · obtain ⟨m, inside, place⟩ := List.exists_of_findSome?_eq_some new
    exact ⟨m, come m inside, place⟩

/-- Whoever is still unbound has been looked for in vain. -/
theorem sought_seek : Sought can ms (bs.map (·.seek can ms)) := by
  intro c member registered unbound
  obtain ⟨b, before, rfl⟩ := List.mem_map.mp member
  rw [Breakpoint.seek_registered] at registered
  rw [Breakpoint.seek_binding registered] at unbound
  rw [Breakpoint.seek_location]
  exact (Option.or_eq_none_iff.mp unbound).2

theorem Sought.seek (sought : Sought can ms bs) {m : LoadedModule} :
    Sought can (ms ++ [m]) (bs.map (·.seek can [m])) := by
  intro c member registered unbound
  obtain ⟨b, before, rfl⟩ := List.mem_map.mp member
  rw [Breakpoint.seek_registered] at registered
  rw [Breakpoint.seek_binding registered] at unbound
  obtain ⟨old, new⟩ := Option.or_eq_none_iff.mp unbound
  rw [Breakpoint.seek_location, Breakpoint.place?, List.findSome?_append]
  exact Option.or_eq_none_iff.mpr ⟨sought b before registered old, new⟩

end Seek

namespace Session

variable {δ : Type} [Debuggee δ] {can : UInt64 → Bool} {fit : δ → Prop} {s : Session δ}

/-- A session in a run, whose bound breakpoints are all served. -/
structure Stationed (can : UInt64 → Bool) (fit : δ → Prop) (s : Session δ) : Prop where
  attached : ∃ d, s.debuggee = some d ∧ fit d
  traps : ∀ a, s.traps.contains a = true → can a = true
  contained : ∀ m ∈ s.roster.modules, m.Contained
  distinct : (s.roster.modules.map (·.base)).Nodup
  served : Served can s.roster.modules s.breakpoints.items

/-- A run begins with no module and nothing bound. -/
theorem stationed_attach {d : δ} (fits : fit d) (traps : ∀ a, s.traps.contains a = true → can a = true)
    (unbound : ∀ b ∈ s.breakpoints.items, b.registered = true → b.binding = none)
    (request : LaunchRequest) : (s.attach d request).Stationed can fit where
  attached := ⟨d, rfl, fits⟩
  traps := traps
  contained := fun _ member => absurd member List.not_mem_nil
  distinct := .nil
  served b member registered binding bound := by
    cases (unbound b member registered).symm.trans bound

section Happenings

theorem Stationed.load (dependable : Dependable can fit) (stationed : s.Stationed can fit) {path : String}
    {base size : UInt64} (contained : LoadedModule.Contained ⟨path, base, size, s.host.symbols path⟩)
    (fresh : ∀ m ∈ s.roster.modules, m.base ≠ base) :
    let m : LoadedModule := ⟨path, base, size, s.host.symbols path⟩
    let t := (notice (.moduleLoaded path base size) s).2
    t.Stationed can fit ∧ t.host = s.host ∧ t.roster.modules = s.roster.modules ++ [m] ∧
      t.breakpoints.items = s.breakpoints.items.map (·.seek can [m]) := by
  intro m t
  obtain ⟨d, attached, fitting⟩ := stationed.attached
  obtain ⟨bound, sure⟩ := Instrumented.bindIn_sure dependable (i := ⟨s.traps, d⟩)
    ⟨fitting, stationed.traps⟩ m s.breakpoints.items
  have run : t = _ := congrArg Prod.snd (loadModule_run attached path base size)
  have alone : s.roster.modules.filter (·.base ≠ base) = s.roster.modules :=
    List.filter_eq_self.mpr fun n member => by simpa using fresh n member
  have modules : t.roster.modules = s.roster.modules ++ [m] := by
    rw [run]
    exact congrArg (· ++ [m]) alone
  have items : t.breakpoints.items = s.breakpoints.items.map (·.seek can [m]) := by
    rw [run, ← bound]
  refine ⟨⟨⟨_, by rw [run], sure.fit⟩, by rw [run]; exact sure.can, ?_, ?_, ?_⟩, by rw [run], modules, items⟩
  · rw [modules]
    intro n member
    rcases List.mem_append.mp member with old | new
    · exact stationed.contained n old
    · cases List.mem_singleton.mp new
      exact contained
  · rw [modules, List.map_append]
    refine List.nodup_append.mpr ⟨stationed.distinct, by simp, ?_⟩
    rintro _ old _ new rfl
    obtain ⟨n, member, same⟩ := List.mem_map.mp old
    exact fresh n member (same.trans (by simpa using new))
  · rw [modules, items]
    exact stationed.served.seek (fun n => List.mem_append_left _) fun n => List.mem_append_right _

/-- A breakpoint that is added is looked for in all modules, and with it all that are not bound. -/
theorem Stationed.add (dependable : Dependable can fit) (stationed : s.Stationed can fit)
    (location : Location) :
    let t := (addBreakpoint location s).2
    t.Stationed can fit ∧ t.host = s.host ∧ t.roster.modules = s.roster.modules ∧
      Sought can t.roster.modules t.breakpoints.items := by
  intro t
  let added : Session δ := { s with breakpoints := (s.breakpoints.add location).2 }
  obtain ⟨d, attached, fitting⟩ := stationed.attached
  obtain ⟨bound, sure⟩ := Instrumented.bindings_sure dependable (i := ⟨s.traps, d⟩)
    ⟨fitting, stationed.traps⟩ s.roster.modules added.breakpoints.items
  have run : t = _ := bindAll_run (s := added) attached
  have items : t.breakpoints.items =
      (s.breakpoints.add location).2.items.map (·.seek can s.roster.modules) := by
    rw [run]
    exact bound
  have modules : t.roster.modules = s.roster.modules := by rw [run]
  have served : Served can s.roster.modules (s.breakpoints.add location).2.items := by
    intro b member registered binding placed
    rcases List.mem_append.mp member with old | new
    · exact stationed.served b old registered binding placed
    · cases List.mem_singleton.mp new
      cases placed
  refine ⟨⟨⟨_, by rw [run], sure.fit⟩, by rw [run]; exact sure.can, by rw [modules]; exact stationed.contained,
    by rw [modules]; exact stationed.distinct, ?_⟩, by rw [run], modules, ?_⟩
  · rw [modules, items]
    exact served.seek (fun _ => id) fun _ => id
  · rw [modules, items]
    exact sought_seek

/-- Whoever is bound in a module loses the place with it, and nobody else. -/
theorem Stationed.unload (stationed : s.Stationed can fit) (base : UInt64) :
    let t := (notice (.moduleUnloaded base) s).2
    t.Stationed can fit ∧ t.host = s.host ∧
      t.roster.modules = s.roster.modules.filter (·.base ≠ base) := by
  intro t
  have run : t = _ := congrArg Prod.snd (modify_run _ s)
  cases found : s.roster.moduleBased? base with
  | none =>
    have nobody : ∀ m ∈ s.roster.modules, m.base ≠ base := by simpa using List.find?_eq_none.mp found
    have same : t = s := by rw [run, found]
    rw [same]
    exact ⟨stationed, rfl, (List.filter_eq_self.mpr fun m member => by simpa using nobody m member).symm⟩
  | some m =>
    have inside : m ∈ s.roster.modules := List.mem_of_find?_eq_some found
    have based : m.base = base := by simpa using List.find?_some found
    rw [run, found]
    refine ⟨⟨stationed.attached, fun a there => stationed.traps a (Traps.contains_of_forget there),
      fun n member => stationed.contained n (List.mem_of_mem_filter member),
      stationed.distinct.sublist (List.filter_sublist.map _), ?_⟩, rfl, rfl⟩
    intro c member registered binding bound
    obtain ⟨b, before, rfl⟩ := List.mem_map.mp member
    by_cases goes : (b.registered && (b.address?.map fun a =>
        decide (m.base ≤ a) && decide (a < stretchEnd m.base m.size)).getD false) = true
    · rw [if_pos goes] at bound
      cases bound
    · rw [if_neg goes] at registered bound ⊢
      obtain ⟨n, there, place⟩ := stationed.served b before registered binding bound
      have known := (Option.filter_eq_some_iff.mp place).1
      refine ⟨n, List.mem_filter.mpr ⟨there, ?_⟩, place⟩
      -- Were it the module that goes, the breakpoint would lie in it.
      by_contra same
      have same : n.base = m.base := by rw [based]; simpa using same
      cases List.inj_on_of_nodup_map stationed.distinct there inside same
      obtain ⟨low, high⟩ := stationed.contained m inside b.location binding known
      exact goes (by simp [registered, Breakpoint.address?, bound, low, high])

/-- What can happen to a run that has to do with where breakpoints are. -/
inductive Happening where
  | load (path : String) (base size : UInt64)
  | unload (base : UInt64)
  | add (location : Location)
  deriving DecidableEq, Repr

def happen (s : Session δ) : Happening → Session δ
  | .load path base size => (notice (.moduleLoaded path base size) s).2
  | .unload base => (notice (.moduleUnloaded base) s).2
  | .add location => (addBreakpoint location s).2

/-- Modules come to lie at bases of their own, with all their places inside. -/
def Loadable (symbols : String → Option ModuleSymbols) : List LoadedModule → List Happening → Prop
  | _, [] => True
  | ms, .load path base size :: rest =>
    LoadedModule.Contained ⟨path, base, size, symbols path⟩ ∧ (∀ m ∈ ms, m.base ≠ base) ∧
      Loadable symbols (ms ++ [⟨path, base, size, symbols path⟩]) rest
  | ms, .unload base :: rest => Loadable symbols (ms.filter (·.base ≠ base)) rest
  | ms, .add _ :: rest => Loadable symbols ms rest

variable {before rest : List Happening} {location : Location}

/-- All breakpoints that some module has a place for are bound. -/
def Complete (can : UInt64 → Bool) (s : Session δ) : Prop := Sought can s.roster.modules s.breakpoints.items

theorem Stationed.happen (dependable : Dependable can fit) (stationed : s.Stationed can fit) {h : Happening}
    (loadable : Loadable s.host.symbols s.roster.modules (h :: rest)) :
    (s.happen h).Stationed can fit ∧
      Loadable (s.happen h).host.symbols (s.happen h).roster.modules rest ∧
        ((∀ base, h ≠ .unload base) → s.Complete can → (s.happen h).Complete can) := by
  cases h with
  | load path base size =>
    obtain ⟨contained, fresh, later⟩ := loadable
    obtain ⟨after, host, modules, items⟩ := stationed.load dependable contained fresh
    refine ⟨after, by rw [Session.happen, host, modules]; exact later, fun _ complete => ?_⟩
    rw [Complete, Session.happen, modules, items]
    exact Sought.seek complete
  | unload base =>
    obtain ⟨after, host, modules⟩ := stationed.unload base
    exact ⟨after, by rw [Session.happen, host, modules]; exact loadable, fun kept => absurd rfl (kept base)⟩
  | add location =>
    obtain ⟨after, host, modules, sought⟩ := stationed.add dependable location
    exact ⟨after, by rw [Session.happen, host, modules]; exact loadable, fun _ _ => sought⟩

theorem Stationed.happens (dependable : Dependable can fit) (happenings : List Happening)
    (stationed : s.Stationed can fit)
    (loadable : Loadable s.host.symbols s.roster.modules (happenings ++ rest)) :
    let t := happenings.foldl Session.happen s
    t.Stationed can fit ∧ Loadable t.host.symbols t.roster.modules rest ∧
      ((∀ base, .unload base ∉ happenings) → s.Complete can → t.Complete can) := by
  induction happenings generalizing s with
  | nil => exact ⟨stationed, loadable, fun _ => id⟩
  | cons h happenings ih =>
    obtain ⟨next, later, keeps⟩ := stationed.happen dependable loadable
    obtain ⟨after, loadable, stays⟩ := ih next later
    refine ⟨after, loadable, fun kept complete => ?_⟩
    refine stays (fun base member => kept base (List.mem_cons_of_mem h member)) (keeps ?_ complete)
    rintro base rfl
    exact kept base List.mem_cons_self

/-- Whatever is loaded, unloaded and added, each breakpoint that is bound is so where a loaded module has a
place for it, and lies in that module. -/
theorem bound_served (dependable : Dependable can fit) (happenings : List Happening)
    (stationed : s.Stationed can fit) (loadable : Loadable s.host.symbols s.roster.modules happenings) :
    let t := happenings.foldl happen s
    ∀ b ∈ t.breakpoints.registered, ∀ binding, b.binding = some binding → ∃ m ∈ t.roster.modules,
      Breakpoint.bindingIn m b.location = some binding ∧ can binding.address = true ∧
        m.base ≤ binding.address ∧ binding.address < stretchEnd m.base m.size := by
  intro t b member binding bound
  rw [← List.append_nil happenings] at loadable
  obtain ⟨after, -, -⟩ := stationed.happens dependable happenings loadable
  obtain ⟨inside, registered⟩ := List.mem_filter.mp member
  obtain ⟨m, there, place⟩ := after.served b inside registered binding bound
  obtain ⟨known, able⟩ := Option.filter_eq_some_iff.mp place
  exact ⟨m, there, known, able, after.contained m there b.location binding known⟩

/-- Once a breakpoint has been added, and until a module is unloaded again, a breakpoint is bound if and
only if a loaded module has a place for it where a trap can be set. -/
theorem bound_iff_served (dependable : Dependable can fit) (stationed : s.Stationed can fit)
    (loadable : Loadable s.host.symbols s.roster.modules (before ++ .add location :: rest))
    (kept : ∀ base, .unload base ∉ rest) :
    let t := (before ++ .add location :: rest).foldl happen s
    ∀ b ∈ t.breakpoints.registered, b.binding.isSome = true ↔ ∃ m ∈ t.roster.modules, ∃ binding,
      Breakpoint.bindingIn m b.location = some binding ∧ can binding.address = true := by
  intro t b member
  have split : t = rest.foldl happen ((before.foldl happen s).happen (.add location)) := List.foldl_append
  obtain ⟨earlier, later, -⟩ := stationed.happens dependable before loadable
  obtain ⟨added, _, _, sought⟩ := earlier.add dependable location
  obtain ⟨-, later, -⟩ := earlier.happen dependable later
  rw [← List.append_nil rest] at later
  obtain ⟨after, -, stays⟩ := Stationed.happens dependable rest added later
  rw [split] at member ⊢
  obtain ⟨inside, registered⟩ := List.mem_filter.mp member
  constructor
  · intro bound
    obtain ⟨binding, bound⟩ := Option.isSome_iff_exists.mp bound
    obtain ⟨m, there, place⟩ := after.served b inside registered binding bound
    exact ⟨m, there, binding, Option.filter_eq_some_iff.mp place⟩
  · intro served
    by_contra unbound
    have nowhere := stays kept sought b inside registered (by simpa using unbound)
    cases (Breakpoint.place?_isSome.mpr served).symm.trans (congrArg Option.isSome nowhere)

end Happenings

end Session

end SourceDebugger
