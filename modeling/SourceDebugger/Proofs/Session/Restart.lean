import SourceDebugger.Proofs.Session.Accord
import SourceDebugger.Proofs.Session.Echo
import SourceDebugger.Proofs.Session.Freshness
import SourceDebugger.Proofs.Session.Whereabouts
/-!
A restart begins anew. Once a program is launched again, a session does what a new session would do that
has been given the same breakpoints: the earlier runs lie behind it, as so many generations, hits and
events, and nothing of them can be seen in what comes.
-/
namespace SourceDebugger

open Effect Machine

section Later

def ArrayValue.later (more : Nat) (a : ArrayValue) : ArrayValue :=
  { a with generation := a.generation + more }

/-- The value, had it been read so many generations later. -/
def Value.later (more : Nat) : Value → Value
  | .array a => .array (a.later more)
  | v => v

def Variable.later (more : Nat) (v : Variable) : Variable := { v with value := v.value.later more }

/-- Only what is said of generations depends on them. -/
def DebuggerError.later (more : Nat) : DebuggerError → DebuggerError
  | .staleFrame frame current => .staleFrame (frame + more) (current + more)
  | e => e

/-- An answer, had it been given so many generations later. -/
def lapsed {α : Type} (more : Nat) (later : α → α) (answer : Except DebuggerError α) :
    Except DebuggerError α :=
  (answer.map later).mapError (·.later more)

end Later

/-- A breakpoint as it is before anything has run: its number, its location and its flags. -/
def Breakpoint.cleared (b : Breakpoint) : Breakpoint := { b with binding := none, hits := 0 }

def Breakpoints.cleared (bs : Breakpoints) : Breakpoints :=
  { bs with items := bs.items.map (·.cleared) }

namespace Session

section Inspections

variable {δ ε : Type} [Debuggee δ] [Debuggee ε] {ρ : Echo δ ε}

theorem readType_viewed {view : δ → ε} (faithful : Faithful view) (d : δ) (config : Config)
    (generation more : Nat) (address : UInt64) (type : ValueType) :
    Value.readType (view d) config (generation + more) address type =
      (Value.readType d config generation address type).map (·.later more) := by
  have nat (address : UInt64) (length : Nat) :
      Value.readNat (view d) address length = Value.readNat d address length := by
    simp only [Value.readNat, Value.readExactly, faithful.read]
  have fat (address : UInt64) : Value.readFat (view d) address = Value.readFat d address := by
    simp only [Value.readFat, nat]
  have exactly (address : UInt64) (length : Nat) :
      Value.readExactly (view d) address length = Value.readExactly d address length := by
    simp only [Value.readExactly, faithful.read]
  -- all but arrays are the same in every generation
  have plain {α : Type} (x : Except Fault α) {f : α → Value} (kept : ∀ a, (f a).later more = f a) :
      (x >>= fun a => .ok (f a)) = (x >>= fun a => .ok (f a)).map (·.later more) := by
    cases x with
    | error e => rfl
    | ok a => exact congrArg Except.ok (kept a).symm
  cases type with
  | int signed size | bool =>
    rw [Value.readType, Value.readType, nat]
    exact plain _ fun _ => rfl
  | float width =>
    by_cases single : width = 4
    · rw [single, Value.readType, Value.readType, nat]
      exact plain _ fun _ => rfl
    · simp only [Value.readType, nat]
      exact plain _ fun _ => rfl
  | char | pointer name =>
    rw [Value.readType, Value.readType, nat]
    exact plain _ fun _ => by split <;> rfl
  | text =>
    rw [Value.readType, Value.readType, fat]
    rcases Value.readFat d address with e | ⟨pointer, length⟩
    · rfl
    · show (if pointer = 0 then _ else _) = Except.map _ (if pointer = 0 then _ else _)
      split
      · rfl
      · rw [exactly]
        exact plain _ fun _ => rfl
  | slice element =>
    rw [Value.readType, Value.readType, fat]
    rcases Value.readFat d address with e | ⟨pointer, length⟩
    · rfl
    · show (if pointer = 0 then _ else if config.maxElements < length then _ else _) =
        Except.map _ (if pointer = 0 then _ else if config.maxElements < length then _ else _)
      split
      · rfl
      · split <;> rfl
  | unknown name size =>
    rw [Value.readType, Value.readType]
    exact congrArg Except.ok (by split <;> rfl)

theorem readAt_viewed {view : δ → ε} (faithful : Faithful view) (d : δ) (config : Config)
    (generation more : Nat) (address : UInt64) (type : ValueType) :
    Value.readAt (view d) config (generation + more) address type =
      (Value.readAt d config generation address type).later more := by
  rw [Value.readAt, Value.readAt, readType_viewed faithful]
  cases Value.readType d config generation address type <;> rfl

theorem readVariable_viewed {view : δ → ε} (faithful : Faithful view) (d : δ) (config : Config)
    (generation more : Nat) (frame : Frame) (info : VariableInfo) :
    Value.readVariable (view d) config (generation + more) (frame.later more) info =
      (Value.readVariable d config generation frame info).later more := by
  have place : Value.addressOf (frame.later more) info.place = Value.addressOf frame info.place := rfl
  rw [Value.readVariable, Value.readVariable, place]
  cases Value.addressOf frame info.place with
  | error reason => rfl
  | ok address => simp only [readAt_viewed faithful, Variable.later]

theorem readElement_viewed {view : δ → ε} (faithful : Faithful view) (d : δ) (config : Config)
    (generation more : Nat) (a : ArrayValue) (index : Nat) :
    Value.readElement (view d) config (generation + more) (a.later more) index =
      (Value.readElement d config generation a index).later more := by
  simp only [Value.readElement, ArrayValue.later, readAt_viewed faithful]
  split <;> rfl

/-- Whatever is asked of a session is answered as another one answers it, only that what was read is so
many generations younger. -/
structure Alike (more : Nat) (s : Session δ) (t : Session ε) : Prop where
  threads : t.threads = s.threads
  pump (millis : Nat) : (pump millis t).1 = (pump millis s).1
  add (location : Location) : (addBreakpoint location t).1 = (addBreakpoint location s).1
  respond (action : Action) : (t.respond action).1 = (s.respond action).1
  currentThread : (currentThread t).1 = (currentThread s).1
  currentFunction : (currentFunction t).1 = lapsed more (Frame.later more) (currentFunction s).1
  callstack (thread : ThreadId) :
    (callstack thread t).1 = lapsed more (List.map (Frame.later more)) (callstack thread s).1
  arguments (frame : Frame) : (arguments (frame.later more) t).1 =
    lapsed more (List.map (Variable.later more)) (arguments frame s).1
  locals (frame : Frame) : (locals (frame.later more) t).1 =
    lapsed more (List.map (Variable.later more)) (locals frame s).1
  element (array : ArrayValue) (index : Nat) : (arrayElement (array.later more) index t).1 =
    lapsed more (Value.later more) (arrayElement array index s).1

section Echoes

variable {s : Session δ} {t : Session ε}

omit [Debuggee δ] [Debuggee ε] in
theorem inspect_echo {α : Type} {later : α → α} {f : Session δ → δ → Except Fault α}
    {g : Session ε → ε → Except Fault α}
    (same : ∀ d, g (ρ.of s) (ρ.view d) = (f s d).map later) :
    (inspect g (ρ.of s)).1 = lapsed ρ.generation later (inspect f s).1 := by
  rw [inspect_run, inspect_run, show (ρ.of s).debuggee = s.debuggee.map ρ.view from rfl]
  cases s.debuggee with
  | none => rfl
  | some d =>
    dsimp only [Option.map_some]
    rw [same]
    cases f s d <;> rfl

omit [Debuggee δ] [Debuggee ε] in
/-- A request for a paused session. -/
theorem paused_echo {α : Type} {later : α → α} (operation : Operation)
    {f : ThreadId → Request δ α} {g : ThreadId → Request ε α}
    (same : ∀ thread, (g thread (ρ.of s)).1 = lapsed ρ.generation later (f thread s).1) :
    ((requirePaused operation >>= g) (ρ.of s)).1 =
      lapsed ρ.generation later ((requirePaused operation >>= f) s).1 := by
  rw [bind_run, bind_run, requirePaused_run, requirePaused_run,
    show (ρ.of s).state = s.state from rfl]
  cases s.state with
  | paused reason thread => exact same thread
  | notStarted | running | exited => rfl

theorem walk_echo (faithful : Faithful ρ.view) (thread : ThreadId) (most : Nat) :
    (walk thread most (ρ.of s)).1 =
      lapsed ρ.generation (List.map (Frame.later ρ.generation)) (walk thread most s).1 :=
  inspect_echo fun d => CallStack.walk_viewed faithful s.traps d s.roster thread most s.generation
    ρ.generation

theorem currentFunction_echo (faithful : Faithful ρ.view) :
    (currentFunction (ρ.of s)).1 =
      lapsed ρ.generation (Frame.later ρ.generation) (currentFunction s).1 := by
  refine paused_echo .currentFunction fun thread => ?_
  have walked := walk_echo (s := s) faithful thread 1
  rw [bind_run, bind_run]
  rcases left : walk thread 1 s with ⟨e | frames, u⟩ <;>
    rcases right : walk thread 1 (ρ.of s) with ⟨e' | frames', v⟩ <;>
    rw [left, right] at walked <;> cases walked
  · rfl
  · cases frames <;> rfl

theorem callstack_echo (faithful : Faithful ρ.view) (thread : ThreadId) :
    (callstack thread (ρ.of s)).1 =
      lapsed ρ.generation (List.map (Frame.later ρ.generation)) (callstack thread s).1 := by
  refine paused_echo .callstack fun _ => ?_
  rw [bind_ok (get_run s), bind_ok (get_run (ρ.of s)), ite_run, ite_run,
    show (ρ.of s).roster = s.roster from rfl]
  split
  · exact walk_echo faithful thread _
  · rfl

theorem readVariables_echo (faithful : Faithful ρ.view) (frame : Frame) (operation : Operation)
    (pick : FunctionInfo → List VariableInfo) :
    (readVariables (frame.later ρ.generation) operation pick (ρ.of s)).1 =
      lapsed ρ.generation (List.map (Variable.later ρ.generation))
        (readVariables frame operation pick s).1 := by
  have stamp : (frame.later ρ.generation).generation ≠ (ρ.of s).generation ↔
      frame.generation ≠ s.generation := by
    show frame.generation + ρ.generation ≠ s.generation + ρ.generation ↔ _
    omega
  rw [readVariables_run, readVariables_run, show (ρ.of s).state = s.state from rfl]
  by_cases old : frame.generation ≠ s.generation
  · rw [if_pos old, if_pos (stamp.mpr old)]
    rfl
  · rw [if_neg old, if_neg fun h => old (stamp.mp h)]
    cases s.state with
    | paused reason thread =>
      refine inspect_echo fun d => congrArg Except.ok ?_
      rw [List.map_map]
      exact List.map_congr_left fun info _ =>
        readVariable_viewed faithful d s.host.config s.generation ρ.generation frame info
    | notStarted | running | exited => rfl

theorem arrayElement_echo (faithful : Faithful ρ.view) (array : ArrayValue) (index : Nat) :
    (arrayElement (array.later ρ.generation) index (ρ.of s)).1 =
      lapsed ρ.generation (Value.later ρ.generation) (arrayElement array index s).1 := by
  have stamp : (array.later ρ.generation).generation ≠ (ρ.of s).generation ↔
      array.generation ≠ s.generation := by
    show array.generation + ρ.generation ≠ s.generation + ρ.generation ↔ _
    omega
  rw [arrayElement_run, arrayElement_run, show (ρ.of s).state = s.state from rfl]
  cases s.state with
  | paused reason thread =>
    by_cases old : array.generation ≠ s.generation
    · dsimp only
      rw [if_pos old, if_pos (stamp.mpr old)]
      rfl
    · dsimp only
      rw [if_neg old, if_neg fun h => old (stamp.mp h),
        show (array.later ρ.generation).length = array.length from rfl]
      split
      · rfl
      · exact inspect_echo fun d => congrArg Except.ok
          (readElement_viewed faithful d s.host.config s.generation ρ.generation array index)
  | notStarted | running | exited => rfl

/-- A session that repeats another one is asked in vain what it has behind it. -/
theorem alike_of_echoes (faithful : Faithful ρ.view) (echoes : Echoes ρ s t) :
    Alike ρ.generation s t := by
  obtain ⟨rfl, numbered, unhit⟩ := id echoes
  exact
    { threads := rfl
      pump := fun millis => (pump_echo faithful millis echoes).1
      add := fun location => rfl
      respond := fun action => (respond_echo faithful echoes action).1
      currentThread := by
        rw [currentThread, bind_run, requirePaused_run, currentThread, bind_run, requirePaused_run,
          show (ρ.of s).state = s.state from rfl]
        cases s.state <;> rfl
      currentFunction := currentFunction_echo faithful
      callstack := callstack_echo faithful
      arguments := fun frame => readVariables_echo faithful frame _ _
      locals := fun frame => readVariables_echo faithful frame _ _
      element := arrayElement_echo faithful }

end Echoes

end Inspections

section Enlisting

variable {δ : Type} [Debuggee δ]

/-- How a breakpoint is registered anew, whatever became of it. -/
def enlistOne (b : Breakpoint) : List Action :=
  [.add b.location, .setEnabled b.id b.enabled] ++ if b.registered then [] else [.remove b.id]

/-- How breakpoints are registered anew, so that each has its number, its location and its flags. -/
def enlist (bs : Breakpoints) : List Action := bs.items.flatMap enlistOne

/-- A session that nothing was done with but to register breakpoints. -/
def listing (host : Host δ) (bs : Breakpoints) : Session δ := { new host with breakpoints := bs }

section Newest

variable {items : List Breakpoint} {b : Breakpoint} {n : BreakpointId}

omit [Debuggee δ] in
/-- A change of the newest breakpoint is no change of others. -/
theorem update_newest (others : ∀ c ∈ items, c.id ≠ b.id) (f : Breakpoint → Breakpoint) :
    Breakpoints.update ⟨items ++ [b], n⟩ b.id f = ⟨items ++ [f b], n⟩ := by
  have same : items.map (fun c => if c.id = b.id then f c else c) = items := by
    refine (List.map_congr_left fun c member => ?_).trans (List.map_id items)
    rw [if_neg (others c member)]
    rfl
  simp [Breakpoints.update, same]

omit [Debuggee δ] in
theorem registered?_newest (others : ∀ c ∈ items, c.id ≠ b.id) (registered : b.registered = true) :
    Breakpoints.registered? ⟨items ++ [b], n⟩ b.id = some b := by
  have absent : items.find? (fun c => decide (c.id = b.id)) = none := by simpa using others
  simp [Breakpoints.registered?, Breakpoints.find?, absent, registered]

theorem enlistOne_run (host : Host δ) (others : ∀ c ∈ items, c.id ≠ b.id) (number : b.id = n) :
    (enlistOne b).foldl perform (listing host ⟨items, n⟩) =
      listing host ⟨items ++ [b.cleared], n + 1⟩ := by
  subst number
  let fresh : Breakpoint := { b with enabled := true, binding := none, hits := 0, registered := true }
  let set : Breakpoint := { fresh with enabled := b.enabled }
  have added : (listing host ⟨items, b.id⟩).perform (.add b.location) =
      listing host ⟨items ++ [fresh], b.id + 1⟩ := rfl
  have switched : (listing host ⟨items ++ [fresh], b.id + 1⟩).perform (.setEnabled b.id b.enabled) =
      listing host ⟨items ++ [set], b.id + 1⟩ :=
    congrArg (listing host) (update_newest (b := fresh) others fun c => { c with enabled := b.enabled })
  rw [enlistOne, List.foldl_append, List.foldl_cons, List.foldl_cons, List.foldl_nil, added, switched]
  cases registered : b.registered with
  | true =>
    have same : set = b.cleared := by
      show { b with binding := none, hits := 0, registered := true } = b.cleared
      rw [← registered]
      rfl
    rw [if_pos rfl, List.foldl_nil, same]
  | false =>
    have found : (listing host ⟨items ++ [set], b.id + 1⟩).breakpoints.registered? b.id = some set :=
      registered?_newest (b := set) others rfl
    have same : { set with registered := false, binding := none } = b.cleared := by
      show { b with binding := none, hits := 0, registered := false } = b.cleared
      rw [← registered]
      rfl
    rw [if_neg (by simp), List.foldl_cons, List.foldl_nil]
    show (removeBreakpoint b.id _).2 = _
    rw [remove_unplaced found (.inr rfl), ← same]
    have once := update_newest (b := set) (n := b.id + 1) others fun c => { c with registered := false }
    have twice := update_newest (b := { set with registered := false }) (n := b.id + 1) others
      (·.unbound)
    exact congrArg (listing host) ((congrArg (·.update b.id (·.unbound)) once).trans twice)

end Newest

omit [Debuggee δ] in
theorem number_of_get {items : List Breakpoint}
    (ids : items.map (·.id) = List.range' 1 items.length) (i : Nat) (inside : i < items.length) :
    items[i].id = i + 1 := by
  have same := List.getElem_of_eq ids (i := i) (by simpa using inside)
  rw [List.getElem_map, List.getElem_range', Nat.one_mul, Nat.add_comm] at same
  exact same

/-- Enlisted anew, breakpoints are what they were, except that nothing has happened to them yet. -/
theorem enlist_run (host : Host δ) {bs : Breakpoints} (numbered : bs.Numbered) :
    after host (enlist bs) = listing host bs.cleared := by
  have each (todo : List Breakpoint) : ∀ done : List Breakpoint,
      (done ++ todo).map (·.id) = List.range' 1 (done ++ todo).length →
      (todo.flatMap enlistOne).foldl perform
          (listing host ⟨done.map (·.cleared), done.length + 1⟩) =
        listing host ⟨(done ++ todo).map (·.cleared), (done ++ todo).length + 1⟩ := by
    induction todo with
    | nil => intro done _; simp
    | cons b rest ih =>
      intro done ids
      have number : b.id = done.length + 1 := by
        have last := number_of_get ids done.length (by simp)
        simpa using last
      have others : ∀ c ∈ done.map (·.cleared), c.id ≠ b.id := by
        rintro _ member same
        obtain ⟨c, before, rfl⟩ := List.mem_map.mp member
        obtain ⟨i, inside, rfl⟩ := List.getElem_of_mem before
        have earlier := number_of_get ids i (by rw [List.length_append]; omega)
        rw [List.getElem_append_left inside] at earlier
        have equal : i + 1 = done.length + 1 := earlier.symm.trans (same.trans number)
        omega
      rw [List.flatMap_cons, List.foldl_append, enlistOne_run host others number]
      have next := ih (done ++ [b]) (by simpa using ids)
      simpa using next
  obtain ⟨ids, next⟩ := numbered
  have all := each bs.items [] (by simpa using ids)
  rw [show bs.cleared = ⟨bs.items.map (·.cleared), bs.items.length + 1⟩ by rw [← next]; rfl]
  exact all

end Enlisting

section Restart

variable {δ ε : Type} [Debuggee δ] [Debuggee ε]

/-- What a series of actions is answered, one after the other. -/
def answers (s : Session δ) : List Action → List (Except DebuggerError Unit)
  | [] => []
  | action :: rest => (s.respond action).1 :: (s.perform action).answers rest

theorem answers_echo {ρ : Echo δ ε} (faithful : Faithful ρ.view) {s : Session δ} {t : Session ε}
    (echoes : Echoes ρ s t) (actions : List Action) : t.answers actions = s.answers actions := by
  induction actions generalizing s t with
  | nil => rfl
  | cons action rest ih =>
    obtain ⟨same, after⟩ := respond_echo faithful echoes action
    rw [answers, answers, same, ih after]

/-- How often the breakpoint with a number was reached. -/
def hitsOf (s : Session δ) (id : BreakpointId) : Nat := ((s.breakpoints.find? id).map (·.hits)).getD 0

/-- A session that has the runs of another one behind it. -/
def onTop (s past : Session δ) : Session δ :=
  { s with
    launches := s.launches + past.launches
    departed := s.departed ++ past.departed
    breakpoints := { s.breakpoints with
      items := s.breakpoints.items.map fun b => { b with hits := b.hits + past.hitsOf b.id } }
    generation := s.generation + past.generation
    outbox := past.outbox ++ s.outbox }

/-- What lies behind a session that is started again. -/
def past (s : Session δ) : Echo δ δ where
  view d := d
  launches := s.launches
  departed := s.departed
  generation := s.generation
  hits := s.hitsOf
  outbox := s.outbox

omit [Debuggee δ] in
/-- Where launches do not depend on how many there have been. -/
theorem past_of {s t : Session δ} (launch : ∀ n k, t.host.launch n = t.host.launch k) :
    s.past.of t = t.onTop s := by
  have host : s.past.host t.host = t.host := by
    obtain ⟨⟨config, launch', symbols⟩, _⟩ := t
    have same : (fun n request => (launch' (n - s.launches) request).map fun d => d) = launch' := by
      funext n request
      rw [show launch' (n - s.launches) = launch' n from launch _ _]
      cases launch' n request <;> rfl
    exact congrArg (fun l => Host.mk config l symbols) same
  simp only [Echo.of, onTop, host]
  simp [past, Echo.breakpoints, Echo.breakpoint]

variable {w : Sight} {s : Session Machine}

/-- Nothing is attached to breakpoints of a session that is not running. -/
theorem restored (detached : Detached s) :
    s.past.breakpoints s.breakpoints.cleared = s.breakpoints := by
  have same (b : Breakpoint) (member : b ∈ s.breakpoints.items) :
      s.past.breakpoint b.cleared = b := by
    have unbound : b.binding = none := by
      simpa [Breakpoint.address?] using detached.unbound b member
    have hits : s.hitsOf b.id = b.hits := by
      cases found : s.breakpoints.find? b.id with
      | none =>
        have none := List.find?_eq_none.mp found b member
        simp at none
      | some c =>
        have there := List.mem_of_find?_eq_some found
        have number : c.id = b.id := by simpa using List.find?_some found
        rw [hitsOf, found, detached.tidy.unique there member number]
        rfl
    obtain ⟨id, location, enabled, binding, count, registered⟩ := b
    cases unbound
    show Breakpoint.mk id location enabled none (0 + s.hitsOf id) registered = _
    rw [Nat.zero_add, show s.hitsOf id = count from hits]
  show Breakpoints.mk ((s.breakpoints.items.map (·.cleared)).map s.past.breakpoint)
    s.breakpoints.nextId = s.breakpoints
  have all : (s.breakpoints.items.map (·.cleared)).map s.past.breakpoint = s.breakpoints.items := by
    rw [List.map_map]
    exact (List.map_congr_left same).trans (List.map_id _)
  rw [all]

theorem Ready.detached (ready : Ready w s none) (exited : s.state.isExited = true) :
    Detached s := by
  cases ready with
  | idle detached => exact detached
  | paused sound rest stepless paused =>
    rw [paused] at exited
    cases exited
  | running sound running =>
    rw [running] at exited
    cases exited

/-- Once a program is launched, the old session repeats the new one. -/
theorem launched_echoes (detached : Detached s) (numbered : s.breakpoints.Numbered)
    (launch : ∀ n k, s.host.launch n = s.host.launch k) (m : Machine) (request : LaunchRequest) :
    Echoes s.past
      ({ listing s.host s.breakpoints.cleared with launches := 1 }.attach m request)
      ({ s with launches := s.launches + 1 }.attach m request) := by
  have traps : s.traps = ⟨[]⟩ := congrArg Traps.mk
    ((accord_of_detached (e := default) detached).detached detached.gone).1
  have breakpoints := restored detached
  refine ⟨?_, numbered.each fun b => rfl, fun id beyond => ?_⟩
  · let t : Session Machine :=
      { listing s.host s.breakpoints.cleared with launches := 1 }.attach m request
    have top : s.past.of t = t.onTop s := past_of launch
    refine Eq.trans ?_ top.symm
    obtain ⟨host, launches, _, departed, _, bs, _, _, generation, _, _, outbox⟩ := s
    cases traps
    show Session.mk host (launches + 1) (some m) departed _ bs ⟨[]⟩ _ generation none _ outbox =
      Session.mk host (1 + launches) (some m) ([] ++ departed) _ _ ⟨[]⟩ _ (0 + generation) none _
        (outbox ++ [])
    rw [Nat.add_comm 1, List.nil_append, Nat.zero_add, List.append_nil]
    exact congrArg (fun bs => Session.mk host _ _ departed _ bs _ _ _ _ _ _) breakpoints.symm
  · have absent : s.breakpoints.find? id = none := by
      refine List.find?_eq_none.mpr fun b member => ?_
      have below : b.id < s.breakpoints.nextId := detached.tidy.fresh b member
      have above : s.breakpoints.nextId ≤ id := beyond
      simpa using Nat.ne_of_lt (Nat.lt_of_lt_of_le below above)
    show ((s.breakpoints.find? id).map (·.hits)).getD 0 = 0
    rw [absent]
    rfl

theorem after_numbered (host : Host δ) (actions : List Action) :
    (after host actions).breakpoints.Numbered := by
  let none : Echo δ δ := ⟨fun d => d, 0, [], 0, fun _ => 0, []⟩
  have echoes : Echoes none (new host) (none.of (new host)) := ⟨rfl, ⟨rfl, rfl⟩, fun _ _ => rfl⟩
  exact (performs_echo .refl echoes actions).numbered

/-- From the launch of the program on, a session that has run before answers, reports and shows what a
new session does in which the same breakpoints are registered. What is left of earlier runs is that
generations and hits are counted on, and that what was reported and who has departed is kept. -/
theorem restart_clean (e : Executable) (config : Config) (history later : List Action)
    (request : LaunchRequest)
    (exited : (after (e.host config) history).state.isExited = true)
    (launched : Path.same request.executable e.path = true) :
    let s := after (e.host config) history
    let u := after (e.host config) (enlist s.breakpoints)
    let actions := .start request :: later
    u = listing (e.host config) s.breakpoints.cleared ∧
      s.answers actions = u.answers actions ∧
        actions.foldl perform s = (actions.foldl perform u).onTop s ∧
          Alike s.generation (actions.foldl perform u) (actions.foldl perform s) := by
  intro s u actions
  have lasting := e.anywhere_lasting config
  have ready (actions : List Action) : Ready (e.anywhere config) (after (e.host config) actions) none :=
    after_ready lasting rfl actions
  have host (actions : List Action) : (after (e.host config) actions).host = e.host config := by
    rcases (ready actions).cases with ⟨_, host, _⟩ | ⟨_, sound⟩
    · exact host
    · exact sound.host
  have numbered := after_numbered (e.host config) history
  have fresh : u = listing (e.host config) s.breakpoints.cleared := enlist_run (e.host config) numbered
  have begun : Echoes s.past
      ({ u with launches := u.launches + 1 }.attach (boot e) request)
      ({ s with launches := s.launches + 1 }.attach (boot e) request) := by
    rw [fresh, ← host history]
    exact launched_echoes ((ready history).detached exited) numbered
      (by rw [host]; exact fun _ _ => rfl) (boot e) request
  have run (t : Session Machine) (idle : t.state.isLive = false) (same : t.host = e.host config) :
      start request t =
        guarded (runFromEntry patience) ({ t with launches := t.launches + 1 }.attach (boot e) request) := by
    have boots : t.host.launch t.launches request = .ok (boot e) := by rw [same]; exact if_pos launched
    rw [start_run idle, boots]
  have idle : s.state.isLive = false := by
    cases state : s.state <;> simp [s, state, RunState.isExited] at exited
    rfl
  obtain ⟨answer, echoes⟩ := guarded_echo (runFromEntry_echo .refl patience) _ _ begun
  rw [← run s idle (host history), ← run u (by rw [fresh]; rfl) (host _)] at answer echoes
  have after := performs_echo .refl echoes later
  have whole : actions.foldl perform u =
      Session.after (e.host config) (enlist s.breakpoints ++ actions) := (List.foldl_append ..).symm
  have launch (n k : Nat) : (actions.foldl perform u).host.launch n =
      (actions.foldl perform u).host.launch k := by
    rw [whole, host]
    rfl
  exact ⟨fresh, congrArg₂ List.cons answer (answers_echo .refl echoes later),
    after.same.trans (past_of launch), alike_of_echoes .refl after⟩

/-- A program that was ended at a breakpoint. -/
def errandOver : List Action :=
  [.add (.address 0x400010), .start ⟨"/bin/errand", "/", []⟩, .pump 0, .terminate]

/-- Started once more, it stops there again. -/
theorem restart_clean_errand :
    let s := after (errandCode.host .standard) errandOver
    let u := after (errandCode.host .standard) (enlist s.breakpoints)
    let actions : List Action := [.start ⟨"/bin/errand", "/", []⟩, .pump 0]
    s.state = .exited (some 137) none ∧
      (actions.foldl perform u).state = .paused .breakpoint mainThread ∧
        actions.foldl perform s = (actions.foldl perform u).onTop s ∧
          Alike s.generation (actions.foldl perform u) (actions.foldl perform s) := by
  have same := restart_clean errandCode .standard errandOver [.pump 0] ⟨"/bin/errand", "/", []⟩
    (by decide +kernel) (by decide +kernel)
  exact ⟨by decide +kernel, by decide +kernel, same.2.2⟩

/-- As long as nothing is launched, the old run can still be seen: what is refused is refused because the
program has exited, where a new session says that it was not started. -/
theorem unlaunched_shows :
    let s := after (errandCode.host .standard) errandOver
    let u := after (errandCode.host .standard) (enlist s.breakpoints)
    let actions : List Action := [.start ⟨"/bin/other", "/", []⟩, .continue]
    s.state = .exited (some 137) none ∧ s.answers actions ≠ u.answers actions := by
  decide +kernel

end Restart

end Session

end SourceDebugger
