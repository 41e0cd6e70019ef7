import SourceDebugger.Proofs.Session.Held
import SourceDebugger.Proofs.Session.Lifecycle
import SourceDebugger.Proofs.Traps.Viewed
/-!
One session repeats what another one does, though it has more behind it: earlier runs, earlier pauses,
hits that were counted before, events that nobody collected, and a debuggee of which more may be seen.
Nothing of that has a part in what either session does.
-/
namespace SourceDebugger

open Effect

section

variable {δ ε : Type}

/-- How a session repeats another one: what is seen of its debuggees, and what it has behind it. -/
structure Echo (δ ε : Type) where
  view : δ → ε
  launches : Nat
  departed : List ε
  generation : Nat
  /-- How often a breakpoint was reached before. -/
  hits : BreakpointId → Nat
  outbox : List DebuggerEvent

namespace Echo

variable (ρ : Echo δ ε)

def breakpoint (b : Breakpoint) : Breakpoint := { b with hits := b.hits + ρ.hits b.id }

def breakpoints (bs : Breakpoints) : Breakpoints := { bs with items := bs.items.map ρ.breakpoint }

def host (h : Host δ) : Host ε :=
  ⟨h.config, fun n request => (h.launch (n - ρ.launches) request).map ρ.view, h.symbols⟩

/-- The session that repeats another one. -/
def of (s : Session δ) : Session ε where
  host := ρ.host s.host
  launches := s.launches + ρ.launches
  debuggee := s.debuggee.map ρ.view
  departed := s.departed.map ρ.view ++ ρ.departed
  roster := s.roster
  breakpoints := ρ.breakpoints s.breakpoints
  traps := s.traps
  state := s.state
  generation := s.generation + ρ.generation
  stepper := s.stepper
  output := s.output
  outbox := ρ.outbox ++ s.outbox

end Echo

/-- Breakpoints are numbered from 1 on, in the order in which they were added. -/
def Breakpoints.Numbered (bs : Breakpoints) : Prop :=
  bs.items.map (·.id) = List.range' 1 bs.items.length ∧ bs.nextId = bs.items.length + 1

/-- One session repeats another one. Breakpoints that are still to come have no hits behind them. -/
structure Echoes (ρ : Echo δ ε) (s : Session δ) (t : Session ε) : Prop where
  same : t = ρ.of s
  numbered : s.breakpoints.Numbered
  unhit : ∀ id, s.breakpoints.nextId ≤ id → ρ.hits id = 0

end

section Breakpoints

variable {δ ε : Type} {ρ : Echo δ ε} {bs : Breakpoints}

theorem Breakpoints.Numbered.alike (numbered : bs.Numbered) {items : List Breakpoint}
    (same : items.map (·.id) = bs.items.map (·.id)) :
    Breakpoints.Numbered { bs with items } := by
  have length : items.length = bs.items.length := by simpa using congrArg List.length same
  exact ⟨by rw [same, length]; exact numbered.1, by rw [length]; exact numbered.2⟩

theorem Breakpoints.Numbered.each (numbered : bs.Numbered) {f : Breakpoint → Breakpoint}
    (id : ∀ b, (f b).id = b.id) : Breakpoints.Numbered { bs with items := bs.items.map f } :=
  numbered.alike (by simp [id])

theorem Breakpoints.Numbered.add (numbered : bs.Numbered) (location : Location) :
    (bs.add location).2.Numbered := by
  obtain ⟨ids, next⟩ := numbered
  refine ⟨?_, by simp [Breakpoints.add, next]⟩
  simp [Breakpoints.add, ids, next, List.range'_concat, Nat.add_comm]

namespace Echo

/-- A change that neither reads nor writes hits. -/
theorem breakpoints_each {f : Breakpoint → Breakpoint} (same : ∀ b, ρ.breakpoint (f b) = f (ρ.breakpoint b)) :
    ρ.breakpoints { bs with items := bs.items.map f } =
      { ρ.breakpoints bs with items := (ρ.breakpoints bs).items.map f } := by
  simp only [breakpoints, List.map_map]
  congr 1
  exact List.map_congr_left fun b _ => same b

theorem breakpoints_update {id : BreakpointId} {f : Breakpoint → Breakpoint}
    (same : ∀ b, ρ.breakpoint (f b) = f (ρ.breakpoint b)) :
    ρ.breakpoints (bs.update id f) = (ρ.breakpoints bs).update id f := by
  refine breakpoints_each fun b => ?_
  show ρ.breakpoint (if b.id = id then f b else b) = if b.id = id then f (ρ.breakpoint b) else _
  split
  · exact same b
  · rfl

theorem breakpoints_unbindWhere (test : UInt64 → Bool) :
    ρ.breakpoints (bs.unbindWhere test) = (ρ.breakpoints bs).unbindWhere test := by
  refine breakpoints_each fun b => ?_
  show ρ.breakpoint (if b.registered && (b.address?.map test).getD false then b.unbound else b) =
    if b.registered && (b.address?.map test).getD false then (ρ.breakpoint b).unbound else _
  split <;> rfl

theorem breakpoints_count (ids : List BreakpointId) :
    ρ.breakpoints (bs.count ids) = (ρ.breakpoints bs).count ids := by
  refine breakpoints_each fun b => ?_
  show ρ.breakpoint (if b.registered && b.enabled && ids.contains b.id then _ else b) =
    if b.registered && b.enabled && ids.contains b.id then _ else _
  split
  · simp only [breakpoint]
    congr 1
    omega
  · rfl

theorem anyEnabled_eq (ids : List BreakpointId) :
    (ρ.breakpoints bs).anyEnabled ids = bs.anyEnabled ids := by
  simp only [Breakpoints.anyEnabled, breakpoints, List.any_map]
  rfl

theorem registered?_eq (id : BreakpointId) :
    (ρ.breakpoints bs).registered? id = (bs.registered? id).map ρ.breakpoint := by
  simp only [Breakpoints.registered?, Breakpoints.find?, breakpoints, List.find?_map]
  rw [show ((fun b : Breakpoint => decide (b.id = id)) ∘ ρ.breakpoint) = fun b => decide (b.id = id)
    from rfl]
  cases bs.items.find? fun b => decide (b.id = id) with
  | none => rfl
  | some b =>
    show Option.filter _ (some (ρ.breakpoint b)) = _
    cases registered : b.registered <;> simp [Option.filter, breakpoint, registered]

theorem breakpoints_add (unhit : ρ.hits bs.nextId = 0) (location : Location) :
    ρ.breakpoints (bs.add location).2 = ((ρ.breakpoints bs).add location).2 := by
  simp [breakpoints, Breakpoints.add, breakpoint, unhit]

end Echo

end Breakpoints

namespace Session

variable {δ ε : Type} {ρ : Echo δ ε}

section Plain

/-- A change of a session that has no part in what it has behind it. -/
theorem echo_change {e : Type} {f : Session δ → Session δ} {g : Session ε → Session ε}
    (same : ∀ s, g (ρ.of s) = ρ.of (f s))
    (breakpoints : ∀ s, s.breakpoints.Numbered →
      (f s).breakpoints.Numbered ∧ (f s).breakpoints.nextId = s.breakpoints.nextId) :
    Parallel (ε := e) (Echoes ρ) (modify f) (modify g) := by
  refine .change ?_
  rintro s _ ⟨rfl, numbered, unhit⟩
  obtain ⟨after, next⟩ := breakpoints s numbered
  exact ⟨same s, after, by rw [next]; exact unhit⟩

/-- Most changes leave the breakpoints alone. -/
theorem echo_modify {e : Type} {f : Session δ → Session δ} {g : Session ε → Session ε}
    (same : ∀ s, g (ρ.of s) = ρ.of (f s)) (breakpoints : ∀ s, (f s).breakpoints = s.breakpoints) :
    Parallel (ε := e) (Echoes ρ) (modify f) (modify g) :=
  echo_change same fun s numbered => by rw [breakpoints]; exact ⟨numbered, rfl⟩

theorem echo_look {e α : Type} {f : Session δ → ExceptT e (StateM (Session δ)) α}
    {g : Session ε → ExceptT e (StateM (Session ε)) α}
    (next : ∀ s, s.breakpoints.Numbered → (∀ id, s.breakpoints.nextId ≤ id → ρ.hits id = 0) →
      Parallel (Echoes ρ) (f s) (g (ρ.of s))) : Parallel (Echoes ρ) (get >>= f) (get >>= g) := by
  refine .look ?_
  rintro s _ ⟨rfl, numbered, unhit⟩
  exact next s numbered unhit

theorem pause_echo (s : Session δ) (reason : PauseReason) (thread : ThreadId) :
    (ρ.of s).pause reason thread = ρ.of (s.pause reason thread) := by
  simp only [pause, report, Echo.of, List.append_assoc]
  congr 1
  omega

theorem leavePause_echo (s : Session δ) : leavePause (ρ.of s) = ρ.of (leavePause s) := by
  have shifted : (leavePause (ρ.of s)).generation = (leavePause s).generation + ρ.generation := by
    show (if s.state.isPaused then s.generation + ρ.generation + 1 else s.generation + ρ.generation) =
      (if s.state.isPaused then s.generation + 1 else s.generation) + ρ.generation
    split
    · rw [Nat.add_right_comm]
    · rfl
  show { ρ.of (leavePause s) with generation := (leavePause (ρ.of s)).generation } = _
  rw [shifted]
  rfl

theorem exit_echo (s : Session δ) (code : Option Int) (fault : Option Fault) :
    (ρ.of s).exit code fault = ρ.of (s.exit code fault) := by
  have departed : (s.debuggee.map ρ.view).toList = s.debuggee.toList.map ρ.view := by
    cases s.debuggee <;> rfl
  simp only [exit, show (ρ.of s).output = s.output from rfl]
  cases s.output.flush <;>
    simp [report, Echo.of, departed, Echo.breakpoints_unbindWhere, Nat.add_right_comm]

theorem fail_echo (s : Session δ) (fault : Fault) : (ρ.of s).fail fault = ρ.of (s.fail fault) := by
  simp only [fail, show (ρ.of s).state = s.state from rfl]
  split
  · rfl
  · exact exit_echo s none _

theorem exit_numbered {s : Session δ} (numbered : s.breakpoints.Numbered) (code : Option Int)
    (fault : Option Fault) : (s.exit code fault).breakpoints.Numbered ∧
      (s.exit code fault).breakpoints.nextId = s.breakpoints.nextId := by
  have after : (s.exit code fault).breakpoints = s.breakpoints.unbindWhere fun _ => true := by
    rw [exit]
    cases s.output.flush <;> rfl
  rw [after]
  exact ⟨numbered.each fun b => by split <;> rfl, rfl⟩

theorem fail_numbered {s : Session δ} (numbered : s.breakpoints.Numbered) (fault : Fault) :
    (s.fail fault).breakpoints.Numbered ∧
      (s.fail fault).breakpoints.nextId = s.breakpoints.nextId := by
  rw [fail]
  split
  · exact ⟨numbered, rfl⟩
  · exact exit_numbered numbered none _

theorem guarded_echo {α : Type} {a : Change δ α} {b : Change ε α}
    (parallel : Parallel (Echoes ρ) a b) : Parallel (Echoes ρ) (guarded a) (guarded b) := by
  intro s t same
  obtain ⟨answer, after⟩ := parallel s t same
  rw [guarded, guarded]
  rcases left : a s with ⟨e | x, u⟩ <;> rcases right : b t with ⟨e' | x', v⟩ <;>
    rw [left, right] at answer after <;> cases answer
  · obtain ⟨rfl, numbered, unhit⟩ := after
    obtain ⟨after, next⟩ := fail_numbered numbered e
    exact ⟨rfl, fail_echo u e, after, by rw [next]; exact unhit⟩
  · exact ⟨rfl, after⟩

theorem access_absent {s : Session δ} {α : Type} (absent : s.debuggee = none) (a : Access δ α) :
    access a s = (.error .notAttached, s) := by
  obtain ⟨_, _, _, _, _, _, _, _, _, _, _, _⟩ := s
  cases absent
  rfl

theorem instrumented_absent {s : Session δ} {α : Type} (absent : s.debuggee = none)
    (a : Access (Instrumented δ) α) : instrumented a s = (.error .notAttached, s) := by
  obtain ⟨_, _, _, _, _, _, _, _, _, _, _, _⟩ := s
  cases absent
  rfl

theorem ask_absent {s : Session δ} {α : Type} (absent : s.debuggee = none)
    (f : Session δ → δ → Except Fault α) : ask f s = (.error .notAttached, s) := by
  rw [ask, bind_ok (get_run s), absent]
  rfl

/-- Where there is no debuggee in one session, there is none in the other. -/
theorem access_echo {α : Type} {a : Access δ α} {b : Access ε α}
    (parallel : Parallel (Viewed ρ.view) a b) : Parallel (Echoes ρ) (access a) (access b) := by
  rintro s _ ⟨rfl, numbered, unhit⟩
  cases attached : s.debuggee with
  | none =>
    have absent : (ρ.of s).debuggee = none := congrArg (Option.map ρ.view) attached
    rw [access_absent attached, access_absent absent]
    exact ⟨rfl, rfl, numbered, unhit⟩
  | some d =>
    have present : (ρ.of s).debuggee = some (ρ.view d) := congrArg (Option.map ρ.view) attached
    obtain ⟨answer, after⟩ := parallel d _ rfl
    rw [access_run attached, access_run present, answer, after]
    exact ⟨rfl, rfl, numbered, unhit⟩

theorem instrumented_echo {α : Type} {a : Access (Instrumented δ) α} {b : Access (Instrumented ε) α}
    (parallel : Parallel (Instrumented.Viewed ρ.view) a b) :
    Parallel (Echoes ρ) (instrumented a) (instrumented b) := by
  rintro s _ ⟨rfl, numbered, unhit⟩
  cases attached : s.debuggee with
  | none =>
    have absent : (ρ.of s).debuggee = none := congrArg (Option.map ρ.view) attached
    rw [instrumented_absent attached, instrumented_absent absent]
    exact ⟨rfl, rfl, numbered, unhit⟩
  | some d =>
    have present : (ρ.of s).debuggee = some (ρ.view d) := congrArg (Option.map ρ.view) attached
    obtain ⟨answer, after⟩ := parallel ⟨s.traps, d⟩ _ rfl
    rw [instrumented_run attached, instrumented_run present,
      show (⟨(ρ.of s).traps, ρ.view d⟩ : Instrumented ε) = Instrumented.through ρ.view ⟨s.traps, d⟩
        from rfl, answer, after]
    exact ⟨rfl, rfl, numbered, unhit⟩

/-- What is asked of the debuggee may depend on modules and traps, and on what both sessions share. -/
theorem ask_echo {α : Type} {f : Session δ → δ → Except Fault α} {g : Session ε → ε → Except Fault α}
    (same : ∀ s d, g (ρ.of s) (ρ.view d) = f s d) : Parallel (Echoes ρ) (ask f) (ask g) := by
  refine echo_look fun s numbered unhit => ?_
  rw [show (ρ.of s).debuggee = s.debuggee.map ρ.view from rfl]
  cases s.debuggee with
  | none => exact .fault _
  | some d =>
    dsimp only [Option.map_some]
    rw [same]
    cases f s d with
    | ok a => exact .answer a
    | error e => exact .fault e

end Plain

section Moves

variable [Debuggee δ] [Debuggee ε]

theorem registers_echo (faithful : Faithful ρ.view) (thread : ThreadId) :
    Parallel (Echoes ρ) (registers thread) (registers thread) :=
  ask_echo fun _ d => faithful.registers d thread

theorem frameAddress_echo (faithful : Faithful ρ.view) (regs : Registers) :
    Parallel (Echoes ρ) (frameAddress regs) (frameAddress regs) :=
  ask_echo fun s d => congrArg Except.ok
    (CallStack.canonicalAddress_viewed faithful s.traps d s.roster regs)

theorem clearTarget_echo (faithful : Faithful ρ.view) :
    Parallel (Echoes ρ) clearTarget clearTarget := by
  refine echo_look fun s _ _ => ?_
  rw [show (ρ.of s).stepper = s.stepper from rfl]
  cases s.stepper with
  | none => exact .answer _
  | some stepper =>
    dsimp only
    cases stepper.runningTo with
    | none => exact .answer _
    | some target =>
      refine .seq (echo_modify (fun _ => rfl) fun _ => rfl) fun _ => echo_look fun t _ _ => ?_
      exact .branch (by cases h : t.debuggee <;> simp [Echo.of, h])
        (fun _ => instrumented_echo (Instrumented.removeStep_viewed faithful _)) fun _ => .answer _

theorem cancelStep_echo (faithful : Faithful ρ.view) :
    Parallel (Echoes ρ) cancelStep cancelStep :=
  .seq (clearTarget_echo faithful) fun _ => echo_modify (fun _ => rfl) fun _ => rfl

theorem pauseAt_echo (faithful : Faithful ρ.view) (reason : PauseReason) (thread : ThreadId) :
    Parallel (Echoes ρ) (pauseAt reason thread) (pauseAt reason thread) :=
  .seq (cancelStep_echo faithful) fun _ =>
    .seq (echo_modify (fun s => pause_echo s reason thread) fun _ => rfl) fun _ => .answer _

/-- A breakpoint is bound, or not, whatever its hits are. -/
theorem bindOne_echo (faithful : Faithful ρ.view) (l : LoadedModule) (b : Breakpoint)
    (i : Instrumented δ) :
    Instrumented.bindIn.bindOne l (ρ.breakpoint b) (i.through ρ.view) =
        (ρ.breakpoint (Instrumented.bindIn.bindOne l b i).1,
          (Instrumented.bindIn.bindOne l b i).2.through ρ.view) ∧
      (Instrumented.bindIn.bindOne l b i).1.id = b.id := by
  rw [Instrumented.bindIn.bindOne, Instrumented.bindIn.bindOne]
  by_cases idle : (!b.registered || b.binding.isSome) = true
  · rw [if_pos idle, if_pos (show (!(ρ.breakpoint b).registered || (ρ.breakpoint b).binding.isSome) =
      true from idle)]
    exact ⟨rfl, rfl⟩
  · rw [if_neg idle, if_neg (show ¬(!(ρ.breakpoint b).registered || (ρ.breakpoint b).binding.isSome) =
      true from idle), show (ρ.breakpoint b).location = b.location from rfl]
    cases Breakpoint.bindingIn l b.location with
    | none => exact ⟨rfl, rfl⟩
    | some binding =>
      obtain ⟨answer, after⟩ := Instrumented.addUser_viewed faithful binding.address b.id i _ rfl
      dsimp only
      rw [certain_bind, certain_bind, show (ρ.breakpoint b).id = b.id from rfl, answer, after]
      rcases Instrumented.addUser binding.address b.id i with ⟨_ | _, _⟩ <;> exact ⟨rfl, rfl⟩

theorem bindIn_echo (faithful : Faithful ρ.view) (l : LoadedModule) (bs : List Breakpoint)
    (i : Instrumented δ) :
    Instrumented.bindIn l (bs.map ρ.breakpoint) (i.through ρ.view) =
        ((Instrumented.bindIn l bs i).1.map ρ.breakpoint,
          (Instrumented.bindIn l bs i).2.through ρ.view) ∧
      (Instrumented.bindIn l bs i).1.map (·.id) = bs.map (·.id) := by
  induction bs generalizing i with
  | nil => exact ⟨rfl, rfl⟩
  | cons b rest ih =>
    obtain ⟨one, same⟩ := bindOne_echo faithful l b i
    obtain ⟨others, ids⟩ := ih (Instrumented.bindIn.bindOne l b i).2
    rw [List.map_cons, Instrumented.bindIn, Instrumented.bindIn]
    simp only [certain_bind, certain_pure, one, others, List.map_cons, same, ids, and_self]

theorem loadModule_echo (faithful : Faithful ρ.view) (path : String) (base size : UInt64) :
    Parallel (Echoes ρ) (loadModule path base size) (loadModule path base size) := by
  rintro s _ ⟨rfl, numbered, unhit⟩
  obtain ⟨host, launches, debuggee, departed, roster, breakpoints, traps, state, generation, stepper,
    output, outbox⟩ := s
  cases debuggee with
  | none => exact ⟨rfl, rfl, numbered, unhit⟩
  | some d =>
    obtain ⟨bound, ids⟩ := bindIn_echo (ρ := ρ) faithful ⟨path, base, size, host.symbols path⟩
      breakpoints.items ⟨traps, d⟩
    refine ⟨rfl, ?_, numbered.alike ids, unhit⟩
    show (loadModule path base size (Echo.of ρ _)).2 = _
    simp only [loadModule, Echo.of, Echo.host, Echo.breakpoints, Option.map_some]
    rw [show (⟨traps, ρ.view d⟩ : Instrumented ε) = Instrumented.through ρ.view ⟨traps, d⟩ from rfl,
      bound]
    rfl

omit [Debuggee δ] [Debuggee ε] in
theorem unloadModule_echo (base : UInt64) :
    Parallel (Echoes ρ) (unloadModule base) (unloadModule base) := by
  refine echo_change (fun s => ?_) fun s numbered => ?_
  · rw [show (ρ.of s).roster = s.roster from rfl]
    cases s.roster.moduleBased? base with
    | none => rfl
    | some m => simp [Echo.of, Echo.breakpoints_unbindWhere]
  · cases s.roster.moduleBased? base with
    | none => exact ⟨numbered, rfl⟩
    | some m => exact ⟨numbered.each fun b => by split <;> rfl, rfl⟩

theorem notice_echo (faithful : Faithful ρ.view) (e : Event) :
    Parallel (Echoes ρ) (notice e) (notice e) := by
  cases e with
  | threadStarted | threadEnded => exact echo_modify (fun _ => rfl) fun _ => rfl
  | moduleLoaded path base size => exact loadModule_echo faithful path base size
  | moduleUnloaded base => exact unloadModule_echo base
  | output text =>
    exact echo_modify (fun s => by simp [Echo.of]) fun _ => rfl
  | trap | signal | exited => exact .answer _

theorem notices_echo (faithful : Faithful ρ.view) (es : List Event) :
    Parallel (Echoes ρ) (es.forM notice) (es.forM notice) := by
  induction es with
  | nil => exact .answer _
  | cons e rest ih =>
    exact .seq (notice_echo faithful e) fun _ => ih

omit [Debuggee δ] [Debuggee ε] in
theorem count_echo {e : Type} (users : List BreakpointId) :
    Parallel (ε := e) (Echoes ρ)
      (modify fun s : Session δ => { s with breakpoints := s.breakpoints.count users })
      (modify fun s : Session ε => { s with breakpoints := s.breakpoints.count users }) := by
  refine echo_change (fun s => ?_) fun s numbered => ⟨numbered.each fun b => by split <;> rfl, rfl⟩
  simp only [Echo.of, Echo.breakpoints_count]

theorem hitTrap_echo (faithful : Faithful ρ.view) (thread : ThreadId) (address : UInt64) :
    Parallel (Echoes ρ) (hitTrap thread address) (hitTrap thread address) := by
  refine echo_look fun s _ _ => .branch ?_ (fun _ => ?_) fun _ => ?_
  · rw [show (ρ.of s).breakpoints = ρ.breakpoints s.breakpoints from rfl, Echo.anyEnabled_eq]
    rfl
  · exact .seq (count_echo _) fun _ => pauseAt_echo faithful _ _
  · dsimp only
    rw [show (ρ.of s).stepper = s.stepper from rfl]
    cases ((s.stepper.filter (·.thread = thread)).bind (·.runningTo)).filter (·.address = address) with
    | none => exact .answer _
    | some target =>
      refine .seq (registers_echo faithful thread) fun regs => .branch .rfl (fun _ => ?_) fun _ => .answer _
      exact .seq (clearTarget_echo faithful) fun _ => .answer _

theorem handleTrap_echo (faithful : Faithful ρ.view) (thread : ThreadId) (pc : UInt64)
    (kind : TrapKind) :
    Parallel (Echoes ρ) (handleTrap thread pc kind) (handleTrap thread pc kind) := by
  cases kind with
  | interrupt | raised => exact pauseAt_echo faithful _ _
  | singleStep => exact .answer _
  | software =>
    refine echo_look fun s _ _ => .branch .rfl (fun _ => ?_) fun _ => pauseAt_echo faithful _ _
    exact .seq (registers_echo faithful thread) fun regs =>
      .seq (access_echo (faithful.setRegisters _ _)) fun _ => hitTrap_echo faithful _ _

theorem handleEvent_echo (faithful : Faithful ρ.view) (e : Event) :
    Parallel (Echoes ρ) (handleEvent e) (handleEvent e) := by
  cases e with
  | trap thread pc kind => exact handleTrap_echo faithful thread pc kind
  | signal => exact pauseAt_echo faithful _ _
  | exited code =>
    exact .seq (echo_change (fun s => exit_echo s _ _) fun s numbered => exit_numbered numbered _ _)
      fun _ => .answer _
  | threadStarted | threadEnded | moduleLoaded | moduleUnloaded | output =>
    exact .seq (notice_echo faithful _) fun _ => .answer _

theorem resumeThread_echo (faithful : Faithful ρ.view) (thread : ThreadId) (mode : ResumeMode) :
    Parallel (Echoes ρ) (resumeThread thread mode) (resumeThread thread mode) := by
  refine .seq (echo_modify leavePause_echo fun _ => rfl) fun _ =>
    .seq (registers_echo faithful thread) fun regs => echo_look fun s _ _ =>
      .branch .rfl (fun _ => ?_) fun _ => ?_
  · exact .seq (instrumented_echo (Instrumented.lift_viewed faithful _)) fun _ =>
      .seq (access_echo (faithful.resume _)) fun _ => .answer _
  · exact .seq (access_echo (faithful.resume _)) fun _ => .answer _

theorem afterLift_echo (faithful : Faithful ρ.view) (thread : ThreadId) (pc : UInt64)
    (mode : ResumeMode) (notices : List Event) (stop : Event) :
    Parallel (Echoes ρ) (afterLift thread pc mode notices stop)
      (afterLift thread pc mode notices stop) := by
  have settles (here : Bool) : Parallel (Echoes ρ)
      (notices.forM notice >>= fun _ =>
        if here then
          if mode = .step thread then registers thread >>= fun regs =>
            pure (some (.stepped thread regs.pc))
          else access (Debuggee.resume mode) >>= fun _ => pure none
        else pure (some (.handle stop)) : Change δ (Option Move))
      (notices.forM notice >>= fun _ =>
        if here then
          if mode = .step thread then registers thread >>= fun regs =>
            pure (some (.stepped thread regs.pc))
          else access (Debuggee.resume mode) >>= fun _ => pure none
        else pure (some (.handle stop)) : Change ε (Option Move)) := by
    refine .seq (notices_echo faithful notices) fun _ => .branch .rfl (fun _ => ?_) fun _ => .answer _
    refine .branch .rfl (fun _ => ?_) fun _ => ?_
    · exact .seq (registers_echo faithful thread) fun _ => .answer _
    · exact .seq (access_echo (faithful.resume mode)) fun _ => .answer _
  unfold afterLift
  exact .branch .rfl (fun _ => settles _) fun _ =>
    .seq (instrumented_echo (Instrumented.restore_viewed faithful pc)) fun _ => settles _

theorem awaitStop_echo (faithful : Faithful ρ.view) (thread : ThreadId) (pc : UInt64)
    (mode : ResumeMode) (notices : List Event) :
    Parallel (Echoes ρ) (awaitStop thread pc mode notices) (awaitStop thread pc mode notices) := by
  refine echo_look fun s _ _ => .seq (access_echo (faithful.poll _)) fun event => ?_
  cases event with
  | none => exact .answer _
  | some event => exact .branch .rfl (fun _ => afterLift_echo faithful _ _ _ _ _) fun _ => .answer _

theorem afterStep_echo (faithful : Faithful ρ.view) (thread : ThreadId) (pc : UInt64) :
    Parallel (Echoes ρ) (afterStep thread pc) (afterStep thread pc) := by
  refine echo_look fun s _ _ => .branch .rfl (fun _ => .answer _) fun _ => .branch ?_ (fun _ => ?_) fun _ =>
    .answer _
  · rw [show (ρ.of s).breakpoints = ρ.breakpoints s.breakpoints from rfl, Echo.anyEnabled_eq]
    rfl
  · exact .seq (count_echo _) fun _ => pauseAt_echo faithful _ _

theorem arrive_echo (faithful : Faithful ρ.view) (thread : ThreadId) :
    Parallel (Echoes ρ) (arrive thread) (arrive thread) := by
  refine .seq (registers_echo faithful thread) fun regs => .seq (frameAddress_echo faithful regs)
    fun frame => echo_look fun s _ _ => ?_
  rw [show (ρ.of s).stepper = s.stepper from rfl]
  cases s.stepper with
  | none => exact .answer _
  | some stepper =>
    dsimp only
    rw [show (ρ.of s).roster = s.roster from rfl]
    generalize stepper.arrived regs frame (s.roster.lineAt? regs.pc)
      (((s.roster.functionAt? regs.pc).map (·.hasLines)).getD false) = outcome
    obtain ⟨arrival, after⟩ := outcome
    refine .seq (echo_modify (fun _ => rfl) fun _ => rfl) fun _ => ?_
    cases arrival with
    | complete => exact .seq (echo_modify (fun s => pause_echo { s with stepper := none } _ _) fun _ => rfl) fun _ => .answer _
    | «continue» | runTo | stepOutAgain => exact .answer _

theorem act_echo (faithful : Faithful ρ.view) (thread : ThreadId) :
    Parallel (Echoes ρ) (act thread) (act thread) := by
  refine .seq (registers_echo faithful thread) fun regs =>
    .seq (ask_echo fun s d => Instrumented.decode_viewed faithful s.traps d regs.pc)
      fun i => echo_look fun s _ _ => ?_
  rw [show (ρ.of s).stepper = s.stepper from rfl]
  cases s.stepper with
  | none => exact .answer _
  | some stepper =>
    dsimp only
    rcases stepper.nextAction regs i with ⟨action, after⟩
    refine .seq (echo_modify (fun _ => rfl) fun _ => rfl) fun _ => ?_
    cases action <;> exact .answer _

theorem stepOut_echo (faithful : Faithful ρ.view) (thread : ThreadId) :
    Parallel (Echoes ρ) (stepOut thread) (stepOut thread) := by
  rintro s _ ⟨rfl, numbered, unhit⟩
  cases attached : s.debuggee with
  | none =>
    have absent : (ρ.of s).debuggee = none := congrArg (Option.map ρ.view) attached
    rw [stepOut, stepOut, bind_error (ask_absent attached _), bind_error (ask_absent absent _)]
    exact ⟨rfl, rfl, numbered, unhit⟩
  | some d =>
    have present : (ρ.of s).debuggee = some (ρ.view d) := congrArg (Option.map ρ.view) attached
    -- frames bear the generation they were read in, but nothing else of them differs
    have walked : CallStack.walk (ρ.of s).traps (ρ.view d) (ρ.of s).roster thread 2 (ρ.of s).generation =
      _ := CallStack.walk_viewed faithful s.traps d s.roster thread 2 s.generation ρ.generation
    rw [stepOut, stepOut, bind_run, ask_run present, bind_run, ask_run attached, walked]
    cases CallStack.walk s.traps d s.roster thread 2 s.generation with
    | error e => exact ⟨rfl, rfl, numbered, unhit⟩
    | ok frames =>
      dsimp only [Except.map]
      rw [List.getElem?_map]
      cases frames[1]? with
      | none => exact ⟨rfl, rfl, numbered, unhit⟩
      | some caller => exact ⟨rfl, rfl, numbered, unhit⟩

theorem runTo_echo (faithful : Faithful ρ.view) (thread : ThreadId) (target : Target) :
    Parallel (Echoes ρ) (runTo thread target) (runTo thread target) :=
  .seq (instrumented_echo (Instrumented.addStep_viewed faithful _)) fun _ =>
    .seq (echo_modify (fun _ => rfl) fun _ => rfl) fun _ => .answer _

theorem advance_echo (faithful : Faithful ρ.view) (move : Move) :
    Parallel (Echoes ρ) (advance move) (advance move) := by
  cases move with
  | handle event => exact handleEvent_echo faithful event
  | resume thread mode => exact resumeThread_echo faithful thread mode
  | await thread pc mode notices => exact awaitStop_echo faithful thread pc mode notices
  | stepped thread pc => exact afterStep_echo faithful thread pc
  | arrived thread => exact arrive_echo faithful thread
  | act thread => exact act_echo faithful thread
  | stepOut thread => exact stepOut_echo faithful thread
  | runTo thread target => exact runTo_echo faithful thread target

theorem drive_echo (faithful : Faithful ρ.view) (most : Nat) (move : Option Move) :
    Parallel (Echoes ρ) (drive most move) (drive most move) := by
  induction most generalizing move with
  | zero =>
    cases move with
    | none => exact .answer _
    | some move => exact .fault _
  | succ most ih =>
    cases move with
    | none => exact .answer _
    | some move => exact .seq (advance_echo faithful move) fun next => ih next

theorem settle_echo (faithful : Faithful ρ.view) (move : Move) :
    Parallel (Echoes ρ) (settle move) (settle move) :=
  echo_look fun _ _ _ => drive_echo faithful _ _

end Moves

section Requests

variable [Debuggee δ] [Debuggee ε]

omit [Debuggee δ] [Debuggee ε] in
theorem refuse_echo {α : Type} (operation : Operation) :
    Parallel (Echoes ρ) (refuse operation : Request δ α) (refuse operation : Request ε α) :=
  echo_look fun _ _ _ => .fault _

omit [Debuggee δ] [Debuggee ε] in
theorem requirePaused_echo (operation : Operation) :
    Parallel (Echoes ρ) (requirePaused operation) (requirePaused operation) := by
  refine echo_look fun s _ _ => ?_
  rw [show (ρ.of s).state = s.state from rfl]
  cases s.state with
  | paused => exact .answer _
  | notStarted | running | exited => exact refuse_echo operation

theorem runFromEntry_echo (faithful : Faithful ρ.view) (most : Nat) :
    Parallel (Echoes ρ) (runFromEntry most) (runFromEntry most) := by
  induction most with
  | zero => exact .fault _
  | succ most ih =>
    refine .seq (access_echo (faithful.poll 0)) fun event => ?_
    cases event with
    | none => exact access_echo (faithful.resume .continue)
    | some event =>
      exact .seq (settle_echo faithful _) fun _ => echo_look fun _ _ _ =>
        .branch .rfl (fun _ => .answer _) fun _ => ih

theorem start_echo (faithful : Faithful ρ.view) (request : LaunchRequest) :
    Parallel (Echoes ρ) (start request) (start request) := by
  rintro s _ ⟨rfl, numbered, unhit⟩
  cases live : s.state.isLive with
  | true =>
    rw [start_refused live, start_refused (s := ρ.of s) live]
    exact ⟨rfl, rfl, numbered, unhit⟩
  | false =>
    have launched : (ρ.of s).host.launch (ρ.of s).launches request =
        (s.host.launch s.launches request).map ρ.view := by
      show (s.host.launch (s.launches + ρ.launches - ρ.launches) request).map ρ.view = _
      rw [Nat.add_sub_cancel]
    rw [start_run live, start_run (s := ρ.of s) live, launched]
    have counted : { ρ.of s with launches := (ρ.of s).launches + 1 } =
        ρ.of { s with launches := s.launches + 1 } := by
      simp only [Echo.of, Nat.add_right_comm]
    cases s.host.launch s.launches request with
    | error e => exact ⟨rfl, counted, numbered, unhit⟩
    | ok d =>
      refine guarded_echo (runFromEntry_echo faithful patience) _ _ ⟨?_, numbered, unhit⟩
      rw [counted, attach, attach, faithful.pid]
      rfl

theorem pump_echo (faithful : Faithful ρ.view) (millis : Nat) {s : Session δ} {t : Session ε}
    (echoes : Echoes ρ s t) : (pump millis t).1 = (pump millis s).1 ∧
      Echoes ρ (pump millis s).2 (pump millis t).2 := by
  have fails {u : Session δ} {v : Session ε} (echoes : Echoes ρ u v) (e : Fault) :
      Echoes ρ (u.fail e) (v.fail e) := by
    obtain ⟨rfl, numbered, unhit⟩ := echoes
    obtain ⟨after, next⟩ := fail_numbered numbered e
    exact ⟨fail_echo u e, after, by rw [next]; exact unhit⟩
  rw [pump_run, pump_run, show t.state = s.state by rw [echoes.same]; rfl]
  split
  · obtain ⟨answer, after⟩ := access_echo (faithful.poll millis) s t echoes
    rcases left : access (Debuggee.poll millis) s with ⟨e | event, u⟩ <;>
      rcases right : access (Debuggee.poll millis) t with ⟨e' | event', v⟩ <;>
      rw [left, right] at answer after <;> cases answer
    · exact ⟨rfl, fails after e⟩
    · cases event with
      | none => exact ⟨rfl, after⟩
      | some event =>
        obtain ⟨answer, after⟩ := settle_echo faithful (.handle event) u v after
        dsimp only
        rcases left : settle (.handle event) u with ⟨e | _, u'⟩ <;>
          rcases right : settle (.handle event) v with ⟨e' | _, v'⟩ <;>
          rw [left, right] at answer after <;> cases answer
        · exact ⟨rfl, fails after e⟩
        · exact ⟨rfl, after⟩
  · exact ⟨rfl, echoes⟩

theorem awaitExit_echo (faithful : Faithful ρ.view) (most : Nat) :
    Parallel (Echoes ρ) (awaitExit most) (awaitExit most) := by
  induction most with
  | zero =>
    rintro s _ ⟨rfl, numbered, unhit⟩
    obtain ⟨after, next⟩ := fail_numbered numbered .survivedKill
    exact ⟨rfl, fail_echo s _, after, by
      rw [show (awaitExit 0 s).2 = s.fail .survivedKill from rfl, next]; exact unhit⟩
  | succ most ih =>
    rw [awaitExit, awaitExit]
    refine echo_look fun s _ _ => .branch .rfl (fun _ => .answer _) fun _ =>
      .seq (guarded_echo (access_echo (faithful.poll _))) fun event => ?_
    cases event with
    | none => exact ih
    | some event =>
      exact .branch .rfl (fun _ => ih) fun _ =>
        .seq (guarded_echo (settle_echo faithful _)) fun _ => ih

theorem terminate_echo (faithful : Faithful ρ.view) :
    Parallel (Echoes ρ) terminate terminate := by
  refine echo_look fun s _ _ => ?_
  rw [show (ρ.of s).state = s.state from rfl]
  cases s.state with
  | running | paused =>
    exact .seq (guarded_echo (access_echo faithful.terminate)) fun _ => awaitExit_echo faithful _
  | notStarted | exited => exact refuse_echo _

theorem breakExecution_echo (faithful : Faithful ρ.view) :
    Parallel (Echoes ρ) breakExecution breakExecution :=
  echo_look fun _ _ _ => .branch .rfl (fun _ => guarded_echo (access_echo faithful.interrupt))
    fun _ => refuse_echo _

theorem continueExecution_echo (faithful : Faithful ρ.view) :
    Parallel (Echoes ρ) continueExecution continueExecution :=
  .seq (requirePaused_echo _) fun _ => guarded_echo (settle_echo faithful _)

theorem step_echo (faithful : Faithful ρ.view) (kind : StepKind) :
    Parallel (Echoes ρ) (step kind) (step kind) := by
  refine .seq (requirePaused_echo _) fun thread => guarded_echo ?_
  exact .seq (registers_echo faithful thread) fun regs => .seq (frameAddress_echo faithful regs)
    fun frame => .seq (echo_modify (fun _ => rfl) fun _ => rfl) fun _ => settle_echo faithful _

theorem bindAll_echo (faithful : Faithful ρ.view) {s : Session δ} {t : Session ε}
    (echoes : Echoes ρ s t) : Echoes ρ s.bindAll t.bindAll := by
  obtain ⟨rfl, numbered, unhit⟩ := echoes
  obtain ⟨host, launches, debuggee, departed, roster, breakpoints, traps, state, generation, stepper,
    output, outbox⟩ := s
  cases debuggee with
  | none => exact ⟨rfl, numbered, unhit⟩
  | some d =>
    have folds (mods : List LoadedModule) (bs : List Breakpoint) (i : Instrumented δ) :
        let r := mods.foldl (fun r m => Instrumented.bindIn m r.1 r.2) (bs, i)
        mods.foldl (fun r m => Instrumented.bindIn m r.1 r.2)
            (bs.map ρ.breakpoint, i.through ρ.view) = (r.1.map ρ.breakpoint, r.2.through ρ.view) ∧
          r.1.map (·.id) = bs.map (·.id) := by
      induction mods generalizing bs i with
      | nil => exact ⟨rfl, rfl⟩
      | cons l rest ih =>
        obtain ⟨one, same⟩ := bindIn_echo faithful l bs i
        obtain ⟨others, ids⟩ := ih (Instrumented.bindIn l bs i).1 (Instrumented.bindIn l bs i).2
        simp only [List.foldl_cons, one]
        exact ⟨others, ids.trans same⟩
    obtain ⟨bound, ids⟩ := folds roster.modules breakpoints.items ⟨traps, d⟩
    refine ⟨?_, numbered.alike ids, unhit⟩
    show bindAll (Echo.of ρ _) = _
    exact congrArg (fun r : List Breakpoint × Instrumented ε =>
      ({ Echo.of ρ _ with
          debuggee := some r.2.debuggee, traps := r.2.traps, breakpoints := ⟨r.1, _⟩ } : Session ε)) bound

theorem add_echo (faithful : Faithful ρ.view) (location : Location) :
    Parallel (Echoes ρ) (addBreakpoint location) (addBreakpoint location) := by
  rintro s _ ⟨rfl, numbered, unhit⟩
  refine ⟨rfl, bindAll_echo faithful ⟨?_, numbered.add location, fun id after => unhit id ?_⟩⟩
  · show ({ ρ.of s with breakpoints := ((ρ.breakpoints s.breakpoints).add location).2 } : Session ε) = _
    rw [← Echo.breakpoints_add (unhit _ (Nat.le_refl _))]
    rfl
  · exact Nat.le_of_succ_le after

omit [Debuggee δ] [Debuggee ε] in
theorem update_echo {e : Type} (id : BreakpointId) {f : Breakpoint → Breakpoint}
    (same : ∀ b, ρ.breakpoint (f b) = f (ρ.breakpoint b)) (ids : ∀ b, (f b).id = b.id) :
    Parallel (ε := e) (Echoes ρ)
      (modify fun s : Session δ => { s with breakpoints := s.breakpoints.update id f })
      (modify fun s : Session ε => { s with breakpoints := s.breakpoints.update id f }) := by
  refine echo_change (fun s => ?_) fun s numbered => ⟨numbered.each fun b => ?_, rfl⟩
  · simp only [Echo.of, Echo.breakpoints_update same]
  · split
    · exact ids b
    · rfl

theorem releaseTrap_echo (faithful : Faithful ρ.view) (address : UInt64) (id : BreakpointId) :
    Parallel (Echoes ρ) (removeBreakpoint.releaseTrap address id)
      (removeBreakpoint.releaseTrap address id) := by
  intro s t echoes
  obtain ⟨answer, after⟩ :=
    instrumented_echo (Instrumented.removeUser_viewed faithful address id) s t echoes
  rw [removeBreakpoint.releaseTrap, removeBreakpoint.releaseTrap]
  rcases left : instrumented (Instrumented.removeUser address id) s with ⟨e | _, u⟩ <;>
    rcases right : instrumented (Instrumented.removeUser address id) t with ⟨e' | _, v⟩ <;>
    rw [left, right] at answer after <;> cases answer <;> exact ⟨rfl, after⟩

theorem remove_echo (faithful : Faithful ρ.view) (id : BreakpointId) :
    Parallel (Echoes ρ) (removeBreakpoint id) (removeBreakpoint id) := by
  refine echo_look fun s numbered unhit => ?_
  rw [show (ρ.of s).breakpoints.registered? id = _ from Echo.registered?_eq id]
  cases s.breakpoints.registered? id with
  | none => exact .fault _
  | some b =>
    refine .seq (.put ⟨?_, numbered.each fun b => by split <;> rfl, unhit⟩) fun _ => ?_
    · show { ρ.of s with
        breakpoints := (ρ.breakpoints s.breakpoints).update id fun b => { b with registered := false } } = _
      rw [← Echo.breakpoints_update (f := fun b => { b with registered := false }) fun _ => rfl]
      rfl
    · have unbinds {e : Type} : Parallel (ε := e) (Echoes ρ)
          (modify fun s : Session δ => { s with breakpoints := s.breakpoints.update id (·.unbound) })
          (modify fun s : Session ε => { s with breakpoints := s.breakpoints.update id (·.unbound) }) :=
        update_echo id (fun _ => rfl) fun _ => rfl
      rw [show (ρ.breakpoint b).address? = b.address? from rfl,
        show (ρ.of s).debuggee = s.debuggee.map ρ.view from rfl]
      cases b.address? with
      | none => exact unbinds
      | some address =>
        cases s.debuggee with
        | none => exact unbinds
        | some d => exact .seq (releaseTrap_echo faithful address id) fun _ => unbinds

/-- Both sessions answer alike, and go on alike. -/
theorem respond_echo (faithful : Faithful ρ.view) {s : Session δ} {t : Session ε}
    (echoes : Echoes ρ s t) (action : Action) :
    (t.respond action).1 = (s.respond action).1 ∧ Echoes ρ (s.perform action) (t.perform action) := by
  cases action with
  | start request => exact start_echo faithful request s t echoes
  | pump millis => exact ⟨rfl, (pump_echo faithful millis echoes).2⟩
  | «continue» => exact continueExecution_echo faithful s t echoes
  | step kind => exact step_echo faithful kind s t echoes
  | «break» => exact breakExecution_echo faithful s t echoes
  | terminate => exact terminate_echo faithful s t echoes
  | add location => exact ⟨rfl, (add_echo faithful location s t echoes).2⟩
  | remove id => exact remove_echo faithful id s t echoes
  | setEnabled id enabled =>
    exact update_echo id (f := fun b => { b with enabled }) (fun _ => rfl) (fun _ => rfl) s t echoes

theorem performs_echo (faithful : Faithful ρ.view) {s : Session δ} {t : Session ε}
    (echoes : Echoes ρ s t) (actions : List Action) :
    Echoes ρ (actions.foldl perform s) (actions.foldl perform t) := by
  induction actions generalizing s t with
  | nil => exact echoes
  | cons action rest ih => exact ih (respond_echo faithful echoes action).2

end Requests

end Session

end SourceDebugger
