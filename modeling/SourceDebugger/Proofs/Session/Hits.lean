import SourceDebugger.Proofs.Session.Placement
import SourceDebugger.Proofs.Session.Restart
import SourceDebugger.Proofs.Session.Transparency
/-!
Hits and pauses. Whatever a session is told to do, a pause at a breakpoint counts one hit for each
breakpoint that is turned on where the program stands, and nothing else counts hits. So the hits of a
breakpoint are the pauses at it.
-/
namespace SourceDebugger

open Effect Machine Traps

namespace Session

section Counts

variable {δ : Type} {s t u : Session δ}

/-- How often each breakpoint was reached. -/
def counts (s : Session δ) : List (BreakpointId × Nat) := s.breakpoints.items.map fun b => (b.id, b.hits)

/-- How many pauses at breakpoints were reported. -/
def marks (s : Session δ) : Nat := s.outbox.countP DebuggerEvent.isMark

theorem hitsOf_eq (s : Session δ) (id : BreakpointId) :
    s.hitsOf id = ((s.counts.find? (·.1 = id)).map (·.2)).getD 0 := by
  rw [hitsOf, counts, Breakpoints.find?, List.find?_map, Option.map_map]
  rfl

/-- Neither a hit was counted nor a pause at a breakpoint reported. -/
structure Uncounted (s t : Session δ) : Prop where
  hits : ∀ id, t.hitsOf id = s.hitsOf id
  marks : t.marks = s.marks

theorem uncounted_onwards : Onwards (Uncounted (δ := δ)) where
  refl _ := ⟨fun _ => rfl, rfl⟩
  trans first second :=
    ⟨fun id => (second.hits id).trans (first.hits id), second.marks.trans first.marks⟩

theorem uncounted_of_counts (counts : t.counts = s.counts) (outbox : t.outbox = s.outbox) :
    Uncounted s t :=
  ⟨fun id => by rw [hitsOf_eq, hitsOf_eq, counts], by rw [marks, marks, outbox]⟩

theorem uncounted_aside (breakpoints : t.breakpoints = s.breakpoints) (outbox : t.outbox = s.outbox) :
    Uncounted s t := uncounted_of_counts (by rw [counts, counts, breakpoints]) outbox

theorem access_uncounted {α : Type} (a : Access δ α) : Keeps Uncounted (access a) := by
  intro s
  cases present : s.debuggee with
  | none =>
    obtain ⟨_, _, _, _, _, _, _, _, _, _, _, _⟩ := s
    cases present
    exact uncounted_onwards.refl _
  | some d =>
    rw [access_run present]
    exact uncounted_aside rfl rfl

theorem instrumented_uncounted {α : Type} (a : Access (Instrumented δ) α) :
    Keeps Uncounted (instrumented a) := by
  intro s
  cases present : s.debuggee with
  | none =>
    obtain ⟨_, _, _, _, _, _, _, _, _, _, _, _⟩ := s
    cases present
    exact uncounted_onwards.refl _
  | some d =>
    rw [instrumented_run present]
    exact uncounted_aside rfl rfl

variable [Debuggee δ]

/-- Binding breakpoints changes where they are, and nothing else of them. -/
theorem bindIn_map {α : Type} {g : Breakpoint → α} (blind : ∀ b binding, g { b with binding } = g b)
    (l : LoadedModule) (bs : List Breakpoint) (i : Instrumented δ) :
    (Instrumented.bindIn l bs i).1.map g = bs.map g := by
  have one (b : Breakpoint) (i : Instrumented δ) :
      g (Instrumented.bindIn.bindOne l b i).1 = g b := by
    rw [Instrumented.bindIn.bindOne]
    split
    · rfl
    · cases Breakpoint.bindingIn l b.location with
      | none => rfl
      | some binding =>
        dsimp only
        rw [certain_bind]
        rcases Instrumented.addUser binding.address b.id i with ⟨_ | _, _⟩
        · rfl
        · exact blind b _
  induction bs generalizing i with
  | nil => rfl
  | cons b rest ih =>
    rw [Instrumented.bindIn]
    exact congrArg₂ List.cons (one b i) (ih (Instrumented.bindIn.bindOne l b i).2)

theorem notice_uncounted (e : Event) : Keeps Uncounted (notice e : Change δ Unit) := by
  cases e with
  | threadStarted | threadEnded => exact .change fun s => uncounted_aside rfl rfl
  | trap | signal | exited => exact .answer uncounted_onwards _
  | moduleUnloaded base =>
    refine .change fun s => ?_
    cases s.roster.moduleBased? base with
    | none => exact uncounted_onwards.refl s
    | some m => exact uncounted_of_counts (map_unbind (fun _ => rfl) _ _) rfl
  | output text =>
    refine .change fun s => ⟨fun _ => rfl, ?_⟩
    have silent : ((s.output.push text).1.map DebuggerEvent.log).countP DebuggerEvent.isMark = 0 := by
      simp [List.countP_eq_zero, DebuggerEvent.isMark]
    show (s.outbox ++ _).countP _ = s.outbox.countP _
    rw [List.countP_append, silent, Nat.add_zero]
  | moduleLoaded path base size =>
    intro s
    cases present : s.debuggee with
    | none =>
      obtain ⟨_, _, _, _, _, _, _, _, _, _, _, _⟩ := s
      cases present
      exact uncounted_aside rfl rfl
    | some d =>
      rw [notice, loadModule_run present]
      exact uncounted_of_counts (bindIn_map (fun _ _ => rfl) _ _ _) rfl

omit [Debuggee δ] in
theorem exit_uncounted (s : Session δ) (code : Option Int) (fault : Option Fault) :
    Uncounted s (s.exit code fault) := by
  refine ⟨fun id => ?_, ?_⟩
  · rw [hitsOf_eq, hitsOf_eq]
    have same : (s.exit code fault).counts = s.counts := by
      rw [exit]
      cases s.output.flush <;> exact map_unbind (fun _ => rfl) _ _
    rw [same]
  · rw [exit]
    cases s.output.flush <;> simp [marks, report, List.countP_append, DebuggerEvent.isMark]

omit [Debuggee δ] in
theorem pause_marks (s : Session δ) (reason : PauseReason) (thread : ThreadId) :
    (s.pause reason thread).marks = s.marks + if reason = .breakpoint then 1 else 0 := by
  rw [marks, pause, report, List.countP_append]
  cases reason <;> rfl

/-- Nothing counts but reaching a breakpoint. -/
theorem uncounted_attends : Attends (Uncounted (δ := δ)) where
  toOnwards := uncounted_onwards
  stepper _ _ := uncounted_aside rfl rfl
  pause s reason thread other := ⟨fun _ => rfl, by rw [pause_marks, if_neg other, Nat.add_zero]⟩
  leavePause _ := uncounted_aside rfl rfl
  resume _ := access_uncounted _
  setRegisters _ _ := access_uncounted _
  addStep _ := instrumented_uncounted _
  removeStep _ := instrumented_uncounted _
  lift _ := instrumented_uncounted _
  restore _ := instrumented_uncounted _
  poll _ := access_uncounted _
  notice := notice_uncounted
  exit := exit_uncounted
  interrupt := access_uncounted _
  kill := access_uncounted _
  counted _ := uncounted_aside rfl rfl
  attach _ _ _ _ _ := uncounted_aside rfl rfl

end Counts

section Strikes

variable {w : Sight} {s t u : Session Machine} {m : Machine} {j : Instrumented Machine} {a : UInt64}

/-- Whether a breakpoint is turned on where the program stands. -/
def strikes (s : Session Machine) (id : BreakpointId) : Bool :=
  s.debuggee.any fun m => s.breakpoints.registered.any fun b =>
    b.id == id && b.enabled && b.address? == some m.registers.pc

/-- What has been counted on the way from one state to another: nothing, or a pause at a breakpoint with
the hits that belong to it. -/
inductive Counted (s t : Session Machine) : Prop
  | none : Uncounted s t → Counted s t
  | one (thread : ThreadId) : t.state = .paused .breakpoint thread → t.marks = s.marks + 1 →
      (∀ id, t.hitsOf id = s.hitsOf id + (t.strikes id).toNat) → Counted s t

theorem Uncounted.then (before : Uncounted s t) (counted : Counted t u) : Counted s u := by
  cases counted with
  | none after => exact .none (uncounted_onwards.trans before after)
  | one thread paused marks hits =>
    exact .one thread paused (by rw [marks, before.marks]) fun id => by rw [hits, before.hits]

/-- Counting finds the breakpoints that own the trap. -/
theorem hitsOf_count (s : Session Machine) (users : List BreakpointId) (id : BreakpointId) :
    ({ s with breakpoints := s.breakpoints.count users } : Session Machine).hitsOf id =
      s.hitsOf id + ((s.breakpoints.find? id).any fun b =>
        b.registered && b.enabled && users.contains b.id).toNat := by
  have same (b : Breakpoint) : (if b.registered && b.enabled && users.contains b.id then
      { b with hits := b.hits + 1 } else b).id = b.id := by
    split <;> rfl
  rw [hitsOf, hitsOf, Breakpoints.find?, Breakpoints.count, List.find?_map]
  simp only [Function.comp_def, same]
  rw [← Breakpoints.find?]
  cases s.breakpoints.find? id with
  | none => rfl
  | some b =>
    simp only [Option.map_some, Option.getD_some, Option.any_some]
    cases b.registered && b.enabled && users.contains b.id <;> rfl

/-- A breakpoint is the only one with its number. -/
theorem any_find? {bs : Breakpoints} {ts : Traps} {target : Option UInt64} (tidy : Tidy bs ts target)
    (id : BreakpointId) (test : Breakpoint → Bool) :
    (bs.find? id).any test = true ↔ ∃ b ∈ bs.items, b.id = id ∧ test b = true := by
  constructor
  · intro found
    obtain ⟨b, same, passes⟩ := (Option.any_eq_true _ _).mp found
    exact ⟨b, List.mem_of_find?_eq_some same, by simpa using List.find?_some same, passes⟩
  · rintro ⟨b, member, rfl, passes⟩
    obtain ⟨c, found⟩ : ∃ c, bs.find? b.id = some c :=
      Option.isSome_iff_exists.mp (List.find?_isSome.mpr ⟨b, member, by simp⟩)
    have number : c.id = b.id := by simpa using List.find?_some found
    cases tidy.unique (List.mem_of_find?_eq_some found) member number
    rw [found, Option.any_some, passes]

/-- The breakpoints that own the trap are those that are turned on there. -/
theorem strikes_counted {target : Option UInt64} (tidy : Tidy s.breakpoints s.traps target)
    (attached : t.debuggee = some m) (here : m.registers.pc = a)
    (breakpoints : t.breakpoints = s.breakpoints.count (s.traps.users a)) (id : BreakpointId) :
    t.strikes id = (s.breakpoints.find? id).any fun b =>
      b.registered && b.enabled && (s.traps.users a).contains b.id := by
  have on : t.strikes id = s.breakpoints.items.any fun b =>
      b.registered && (b.id == id && b.enabled && b.address? == some a) := by
    have blind := map_count (g := fun b => b.registered && (b.id == id && b.enabled && b.address? == some a))
      (fun _ _ => rfl) s.breakpoints (s.traps.users a)
    rw [strikes, attached, Option.any_some, here, breakpoints, Breakpoints.registered, List.any_filter]
    have same := congrArg (List.any · fun on => on) blind
    rwa [List.any_map, List.any_map] at same
  rw [on, Bool.eq_iff_iff, any_find? tidy, List.any_eq_true]
  refine exists_congr fun b => and_congr_right fun member => ?_
  simp only [Bool.and_eq_true, beq_iff_eq, List.contains_iff_mem]
  constructor
  · rintro ⟨registered, ⟨same, enabled⟩, bound⟩
    have own := (tidy.bound_iff (Breakpoints.mem_registered.mpr ⟨member, registered⟩) a).mp bound
    exact ⟨same, ⟨registered, enabled⟩, own⟩
  · rintro ⟨same, ⟨registered, enabled⟩, own⟩
    have bound := (tidy.bound_iff (Breakpoints.mem_registered.mpr ⟨member, registered⟩) a).mpr own
    exact ⟨registered, ⟨same, enabled⟩, bound⟩

/-- A pause at a breakpoint, with the hits that belong to it. -/
theorem counted_paused {target : Option UInt64} (tidy : Tidy s.breakpoints s.traps target)
    (here : j.debuggee.registers.pc = a) :
    Counted s ((({ s with breakpoints := s.breakpoints.count (s.traps.users a) } :
      Session Machine).stepless.holding j).pause .breakpoint mainThread) := by
  refine .one mainThread rfl (pause_marks _ .breakpoint mainThread) fun id => ?_
  rw [strikes_counted tidy rfl here rfl id]
  exact hitsOf_count s _ id

end Strikes

section Moves

variable {w : Sight} {s t : Session Machine} {m : Machine} {a : UInt64}

/-- What a move has counted. Only the last one does so. -/
def Counting (s : Session Machine) : Except Fault (Option Move) × Session Machine → Prop
  | (.ok none, t) => Counted s t
  | (_, t) => Uncounted s t

theorem Uncounted.counting {x : Except Fault (Option Move) × Session Machine}
    (same : Uncounted s x.2) : Counting s x := by
  obtain ⟨_ | _ | _, _⟩ := x
  · exact same
  · exact .none same
  · exact same

theorem Counting.after {x : Except Fault (Option Move) × Session Machine} (counting : Counting t x)
    (before : Uncounted s t) : Counting s x := by
  obtain ⟨_ | _ | _, _⟩ := x
  · exact uncounted_onwards.trans before counting
  · exact before.then counting
  · exact uncounted_onwards.trans before counting

theorem hitTrap_counting (sound : Sound w s m none) (here : m.registers.pc = a) :
    Counting s (hitTrap mainThread a s) := by
  by_cases enabled : s.breakpoints.anyEnabled (s.traps.users a) = true
  · obtain ⟨j, hit, kept⟩ := hitTrap_enabled sound.toHeld enabled
    rw [hit]
    exact counted_paused sound.tidy (by rw [(driven kept.paint).2.2.2, here])
  · replace enabled : s.breakpoints.anyEnabled (s.traps.users a) = false := by simpa using enabled
    by_cases back : ∃ target, s.goal = some target ∧ target.address = a ∧
        m.registers.sp = target.sp
    · obtain ⟨target, aim, address, sp⟩ := back
      obtain ⟨j, hit, _⟩ := hitTrap_goal sound.toHeld enabled aim address sp
      rw [hit]
      exact uncounted_aside rfl rfl
    · have elsewhere : ∀ target, s.goal = some target → target.address = a →
          m.registers.sp ≠ target.sp :=
        fun target aim address sp => back ⟨target, aim, address, sp⟩
      rw [hitTrap_through sound.toHeld enabled elsewhere]
      exact uncounted_onwards.refl s

theorem advance_counting {move : Move} (ready : Ready w s (some move)) :
    Counting s (advance move s) := by
  have attends := uncounted_attends (δ := Machine)
  have other {reason : PauseReason} (reasons : reason ≠ .breakpoint) :
      Counting s (pauseAt reason mainThread s) := (attends.pauseAt reasons mainThread s).counting
  cases ready with
  | notice known => exact (attends.handle_aside known.not_stop.1 s).counting
  | stop stop =>
    cases stop with
    | interrupt pc sound | signal number description sound => exact other (by simp)
    | own free sound =>
      rw [handle_break free]
      exact other (by simp)
    | hit laid attached sound =>
      rw [handle_hit attached laid]
      exact (hitTrap_counting sound rfl).after (uncounted_aside rfl rfl)
  | single sound => exact uncounted_onwards.refl s
  | exit code held =>
    rw [handle_exit]
    exact .none (attends.exit s _ _)
  | @resume m mode => exact (attends.resumeThread mainThread mode s).counting
  | @await m pc mode notices => exact (attends.awaitStop mainThread pc mode notices s).counting
  | @stepped m sound rest live stepping =>
    obtain ⟨q, stepper, _⟩ := stepping
    by_cases enabled : s.breakpoints.anyEnabled (s.traps.users m.registers.pc) = true
    · obtain ⟨j, hit, kept⟩ := stepped_enabled sound.toHeld stepper enabled
      rw [hit]
      exact counted_paused sound.tidy (by rw [(driven kept.paint).2.2.2])
    · rw [stepped_disabled sound.toHeld stepper (by simpa using enabled)]
      exact uncounted_onwards.refl s
  | arrived => exact (attends.arrive mainThread s).counting
  | act => exact (attends.act mainThread s).counting
  | stepOut => exact (attends.stepOut mainThread s).counting
  | @runTo m target => exact (attends.runTo mainThread target s).counting

/-- However many moves are made, there is one that counts at most. -/
theorem drive_counting (lasting : w.Lasting) (most : Nat) {move : Move}
    (ready : Ready w s (some move)) : match drive most (some move) s with
      | (.ok _, t) => Counted s t
      | (.error _, t) => Uncounted s t := by
  induction most generalizing s move with
  | zero => exact uncounted_onwards.refl s
  | succ most ih =>
    have fares := advance_ready lasting ready
    have counting := advance_counting ready
    rw [drive, bind_run]
    rcases advanced : advance move s with ⟨e | _ | next, u⟩ <;> rw [advanced] at fares counting
    · exact counting
    · dsimp only
      rw [drive_none]
      exact counting
    · have rest := ih fares
      dsimp only
      rcases driven : drive most (some next) u with ⟨e | _, v⟩ <;> rw [driven] at rest
      · exact uncounted_onwards.trans counting rest
      · exact Uncounted.then counting rest

/-- A run that a fault ends counts nothing more. -/
theorem settle_counted (lasting : w.Lasting) {move : Move} (ready : Ready w s (some move)) :
    Counted s (guarded (settle move) s).2 := by
  have counting := drive_counting lasting (mostMoves + s.host.config.extraMoves) ready
  rw [guarded, settle, bind_ok (get_run s)]
  rcases driven : drive (mostMoves + s.host.config.extraMoves) (some move) s with ⟨e | _, t⟩ <;>
    rw [driven] at counting
  · exact .none (uncounted_onwards.trans counting (uncounted_attends.fail t e))
  · exact counting

end Moves

section Requests

variable {δ : Type} [Debuggee δ]

omit [Debuggee δ] in
theorem map_update {α : Type} {g : Breakpoint → α} {f : Breakpoint → Breakpoint}
    (blind : ∀ b, g (f b) = g b) (bs : Breakpoints) (id : BreakpointId) :
    (bs.update id f).items.map g = bs.items.map g := by
  rw [Breakpoints.update, List.map_map]
  refine List.map_congr_left fun b _ => ?_
  dsimp only [Function.comp]
  split
  · exact blind b
  · rfl

theorem bindAll_uncounted (s : Session δ) : Uncounted s s.bindAll := by
  cases present : s.debuggee with
  | none =>
    rw [bindAll_detached present]
    exact uncounted_onwards.refl s
  | some d =>
    have folds (ls : List LoadedModule) (r : List Breakpoint × Instrumented δ) :
        (ls.foldl (fun r l => Instrumented.bindIn l r.1 r.2) r).1.map (fun b => (b.id, b.hits)) =
          r.1.map fun b => (b.id, b.hits) := by
      induction ls generalizing r with
      | nil => rfl
      | cons l rest ih => exact (ih _).trans (bindIn_map (fun _ _ => rfl) l r.1 r.2)
    obtain ⟨_, _, _, _, _, _, _, _, _, _, _, _⟩ := s
    cases present
    exact uncounted_of_counts (folds _ _) rfl

/-- A new breakpoint has no hits. -/
theorem add_uncounted (location : Location) (s : Session δ) :
    Uncounted s (addBreakpoint location s).2 := by
  refine uncounted_onwards.trans (t := { s with breakpoints := (s.breakpoints.add location).2 })
    ⟨fun id => ?_, rfl⟩ (bindAll_uncounted _)
  show (((s.breakpoints.items ++ [_]).find? _).map _).getD 0 = _
  rw [List.find?_append, hitsOf, Breakpoints.find?]
  cases s.breakpoints.items.find? (·.id = id) with
  | some b => rfl
  | none =>
    rw [Option.none_or, List.find?_singleton]
    split <;> rfl

theorem remove_uncounted (id : BreakpointId) (s : Session δ) :
    Uncounted s (removeBreakpoint id s).2 := by
  have updated (s : Session δ) (f : Breakpoint → Breakpoint)
      (blind : ∀ b, ((f b).id, (f b).hits) = (b.id, b.hits)) :
      Uncounted s { s with breakpoints := s.breakpoints.update id f } :=
    uncounted_of_counts (map_update (g := fun b => (b.id, b.hits)) blind _ _) rfl
  have listed : Uncounted s (s.unlisted id) := updated s _ fun _ => rfl
  cases found : s.breakpoints.registered? id with
  | none =>
    rw [removeBreakpoint, bind_ok (get_run s), found]
    exact uncounted_onwards.refl s
  | some b =>
    by_cases placed : b.address? = none ∨ s.debuggee = none
    · rw [remove_unplaced found placed]
      exact uncounted_onwards.trans listed (updated (s.unlisted id) _ fun _ => rfl)
    · obtain ⟨bound, attached⟩ := not_or.mp placed
      obtain ⟨address, bound⟩ := Option.ne_none_iff_exists'.mp bound
      have released := instrumented_uncounted (Instrumented.removeUser address id) (s.unlisted id)
      rw [remove_bound found bound (Option.isSome_iff_ne_none.mpr attached),
        removeBreakpoint.releaseTrap]
      rcases run : instrumented (Instrumented.removeUser address id) (s.unlisted id) with ⟨e | _, t⟩ <;>
        rw [run] at released
      · exact uncounted_onwards.trans listed released
      · exact uncounted_onwards.trans listed
          (uncounted_onwards.trans released (updated t _ fun _ => rfl))

end Requests

section Actions

variable {w : Sight} {s t : Session Machine} {m : Machine}

theorem counts_bound {l : LoadedModule} {bs items : List Breakpoint}
    (each : List.Forall₂ (BoundIn l m) bs items) :
    items.map (fun b => (b.id, b.hits)) = bs.map fun b => (b.id, b.hits) := by
  induction each with
  | nil => rfl
  | cons one _ ih =>
    rw [List.map_cons, List.map_cons, ih]
    cases one <;> rfl

theorem Noticed.uncounted {e : Event} (noticed : Noticed s e t) : Uncounted s t := by
  cases noticed with
  | threadStarted | threadEnded => exact uncounted_aside rfl rfl
  | output text => exact notice_uncounted (.output text) s
  | moduleLoaded path base size m items _ each =>
    exact uncounted_of_counts (counts_bound each) rfl

theorem guarded_uncounted {a : Change Machine Unit} (same : Uncounted s (a s).2) :
    Uncounted s (guarded a s).2 := by
  rw [guarded]
  rcases run : a s with ⟨e | _, t⟩ <;> rw [run] at same
  · exact uncounted_onwards.trans same (uncounted_attends.fail t e)
  · exact same

/-- Before a process runs it reports no stop. -/
theorem entry_uncounted {p : Executable} (most : Nat) (held : Held s m none) (waiting : Waiting s m)
    (events : ∀ e ∈ m.pending, Notice p e) : Uncounted s (runFromEntry most s).2 := by
  induction most generalizing s m with
  | zero => exact uncounted_onwards.refl s
  | succ most ih =>
    cases pending : m.pending with
    | nil =>
      have looked : access (Debuggee.poll 0) s = (.ok none, s) := by
        have polled : (Debuggee.poll 0 : Access Machine _) m = _ :=
          poll_resting (.inl waiting.motion) pending
        rw [access_run held.attached, polled, with_debuggee held.attached]
      rw [runFromEntry, bind_ok looked]
      exact access_uncounted _ s
    | cons e rest =>
      obtain ⟨t, j, run, noticed, kept, after, left⟩ :=
        entry_notice held waiting pending (events e (by simp [pending])) most
      have first : Uncounted s (t.holding j) := by
        refine uncounted_onwards.trans ?_ (uncounted_onwards.trans noticed.uncounted ?_) <;>
          exact uncounted_aside rfl rfl
      rw [run]
      exact uncounted_onwards.trans first
        (ih kept.held after fun d member => events d (by rw [left] at member; simp [pending, member]))

theorem start_uncounted (launches : w.host.launch = launch w.program) (ready : Ready w s none)
    (request : LaunchRequest) : Uncounted s (start request s).2 := by
  rcases ready.cases with ⟨detached, host, idle⟩ | ⟨m, sound⟩
  · have counted : Detached { s with launches := s.launches + 1 } :=
      ⟨detached.gone, detached.stepless, detached.empty, detached.tidy⟩
    have answer : s.host.launch s.launches request = launch w.program s.launches request := by
      rw [host, launches]
    rw [start_run (not_live_of_idle idle), answer, launch]
    by_cases path : Path.same request.executable w.program.path = true
    · have begun := entry_uncounted patience (counted.attach (boot w.program) request)
        ⟨rfl, rfl, rfl, rfl⟩ fun e member => (known_startEvents w.program e member).1
      rw [if_pos path]
      dsimp only
      refine uncounted_onwards.trans ?_ (guarded_uncounted begun)
      exact uncounted_aside rfl rfl
    · rw [if_neg path]
      exact uncounted_aside rfl rfl
  · rw [start_refused (isLive_of_live (ready.live sound))]
    exact uncounted_onwards.refl s

theorem pump_counted (lasting : w.Lasting) (ready : Ready w s none) (millis : Nat) :
    Counted s (pump millis s).2 := by
  rw [pump_run]
  by_cases running : s.state = .running
  · obtain ⟨m, sound, moving⟩ := ready.on running
    have sees := poll_ready lasting.toSteady sound running moving
    have looked : access (Debuggee.poll millis) s =
        ((poll m).1, { s with debuggee := some (poll m).2 }) := access_run sound.attached _
    rw [if_pos running, looked]
    rcases polled : poll m with ⟨e | event, n⟩ <;> rw [polled] at sees
    · refine .none (uncounted_onwards.trans ?_ (uncounted_attends.fail _ e))
      exact uncounted_aside rfl rfl
    · cases event with
      | none => exact .none (uncounted_aside rfl rfl)
      | some event =>
        have told : Ready w { s with debuggee := some n } (some (.handle event)) := sees
        have counted := settle_counted lasting told
        have first : Uncounted s { s with debuggee := some n } := uncounted_aside rfl rfl
        rw [guarded] at counted
        dsimp only
        rcases settled : settle (.handle event) { s with debuggee := some n } with ⟨e | _, u⟩ <;>
          rw [settled] at counted <;> exact first.then counted
  · rw [if_neg running]
    exact .none (uncounted_onwards.refl s)

theorem paused_counted (operation : Operation) (request : ThreadId → Request Machine Unit)
    (ready : Ready w s none)
    (does : ∀ m, Sound w s m none → Resting m → s.stepper = none →
      (∃ reason, s.state = .paused reason mainThread) → Counted s (request mainThread s).2) :
    Counted s ((requirePaused operation >>= request) s).2 := by
  rw [bind_run, requirePaused_run]
  cases state : s.state with
  | paused reason thread =>
    obtain ⟨rfl, m, sound, rest, stepless⟩ := ready.still state
    exact does m sound rest stepless ⟨reason, state⟩
  | notStarted | running | exited => exact .none (uncounted_onwards.refl s)

/-- A request counts nothing, or one pause at a breakpoint with the hits that belong to it. -/
theorem perform_counted (lasting : w.Lasting) (launches : w.host.launch = launch w.program)
    (ready : Ready w s none) (action : Action) : Counted s (s.perform action) := by
  cases action with
  | start request => exact .none (start_uncounted launches ready request)
  | pump millis => exact pump_counted lasting ready millis
  | «continue» =>
    exact paused_counted .continueExecution _ ready fun m sound rest _ paused =>
      settle_counted lasting (.resume sound rest (.inr paused) fun t h => by cases h)
  | step kind =>
    refine paused_counted (.step kind) _ ready fun m sound rest stepless paused => ?_
    have begun := settle_counted lasting (begun_ready sound rest stepless (.inr paused) kind
      (s.roster.lineAt? m.registers.pc)
      (CallStack.canonicalAddress s.traps m s.roster m.registers))
    have first : Uncounted s { s with stepper := some (.start kind mainThread
        (s.roster.lineAt? m.registers.pc)
        (CallStack.canonicalAddress s.traps m s.roster m.registers)) } := uncounted_aside rfl rfl
    rw [guarded] at begun ⊢
    rw [beginStep_run sound.attached]
    exact first.then begun
  | «break» => exact .none (uncounted_attends.breakExecution s)
  | terminate => exact .none (uncounted_attends.terminate s)
  | add location => exact .none (add_uncounted location s)
  | remove id => exact .none (remove_uncounted id s)
  | setEnabled id enabled =>
    exact .none (uncounted_of_counts (map_update (g := fun b => (b.id, b.hits))
      (f := fun b => { b with enabled }) (fun _ => rfl) _ _) rfl)

/-- How often, while these things are asked of a session, it comes to a pause at a breakpoint where a
breakpoint is turned on. -/
def tally (id : BreakpointId) : Session Machine → List Action → Nat
  | _, [] => 0
  | s, action :: rest =>
    let t := s.perform action
    (if s.marks < t.marks then (t.strikes id).toNat else 0) + tally id t rest

/-- The hits of a breakpoint are the pauses at it. -/
theorem hits_tallied (e : Executable) (config : Config) (actions : List Action) (id : BreakpointId) :
    (after (e.host config) actions).hitsOf id = tally id (new (e.host config)) actions := by
  have lasting := e.anywhere_lasting config
  have runs : ∀ s, Ready (e.anywhere config) s none →
      (actions.foldl perform s).hitsOf id = s.hitsOf id + tally id s actions := by
    induction actions with
    | nil => exact fun _ _ => rfl
    | cons action rest ih =>
      intro s ready
      rw [List.foldl_cons, ih _ (perform_ready lasting rfl ready action), tally]
      cases perform_counted lasting rfl ready action with
      | none same => simp [same.hits, same.marks]
      | one thread paused marks hits => simp [hits, marks, Nat.add_assoc]
  exact (runs _ (new_ready (e.anywhere config))).trans (Nat.zero_add _)

end Actions

end Session

end SourceDebugger
