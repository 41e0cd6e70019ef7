import SourceDebugger.Proofs.Session.Passages
/-!
What requests do to a session's run state, and what is reported of them: every request is a course
of passages that begins and ends with the session in order.
-/
namespace SourceDebugger.Session

open Effect

variable {δ : Type}

section Ends

variable {s t : Session δ} {r : Record}

/-- What a change without further moves may come to. -/
def Driven {α : Type} (r : Record) : Except Fault α × Session δ → Prop
  | (.ok _, t) => Passes False r t.record ∧ t.Orderly
  | (.error _, t) => Passes False r t.record ∧ t.Active

theorem Driven.after {α : Type} {x : Except Fault α × Session δ} (first : Passes False r s.record)
    (driven : Driven s.record x) : Driven r x := by
  rcases x with ⟨_ | _, _⟩ <;> exact ⟨first.trans driven.1, driven.2⟩

/-- What requests may answer: if they fail, so has the debuggee, and its run is over. -/
def Answers {α : Type} (launching : Prop) (r : Record) :
    Except DebuggerError α × Session δ → Prop
  | (.ok _, t) => Passes launching r t.record ∧ t.Orderly
  | (.error e, t) => Passes launching r t.record ∧ t.Orderly ∧
      ∃ fault, e = .channel fault ∧ t.state = .exited none (some fault)

theorem Answers.after {α : Type} {x : Except DebuggerError α × Session δ} {launching : Prop}
    (first : Passes launching r s.record) (answers : Answers False s.record x) :
    Answers launching r x := by
  rcases x with ⟨_ | _, _⟩ <;> exact ⟨first.trans (answers.1.mono False.elim), answers.2⟩

theorem fail_answers (passes : Passes False r s.record) (active : s.Active) (fault : Fault) :
    Passes False r (s.fail fault).record ∧ (s.fail fault).Orderly ∧
      (s.fail fault).state = .exited none (some fault) := by
  rw [fail_live active]
  exact ⟨passes.trans (exit_passes active.live none _), exit_orderly s none _, exit_state s none _⟩

theorem guarded_answers {α : Type} {a : Change δ α} (driven : Driven r (a s)) :
    Answers False r (guarded a s) := by
  rw [guarded]
  rcases run : a s with ⟨e | x, t⟩ <;> rw [run] at driven
  · obtain ⟨passes, orderly, state⟩ := fail_answers driven.1 driven.2 e
    exact ⟨passes, orderly, e, rfl, state⟩
  · exact driven

/-- The run is over, and it was a fault if the request says so. -/
def Over {α : Type} (r : Record) (x : Except DebuggerError α × Session δ) : Prop :=
  (Passes False r x.2.record ∧ x.2.Orderly ∧ x.2.state.isExited = true) ∧
    ∀ e, x.1 = .error e → ∃ fault, e = .channel fault

theorem over_failed (passes : Passes False r s.record) (active : s.Active) {α : Type}
    (fault : Fault) :
    Over r ((.error (.channel fault), s.fail fault) : Except DebuggerError α × Session δ) := by
  obtain ⟨passes, orderly, state⟩ := fail_answers passes active fault
  refine ⟨⟨passes, orderly, ?_⟩, ?_⟩
  · show (s.fail fault).state.isExited = true
    rw [state]
    rfl
  · rintro e ⟨⟩
    exact ⟨fault, rfl⟩

theorem requirePaused_run (operation : Operation) (s : Session δ) :
    requirePaused operation s = match s.state with
      | .paused _ thread => (.ok thread, s)
      | state => (.error (.invalidState operation state), s) := by
  rw [requirePaused, bind_ok (get_run s)]
  cases state : s.state with
  | paused reason thread => rfl
  | notStarted | running | exited =>
    dsimp only
    rw [refuse, bind_ok (get_run s), state]
    rfl

/-- A request for a paused session is refused by any other. -/
theorem paused_goes {α : Type} (orderly : s.Orderly) (operation : Operation)
    (request : ThreadId → Request δ α)
    (does : ∀ reason thread, s.state = .paused reason thread → s.Active →
      s.roster.current = some thread → Answers False s.record (request thread s)) :
    (requirePaused operation >>= request) s = (.error (.invalidState operation s.state), s) ∨
      Answers False s.record ((requirePaused operation >>= request) s) := by
  rw [bind_run, requirePaused_run]
  cases state : s.state with
  | paused reason thread =>
    refine .inr (does reason thread state ?_ (orderly.paused reason thread state).2)
    refine ⟨?_, by rw [state]; rfl⟩
    rw [orderly.attached, state]
    rfl
  | notStarted | running | exited => exact .inl rfl

/-- Breakpoints are no part of a session's course. -/
theorem orderly_breakpoints (orderly : s.Orderly) (hushed : Hushed s t)
    (stepper : t.stepper = s.stepper)
    (unbound : s.state.isExited = true → ∀ b ∈ t.breakpoints.registered, b.address? = none) :
    t.Orderly where
  attached := by rw [hushed.attached, hushed.state, orderly.attached]
  paused reason thread paused := by
    rw [hushed.state] at paused
    rw [stepper, hushed.roster]
    exact orderly.paused reason thread paused
  exited exited := by
    rw [hushed.state] at exited
    rw [hushed.roster]
    exact ⟨unbound exited, (orderly.exited exited).2⟩

theorem detached_of_exited (orderly : s.Orderly) (exited : s.state.isExited = true) :
    s.debuggee = none := by
  have attached := orderly.attached
  cases state : s.state <;> simp [state, RunState.isExited, RunState.isLive] at exited attached
  exact attached

/-- Whether it can be looked up by what it was does not change what is known of a breakpoint. -/
theorem unbound_update {bs : Breakpoints} {id : BreakpointId} {f : Breakpoint → Breakpoint}
    (none : ∀ b ∈ bs.registered, b.address? = none)
    (kept : ∀ b, (f b).registered = true → b.registered = true ∧
      (b.address? = .none → (f b).address? = .none)) :
    ∀ b ∈ (bs.update id f).registered, b.address? = .none := by
  intro b member
  obtain ⟨inside, registered⟩ := List.mem_filter.mp member
  obtain ⟨c, before, rfl⟩ := List.mem_map.mp inside
  split at registered
  · rename_i here
    obtain ⟨was, still⟩ := kept c registered
    rw [if_pos here]
    exact still (none c (List.mem_filter.mpr ⟨before, was⟩))
  · rename_i other
    rw [if_neg other]
    exact none c (List.mem_filter.mpr ⟨before, registered⟩)

theorem setEnabled_goes (orderly : s.Orderly) (id : BreakpointId) (enabled : Bool) :
    (s.setEnabled id enabled).Orderly :=
  orderly_breakpoints orderly ⟨rfl, rfl, rfl⟩ rfl fun exited =>
    unbound_update (orderly.exited exited).1 fun _ registered => ⟨registered, fun none => none⟩

theorem new_orderly (host : Host δ) : (new host).Orderly :=
  ⟨rfl, fun _ _ paused => (by cases paused), fun exited => (by cases exited)⟩

end Ends

variable [Debuggee δ]

/-- What users of a session can do, as far as it changes the session. -/
inductive Action where
  | start (request : LaunchRequest)
  | pump (millis : Nat)
  | continue
  | step (kind : StepKind)
  | break
  | terminate
  | add (location : Location)
  | remove (id : BreakpointId)
  | setEnabled (id : BreakpointId) (enabled : Bool)

/-- The answer to an action, and the session after it, whether it succeeded or not. -/
def respond (s : Session δ) : Action → Except DebuggerError Unit × Session δ
  | .start request => start request s
  | .pump millis => (.ok (), (pump millis s).2)
  | .continue => continueExecution s
  | .step kind => step kind s
  | .break => breakExecution s
  | .terminate => terminate s
  | .add location => (.ok (), (addBreakpoint location s).2)
  | .remove id => removeBreakpoint id s
  | .setEnabled id enabled => (.ok (), s.setEnabled id enabled)

def perform (s : Session δ) (action : Action) : Session δ := (s.respond action).2

/-- The session after a series of actions, from the beginning. -/
def after (host : Host δ) (actions : List Action) : Session δ :=
  actions.foldl perform (new host)

variable {s t : Session δ} {r : Record}

section Settling

theorem drive_goes (most : Nat) {move : Move} (is_open : s.Open move) :
    Driven s.record (drive most (some move) s) := by
  induction most generalizing s move with
  | zero => exact ⟨.refl, is_open.active⟩
  | succ most ih =>
    have goes := advance_goes is_open
    rw [drive, bind_run]
    rcases advanced : advance move s with ⟨e | _ | next, t⟩ <;> rw [advanced] at goes
    · exact goes
    · cases most <;> exact ⟨goes.1, goes.2.1⟩
    · exact .after goes.1 (ih goes.2)

theorem settle_goes {move : Move} (is_open : s.Open move) :
    Driven s.record (settle move s) := by
  rw [settle, bind_ok (get_run s)]
  exact drive_goes _ is_open

theorem drive_next {next : Option Move} {move : Move} (done : advance move s = (.ok next, t)) (n : Nat) :
    drive (n + 1) (some move) s = drive n next t := by
  rw [drive, bind_ok done]

theorem drive_none (n : Nat) (s : Session δ) : drive n none s = (.ok (), s) := by
  cases n <;> rfl

/-- A few moves that leave nothing to be done are made at one stretch. -/
theorem settle_few {move : Move} {k : Nat} (few : k ≤ mostMoves)
    (done : ∀ n, drive (n + k) (some move) s = (.ok (), t)) : settle move s = (.ok (), t) := by
  have moves : mostMoves + s.host.config.extraMoves = mostMoves - k + s.host.config.extraMoves + k := by
    omega
  rw [settle, bind_ok (get_run s), moves, done]

theorem settle_one {move : Move} (done : advance move s = (.ok none, t)) :
    settle move s = (.ok (), t) :=
  settle_few (by decide : 1 ≤ mostMoves) fun n => by rw [drive_next done, drive_none]

end Settling

section Requests

theorem pump_run (millis : Nat) (s : Session δ) :
    pump millis s = if s.state = .running then
        match access (Debuggee.poll millis) s with
        | (.error e, t) => (true, t.fail e)
        | (.ok none, t) => (false, t)
        | (.ok (some event), t) => match settle (.handle event) t with
          | (.ok (), u) => (true, u)
          | (.error e, u) => (true, u.fail e)
      else (false, s) := by
  rw [pump, certain_bind, certain_get]
  dsimp only
  by_cases running : s.state = .running
  · rw [if_neg (by simp [running]), if_pos running, certain_bind]
    rcases access (Debuggee.poll millis) s with ⟨e | event, t⟩
    · rfl
    · cases event with
      | none => rfl
      | some event =>
        dsimp only
        rw [certain_bind]
        rcases settle (.handle event) t with ⟨_ | _, _⟩ <;> rfl
  · rw [if_pos running, if_neg running]
    rfl

theorem awaitExit_run (n : Nat) (s : Session δ) :
    awaitExit (n + 1) s = if s.state.isExited then (.ok (), s) else
      match guarded (access (Debuggee.poll s.host.config.pollMillis)) s with
      | (.error e, t) => (.error e, t)
      | (.ok none, t) => awaitExit n t
      | (.ok (some event), t) =>
        if event.isStop then awaitExit n t else (guarded (settle (.handle event)) >>= fun _ => awaitExit n) t := by
  rw [awaitExit, bind_ok (get_run s), ite_run]
  split
  · rfl
  · rw [bind_run]
    rcases guarded (access (Debuggee.poll s.host.config.pollMillis)) s with ⟨e | event, t⟩
    · rfl
    · cases event with
      | none => rfl
      | some event =>
        dsimp only
        rw [ite_run]

theorem pump_goes (orderly : s.Orderly) (millis : Nat) :
    Passes False s.record (pump millis s).2.record ∧ (pump millis s).2.Orderly := by
  rw [pump_run]
  split
  · rename_i running
    have attached : s.debuggee.isSome = true := by rw [orderly.attached, running]; rfl
    have hushed := access_hushed (Debuggee.poll millis : Access δ (Option Event)) s
    rcases looked : access (Debuggee.poll millis) s with ⟨e | event, t⟩ <;> rw [looked] at hushed
    · have active := hushed.active ⟨attached, by rw [running]; rfl⟩
      obtain ⟨passes, after, _⟩ := fail_answers (r := s.record) (by rw [hushed.record]) active e
      exact ⟨passes, after⟩
    · replace attached := hushed.attached.trans attached
      replace running := hushed.state.trans running
      cases event with
      | none => exact ⟨by rw [hushed.record], orderly_running attached running⟩
      | some event =>
        have is_open : t.Open (.handle event) := ⟨attached, .inl running⟩
        have driven := settle_goes is_open
        rw [← hushed.record]
        dsimp only
        rcases settled : settle (.handle event) t with ⟨e | _, u⟩ <;> rw [settled] at driven
        · obtain ⟨passes, after, _⟩ := fail_answers driven.1 driven.2 e
          exact ⟨passes, after⟩
        · exact driven
  · exact ⟨.refl, orderly⟩

theorem runFromEntry_goes (most : Nat) (attached : s.debuggee.isSome = true)
    (running : s.state = .running) : Driven s.record (runFromEntry most s) := by
  induction most generalizing s with
  | zero => exact ⟨.refl, attached, by rw [running]; rfl⟩
  | succ most ih =>
    have active : s.Active := ⟨attached, by rw [running]; rfl⟩
    have hushed := access_hushed (Debuggee.poll 0 : Access δ (Option Event)) s
    rw [runFromEntry, bind_run]
    rcases looked : access (Debuggee.poll 0) s with ⟨e | event, t⟩ <;> rw [looked] at hushed
    · exact ⟨by rw [hushed.record], hushed.active active⟩
    · replace attached := hushed.attached.trans attached
      replace running := hushed.state.trans running
      rw [← hushed.record]
      cases event with
      | none =>
        have hushed := access_hushed (Debuggee.resume .continue) t
        dsimp only
        rcases resumed : access (Debuggee.resume .continue) t with ⟨e | _, u⟩ <;>
          rw [resumed] at hushed
        · exact ⟨by rw [hushed.record], hushed.active ⟨attached, by rw [running]; rfl⟩⟩
        · exact ⟨by rw [hushed.record], orderly_running (hushed.attached.trans attached)
            (hushed.state.trans running)⟩
      | some event =>
        have is_open : t.Open (.handle event) := ⟨attached, .inl running⟩
        have driven := settle_goes is_open
        dsimp only
        rw [bind_run]
        rcases settled : settle (.handle event) t with ⟨e | _, u⟩ <;> rw [settled] at driven
        · exact driven
        · dsimp only
          rw [bind_ok (get_run u), ite_run]
          split
          · exact driven
          · rename_i going
            have running : u.state = .running := by simp at going; exact going.2
            refine .after driven.1 (ih ?_ running)
            rw [driven.2.attached, running]
            rfl

theorem continue_goes (orderly : s.Orderly) :
    continueExecution s = (.error (.invalidState .continueExecution s.state), s) ∨
      Answers False s.record (continueExecution s) :=
  paused_goes orderly _ _ fun reason thread state active current =>
    guarded_answers (settle_goes ⟨active.attached, .inr ⟨reason, thread, state, current, rfl⟩⟩)

theorem beginStep_goes {reason : PauseReason} {thread : ThreadId} (kind : StepKind)
    (state : s.state = .paused reason thread) (active : s.Active)
    (current : s.roster.current = some thread) : Driven s.record (beginStep kind thread s) := by
  rw [beginStep, bind_run]
  have hushed := ask_hushed (fun _ d => Debuggee.registers d thread) s
  change Hushed s (registers thread s).2 at hushed
  rcases read : registers thread s with ⟨e | regs, t⟩ <;> rw [read] at hushed
  · exact ⟨by rw [hushed.record], hushed.active active⟩
  · dsimp only
    rw [bind_run]
    replace hushed := hushed.trans (ask_hushed
      (fun s d => .ok (CallStack.canonicalAddress s.traps d s.roster regs)) t)
    change Hushed s (frameAddress regs t).2 at hushed
    rcases found : frameAddress regs t with ⟨e | frame, u⟩ <;> rw [found] at hushed
    · exact ⟨by rw [hushed.record], hushed.active active⟩
    · dsimp only
      rw [bind_ok (modify_run _ u)]
      have begun : Hushed s { u with
          stepper := some (.start kind thread (u.roster.lineAt? regs.pc) frame) } :=
        hushed.trans ⟨rfl, rfl, rfl⟩
      rw [← begun.record]
      refine settle_goes ⟨begun.attached.trans active.attached, .inr ⟨reason, thread, ?_, ?_, ?_⟩⟩
      · exact begun.state.trans state
      · rw [begun.roster]
        exact current
      · split <;> rfl

theorem step_goes (orderly : s.Orderly) (kind : StepKind) :
    step kind s = (.error (.invalidState (.step kind) s.state), s) ∨
      Answers False s.record (step kind s) :=
  paused_goes orderly _ _ fun _ _ state active current =>
    guarded_answers (beginStep_goes kind state active current)

theorem break_goes (orderly : s.Orderly) :
    breakExecution s = (.error (.invalidState .breakExecution s.state), s) ∨
      Answers False s.record (breakExecution s) := by
  rw [breakExecution, bind_ok (get_run s), ite_run]
  split
  · rename_i running
    have attached : s.debuggee.isSome = true := by rw [orderly.attached, running]; rfl
    have hushed := access_hushed (Debuggee.interrupt : Access δ Unit) s
    refine .inr (guarded_answers ?_)
    rcases asked : access (Debuggee.interrupt : Access δ Unit) s with ⟨e | _, t⟩ <;>
      rw [asked] at hushed
    · exact ⟨by rw [hushed.record], hushed.active ⟨attached, by rw [running]; rfl⟩⟩
    · exact ⟨by rw [hushed.record], orderly_running (hushed.attached.trans attached)
        (hushed.state.trans running)⟩
  · exact .inl rfl

end Requests

section Terminate

/-- A session whose debuggee has been killed. -/
inductive Dying (s : Session δ) : Prop
  | active : s.Active → Dying s
  | gone : s.state.isExited = true → s.Orderly → Dying s

/-- Stops apart, an event is taken note of at once, in whatever state the session is. -/
theorem settle_aside {e : Event} (active : s.Active) (aside : e.isStop = false) :
    ∃ t, settle (.handle e) s = (.ok (), t) ∧ Passes False s.record t.record ∧ Dying t := by
  have informed (told : advance (.handle e) s = (notice e >>= fun _ => pure none) s) :
      ∃ t, settle (.handle e) s = (.ok (), t) ∧ Passes False s.record t.record ∧ Dying t := by
    obtain ⟨t, done, informs⟩ := notice_informs active e
    rw [bind_ok done] at told
    exact ⟨t, settle_one told, informs.passes, .active (informs.active active)⟩
  cases e with
  | threadStarted | threadEnded | moduleLoaded | moduleUnloaded | output => exact informed rfl
  | exited code =>
    refine ⟨s.exit (some code) none, settle_one rfl, exit_passes active.live _ _, .gone ?_ ?_⟩
    · rw [exit_state]
      rfl
    · exact exit_orderly s _ _
  | trap | signal => cases aside

theorem awaitExit_over (most : Nat) (passes : Passes False r s.record) (dying : Dying s) :
    Over r (awaitExit most s) := by
  induction most generalizing s with
  | zero =>
    cases dying with
    | active active => exact over_failed passes active _
    | gone exited orderly =>
      have same : s.fail .survivedKill = s := by rw [fail, if_pos exited]
      refine ⟨?_, ?_⟩
      · rw [show (awaitExit 0 s).2 = s from same]
        exact ⟨passes, orderly, exited⟩
      · rintro e ⟨⟩
        exact ⟨_, rfl⟩
  | succ most ih =>
    rw [awaitExit_run]
    split
    · rename_i exited
      cases dying with
      | active active =>
        have live := active.live
        cases state : s.state <;> simp [state, RunState.isExited, RunState.isLive] at exited live
      | gone _ orderly => exact ⟨⟨passes, orderly, exited⟩, fun _ failed => by cases failed⟩
    · rename_i going
      cases dying with
      | gone exited => exact absurd exited going
      | active active =>
        have hushed := access_hushed (Debuggee.poll s.host.config.pollMillis : Access δ (Option Event)) s
        rw [guarded]
        rcases looked : access (Debuggee.poll s.host.config.pollMillis) s with ⟨e | event, t⟩ <;>
          rw [looked] at hushed <;> replace passes := hushed.record ▸ passes <;>
          replace active := hushed.active active
        · exact over_failed passes active e
        · cases event with
          | none => exact ih passes (.active active)
          | some event =>
            dsimp only
            split
            · exact ih passes (.active active)
            · rename_i aside
              obtain ⟨u, done, more, dying⟩ := settle_aside active (by simpa using aside)
              have handled : guarded (settle (.handle event)) t = (.ok (), u) := by
                rw [guarded, done]
              rw [bind_ok handled]
              exact ih (passes.trans more) dying

theorem terminate_over (active : s.Active) : Over s.record (terminate s) := by
  have hushed := access_hushed (Debuggee.terminate : Access δ Unit) s
  have kills : Over s.record
      ((guarded (access Debuggee.terminate) >>= fun _ => awaitExit patience : Request δ Unit) s) := by
    rw [bind_run, guarded]
    rcases killed : access (Debuggee.terminate : Access δ Unit) s with ⟨e | _, t⟩ <;>
      rw [killed] at hushed
    · exact over_failed (by rw [hushed.record]) (hushed.active active) e
    · exact awaitExit_over _ (by rw [hushed.record]) (.active (hushed.active active))
  have live := active.live
  rw [terminate, bind_ok (get_run s)]
  cases state : s.state with
  | running | paused => exact kills
  | notStarted | exited => simp [state, RunState.isLive] at live

theorem terminate_refused (idle : s.state.isLive = false) :
    terminate s = (.error (.invalidState .terminate s.state), s) := by
  rw [terminate, bind_ok (get_run s)]
  cases state : s.state with
  | running | paused => simp [state, RunState.isLive] at idle
  | notStarted | exited =>
    dsimp only
    rw [refuse, bind_ok (get_run s), state]
    rfl

end Terminate

section Breakpoints

theorem bindAll_hushed (s : Session δ) : Hushed s s.bindAll ∧ s.bindAll.stepper = s.stepper := by
  rcases s with ⟨_, _, debuggee, _, _, _, _, _, _, _, _, _⟩
  cases debuggee <;> exact ⟨⟨rfl, rfl, rfl⟩, rfl⟩

theorem bindAll_detached (gone : s.debuggee = none) : s.bindAll = s := by
  obtain ⟨_, _, _, _, _, _, _, _, _, _, _, _⟩ := s
  cases gone
  rfl

theorem add_hushed (location : Location) (s : Session δ) :
    Hushed s (addBreakpoint location s).2 ∧ (addBreakpoint location s).2.stepper = s.stepper := by
  have added : Hushed s { s with breakpoints := (s.breakpoints.add location).2 } := ⟨rfl, rfl, rfl⟩
  obtain ⟨bound, stepper⟩ := bindAll_hushed { s with breakpoints := (s.breakpoints.add location).2 }
  exact ⟨added.trans bound, stepper⟩

theorem add_goes (orderly : s.Orderly) (location : Location) :
    (addBreakpoint location s).2.Orderly := by
  obtain ⟨hushed, stepper⟩ := add_hushed location s
  refine orderly_breakpoints orderly hushed stepper fun exited => ?_
  have same : (addBreakpoint location s).2 =
      { s with breakpoints := (s.breakpoints.add location).2 } :=
    bindAll_detached (show s.debuggee = none from detached_of_exited orderly exited)
  rw [same]
  intro b member
  obtain ⟨inside, registered⟩ := List.mem_filter.mp member
  rcases List.mem_append.mp inside with before | new
  · exact (orderly.exited exited).1 b (List.mem_filter.mpr ⟨before, registered⟩)
  · cases List.mem_singleton.mp new
    rfl

/-- A breakpoint that takes part in nothing any more. -/
def dropped (bs : Breakpoints) (id : BreakpointId) : Breakpoints :=
  (bs.update id fun b => { b with registered := false }).update id (·.unbound)

theorem remove_unplaced {b : Breakpoint} {id : BreakpointId}
    (found : s.breakpoints.registered? id = some b)
    (unplaced : b.address? = none ∨ s.debuggee = none) :
    removeBreakpoint id s = (.ok (), { s with breakpoints := dropped s.breakpoints id }) := by
  rw [removeBreakpoint, bind_ok (get_run s), found]
  dsimp only
  rw [bind_ok (set_run s _)]
  rcases unplaced with none | none
  · rw [none]
    rfl
  · rw [none]
    cases b.address? <;> rfl

/-- The session with a breakpoint no longer registered, before its trap is released. -/
def unlisted (s : Session δ) (id : BreakpointId) : Session δ :=
  { s with breakpoints := s.breakpoints.update id fun b => { b with registered := false } }

theorem releaseTrap_hushed (address : UInt64) (id : BreakpointId) (s : Session δ) :
    Hushed s (removeBreakpoint.releaseTrap address id s).2 ∧
      (removeBreakpoint.releaseTrap address id s).2.stepper = s.stepper := by
  have same : (removeBreakpoint.releaseTrap address id s).2 =
      (instrumented (Instrumented.removeUser address id) s).2 := by
    rw [removeBreakpoint.releaseTrap]
    rcases instrumented (Instrumented.removeUser address id) s with ⟨_ | _, _⟩ <;> rfl
  rw [same]
  refine ⟨instrumented_hushed _ s, ?_⟩
  rcases s with ⟨_, _, debuggee, _, _, _, _, _, _, _, _, _⟩
  cases debuggee <;> rfl

theorem remove_bound {b : Breakpoint} {id : BreakpointId} {address : UInt64}
    (found : s.breakpoints.registered? id = some b) (bound : b.address? = some address)
    (attached : s.debuggee.isSome = true) :
    removeBreakpoint id s = match removeBreakpoint.releaseTrap address id (s.unlisted id) with
      | (.ok (), t) => (.ok (), { t with breakpoints := t.breakpoints.update id (·.unbound) })
      | (.error e, t) => (.error e, t) := by
  obtain ⟨d, attached⟩ := Option.isSome_iff_exists.mp attached
  obtain ⟨_, _, _, _, _, _, _, _, _, _, _, _⟩ := s
  cases attached
  rw [removeBreakpoint, bind_ok (get_run _)]
  dsimp only at found ⊢
  rw [found]
  dsimp only
  rw [bind_ok (set_run _ _), bound]
  dsimp only [unlisted]
  rw [bind_run]
  split <;> rename_i released <;> rw [released] <;> rfl

theorem remove_hushed (id : BreakpointId) (s : Session δ) :
    Hushed s (removeBreakpoint id s).2 ∧ (removeBreakpoint id s).2.stepper = s.stepper := by
  cases found : s.breakpoints.registered? id with
  | none =>
    rw [removeBreakpoint, bind_ok (get_run s), found]
    exact ⟨.refl s, rfl⟩
  | some b =>
    by_cases placed : b.address? = none ∨ s.debuggee = none
    · rw [remove_unplaced found placed]
      exact ⟨⟨rfl, rfl, rfl⟩, rfl⟩
    · obtain ⟨bound, attached⟩ := not_or.mp placed
      obtain ⟨address, bound⟩ := Option.ne_none_iff_exists'.mp bound
      obtain ⟨hushed, stepper⟩ := releaseTrap_hushed address id (s.unlisted id)
      rw [remove_bound found bound (Option.isSome_iff_ne_none.mpr attached)]
      rcases released : removeBreakpoint.releaseTrap address id (s.unlisted id) with ⟨e | _, t⟩ <;>
        rw [released] at hushed stepper <;>
        exact ⟨⟨hushed.record, hushed.attached, hushed.roster⟩, stepper⟩

theorem remove_goes (orderly : s.Orderly) (id : BreakpointId) :
    (removeBreakpoint id s).2.Orderly := by
  obtain ⟨hushed, stepper⟩ := remove_hushed id s
  refine orderly_breakpoints orderly hushed stepper fun exited => ?_
  cases found : s.breakpoints.registered? id with
  | none =>
    rw [removeBreakpoint, bind_ok (get_run s), found]
    exact (orderly.exited exited).1
  | some b =>
    rw [remove_unplaced found (.inr (detached_of_exited orderly exited))]
    refine unbound_update (unbound_update (orderly.exited exited).1 fun b registered => ?_)
      fun b registered => ⟨registered, fun _ => rfl⟩
    cases registered

/-- Removing a breakpoint is never refused for the run state. -/
theorem remove_answer (id : BreakpointId) (s : Session δ) :
    (∃ fault, (removeBreakpoint id s).1 = .error (.channel fault)) ∨
      (removeBreakpoint id s).1 = .error (.breakpointNotFound id) ∨
        (removeBreakpoint id s).1 = .ok () := by
  cases found : s.breakpoints.registered? id with
  | none =>
    rw [removeBreakpoint, bind_ok (get_run s), found]
    exact .inr (.inl rfl)
  | some b =>
    by_cases placed : b.address? = none ∨ s.debuggee = none
    · rw [remove_unplaced found placed]
      exact .inr (.inr rfl)
    · obtain ⟨bound, attached⟩ := not_or.mp placed
      obtain ⟨address, bound⟩ := Option.ne_none_iff_exists'.mp bound
      rw [remove_bound found bound (Option.isSome_iff_ne_none.mpr attached)]
      rw [removeBreakpoint.releaseTrap]
      rcases instrumented (Instrumented.removeUser address id) (s.unlisted id) with ⟨e | _, t⟩
      · exact .inl ⟨e, rfl⟩
      · exact .inr (.inr rfl)

end Breakpoints

section Start

theorem start_run (idle : s.state.isLive = false) (request : LaunchRequest) :
    start request s = match s.host.launch s.launches request with
      | .error e =>
        (.error (.launch request.executable e), { s with launches := s.launches + 1 })
      | .ok d =>
        guarded (runFromEntry patience) ({ s with launches := s.launches + 1 }.attach d request) := by
  obtain ⟨host, launches, _, _, _, _, _, state, _, _, _, _⟩ := s
  rw [start, bind_ok (get_run _)]
  cases state with
  | notStarted | exited =>
    dsimp only
    rw [bind_ok (set_run _ _)]
    cases host.launch launches request <;> rfl
  | running | paused => cases idle

theorem start_refused (live : s.state.isLive = true) (request : LaunchRequest) :
    start request s = (.error (.invalidState .start s.state), s) := by
  rw [start, bind_ok (get_run s)]
  cases state : s.state with
  | notStarted | exited => simp [state, RunState.isLive] at live
  | running | paused =>
    dsimp only
    rw [refuse, bind_ok (get_run s), state]
    rfl

/-- A run begins with the launch of a debuggee; without one there is none. -/
theorem start_goes (request : LaunchRequest) (s : Session δ) :
    start request s = (.error (.invalidState .start s.state), s) ∨
      (∃ fault, start request s =
        (.error (.launch request.executable fault), { s with launches := s.launches + 1 })) ∨
      (∃ d, s.host.launch s.launches request = .ok d) ∧
        Answers True s.record (start request s) := by
  cases live : s.state.isLive with
  | true => exact .inl (start_refused live request)
  | false =>
    rw [start_run live]
    cases launched : s.host.launch s.launches request with
    | error fault => exact .inr (.inl ⟨fault, rfl⟩)
    | ok d =>
      let t : Session δ := { s with launches := s.launches + 1 }.attach d request
      have begun : Passes True s.record t.record := (Passage.launched True.intro live).one
      exact .inr (.inr ⟨⟨d, rfl⟩, .after begun (guarded_answers (runFromEntry_goes _ rfl rfl))⟩)

end Start

/-- What a request to a session may come to. -/
structure Lawful (s : Session δ) (action : Action) (answer : Except DebuggerError Unit)
    (t : Session δ) : Prop where
  /-- The run state and the log change by passages only; runs begin only with a launch. -/
  passes : Passes (∃ request d, action = .start request ∧ s.host.launch s.launches request = .ok d)
    s.record t.record
  /-- Whether a debuggee is attached, a step is on its way, breakpoints are bound. -/
  orderly : t.Orderly
  /-- A refused request changes nothing. -/
  refused : ∀ operation state, answer = .error (.invalidState operation state) → t = s
  /-- A launch that fails is only counted. -/
  unlaunched : ∀ path fault, answer = .error (.launch path fault) →
    t = { s with launches := s.launches + 1 }
  /-- A debuggee that cannot be controlled any more is given up. -/
  failed : ∀ fault, answer = .error (.channel fault) → (∀ id, action ≠ .remove id) →
    t.state.isExited = true ∧ (action ≠ .terminate → t.state = .exited none (some fault))

section Lawful

omit [Debuggee δ] in
theorem lawful_refused (orderly : s.Orderly) (action : Action) (operation : Operation) :
    Lawful s action (.error (.invalidState operation s.state)) s where
  passes := .refl
  orderly := orderly
  refused _ _ _ := rfl
  unlaunched _ _ failed := by cases failed
  failed _ failed := by cases failed

omit [Debuggee δ] in
theorem lawful_done {action : Action} (orderly : t.Orderly)
    (passes : Passes (∃ request d, action = .start request ∧
      s.host.launch s.launches request = .ok d) s.record t.record) : Lawful s action (.ok ()) t where
  passes := passes
  orderly := orderly
  refused _ _ failed := by cases failed
  unlaunched _ _ failed := by cases failed
  failed _ failed := by cases failed

omit [Debuggee δ] in
theorem Answers.lawful {launching : Prop} {x : Except DebuggerError Unit × Session δ}
    {action : Action} (answers : Answers launching s.record x)
    (launched : launching → ∃ request d, action = .start request ∧
      s.host.launch s.launches request = .ok d) : Lawful s action x.1 x.2 := by
  obtain ⟨e | _, t⟩ := x
  · obtain ⟨passes, orderly, fault, rfl, state⟩ := answers
    refine ⟨passes.mono launched, orderly, fun _ _ failed => ?_, fun _ _ failed => ?_,
      fun _ failed _ => ?_⟩
    · cases failed
    · cases failed
    · cases failed
      exact ⟨by rw [state]; rfl, fun _ => state⟩
  · exact lawful_done answers.2 (answers.1.mono launched)

omit [Debuggee δ] in
/-- A request that is carried out or refused. -/
theorem lawful_of_answers {x : Except DebuggerError Unit × Session δ} {operation : Operation}
    (orderly : s.Orderly) (action : Action)
    (answers : x = (.error (.invalidState operation s.state), s) ∨ Answers False s.record x) :
    Lawful s action x.1 x.2 := by
  rcases answers with rfl | answers
  · exact lawful_refused orderly action operation
  · exact answers.lawful False.elim

theorem respond_lawful (orderly : s.Orderly) (action : Action) :
    Lawful s action (s.respond action).1 (s.respond action).2 := by
  cases action with
  | start request =>
    change Lawful s _ (start request s).1 (start request s).2
    rcases start_goes request s with refused | ⟨fault, failed⟩ | ⟨⟨d, launched⟩, answers⟩
    · rw [refused]
      exact lawful_refused orderly _ _
    · rw [failed]
      refine ⟨.refl, ⟨orderly.attached, orderly.paused, orderly.exited⟩, fun _ _ refused => ?_,
        fun _ _ _ => rfl, fun _ failed => ?_⟩
      · cases refused
      · cases failed
    · exact answers.lawful fun _ => ⟨request, d, rfl, launched⟩
  | pump millis =>
    obtain ⟨passes, orderly⟩ := pump_goes orderly millis
    exact lawful_done orderly (passes.mono False.elim)
  | «continue» => exact lawful_of_answers orderly _ (continue_goes orderly)
  | step kind => exact lawful_of_answers orderly _ (step_goes orderly kind)
  | «break» => exact lawful_of_answers orderly _ (break_goes orderly)
  | terminate =>
    change Lawful s _ (terminate s).1 (terminate s).2
    cases live : s.state.isLive with
    | false =>
      rw [terminate_refused live]
      exact lawful_refused orderly _ _
    | true =>
      have active : s.Active := ⟨by rw [orderly.attached, live], live⟩
      obtain ⟨⟨passes, orderly, exited⟩, faults⟩ := terminate_over active
      refine ⟨passes.mono False.elim, orderly, fun _ _ h => ?_, fun _ _ h => ?_, fun _ _ _ =>
        ⟨exited, fun other => absurd rfl other⟩⟩
      · obtain ⟨_, same⟩ := faults _ h
        cases same
      · obtain ⟨_, same⟩ := faults _ h
        cases same
  | add location =>
    exact lawful_done (add_goes orderly location) ((add_hushed location s).1.record ▸ .refl)
  | remove id =>
    have record := (remove_hushed id s).1.record
    have after := remove_goes orderly id
    have answer := remove_answer id s
    change Lawful s _ (removeBreakpoint id s).1 (removeBreakpoint id s).2
    generalize removeBreakpoint id s = x at record after answer ⊢
    refine ⟨record ▸ .refl, after, fun operation state failed => ?_, fun path fault failed => ?_,
      fun _ _ other => absurd rfl (other id)⟩ <;>
      rw [failed] at answer <;> simp at answer
  | setEnabled id enabled =>
    change Lawful s _ (.ok ()) (s.setEnabled id enabled)
    exact lawful_done (setEnabled_goes orderly id enabled) .refl

theorem after_orderly (host : Host δ) (actions : List Action) : (after host actions).Orderly := by
  have keeps : ∀ s : Session δ, s.Orderly → (actions.foldl perform s).Orderly := by
    induction actions with
    | nil => exact fun s orderly => orderly
    | cons action rest ih => exact fun s orderly => ih _ (respond_lawful orderly action).orderly
  exact keeps _ (new_orderly host)

/-- Whatever debuggees do and whatever is asked of a session: its run state and its log change by
passages, and between requests it is in order. -/
theorem run_states (host : Host δ) (actions : List Action) (action : Action) :
    let s := after host actions
    let answer := (s.respond action).1
    let t := (s.respond action).2
    s.Orderly ∧ Lawful s action answer t ∧ s.generation ≤ t.generation ∧
      (s.state.isLive = false → t.record = s.record ∨
        ∃ request d, action = .start request ∧ s.host.launch s.launches request = .ok d) := by
  intro s answer t
  have orderly : s.Orderly := after_orderly host actions
  have lawful : Lawful s action answer t := respond_lawful orderly action
  refine ⟨orderly, lawful, lawful.passes.generation_le, fun idle => ?_⟩
  by_cases launched : ∃ request d, action = .start request ∧
      s.host.launch s.launches request = .ok d
  · exact .inr launched
  · exact .inl ((lawful.passes.mono launched).still idle)

end Lawful

end SourceDebugger.Session
