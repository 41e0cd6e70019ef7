import SourceDebugger.Proofs.Session.Account
import SourceDebugger.Proofs.Session.Whereabouts
/-!
Output is reported, each piece once and in order. Whatever a session is asked to do, at a pause its log
holds all lines that the program has printed in this run, and at the end of the run all that it has
printed.
-/
namespace SourceDebugger

open Machine Effect Event

/-- A program under a debugger, with all that it prints written down. -/
def Machine.Executable.recording (e : Executable) (config : Config) : Host Recorder :=
  ⟨config, fun n request => (launch e n request).map (⟨·, []⟩), e.symbolsFor⟩

namespace Session

variable {w : Sight} {h : Host Recorder} {base : List String} {s t : Session Recorder}
  {u : Session Machine}

/-- What a change without further moves may come to. Only who gives up may lose what is in hand. -/
def Sums (h : Host Recorder) (base : List String) {α : Type} :
    Except Fault α × Session Recorder → Prop
  | (.ok _, t) => Account h base [] t ∨ Closed h base t
  | (.error e, t) =>
    Account h base [] t ∨ e = .unfinished ∧ t.host = h ∧ t.state.isExited = false

/-- How the books stand between two requests. -/
inductive Balance (h : Host Recorder) (base : List String) (s : Session Recorder) : Prop
  | going : Account h base [] s → Balance h base s
  | closed : Closed h base s → Balance h base s
  | lost : s.host = h → s.debuggee = none → s.state = .exited none (some .unfinished) →
      Balance h base s

section Drive

theorem drive_sums (lasting : w.Lasting) (most : Nat) {move : Option Move}
    (account : Account h base (Move.carries move) s) (echoes : Echoes plain s u)
    (expects : Expectant move s) (ready : Ready w u move) : Sums h base (drive most move s) := by
  induction most generalizing s u move with
  | zero =>
    cases move with
    | none => exact .inl account
    | some move =>
      have live := ready.failing.2.1.not_exited
      rw [echoes.same] at live
      exact .inr ⟨rfl, account.host, live⟩
  | succ most ih =>
    cases move with
    | none => exact .inl account
    | some move =>
      have tallies := advance_tallies account echoes expects ready
      have fares := advance_ready lasting ready
      obtain ⟨answer, after⟩ := advance_echo Recorder.faithful move s u echoes
      rw [drive, bind_run]
      rcases left : advance move s with ⟨e | next, s'⟩ <;>
        rcases right : advance move u with ⟨e' | next', u'⟩ <;>
        rw [left, right] at answer after <;> cases answer <;> rw [left] at tallies <;>
        rw [right] at fares
      · exact .inl tallies
      · rcases tallies with ⟨account, expects⟩ | ⟨rfl, closed⟩
        · exact ih account after expects fares
        · have stop : drive most none s' = (.ok (), s') := by cases most <;> rfl
          show Sums h base (drive most none s')
          rw [stop]
          exact .inr closed

theorem settle_sums (lasting : w.Lasting) {move : Move}
    (account : Account h base (Move.carries (some move)) s) (echoes : Echoes plain s u)
    (expects : Expectant (some move) s) (ready : Ready w u (some move)) :
    Sums h base (settle move s) := by
  rw [settle, bind_ok (get_run s)]
  exact drive_sums lasting _ account echoes expects ready

theorem Sums.fail {α : Type} {e : Fault}
    (sums : Sums h base ((.error e, s) : Except Fault α × Session Recorder)) :
    Balance h base (s.fail e) := by
  rw [Session.fail]
  cases exited : s.state.isExited with
  | true =>
    rcases sums with account | ⟨_, _, live⟩
    · exact .going account
    · simp [exited] at live
  | false =>
    rcases sums with account | ⟨rfl, host, _⟩
    · exact .closed (account.ends rfl none _)
    · refine .lost ?_ ?_ (exit_state s none _) <;> rw [Session.exit] <;>
        cases s.output.flush <;> first | exact host | rfl

theorem Sums.guarded {α : Type} {a : Change Recorder α} (sums : Sums h base (a s)) :
    Balance h base (guarded a s).2 := by
  rw [Session.guarded]
  rcases run : a s with ⟨e | x, t⟩ <;> rw [run] at sums
  · exact sums.fail
  · exact sums.elim .going .closed

end Drive

section Requests

/-- Without a debuggee, nothing but breakpoints can be changed until one is launched. -/
theorem perform_idle {δ : Type} [Debuggee δ] {s : Session δ} (idle : s.state.isLive = false)
    (gone : s.debuggee = none) {action : Action} (other : ∀ request, action ≠ .start request) :
    ∃ breakpoints, s.perform action = { s with breakpoints } := by
  have refused {operation : Operation} {α : Type} (request : ThreadId → Request δ α) :
      ((requirePaused operation >>= request) s).2 = s := by
    rw [bind_run, requirePaused_run]
    cases state : s.state with
    | paused => simp [state, RunState.isLive] at idle
    | notStarted | running | exited => rfl
  have quiet : s.state ≠ .running := fun running => by simp [running, RunState.isLive] at idle
  cases action with
  | start request => exact absurd rfl (other request)
  | pump millis =>
    refine ⟨s.breakpoints, ?_⟩
    show (pump millis s).2 = s
    rw [pump_run, if_neg quiet]
  | «continue» => exact ⟨s.breakpoints, refused _⟩
  | step kind => exact ⟨s.breakpoints, refused _⟩
  | «break» =>
    refine ⟨s.breakpoints, ?_⟩
    show (breakExecution s).2 = s
    rw [breakExecution, bind_ok (get_run s), ite_run, if_neg quiet, refuse, bind_ok (get_run s)]
    rfl
  | terminate =>
    refine ⟨s.breakpoints, ?_⟩
    show (terminate s).2 = s
    rw [terminate_refused idle]
  | add location => exact ⟨_, bindAll_detached (s := { s with breakpoints := _ }) gone⟩
  | remove id =>
    show ∃ breakpoints, (removeBreakpoint id s).2 = _
    cases found : s.breakpoints.registered? id with
    | none => exact ⟨s.breakpoints, by rw [removeBreakpoint, bind_ok (get_run s), found]; rfl⟩
    | some b => exact ⟨_, by rw [remove_unplaced found (.inr gone)]⟩
  | setEnabled id enabled => exact ⟨_, rfl⟩

variable (lasting : w.Lasting) (account : Account h base [] s) (echoes : Echoes plain s u)
  (ready : Ready w u none)

include account echoes in
/-- The session in which nothing is written down has the same debuggee. -/
theorem Account.seen {m : Machine} (attached : u.debuggee = some m) :
    ∃ d, s.debuggee = some d ∧ d.machine = m := by
  obtain ⟨_, d, _, present, _⟩ := account
  rw [echoes.same] at attached
  have seen : (s.debuggee.map Recorder.machine) = some m := attached
  rw [present] at seen
  exact ⟨d, present, Option.some.inj seen⟩

include lasting account echoes ready

theorem pump_balance (millis : Nat) : Balance h base (pump millis s).2 := by
  rw [pump_run]
  split
  · rename_i running
    obtain ⟨m, sound, moving⟩ := ready.on (echoes.same ▸ running)
    obtain ⟨d, d', attached, moved, looked, found⟩ := account.look millis
    obtain ⟨_, present, seen⟩ := account.seen echoes sound.attached
    cases attached.symm.trans present
    subst seen
    have sees := poll_ready lasting.toSteady sound (echoes.same ▸ running) moving
    rw [looked]
    rcases polled : poll d.machine with ⟨e | event, n⟩ <;> rw [polled] at sees found moved <;> dsimp only
    · exact Sums.fail (α := Unit) (.inl found)
    · cases event with
      | none => exact .going found
      | some event =>
        replace moved : d'.machine = n := moved
        have after : Echoes plain { s with debuggee := some d' } { u with debuggee := some n } :=
          ⟨by rw [echoes.same, ← moved]; rfl, echoes.numbered, echoes.unhit⟩
        have sums : Sums h base (settle (.handle event) { s with debuggee := some d' }) :=
          settle_sums lasting found after (fun _ _ _ _ same => by cases same) sees
        dsimp only
        rcases settled : settle (.handle event) { s with debuggee := some d' } with ⟨e | _, t⟩ <;>
          rw [settled] at sums
        · exact sums.fail
        · exact sums.elim .going .closed
  · exact .going account

omit lasting in
/-- A request for a paused session leaves any other as it is. -/
theorem paused_balance (operation : Operation) (request : ThreadId → Request Recorder Unit)
    (does : ∀ m, Sound w u m none → Resting m → u.stepper = none →
      (∃ reason, u.state = .paused reason mainThread) → Balance h base (request mainThread s).2) :
    Balance h base ((requirePaused operation >>= request) s).2 := by
  rw [bind_run, requirePaused_run]
  cases state : s.state with
  | paused reason thread =>
    have still : u.state = .paused reason thread := by rw [echoes.same]; exact state
    obtain ⟨rfl, m, sound, rest, stepless⟩ := ready.still still
    exact does m sound rest stepless ⟨reason, still⟩
  | notStarted | running | exited => exact .going account

theorem continue_balance : Balance h base (continueExecution s).2 := by
  refine paused_balance account echoes ready _ _ fun m sound rest stepless paused => ?_
  exact Sums.guarded (settle_sums lasting account echoes (fun _ _ _ _ same => by cases same)
    (.resume sound rest (.inr paused) fun t same => by cases same))

theorem step_balance (kind : StepKind) : Balance h base (step kind s).2 := by
  refine paused_balance account echoes ready _ _ fun m sound rest stepless paused =>
    Sums.guarded ?_
  obtain ⟨d, attached, rfl⟩ := account.seen echoes sound.attached
  have registers : (registers mainThread : Change Recorder _) s = (.ok d.machine.registers, s) :=
    ask_run attached _
  have frame : (frameAddress d.machine.registers : Change Recorder _) s =
      (.ok (CallStack.canonicalAddress s.traps d s.roster d.machine.registers), s) := ask_run attached _
  rw [beginStep, bind_ok registers, bind_ok frame, bind_ok (modify_run _ s)]
  generalize CallStack.canonicalAddress s.traps d s.roster d.machine.registers = frame
  generalize s.roster.lineAt? d.machine.registers.pc = line
  have begun : Account h base [] { s with stepper := some (.start kind mainThread line frame) } :=
    account.mute (mute_aside Recorder.silent_onwards rfl rfl rfl rfl rfl)
  have after : Echoes plain { s with stepper := some (.start kind mainThread line frame) }
      { u with stepper := some (.start kind mainThread line frame) } :=
    ⟨by rw [echoes.same]; rfl, echoes.numbered, echoes.unhit⟩
  have ready := begun_ready sound rest stepless (.inr paused) kind line frame
  by_cases out : kind = .out
  · rw [if_pos out] at ready ⊢
    exact settle_sums lasting begun after (fun _ _ _ _ same => by cases same) ready
  · rw [if_neg out] at ready ⊢
    exact settle_sums lasting begun after (fun _ _ _ _ same => by cases same) ready

omit lasting echoes ready in
theorem break_balance : Balance h base (breakExecution s).2 := by
  rw [breakExecution, bind_ok (get_run s), ite_run]
  split
  · have mute := access_mute Recorder.silent_onwards Recorder.bears.interrupt s
    refine Sums.guarded (a := access Debuggee.interrupt) ?_
    rcases run : (access Debuggee.interrupt : Change Recorder Unit) s with ⟨e | _, t⟩ <;> rw [run] at mute
    · exact .inl (account.mute mute)
    · exact .inl (account.mute mute)
  · rw [refuse, bind_ok (get_run s)]
    exact .going account

omit lasting in
theorem terminate_balance : Balance h base (terminate s).2 := by
  have still : u.state = s.state := by rw [echoes.same]; rfl
  have kills {m : Machine} (sound : Sound w u m none) (live : s.state.isExited = false) :
      Balance h base ((guarded (access Debuggee.terminate) >>= fun _ => awaitExit patience) s).2 := by
    obtain ⟨d, present, rfl⟩ := account.seen echoes sound.attached
    obtain ⟨host, _, heard, attached, quiet, told, written⟩ := account
    cases present.symm.trans attached
    obtain ⟨code, pending⟩ := kill_pending (ready.ended sound)
    have killed : guarded (access Debuggee.terminate) s =
        (.ok (), { s with debuggee := some ⟨(kill d.machine).2, d.written⟩ }) := by
      rw [guarded, access_run attached]
      have done : (Debuggee.terminate : Access Recorder Unit) d =
          (.ok (), ⟨(kill d.machine).2, d.written⟩) := by
        have killing : (kill d.machine).1 = .ok () := by rw [kill_run]
        show ((kill d.machine).1, (⟨(kill d.machine).2, d.written⟩ : Recorder)) = _
        rw [killing]
      rw [done]
    have ended (millis : Nat) : (Debuggee.poll millis : Access Recorder (Option Event))
        ⟨(kill d.machine).2, d.written⟩ =
          (.ok (some (.exited code)), ⟨{ (kill d.machine).2 with pending := [] }, d.written⟩) := by
      show ((poll (kill d.machine).2).1, (⟨(poll (kill d.machine).2).2,
        d.written ++ (kill d.machine).2.lookText⟩ : Recorder)) = _
      rw [poll_pending pending, lookText, pending]
      simp
    have two : patience = patience - 2 + 2 := by decide
    rw [bind_ok killed, two,
      awaitExit_ended (s := { s with debuggee := some ⟨(kill d.machine).2, d.written⟩ }) rfl live ended]
    have ended : Account h base []
        { s with debuggee := some ⟨{ (kill d.machine).2 with pending := [] }, d.written⟩ } :=
      ⟨host, _, heard, rfl, rfl, ⟨told.logs, told.output, told.announced⟩, written⟩
    exact .closed (ended.ends rfl _ _)
  rw [terminate, bind_ok (get_run s)]
  cases state : s.state with
  | running =>
    obtain ⟨m, sound, _⟩ := ready.on (still.trans state)
    exact kills sound (by rw [state]; rfl)
  | paused reason thread =>
    obtain ⟨rfl, m, sound, _, _⟩ := ready.still (still.trans state)
    exact kills sound (by rw [state]; rfl)
  | notStarted | exited =>
    dsimp only
    rw [refuse, bind_ok (get_run s)]
    exact .going account

/-- No request but a start opens new books. -/
theorem perform_balance {action : Action} (other : ∀ request, action ≠ .start request) :
    Balance h base (s.perform action) := by
  cases action with
  | start request => exact absurd rfl (other request)
  | pump millis => exact pump_balance lasting account echoes ready millis
  | «continue» => exact continue_balance lasting account echoes ready
  | step kind => exact step_balance lasting account echoes ready kind
  | «break» => exact break_balance account
  | terminate => exact terminate_balance account echoes ready
  | add location => exact .going (account.mute (add_mute Recorder.bears location s))
  | remove id => exact .going (account.mute (remove_mute Recorder.bears id s))
  | setEnabled id enabled =>
    exact .going (account.mute (mute_aside Recorder.silent_onwards rfl rfl rfl rfl rfl))

end Requests

section Start

/-- The process goes on waiting, with as much to tell. -/
def Abides (d d' : Recorder) : Prop :=
  d'.machine.motion = d.machine.motion ∧ d'.machine.pending = d.machine.pending

theorem abides_onwards : Onwards Abides where
  refl _ := ⟨rfl, rfl⟩
  trans first second := ⟨second.1.trans first.1, second.2.trans first.2⟩

theorem write_abides (address : UInt64) (bytes : Bytes) :
    Keeps Abides (Debuggee.write address bytes : Access Recorder Unit) := by
  intro d
  show Abides d ⟨(store address bytes d.machine).2, d.written⟩
  rw [store_run]
  rcases d.machine.locate address bytes.length with e | ⟨r, offset⟩
  · exact ⟨rfl, rfl⟩
  · cases r <;> exact ⟨rfl, rfl⟩

/-- What a new process has to tell is taken note of, one event after the other, and then it runs. -/
theorem runFromEntry_sums {p : Executable} (most : Nat) {d : Recorder} (account : Account h base [] s)
    (running : s.state = .running) (attached : s.debuggee = some d) (still : d.machine.motion = .stopped)
    (events : ∀ e ∈ d.machine.pending, Notice p e ∧ ∀ text, e ≠ .output text) :
    Sums h base (runFromEntry most s) := by
  induction most generalizing s d with
  | zero => exact .inr ⟨rfl, account.host, by rw [running]; rfl⟩
  | succ most ih =>
    obtain ⟨_, d', present, moved, looked, found⟩ := account.look 0
    cases attached.symm.trans present
    rw [runFromEntry]
    cases pending : d.machine.pending with
    | nil =>
      rw [poll_resting (.inl still) pending] at looked found
      have mute := access_mute Recorder.silent_onwards (Recorder.bears.resume .continue)
        { s with debuggee := some d' }
      rw [bind_ok looked]
      dsimp only
      rcases run : (access (Debuggee.resume .continue) : Change Recorder Unit)
        { s with debuggee := some d' } with ⟨e | _, t⟩ <;> rw [run] at mute
      · exact .inl (found.mute mute)
      · exact .inl (found.mute mute)
    | cons e rest =>
      rw [poll_pending pending] at looked found moved
      obtain ⟨known, other⟩ := events e (by simp [pending])
      obtain ⟨t, noted, informs⟩ := notice_informs (found.active running) e
      have after := found.note running
      have abides := (notice_mute abides_onwards write_abides other { s with debuggee := some d' }).debuggee
      rw [noted] at after abides
      have handled : advance (.handle e) { s with debuggee := some d' } = (.ok none, t) := by
        have handles : (handleEvent e : Change Recorder _) = (notice e >>= fun _ => pure none) := by
          cases known <;> rfl
        show handleEvent e _ = _
        rw [handles, bind_ok noted, pure_run]
      have on : t.state = .running := informs.state.trans running
      rw [bind_ok looked]
      dsimp only
      rw [bind_ok (settle_one handled), bind_ok (get_run t), ite_run,
        if_neg (by simp [known.not_stop.1, on])]
      cases next : t.debuggee with
      | none => rw [next] at abides; cases abides
      | some d'' =>
        rw [next] at abides
        cases abides with
        | some abides =>
          have left : d''.machine.pending = rest := abides.2.trans (by rw [moved])
          refine ih after on next (abides.1.trans (by rw [moved]; exact still)) fun e member => ?_
          rw [left] at member
          exact events e (by simp [pending, member])

/-- A start opens new books. -/
theorem start_balance {e : Executable} {config : Config} (host : s.host = e.recording config)
    (idle : s.state.isLive = false) {request : LaunchRequest}
    (own : Path.same request.executable e.path = true) :
    Balance (e.recording config) (DebuggerEvent.logs s.outbox) (s.perform (.start request)) := by
  have launched : s.host.launch s.launches request = .ok ⟨boot e, []⟩ := by
    rw [host]
    show Except.map _ (launch e s.launches request) = _
    rw [launch, if_pos own]
    rfl
  show Balance _ _ (start request s).2
  rw [start_run idle, launched]
  refine Sums.guarded (runFromEntry_sums (p := e) patience ?_ rfl rfl rfl (known_startEvents e))
  refine ⟨host, _, [], rfl, ?_, ⟨?_, rfl, fun _ _ paused => by cases paused⟩, rfl⟩
  · exact spoken_others fun event member => (known_startEvents e event member).2
  · exact (List.append_nil _).symm

end Start

section Runs

/-- Between two requests there is an account as long as something runs. -/
def Audited (h : Host Recorder) (s : Session Recorder) : Prop :=
  s.host = h ∧ (s.debuggee = none ∧ s.state.isLive = false ∨ ∃ base, Account h base [] s)

theorem Balance.audited (balance : Balance h base s) : Audited h s := by
  cases balance with
  | going account => exact ⟨account.host, .inr ⟨base, account⟩⟩
  | closed closed =>
    obtain ⟨code, fault, state, _⟩ := closed.ended
    exact ⟨closed.host, .inl ⟨closed.gone, by rw [state]; rfl⟩⟩
  | lost host gone state => exact ⟨host, .inl ⟨gone, by rw [state]; rfl⟩⟩

/-- The books of a run are kept by all that does not begin another one. -/
theorem Balance.perform (lasting : w.Lasting) (balance : Balance h base s) (echoes : Echoes plain s u)
    (ready : Ready w u none) {action : Action} (other : ∀ request, action ≠ .start request) :
    Balance h base (s.perform action) := by
  cases balance with
  | going account => exact perform_balance lasting account echoes ready other
  | closed closed =>
    obtain ⟨host, gone, ⟨code, fault, state, last⟩, told⟩ := closed
    obtain ⟨breakpoints, done⟩ := perform_idle (by rw [state]; rfl) gone other
    rw [done]
    exact .closed ⟨host, gone, ⟨code, fault, state, last⟩, told⟩
  | lost host gone state =>
    obtain ⟨breakpoints, done⟩ := perform_idle (by rw [state]; rfl) gone other
    rw [done]
    exact .lost host gone state

theorem Audited.perform {e : Executable} {config : Config} (audited : Audited (e.recording config) s)
    (echoes : Echoes plain s u) (ready : Ready (e.anywhere config) u none) (action : Action) :
    Audited (e.recording config) (s.perform action) := by
  have lasting := e.anywhere_lasting config
  by_cases starts : ∃ request, action = .start request
  · obtain ⟨request, rfl⟩ := starts
    cases live : s.state.isLive with
    | true =>
      show Audited _ (start request s).2
      rw [start_refused live]
      exact audited
    | false =>
      cases own : Path.same request.executable e.path with
      | true => exact (start_balance audited.1 live own).audited
      | false =>
        have failed : s.host.launch s.launches request =
            .error (.executableNotFound request.executable) := by
          rw [audited.1]
          show Except.map _ (launch e s.launches request) = _
          rw [launch, if_neg (by simp [own])]
          rfl
        show Audited _ (start request s).2
        rw [start_run live, failed]
        refine ⟨audited.1, audited.2.imp id fun known => known.imp fun base account => account.mute ?_⟩
        exact mute_aside Recorder.silent_onwards rfl rfl rfl rfl rfl
  · have other : ∀ request, action ≠ .start request := fun request same => starts ⟨request, same⟩
    obtain ⟨host, ⟨gone, idle⟩ | ⟨base, account⟩⟩ := audited
    · obtain ⟨breakpoints, done⟩ := perform_idle idle gone other
      rw [done]
      exact ⟨host, .inl ⟨gone, idle⟩⟩
    · exact (perform_balance lasting account echoes ready other).audited

theorem plain_host (e : Executable) (config : Config) :
    plain.host (e.recording config) = e.host config := by
  have same (n : Nat) (request : LaunchRequest) :
      ((launch e n request).map (⟨·, []⟩ : Machine → Recorder)).map Recorder.machine =
        launch e n request := by
    cases launch e n request <;> rfl
  exact congrArg (fun launch => (⟨config, launch, e.symbolsFor⟩ : Host Machine))
    (funext fun n => funext fun request => same n request)

/-- What is written down has no part in what a session does. -/
theorem recording_echoes (e : Executable) (config : Config) (actions : List Action) :
    Echoes plain (after (e.recording config) actions) (after (e.host config) actions) := by
  refine performs_echo Recorder.faithful ⟨?_, ⟨rfl, rfl⟩, fun _ _ => rfl⟩ actions
  rw [← plain_host]
  rfl

theorem recording_ready (e : Executable) (config : Config) (actions : List Action) :
    Ready (e.anywhere config) (after (e.host config) actions) none :=
  after_ready (e.anywhere_lasting config) rfl actions

theorem after_concat {δ : Type} [Debuggee δ] (host : Host δ) (actions : List Action) (action : Action) :
    after host (actions ++ [action]) = (after host actions).perform action := by
  rw [after, List.foldl_append]
  rfl

theorem after_audited (e : Executable) (config : Config) (actions : List Action) :
    Audited (e.recording config) (after (e.recording config) actions) := by
  induction actions using List.reverseRecOn with
  | nil => exact ⟨rfl, .inl ⟨rfl, rfl⟩⟩
  | append_singleton actions action audited =>
    rw [after_concat]
    exact audited.perform (recording_echoes e config actions) (recording_ready e config actions) action

theorem after_balance (e : Executable) (config : Config) (earlier : List Action)
    {request : LaunchRequest} (idle : (after (e.host config) earlier).state.isLive = false)
    (own : Path.same request.executable e.path = true) (later : List Action)
    (once : ∀ action ∈ later, ∀ request, action ≠ .start request) :
    Balance (e.recording config) (DebuggerEvent.logs (after (e.host config) earlier).outbox)
      (after (e.recording config) (earlier ++ .start request :: later)) := by
  have echoes := recording_echoes e config
  induction later using List.reverseRecOn with
  | nil =>
    have same := (echoes earlier).same
    have still : (after (e.recording config) earlier).state.isLive = false := by
      rw [same] at idle
      exact idle
    have balance := start_balance (after_audited e config earlier).1 still own
    rw [after_concat, same]
    exact balance
  | append_singleton later action ih =>
    have before := ih fun action member => once action (by simp [member])
    rw [← List.cons_append, ← List.append_assoc, after_concat]
    exact before.perform (e.anywhere_lasting config) (echoes _) (recording_ready e config _)
      (once action (by simp))

/-- The output of a run is reported once, in order, and before each stop: in a pause the last that was
told is the pause, and the lines that were told in this run are what the program has printed in it, up to
the last line feed and with plain line ends; at the end the rest is told, too. Only a session that gives
up a debuggee which comes to no stop may have something left. -/
theorem output_reported (e : Executable) (config : Config) (earlier later : List Action)
    (request : LaunchRequest) (idle : (after (e.host config) earlier).state.isLive = false)
    (own : Path.same request.executable e.path = true)
    (once : ∀ action ∈ later, ∀ request, action ≠ .start request) :
    let before := DebuggerEvent.logs (after (e.host config) earlier).outbox
    let s := after (e.recording config) (earlier ++ .start request :: later)
    let t := after (e.host config) (earlier ++ .start request :: later)
    t = plain.of s ∧
      (∀ reason thread, t.state = .paused reason thread →
        t.outbox.getLast? = some (.paused reason thread) ∧
          ∃ d messages, s.debuggee = some d ∧ DebuggerEvent.logs t.outbox = before ++ messages ∧
            (∀ message ∈ messages, Output.IsLine message) ∧
              String.join messages = String.ofList (Output.plainEnds (Output.terminated d.written))) ∧
      ∀ code fault, t.state = .exited code fault → fault ≠ some .unfinished →
        t.outbox.getLast? = some (.exited code) ∧
          ∃ d messages rest, s.departed.head? = some d ∧
            DebuggerEvent.logs t.outbox = before ++ (messages ++ rest.toList) ∧
              (∀ message ∈ messages, Output.IsLine message) ∧
                rest = (if (Output.unterminated d.written).isEmpty then none
                  else some (String.ofList (Output.unterminated d.written))) ∧
                  String.join (messages ++ rest.toList) = String.ofList (Output.plainEnds d.written) := by
  intro before s t
  have echoes : Echoes plain s t := recording_echoes e config _
  have balance : Balance (e.recording config) before s := after_balance e config earlier idle own later once
  have ready : Ready (e.anywhere config) t none := recording_ready e config _
  have same : t = plain.of s := echoes.same
  have state : t.state = s.state := by rw [same]; rfl
  have outbox : t.outbox = s.outbox := by rw [same]; rfl
  refine ⟨same, fun reason thread paused => ?_, fun code fault exited followed => ?_⟩
  · rw [state] at paused
    cases balance with
    | going account =>
      obtain ⟨_, d, heard, attached, _, told, written⟩ := account
      rw [spoken_nil, List.append_nil] at written
      rw [outbox]
      exact ⟨told.announced reason thread paused, d, Output.lines d.written, attached,
        written ▸ told.logs, fun _ member => Output.isLine_of_mem_lines _ member, Output.join_lines _⟩
    | closed closed =>
      obtain ⟨_, _, ended, _⟩ := closed.ended
      cases paused.symm.trans ended
    | lost _ _ ended => cases paused.symm.trans ended
  · rw [state] at exited
    cases balance with
    | going account =>
      obtain ⟨_, d, _, attached, _⟩ := account
      have gone : s.debuggee.isSome = false :=
        (after_orderly (e.recording config) _).attached.trans (by rw [exited]; rfl)
      rw [attached] at gone
      cases gone
    | closed closed =>
      obtain ⟨_, _, ⟨code', fault', ended, last⟩, d, departed, logs⟩ := closed
      cases exited.symm.trans ended
      rw [outbox]
      exact ⟨last, d, Output.lines d.written, (Output.buffered d.written).flush, departed, logs,
        fun _ member => Output.isLine_of_mem_lines _ member, Output.flush_buffered _, Output.join_all _⟩
    | lost _ _ ended =>
      cases exited.symm.trans ended
      exact absurd rfl followed

/-- A program that prints in pieces, with line ends of both kinds. -/
def hello : Program where
  path := "/bin/hello"
  sourceFile := "hello.src"
  entry := "main"
  functions := [⟨"main", [], [], some 1, some 5,
    [⟨some 2, [.print "on"]⟩, ⟨some 3, [.print "e\r\ntwo\nth"]⟩, ⟨some 4, [.exit 0]⟩]⟩]
  libraries := []

def helloCode : Executable := hello.assemble.toOption.getD default

def helloBefore : List Action := [.add (.address 0x40001d)]

/-- It is stopped before its last instruction. -/
def helloStopped : List Action :=
  helloBefore ++ .start ⟨"/bin/hello", "/", []⟩ :: [.pump 0, .pump 0, .pump 0]

/-- It is ended there. -/
def helloEnded : List Action :=
  helloBefore ++ .start ⟨"/bin/hello", "/", []⟩ :: [.pump 0, .pump 0, .pump 0, .terminate]

theorem output_reported_hello :
    ((after (helloCode.host .standard) helloStopped).state = .paused .breakpoint mainThread ∧
      ∃ d messages, (after (helloCode.recording .standard) helloStopped).debuggee = some d ∧
        DebuggerEvent.logs (after (helloCode.host .standard) helloStopped).outbox = [] ++ messages ∧
          (∀ message ∈ messages, Output.IsLine message) ∧
            String.join messages = String.ofList (Output.plainEnds (Output.terminated d.written))) ∧
      (after (helloCode.host .standard) helloEnded).state = .exited (some 137) none ∧
        DebuggerEvent.logs (after (helloCode.host .standard) helloEnded).outbox =
            ["one\n", "two\n", "th"] ∧
          (after (helloCode.host .standard) helloEnded).outbox.getLast? = some (.exited (some 137)) := by
  have idle : (after (helloCode.host .standard) helloBefore).state.isLive = false := by decide +kernel
  have own : Path.same "/bin/hello" helloCode.path = true := by decide +kernel
  have stopped := output_reported helloCode .standard helloBefore [.pump 0, .pump 0, .pump 0]
    ⟨"/bin/hello", "/", []⟩ idle own (by simp)
  have ended := output_reported helloCode .standard helloBefore [.pump 0, .pump 0, .pump 0, .terminate]
    ⟨"/bin/hello", "/", []⟩ idle own (by simp)
  have here : (after (helloCode.host .standard) helloStopped).state = .paused .breakpoint mainThread := by
    decide +kernel
  have there : (after (helloCode.host .standard) helloEnded).state = .exited (some 137) none ∧
      DebuggerEvent.logs (after (helloCode.host .standard) helloEnded).outbox =
        ["one\n", "two\n", "th"] := by decide +kernel
  exact ⟨⟨here, (stopped.2.1 _ _ here).2⟩, there.1, there.2, (ended.2.2 _ _ there.1 (by simp)).1⟩

end Runs

end Session

end SourceDebugger
