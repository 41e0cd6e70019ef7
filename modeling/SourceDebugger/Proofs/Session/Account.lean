import SourceDebugger.Proofs.Machine.Recorder
import SourceDebugger.Proofs.Output.Lines
import SourceDebugger.Proofs.Session.Echo
import SourceDebugger.Proofs.Session.Requests
import SourceDebugger.Proofs.Session.Silence
/-!
An account of the output. All that a program has printed is in the log, in the line buffer, or in the
hands of the session, which takes note of it before it does anything else. Every move keeps the account.
-/
namespace SourceDebugger

open Machine Effect Event

namespace Recorder

/-- Nothing is printed, and no text comes to be pending or is lost. -/
def Silent (d d' : Recorder) : Prop :=
  d'.written = d.written ∧ spoken d'.machine.pending = spoken d.machine.pending

theorem silent_onwards : Onwards Silent where
  refl _ := ⟨rfl, rfl⟩
  trans first second := ⟨second.1.trans first.1, second.2.trans first.2⟩

theorem carry_silent {α : Type} {a : Access Machine α}
    (keeps : ∀ m, spoken (a m).2.pending = spoken m.pending) : Keeps Silent (carry a) :=
  fun d => ⟨rfl, keeps d.machine⟩

theorem resume_spoken (mode : ResumeMode) (m : Machine) :
    spoken (Machine.resume mode m).2.pending = spoken m.pending := by
  rw [Machine.resume.eq_def, bind_ok (get_run m)]
  by_cases exited : m.motion = .exited
  · simp only [if_pos exited]
    rfl
  · simp only [if_neg exited]
    cases m.pendingSignal with
    | some signal => simp [bind_ok (modify_run _ _), exitWith_run, spoken]
    | none =>
      cases mode with
      | «continue» => rfl
      | step thread =>
        dsimp only
        by_cases main : thread = mainThread <;> simp [main]

theorem bears : Bears Silent where
  toOnwards := silent_onwards
  write address bytes := carry_silent fun m => congrArg spoken (store_pending address bytes m)
  resume mode := carry_silent (resume_spoken mode)
  setRegisters thread regs := carry_silent fun m => by
    by_cases main : thread = mainThread <;> simp [Debuggee.setRegisters, main]
  interrupt := carry_silent fun m => rfl

theorem bides : Session.Bides (Session.Mute Silent) := Session.mute_bides bears

end Recorder

namespace Session

/-- What a session has told of the text it has heard. -/
structure Told {δ : Type} (base : List String) (heard : List Char) (s : Session δ) : Prop where
  logs : DebuggerEvent.logs s.outbox = base ++ Output.lines heard
  output : s.output = Output.buffered heard
  announced : s.Announced

/-- All that has been printed has been heard, apart from what is carried. -/
structure Account (h : Host Recorder) (base : List String) (carried : List Event)
    (s : Session Recorder) : Prop where
  host : s.host = h
  told : ∃ d heard, s.debuggee = some d ∧ spoken d.machine.pending = [] ∧ Told base heard s ∧
    d.written = heard ++ spoken carried

/-- The run is over, and all that was printed is in the log. -/
structure Closed (h : Host Recorder) (base : List String) (s : Session Recorder) : Prop where
  host : s.host = h
  gone : s.debuggee = none
  ended : ∃ code fault, s.state = .exited code fault ∧ s.outbox.getLast? = some (.exited code)
  told : ∃ d, s.departed.head? = some d ∧ DebuggerEvent.logs s.outbox =
    base ++ (Output.lines d.written ++ (Output.buffered d.written).flush.toList)

variable {h : Host Recorder} {base : List String} {carried rest : List Event} {s t : Session Recorder}

section Events

theorem Told.mute {δ : Type} {Q : δ → δ → Prop} {s t : Session δ} {heard : List Char}
    (told : Told base heard s) (mute : Mute Q s t) : Told base heard t :=
  ⟨mute.logs.trans told.logs, mute.output.trans told.output, mute.announced told.announced⟩

theorem Account.mute (account : Account h base carried s) (mute : Mute Recorder.Silent s t) :
    Account h base carried t := by
  obtain ⟨host, d, heard, attached, quiet, told, written⟩ := account
  have kept := mute.debuggee
  rw [attached] at kept
  cases after : t.debuggee with
  | none => rw [after] at kept; cases kept
  | some d' =>
    rw [after] at kept
    cases kept with
    | some silent =>
      exact ⟨mute.host.trans host, d', heard, after, silent.2.trans quiet, told.mute mute,
        silent.1.trans written⟩

/-- It is the text alone that counts of what is carried. -/
theorem Account.alike {es fs : List Event} (account : Account h base es s)
    (same : spoken fs = spoken es) : Account h base fs s := by
  obtain ⟨host, d, heard, attached, quiet, told, written⟩ := account
  exact ⟨host, d, heard, attached, quiet, told, written.trans (by rw [same])⟩

theorem Told.hear {heard : List Char} (told : Told base heard s) (running : s.state = .running)
    (text : String) : Told base (heard ++ text.toList) (notice (.output text) s).2 where
  logs := by
    have lines : DebuggerEvent.logs ((s.output.push text).1.map .log) = (s.output.push text).1 := by
      simp [DebuggerEvent.logs, List.filterMap_map]
    show DebuggerEvent.logs (s.outbox ++ (s.output.push text).1.map .log) = _
    rw [DebuggerEvent.logs, List.filterMap_append]
    show DebuggerEvent.logs s.outbox ++ DebuggerEvent.logs _ = _
    rw [told.logs, lines, told.output, Output.lines_append, List.append_assoc]
  output := by
    show (s.output.push text).2 = _
    rw [told.output, Output.buffered_append]
  announced reason thread paused := by
    have same : (notice (.output text) s).2.state = s.state := rfl
    rw [same, running] at paused
    cases paused

/-- While the program runs, note is taken of the next of the events that are carried. -/
theorem Account.note {e : Event} (account : Account h base (e :: rest) s)
    (running : s.state = .running) : Account h base rest (notice e s).2 := by
  by_cases output : ∃ text, e = .output text
  · obtain ⟨text, rfl⟩ := output
    obtain ⟨host, d, heard, attached, quiet, told, written⟩ := account
    refine ⟨host, d, heard ++ text.toList, attached, quiet, told.hear running text, ?_⟩
    rw [written, spoken_cons, List.append_assoc]
    simp [spoken]
  · have other : ∀ text, e ≠ .output text := fun text same => output ⟨text, same⟩
    exact (account.alike (by rw [spoken_cons, spoken_other other]; rfl)).mute
      (notice_mute Recorder.silent_onwards Recorder.bears.write other s)

theorem Account.active (account : Account h base carried s) (running : s.state = .running) :
    s.Active := by
  obtain ⟨_, d, _, attached, _⟩ := account
  exact ⟨by rw [attached]; rfl, by rw [running]; rfl⟩

theorem Account.notes {es : List Event} (account : Account h base (es ++ rest) s)
    (running : s.state = .running) :
    ∃ t, es.forM notice s = (.ok (), t) ∧ Account h base rest t := by
  induction es generalizing s with
  | nil => exact ⟨s, rfl, account⟩
  | cons e es ih =>
    obtain ⟨t, done, informs⟩ := notice_informs (account.active running) e
    have next := account.note running
    rw [done] at next
    obtain ⟨u, others, after⟩ := ih next (informs.state.trans running)
    refine ⟨u, ?_, after⟩
    show (notice e >>= fun _ => es.forM notice) s = _
    rw [bind_ok done]
    exact others

/-- At the end what is left in the buffer is told as well. -/
theorem Account.ends (account : Account h base carried s) (nothing : spoken carried = [])
    (code : Option Int) (fault : Option Fault) : Closed h base (s.exit code fault) := by
  obtain ⟨host, d, heard, attached, _, told, written⟩ := account
  rw [nothing, List.append_nil] at written
  have outbox : (s.exit code fault).outbox =
      s.outbox ++ s.output.flush.toList.map .log ++ [.exited code] := by
    rw [exit]
    cases s.output.flush <;> simp [report]
  have rests (rest : List String) :
      DebuggerEvent.logs (s.outbox ++ rest.map .log ++ [.exited code]) = DebuggerEvent.logs s.outbox ++ rest := by
    simp [DebuggerEvent.logs, List.filterMap_map]
  refine ⟨?_, ?_, ⟨code, fault, exit_state s code fault, ?_⟩, d, ?_, ?_⟩
  · rw [← host, exit]
    cases s.output.flush <;> rfl
  · rw [exit]
    cases s.output.flush <;> rfl
  · rw [outbox, List.getLast?_concat]
  · rw [exit]
    cases s.output.flush <;> simp [report, attached]
  · rw [outbox, rests, told.logs, told.output, written, List.append_assoc]

end Events

/-- Whoever holds notices back knows what comes next. -/
def Expectant (move : Option Move) (s : Session Recorder) : Prop :=
  ∀ thread pc mode notices, move = some (.await thread pc mode notices) → notices ≠ [] →
    ∀ d, s.debuggee = some d → d.machine.pending ≠ []

/-- A move that has no text in hand. -/
def Move.Unladen (next : Option Move) : Prop :=
  spoken (carries next) = [] ∧
    ∀ thread pc mode notices, next = some (.await thread pc mode notices) → notices = []

theorem Move.Idle.unladen {next : Option Move} (idle : Move.Idle next) : Move.Unladen next := by
  refine ⟨by rw [idle]; rfl, fun thread pc mode notices same => ?_⟩
  subst same
  exact idle

/-- What a move may come to. -/
def Tallies (h : Host Recorder) (base : List String) :
    Except Fault (Option Move) × Session Recorder → Prop
  | (.ok next, t) =>
    Account h base (Move.carries next) t ∧ Expectant next t ∨ next = none ∧ Closed h base t
  | (.error _, t) => Account h base [] t

section Moves

variable {w : Sight} {u : Session Machine} {d : Recorder}

theorem Move.Unladen.expectant {next : Option Move} (unladen : Move.Unladen next)
    (s : Session Recorder) : Expectant next s :=
  fun thread pc mode notices same some => absurd (unladen.2 thread pc mode notices same) some

/-- A change that is mute, and hands nothing on, keeps the account. -/
theorem Account.tallies {a : Change Recorder (Option Move)} (account : Account h base carried s)
    (nothing : spoken carried = []) (mute : Keeps (Mute Recorder.Silent) a)
    (unladen : Yields Move.Unladen a) : Tallies h base (a s) := by
  have after := account.mute (mute s)
  rcases run : a s with ⟨e | next, t⟩ <;> rw [run] at after
  · exact after.alike (by rw [nothing]; rfl)
  · have empty := unladen s next t run
    exact .inl ⟨after.alike (by rw [nothing, empty.1]), empty.expectant t⟩

/-- It is enough if nothing at all is handed on. -/
theorem Account.passes {a : Change Recorder (Option Move)} (account : Account h base carried s)
    (nothing : spoken carried = []) (mute : Keeps (Mute Recorder.Silent) a)
    (idle : Yields Move.Idle a) : Tallies h base (a s) :=
  account.tallies nothing mute fun s next t done => (idle s next t done).unladen

theorem handle_tallies {e : Event} (account : Account h base [e] s)
    (running : e.isExit = true ∨ s.state = .running) : Tallies h base (advance (.handle e) s) := by
  have noted (e : Event) (account : Account h base [e] s) (running : s.state = .running)
      (handles : (handleEvent e : Change Recorder _) = (notice e >>= fun _ => pure none)) :
      Tallies h base (handleEvent e s) := by
    obtain ⟨t, done, _⟩ := notice_informs (account.active running) e
    have after := account.note running
    rw [done] at after
    rw [handles, bind_ok done, pure_run]
    have unladen : Move.Unladen none := Move.Idle.unladen rfl
    exact .inl ⟨after, unladen.expectant t⟩
  cases e with
  | trap thread pc kind =>
    exact account.passes rfl (Recorder.bides.handleTrap thread pc kind)
      (handleTrap_idle thread pc kind)
  | signal thread number description =>
    exact account.passes rfl (Recorder.bides.pauseAt (by simp) _) (pauseAt_idle _ _)
  | exited code => exact .inr ⟨rfl, account.ends rfl _ _⟩
  | threadStarted | threadEnded | moduleLoaded | moduleUnloaded | output =>
    exact noted _ account (running.resolve_left Bool.false_ne_true) rfl

/-- A look finds what has been printed during it. -/
theorem Account.look (account : Account h base carried s) (millis : Nat) :
    ∃ d d', s.debuggee = some d ∧ d'.machine = (poll d.machine).2 ∧
      access (Debuggee.poll millis) s = ((poll d.machine).1, { s with debuggee := some d' }) ∧
      Account h base (carried ++ found (poll d.machine).1) { s with debuggee := some d' } := by
  obtain ⟨host, d, heard, attached, quiet, told, written⟩ := account
  have text := poll_text d.machine
  rw [quiet, poll_mute quiet, List.nil_append, List.append_nil] at text
  refine ⟨d, ⟨(poll d.machine).2, d.written ++ d.machine.lookText⟩, attached, rfl,
    access_run attached _, host, _, heard, rfl, poll_mute quiet, ⟨told.logs, told.output, told.announced⟩, ?_⟩
  rw [text, written, spoken_append, List.append_assoc]

theorem afterLift_tallies {thread : ThreadId} {pc : UInt64} {mode : ResumeMode}
    {notices : List Event} {stop : Event} (account : Account h base (notices ++ [stop]) s)
    (running : s.state = .running) (halts : stop.isStop = true ∨ stop.isExit = true)
    (restored : stop.isExit = false → (instrumented (Instrumented.restore pc) s).1 = .ok ()) :
    Tallies h base (afterLift thread pc mode notices stop s) := by
  have mute := mute_onwards Recorder.silent_onwards
  have settles (here : Bool) {s : Session Recorder} (account : Account h base (notices ++ [stop]) s)
      (running : s.state = .running) : Tallies h base ((notices.forM notice >>= fun _ =>
        if here then
          if mode = .step thread then registers thread >>= fun regs =>
            pure (some (.stepped thread regs.pc))
          else access (Debuggee.resume mode) >>= fun _ => pure none
        else pure (some (.handle stop)) : Change Recorder (Option Move)) s) := by
    obtain ⟨t, done, after⟩ := account.notes running
    rw [bind_ok done]
    refine after.tallies (spoken_stop halts) (.branch (.branch ?_ ?_) (.answer mute _))
      (.branch (.branch (.seq fun _ => .answer (Move.Idle.unladen rfl))
        (.seq fun _ => .answer (Move.Idle.unladen rfl))) (.answer ⟨spoken_stop halts, by simp⟩))
    · exact .seq mute (registers_keeps mute thread) fun _ => .answer mute _
    · exact .seq mute (access_mute Recorder.silent_onwards (Recorder.bears.resume mode)) fun _ =>
        .answer mute _
  cases exit : stop.isExit with
  | true =>
    unfold afterLift
    rw [ite_run, if_pos exit]
    exact settles _ account running
  | false =>
    have hushed := instrumented_hushed (Instrumented.restore pc) s
    have kept := instrumented_mute Recorder.silent_onwards (Instrumented.restore_keeps
      Recorder.silent_onwards Recorder.bears.write pc) s
    have answer := restored exit
    rcases run : instrumented (Instrumented.restore pc) s with ⟨e | _, t⟩ <;>
      rw [run] at hushed kept answer
    · cases answer
    · unfold afterLift
      rw [ite_run, if_neg (by simp [exit]), bind_ok run]
      exact settles _ (account.mute kept) (hushed.state.trans running)

/-- A machine in a single step that has found a notice still has the end of the step to tell. -/
theorem Moving.pending_of_notice {stepping : Prop} {m n : Machine} {e : Event}
    (moving : Moving stepping m) (fresh : m.motion ≠ .running) (looked : poll m = (.ok (some e), n))
    (aside : e.isStop = false) (on : e.isExit = false) : n.pending ≠ [] := by
  cases moving with
  | going running => exact absurd running fresh
  | stepped stopped pending =>
    rw [poll_pending pending] at looked
    cases looked
    cases aside
  | ended code exited pending =>
    rw [poll_pending pending] at looked
    cases looked
    cases on
  | stepping motion quiet =>
    have single := poll_stepping motion quiet
    rw [looked] at single
    cases single with
    | nothing => cases aside
    | notice => simp [rested]
    | stop done one =>
      rcases execute_report done with ⟨_, rfl⟩ | report
      · rw [trapped, quiet] at one
        cases (List.cons.inj one).1
        cases aside
      · cases report with
        | signal number description pending =>
          rw [quiet, one] at pending
          cases (List.cons.inj pending).1
          cases aside
        | exit code pending =>
          rw [quiet, one] at pending
          cases (List.cons.inj pending).1
          cases on

/-- How a session whose program's output is written down is repeated by one in which it is not. -/
def plain : Echo Recorder Machine := ⟨Recorder.machine, 0, [], 0, fun _ => 0, []⟩

theorem await_tallies {pc : UInt64} {mode : ResumeMode} {notices : List Event} {m : Machine}
    (account : Account h base notices s) (echoes : Echoes plain s u)
    (expects : Expectant (some (.await mainThread pc mode notices)) s)
    (sound : Sound w u m (some pc)) (moving : Moving True m) (fresh : m.motion ≠ .running)
    (running : u.state = .running) (known : ∀ e ∈ notices, Notice w.program e) :
    Tallies h base (advance (.await mainThread pc mode notices) s) := by
  obtain ⟨d, d', attached, moved, looked, found⟩ := account.look s.host.config.pollMillis
  have same : u = plain.of s := echoes.same
  have seen : d.machine = m := by
    have attached' := sound.attached
    rw [same] at attached'
    exact Option.some.inj ((congrArg (Option.map Recorder.machine) attached).symm.trans attached')
  subst seen
  replace expects : notices ≠ [] → d.machine.pending ≠ [] := fun some =>
    expects _ _ _ _ rfl some d attached
  have still : s.state = .running := by rw [same] at running; exact running
  rw [advance, awaitStop, bind_ok (get_run s)]
  rcases polled : poll d.machine with ⟨e | event, n⟩ <;> rw [polled] at looked found moved
  · -- a look fails only if nothing was pending, so nothing is held back either
    have none : notices = [] := by
      by_contra some
      obtain ⟨event, rest, pending⟩ := List.exists_cons_of_ne_nil (expects some)
      rw [poll_pending pending] at polled
      cases polled
    rw [bind_error looked]
    exact found.alike (by rw [none]; rfl)
  · rw [bind_ok looked]
    cases event with
    | none =>
      refine .inl ⟨found.alike (by simp [Event.found, Move.carries]), ?_⟩
      rintro _ _ _ _ ⟨⟩ some
      obtain ⟨event, rest, pending⟩ := List.exists_cons_of_ne_nil (expects some)
      rw [poll_pending pending] at polled
      cases polled
    | some event =>
      by_cases halts : (event.isStop || event.isExit) = true
      · dsimp only
        rw [ite_run, if_pos halts]
        refine afterLift_tallies found still (by simpa using halts) fun _ => ?_
        have onward : Onward d.machine d'.machine := by
          have onward := onward_poll fresh
          rwa [polled, ← moved] at onward
        obtain ⟨j, _, _, restored, _⟩ := settled_spec known (sound.toHeld.machine onward)
        have after : Echoes plain { s with debuggee := some d' }
            { u with debuggee := some d'.machine } := by
          rw [same]
          exact ⟨rfl, echoes.numbered, echoes.unhit⟩
        have answer := (instrumented_echo (Instrumented.restore_viewed Recorder.faithful pc) _ _ after).1
        rw [restored] at answer
        exact answer.symm
      · dsimp only
        rw [ite_run, if_neg halts, pure_run]
        refine .inl ⟨found, ?_⟩
        rintro _ _ _ _ ⟨⟩ _ _ ⟨⟩
        simp only [Bool.or_eq_true, not_or, Bool.not_eq_true] at halts
        rw [moved]
        exact moving.pending_of_notice fresh polled halts.1 halts.2

/-- Every move of a session that is ready keeps the account. -/
theorem advance_tallies {move : Move} (account : Account h base (Move.carries (some move)) s)
    (echoes : Echoes plain s u) (expects : Expectant (some move) s) (ready : Ready w u (some move)) :
    Tallies h base (advance move s) := by
  have still : u.state = s.state := by rw [echoes.same]; rfl
  cases ready with
  | notice known sound running => exact handle_tallies account (.inr (still ▸ running))
  | stop stop rest running => exact handle_tallies account (.inr (still ▸ running))
  | single sound rest running => exact handle_tallies account (.inr (still ▸ running))
  | exit code => exact handle_tallies account (.inl rfl)
  | await sound moving fresh here running known =>
    exact await_tallies account echoes expects sound moving fresh running known
  | resume =>
    exact account.passes rfl (Recorder.bides.resumeThread _ _) (resumeThread_idle _ _)
  | stepped => exact account.passes rfl (Recorder.bides.afterStep _ _) (afterStep_idle _ _)
  | arrived => exact account.passes rfl (Recorder.bides.arrive _) (arrive_idle _)
  | act => exact account.passes rfl (Recorder.bides.act _) (act_idle _)
  | stepOut => exact account.passes rfl (Recorder.bides.stepOut _) (stepOut_idle _)
  | runTo => exact account.passes rfl (Recorder.bides.runTo _ _) (runTo_idle _ _)

end Moves

end Session

end SourceDebugger
