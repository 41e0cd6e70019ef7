import SourceDebugger.Proofs.Dispatch.Commands
import SourceDebugger.Proofs.Dispatch.Service
/-!
A client that makes one call after the other, and what it gets where its calls are carried out on its own
thread. There the debuggee is looked at only while the client waits; the loop of a wait is taken apart
into its looks, so that a client that waits forever can be followed too.
-/
namespace SourceDebugger

open Session Effect

namespace Dispatch

variable {δ ρ : Type}

section Lines

/-- What a call gives to the client, if it succeeds. -/
inductive Got (ρ : Type) where
  | done
  | breakpoint (id : BreakpointId)
  | said (answer : ρ)
  | code (code : Option Int)
  | whether (paused : Bool)
  deriving DecidableEq

abbrev Said (ρ : Type) := Except DebuggerError (Got ρ)

/-- A call that a client makes. -/
inductive Line (δ ρ : Type) where
  | start (request : LaunchRequest)
  | continue
  | step (kind : StepKind)
  | break
  | terminate
  | add (location : Location)
  | remove (id : BreakpointId)
  /-- A question about the session. -/
  | ask (request : Request δ ρ) (still : Still request)
  | setEnabled (id : BreakpointId) (enabled : Bool)
  /-- A question about the published status, which no thread has to be asked. -/
  | see (read : Status → Except DebuggerError ρ)
  | waitForPause
  | waitForExit
  | waitForPauseWithin (budget : Option Nat)

/-- The call may leave a debuggee running that was not. -/
def Line.resumes : Line δ ρ → Bool
  | .start _ | .continue | .step _ => true
  | _ => false

/-- The call returns only when the debuggee does not run. -/
def Line.awaits : Line δ ρ → Bool
  | .waitForPause | .waitForExit => true
  | _ => false

/-- The ways in which calls are carried out. -/
inductive Way (δ ρ : Type) where
  | command (c : Command δ (Got ρ))
  | toggle (id : BreakpointId) (enabled : Bool)
  | see (read : Status → Said ρ)
  | wait (check : RunState → Option (Said ρ))
  | within (budget : Option Nat)

/-- The same request, of whose result something is made. -/
def Command.map {α β : Type} (f : α → β) (c : Command δ α) : Command δ β where
  request s := ((c.request s).1.map f, (c.request s).2)
  orderly := c.orderly
  passes := c.passes

/-- What waiting for a pause comes to for the client. -/
def pauses (got : Got ρ) (state : RunState) : Option (Said ρ) :=
  (Debugger.pauseCheck state).map (·.map fun _ => got)

def exits (state : RunState) : Option (Said ρ) := (Debugger.exitCheck state).map (·.map .code)

theorem pauses_none {got : Got ρ} {state : RunState} : pauses got state = none ↔ state = .running := by
  rw [pauses, Option.map_eq_none_iff]
  fun_cases Debugger.pauseCheck state <;> simp

theorem exits_none {state : RunState} : (exits state : Option (Said ρ)) = none ↔ state = .running := by
  rw [exits, Option.map_eq_none_iff]
  fun_cases Debugger.exitCheck state <;> simp

variable [Debuggee δ]

def Line.way : Line δ ρ → Way δ ρ
  | .start request => .command ((Command.act (.start request)).map fun _ => .done)
  | .continue => .command ((Command.act .continue).map fun _ => .done)
  | .step kind => .command ((Command.act (.step kind)).map fun _ => .done)
  | .break => .command ((Command.act .break).map fun _ => .done)
  | .terminate => .command ((Command.act .terminate).map fun _ => .done)
  | .add location => .command ((Command.add location).map .breakpoint)
  | .remove id => .command ((Command.act (.remove id)).map fun _ => .done)
  | .ask request still => .command ((Command.ask request still).map .said)
  | .setEnabled id enabled => .toggle id enabled
  | .see read => .see fun status => (read status).map .said
  | .waitForPause => .wait (pauses .done)
  | .waitForExit => .wait exits
  | .waitForPauseWithin budget => .within budget

theorem Line.way_wait {l : Line δ ρ} {check : RunState → Option (Said ρ)} (way : l.way = .wait check) :
    l.awaits = true ∧ ∀ state, check state = none ↔ state = .running := by
  cases l with
  | waitForPause =>
    cases way
    exact ⟨rfl, fun _ => pauses_none⟩
  | waitForExit =>
    cases way
    exact ⟨rfl, fun _ => exits_none⟩
  | _ => cases way

theorem Line.way_awaits {l : Line δ ρ} (awaits : l.awaits = true) : ∃ check, l.way = .wait check := by
  cases l with
  | waitForPause => exact ⟨_, rfl⟩
  | waitForExit => exact ⟨_, rfl⟩
  | _ => cases awaits

/-- Other calls than those that resume leave a debuggee at rest that was at rest. -/
theorem Line.rests {l : Line δ ρ} {c : Command δ (Got ρ)} (way : l.way = .command c)
    (stays : l.resumes = false) {s : Session δ} (orderly : s.Orderly) (rests : s.state ≠ .running) :
    (c.request s).2.state ≠ .running := by
  cases l with
  | start | «continue» | step => cases stays
  | «break» =>
    cases way
    have refused : (breakExecution s).2 = s := by
      rw [breakExecution, bind_ok (get_run s), ite_run, if_neg rests]
      rfl
    exact refused.symm ▸ rests
  | terminate =>
    cases way
    show (Session.terminate s).2.state ≠ .running
    cases live : s.state.isLive with
    | false =>
      rw [terminate_refused live]
      exact rests
    | true =>
      obtain ⟨⟨_, _, exited⟩, _⟩ := terminate_over ⟨by rw [orderly.attached, live], live⟩
      intro running
      rw [running] at exited
      cases exited
  | add location =>
    cases way
    exact (add_hushed location s).1.state.symm ▸ rests
  | remove id =>
    cases way
    exact (remove_hushed id s).1.state.symm ▸ rests
  | ask request still =>
    cases way
    exact (still s).symm ▸ rests
  | setEnabled | see | waitForPause | waitForExit | waitForPauseWithin => cases way

end Lines

/-- The next call depends on what the calls before it have given; a script may end. -/
abbrev Script (δ ρ : Type) := List (Said ρ) → Option (Line δ ρ)

/-- After each call that may leave the debuggee running the client waits until it does not. -/
def Script.Paired (script : Script δ ρ) : Prop := ∀ said l, script said = some l → l.resumes = true →
  ∀ r, ∃ w, script (said ++ [r]) = some w ∧ w.awaits = true

/-- The calls one after the other, whatever they give. -/
def Script.ofList (lines : List (Line δ ρ)) : Script δ ρ := fun said => lines[said.length]?

theorem ofList_paired {lines : List (Line δ ρ)} (each : ∀ i, ∀ _ : i < lines.length,
    lines[i].resumes = true → (lines[i + 1]?.any Line.awaits) = true) : (Script.ofList lines).Paired := by
  intro said l here resumes r
  obtain ⟨inside, rfl⟩ := List.getElem?_eq_some_iff.mp here
  have next := each _ inside resumes
  cases found : lines[said.length + 1]? with
  | none =>
    rw [found] at next
    cases next
  | some w =>
    rw [found] at next
    refine ⟨w, ?_, next⟩
    rw [Script.ofList, List.length_append]
    exact found

section Debugger

variable [Debuggee δ] {ω : Type} {d : Debugger δ (List DebuggerEvent)}

/-- One round of a wait: a look at the debuggee, and what came of it is delivered. -/
def look (d : Debugger δ (List DebuggerEvent)) : Debugger δ (List DebuggerEvent) :=
  { d with session := (pump d.session.host.config.pollMillis d.session).2 }.deliver listen

variable {check : RunState → Option (Said ρ)}

theorem waitFor_passed {α : Type} {check : RunState → Option (Except DebuggerError α)}
    {r : Except DebuggerError α} (passed : check d.published.state = some r) (looks : Nat)
    (budget : Option Nat) : Debugger.waitFor listen check (looks + 1) budget d = (some r, d) := by
  rw [Debugger.waitFor, certain_bind, certain_get]
  simp only [passed]
  rfl

theorem waitFor_looks (waits : check d.published.state = none) (looks : Nat) :
    Debugger.waitFor listen check (looks + 1) none d =
      Debugger.waitFor listen check looks none (look d) := by
  rw [Debugger.waitFor, certain_bind, certain_get]
  simp only [waits]
  rfl

omit [Debuggee δ] in
theorem deliver_listen (d : Debugger δ (List DebuggerEvent)) : d.deliver listen =
    { d with session := { d.session with outbox := [] }, published := d.session.status
             watcher := d.watcher ++ d.session.outbox } := by
  simp [Debugger.deliver, foldl_listen]

/-- Between two calls all that has happened has been delivered and published. -/
structure Quiet (d : Debugger δ ω) : Prop where
  published : d.published = d.session.status
  outbox : d.session.outbox = []
  delivering : d.delivering = false
  orderly : d.session.Orderly

omit [Debuggee δ] in
theorem Quiet.state (quiet : Quiet d) : d.published.state = d.session.state := by
  rw [quiet.published]
  rfl

omit [Debuggee δ] in
theorem deliver_quiet (orderly : d.session.Orderly) (delivering : d.delivering = false) :
    Quiet (d.deliver listen) := by
  rw [deliver_listen]
  exact ⟨rfl, rfl, delivering, ⟨orderly.attached, orderly.paused, orderly.exited⟩⟩

theorem look_quiet (quiet : Quiet d) : Quiet (look d) :=
  deliver_quiet (pump_goes quiet.orderly _).2 quiet.delivering

omit [Debuggee δ] in
theorem call_faulted {α : Type} {request : Request δ α} {fault : Fault}
    (published : d.published.state.fault? = some fault) :
    Debugger.call listen request d = (.error (.faulted fault), d) := by
  simp only [Debugger.call, published]

omit [Debuggee δ] in
theorem call_carried {α : Type} {request : Request δ α} (quiet : Quiet d)
    (published : d.published.state.fault? = none) : Debugger.call listen request d =
      ((request d.session).1, { d with session := (request d.session).2 }.deliver listen) := by
  simp [Debugger.call, published, Debugger.isReentrant, quiet.delivering]
  rfl

end Debugger

section Manual

variable [Debuggee δ]

/-- A call on the client's own thread. A wait ends without a result if the given number of looks was not
enough. -/
def Way.run (looks : Nat) (d : Debugger δ (List DebuggerEvent)) :
    Way δ ρ → Option (Said ρ) × Debugger δ (List DebuggerEvent)
  | .command c => (Debugger.call listen c.request d).map some id
  | .toggle id enabled => (some (.ok .done), (Debugger.setEnabled id enabled d).2)
  | .see read => (some (read d.published), d)
  | .wait check => Debugger.waitFor listen check looks none d
  | .within budget =>
    (Debugger.waitForPauseWithin listen budget d).map (fun r => some (r.map .whether)) id

/-- A client in manual mode: what it has been given, and its debugger. -/
structure Manual (δ ρ : Type) where
  said : List (Said ρ)
  debugger : Debugger δ (List DebuggerEvent)

namespace Manual

variable {script : Script δ ρ} {host : Host δ} {m n : Manual δ ρ} {l : Line δ ρ}

/-- Which mode the configuration names is of importance to those only who call while they listen. -/
def start (host : Host δ) : Manual δ ρ := ⟨[], .new host []⟩

/-- The client makes its next call, or is so many looks further on in a wait. -/
inductive Step (script : Script δ ρ) : Manual δ ρ → Manual δ ρ → Prop
  | run {m : Manual δ ρ} {l : Line δ ρ} (looks : Nat) : script m.said = some l → Step script m
      ⟨m.said ++ (l.way.run looks m.debugger).1.toList, (l.way.run looks m.debugger).2⟩

abbrev Leads (script : Script δ ρ) : Manual δ ρ → Manual δ ρ → Prop :=
  Relation.ReflTransGen (Step script)

/-- The same with one look at a time, so that there is one way on at most. -/
def next (script : Script δ ρ) (m : Manual δ ρ) : Option (Manual δ ρ) := (script m.said).map fun l =>
  ⟨m.said ++ (l.way.run 1 m.debugger).1.toList, (l.way.run 1 m.debugger).2⟩

def nth (script : Script δ ρ) (host : Host δ) : Nat → Option (Manual δ ρ)
  | 0 => some (start host)
  | n + 1 => (nth script host n).bind (next script)

theorem nth_run {k : Nat} (there : nth script host k = some m) (calls : script m.said = some l)
    {r : Option (Said ρ)} {d : Debugger δ (List DebuggerEvent)}
    (run : l.way.run 1 m.debugger = (r, d)) :
    nth script host (k + 1) = some ⟨m.said ++ r.toList, d⟩ := by
  rw [nth, there, Option.bind_some, next, calls, Option.map_some, run]

/-- A wait is one look after the other. -/
theorem wait_nth {check : RunState → Option (Said ρ)} (way : l.way = .wait check)
    (calls : script m.said = some l) {k : Nat} (there : nth script host k = some m) (looks : Nat) :
    ∃ j, nth script host j = some
      ⟨m.said ++ (l.way.run looks m.debugger).1.toList, (l.way.run looks m.debugger).2⟩ := by
  rw [way]
  induction looks generalizing m k with
  | zero =>
    refine ⟨k, there.trans ?_⟩
    rw [Way.run, Debugger.waitFor]
    simp [certain_pure]
  | succ looks ih =>
    cases passed : check m.debugger.published.state with
    | some r =>
      have once : l.way.run 1 m.debugger = (some r, m.debugger) := by
        rw [way, Way.run, waitFor_passed passed _ _]
      rw [Way.run, waitFor_passed passed _ _]
      exact ⟨k + 1, nth_run there calls once⟩
    | none =>
      have once : l.way.run 1 m.debugger = (none, look m.debugger) := by
        rw [way, Way.run, waitFor_looks passed]
        rfl
      have looked : nth script host (k + 1) = some ⟨m.said, look m.debugger⟩ := by
        rw [nth_run there calls once, Option.toList_none, List.append_nil]
      rw [Way.run, waitFor_looks passed]
      exact ih (m := ⟨m.said, look m.debugger⟩) calls looked

theorem leads_nth (leads : Leads script (start host) m) : ∃ k, nth script host k = some m := by
  induction leads with
  | refl => exact ⟨0, rfl⟩
  | tail _ step ih =>
    obtain ⟨k, there⟩ := ih
    cases step with
    | @run l looks calls =>
      cases way : l.way with
      | wait check =>
        have waits := wait_nth way calls there looks
        rwa [way] at waits
      | command | toggle | see | within =>
        refine ⟨k + 1, nth_run there calls ?_⟩
        rw [way]
        rfl

/-- What there is after one more step. -/
theorem nth_succ {k : Nat} (later : nth script host (k + 1) = some n) :
    ∃ m l, nth script host k = some m ∧ script m.said = some l ∧
      n = ⟨m.said ++ (l.way.run 1 m.debugger).1.toList, (l.way.run 1 m.debugger).2⟩ := by
  rw [nth, Option.bind_eq_some_iff] at later
  obtain ⟨m, there, next⟩ := later
  rw [Manual.next, Option.map_eq_some_iff] at next
  obtain ⟨l, calls, rfl⟩ := next
  exact ⟨m, l, there, calls, rfl⟩

theorem nth_leads {k : Nat} (there : nth script host k = some m) : Leads script (start host) m := by
  induction k generalizing m with
  | zero =>
    cases there
    exact .refl
  | succ k ih =>
    obtain ⟨n, l, before, calls, rfl⟩ := nth_succ there
    exact (ih before).tail (.run 1 calls)

/-- What holds between any two looks: the debuggee runs only while the client waits for it. -/
structure Steady (script : Script δ ρ) (m : Manual δ ρ) : Prop where
  quiet : Quiet m.debugger
  attended : m.debugger.session.state = .running → ∃ l, script m.said = some l ∧ l.awaits = true

omit [Debuggee δ] in
theorem start_steady (host : Host δ) : Steady script (start host) where
  quiet := ⟨rfl, rfl, rfl, new_orderly host⟩
  attended running := by cases running

/-- Any other call finds the debuggee at rest. -/
theorem Steady.rests (steady : Steady script m) (calls : script m.said = some l)
    (other : ∀ check, l.way ≠ .wait check) : m.debugger.session.state ≠ .running := by
  intro running
  obtain ⟨w, waits, awaits⟩ := steady.attended running
  rw [calls] at waits
  cases waits
  obtain ⟨check, way⟩ := Line.way_awaits awaits
  exact other check way

/-- With a debuggee at rest there is nothing to wait for. -/
theorem within_run {d : Debugger δ (List DebuggerEvent)} (delivering : d.delivering = false)
    {r : Said ρ} (passed : pauses (.whether true) d.published.state = some r) (budget : Option Nat)
    (looks : Nat) : Way.run looks d (.within budget) = (some r, d) := by
  rw [pauses, Option.map_eq_some_iff] at passed
  obtain ⟨result, passed, rfl⟩ := passed
  have waited : Debugger.wait listen Debugger.pauseCheck budget d = (some result, d) := by
    rw [Debugger.wait, certain_bind, certain_get]
    simp only [Debugger.isReentrant, delivering, Bool.and_false]
    exact waitFor_passed passed _ budget
  have lifted : (liftM (Debugger.wait (δ := δ) listen Debugger.pauseCheck budget) :
      Debugger.Call δ _ _) d = (.ok (some result), d) := by
    show (Except.ok (Debugger.wait listen Debugger.pauseCheck budget d).1,
      (Debugger.wait listen Debugger.pauseCheck budget d).2) = _
    rw [waited]
  have within : Debugger.waitForPauseWithin listen budget d = (result.map fun _ => true, d) := by
    rw [Debugger.waitForPauseWithin, bind_ok lifted]
    cases result <;> rfl
  rw [Way.run, within]
  cases result <;> rfl

omit [Debuggee δ] in
/-- Nothing has happened but an answer. -/
theorem Steady.aside (steady : Steady script m) (rests : m.debugger.session.state ≠ .running)
    (said : List (Said ρ)) : Steady script ⟨said, m.debugger⟩ where
  quiet := steady.quiet
  attended running := absurd running rests

theorem command_steady (paired : script.Paired) (steady : Steady script m)
    (calls : script m.said = some l) {c : Command δ (Got ρ)} (way : l.way = .command c) :
    Steady script ⟨m.said ++ [(Debugger.call listen c.request m.debugger).1],
        (Debugger.call listen c.request m.debugger).2⟩ ∧
      m.debugger.watcher <+: (Debugger.call listen c.request m.debugger).2.watcher := by
  have rests := steady.rests calls (by simp [way])
  cases published : m.debugger.published.state.fault? with
  | some fault =>
    rw [call_faulted published]
    exact ⟨steady.aside rests _, List.prefix_refl _⟩
  | none =>
    have orderly := c.orderly _ steady.quiet.orderly
    rw [call_carried steady.quiet published]
    refine ⟨⟨deliver_quiet orderly steady.quiet.delivering, fun running => ?_⟩, ?_⟩
    · rw [deliver_listen] at running
      cases resumes : l.resumes with
      | true => exact paired m.said l calls resumes _
      | false => exact absurd running (Line.rests way resumes steady.quiet.orderly rests)
    · rw [deliver_listen]
      exact List.prefix_append ..

/-- One step of a client in manual mode. -/
theorem run_steady (paired : script.Paired) (steady : Steady script m)
    (calls : script m.said = some l) {r : Option (Said ρ)} {d : Debugger δ (List DebuggerEvent)}
    (run : l.way.run 1 m.debugger = (r, d)) :
    Steady script ⟨m.said ++ r.toList, d⟩ ∧ m.debugger.watcher <+: d.watcher := by
  cases way : l.way with
  | command c =>
    rw [way] at run
    cases run
    exact command_steady paired steady calls way
  | toggle id enabled =>
    rw [way] at run
    cases run
    have rests := steady.rests calls (by simp [way])
    refine ⟨⟨⟨steady.quiet.published, steady.quiet.outbox, steady.quiet.delivering, ?_⟩,
      fun running => absurd running rests⟩, List.prefix_refl _⟩
    exact setEnabled_goes steady.quiet.orderly id enabled
  | see read =>
    rw [way] at run
    cases run
    exact ⟨steady.aside (steady.rests calls (by simp [way])) _, List.prefix_refl _⟩
  | within budget =>
    have rests := steady.rests calls (by simp [way])
    cases passed : (pauses (.whether true) m.debugger.published.state : Option (Said ρ)) with
    | none => exact absurd (steady.quiet.state.symm.trans (pauses_none.mp passed)) rests
    | some r =>
      rw [way, within_run steady.quiet.delivering passed] at run
      cases run
      exact ⟨steady.aside rests _, List.prefix_refl _⟩
  | wait check =>
    obtain ⟨awaits, running⟩ := Line.way_wait way
    rw [way, Way.run] at run
    cases passed : check m.debugger.published.state with
    | some r =>
      rw [waitFor_passed passed _ _] at run
      cases run
      refine ⟨steady.aside (fun on => ?_) _, List.prefix_refl _⟩
      rw [(running _).mpr (steady.quiet.state.trans on)] at passed
      cases passed
    | none =>
      rw [waitFor_looks passed] at run
      cases run
      refine ⟨⟨look_quiet steady.quiet, fun _ => ⟨l, ?_, awaits⟩⟩, ?_⟩
      · rwa [Option.toList_none, List.append_nil]
      · show _ <+: (look m.debugger).watcher
        rw [look, deliver_listen]
        exact List.prefix_append ..
theorem nth_steady (paired : script.Paired) {k : Nat} (there : nth script host k = some m) :
    Steady script m := by
  induction k generalizing m with
  | zero =>
    cases there
    exact start_steady host
  | succ k ih =>
    obtain ⟨n, l, before, calls, rfl⟩ := nth_succ there
    exact (run_steady paired (ih before) calls rfl).1

/-- Answers and events come to be more and more. -/
theorem nth_grows (paired : script.Paired) {k : Nat} (there : nth script host k = some m) (j : Nat)
    (later : nth script host (k + j) = some n) :
    m.said <+: n.said ∧ m.debugger.watcher <+: n.debugger.watcher := by
  induction j generalizing n with
  | zero =>
    rw [Nat.add_zero, there] at later
    cases later
    exact ⟨List.prefix_refl _, List.prefix_refl _⟩
  | succ j ih =>
    obtain ⟨o, l, before, calls, rfl⟩ := nth_succ later
    obtain ⟨said, watcher⟩ := ih before
    have grows := (run_steady paired (nth_steady paired before) calls rfl).2
    exact ⟨said.trans (List.prefix_append ..), watcher.trans grows⟩

/-- Nothing comes after the end of the script. -/
theorem nth_over {k : Nat} (there : nth script host k = some m) (ended : script m.said = none)
    {j : Nat} (later : nth script host j = some n) : j ≤ k := by
  induction j generalizing n with
  | zero => exact Nat.zero_le k
  | succ j ih =>
    obtain ⟨o, l, before, calls, rfl⟩ := nth_succ later
    refine Nat.lt_of_le_of_ne (ih before) ?_
    rintro rfl
    rw [there] at before
    cases before
    rw [ended] at calls
    cases calls

end Manual

end Manual

end Dispatch

end SourceDebugger
