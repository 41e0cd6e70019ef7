import SourceDebugger.Proofs.Dispatch.Scripts
/-!
The same client with a session that has a thread of its own, which takes its turns whenever it likes.
Whatever these are, the control thread is never further than the client in manual mode: when it has
finished its turn, its session and what has been heard are those of a debugger without threads.
-/
namespace SourceDebugger.Dispatch

open Session

variable {δ ρ : Type} [Debuggee δ]

/-- A client in automatic mode: the threads, and what it has been given. -/
structure Automatic (δ ρ : Type) where
  state : State δ (Got ρ) Unit
  said : List (Said ρ)

namespace Automatic

/-- Before the first call somebody has begun to listen. -/
def start (host : Host δ) : Automatic δ ρ := ⟨{ State.start host with handlers := 1 }, []⟩

/-- The threads go on, and the client is given what has been returned to it. -/
def goesTo (a : Automatic δ ρ) (t : State δ (Got ρ) Unit) : Automatic δ ρ :=
  ⟨t, a.said ++ (t.returns.drop a.state.returns.length).map (·.answer.outcome)⟩

/-- The control thread and the client take their turns. Handlers do not call. -/
inductive Step (script : Script δ ρ) : Automatic δ ρ → Automatic δ ρ → Prop
  | control {a : Automatic δ ρ} {t : State δ (Got ρ) Unit} : Dispatch.Step .control a.state t →
      t.calls = a.state.calls → Step script a (a.goesTo t)
  /-- The next call begins. -/
  | command {a : Automatic δ ρ} {t : State δ (Got ρ) Unit} {l : Line δ ρ} {c : Command δ (Got ρ)} :
      script a.said = some l → l.way = .command c → Dispatch.Step (.client ()) a.state t →
      t.calls = a.state.calls ++ [⟨some (), c⟩] → Step script a (a.goesTo t)
  /-- A call goes on. -/
  | client {a : Automatic δ ρ} {t : State δ (Got ρ) Unit} : Dispatch.Step (.client ()) a.state t →
      t.calls = a.state.calls → Step script a (a.goesTo t)
  | toggle {a : Automatic δ ρ} {t : State δ (Got ρ) Unit} {l : Line δ ρ} {id : BreakpointId}
      {enabled : Bool} : script a.said = some l → l.way = .toggle id enabled →
      a.state.clients () = .idle → Dispatch.Step .holder a.state t →
      t.history = a.state.history ++ [.toggle id enabled] → Step script a ⟨t, a.said ++ [.ok .done]⟩
  | see {a : Automatic δ ρ} {l : Line δ ρ} {read : Status → Said ρ} : script a.said = some l →
      l.way = .see read → a.state.clients () = .idle →
      Step script a ⟨a.state, a.said ++ [read a.state.published]⟩
  /-- A wait is over when the published status says so. -/
  | wait {a : Automatic δ ρ} {l : Line δ ρ} {check : RunState → Option (Said ρ)} {r : Said ρ} :
      script a.said = some l → l.way = .wait check → a.state.clients () = .idle →
      check a.state.published.state = some r → Step script a ⟨a.state, a.said ++ [r]⟩
  | within {a : Automatic δ ρ} {l : Line δ ρ} {budget : Option Nat} {r : Said ρ} :
      script a.said = some l → l.way = .within budget → a.state.clients () = .idle →
      pauses (.whether true) a.state.published.state = some r → Step script a ⟨a.state, a.said ++ [r]⟩
  /-- The time of a wait may be used up at any moment. -/
  | timeout {a : Automatic δ ρ} {l : Line δ ρ} {budget : Option Nat} :
      script a.said = some l → l.way = .within budget → a.state.clients () = .idle →
      a.state.published.state = .running → Step script a ⟨a.state, a.said ++ [.ok (.whether false)]⟩

abbrev Leads (script : Script δ ρ) : Automatic δ ρ → Automatic δ ρ → Prop :=
  Relation.ReflTransGen (Step script)

end Automatic

section Finish

variable {ι : Type} [DecidableEq ι] {s t : State δ ρ ι}

/-- When the control thread has told and published what it is about to. -/
def State.finish (s : State δ ρ ι) : State δ ρ ι :=
  match s.control with
  | .moved reply => s.settle reply
  | .telling rest status reply =>
    { s with control := .published reply, published := status
             heard := fun h => s.heard h ++ share h rest }
  | .ready | .published _ | .stopped => s

omit [Debuggee δ] [DecidableEq ι] in
theorem finish_idle (rests : s.control.isBusy = false) : s.finish = s := by
  unfold State.finish
  split
  · rename_i moved
    rw [moved] at rests
    cases rests
  · rename_i telling
    rw [telling] at rests
    cases rests
  · rfl
  · rfl
  · rfl

omit [Debuggee δ] [DecidableEq ι] in
theorem Alike.same {d : Debugger δ (List DebuggerEvent)} (alike : Alike d s)
    (session : t.session = s.session) (published : t.published = s.published)
    (handlers : t.handlers = s.handlers) (heard : t.heard 0 = s.heard 0) : Alike d t :=
  ⟨session.trans alike.session, published.trans alike.published, handlers.trans alike.handlers,
    heard.trans alike.heard⟩

omit [Debuggee δ] [DecidableEq ι] in
/-- Clients and the queue have no part in a turn. -/
theorem Alike.finished {d : Debugger δ (List DebuggerEvent)} (alike : Alike d s.finish)
    (desk : t.toDesk = s.toDesk) : Alike d t.finish := by
  obtain ⟨desk', _, _, _, _, _, _⟩ := s
  obtain ⟨_, _, _, _, _, _, _⟩ := t
  cases desk
  cases control : desk'.control <;> simp only [State.finish, control] at alike ⊢ <;>
    exact alike.same rfl rfl rfl rfl

end Finish

section Abreast

variable {script : Script δ ρ} {host : Host δ} {m : Manual δ ρ} {a b : Automatic δ ρ} {k : Nat}
  {t : State δ (Got ρ) Unit}

/-- How far the client's call has come. Once its command has been carried out, the client in manual mode
has its answer already. -/
inductive Position (script : Script δ ρ) (m : Manual δ ρ) (a : Automatic δ ρ) : Prop
  | idle : a.state.clients () = .idle → a.state.queue = [] → a.state.control.reply? = none →
      m.said = a.said → Position script m a
  | entered {l : Line δ ρ} {n : Ticket} {c : Command δ (Got ρ)} : script m.said = some l →
      l.way = .command c → a.state.clients () = .entered n c → a.state.queue = [] →
      a.state.control.isBusy = false → a.state.control.reply? = none →
      m.debugger.published.state.fault? = none → m.said = a.said → Position script m a
  | queued {l : Line δ ρ} {n : Ticket} {c : Command δ (Got ρ)} : script m.said = some l →
      l.way = .command c → a.state.clients () = .waiting n → a.state.queue = [⟨(), n, c⟩] →
      a.state.control.isBusy = false → a.state.control.reply? = none →
      m.debugger.published.state.fault? = none → m.said = a.said → Position script m a
  | taken {n : Ticket} {r : Said ρ} : a.state.clients () = .waiting n → a.state.queue = [] →
      a.state.control.reply? = some ⟨(), n, r⟩ → m.said = a.said ++ [r] → Position script m a
  | replied {n : Ticket} {r : Said ρ} : a.state.clients () = .replied n r → a.state.queue = [] →
      a.state.control.reply? = none → m.said = a.said ++ [r] → Position script m a

/-- The client in automatic mode has come as far as the one in manual mode. -/
structure Abreast (script : Script δ ρ) (m : Manual δ ρ) (a : Automatic δ ρ) : Prop where
  alike : Alike m.debugger a.state.finish
  held : a.state.isHeld = true
  /-- The control thread only looks at a debuggee that the client waits for, or is about to. -/
  looking : a.state.control.isBusy = true → a.state.control.reply? = none →
    a.state.published.state = .running ∧ ∃ l, script m.said = some l ∧ l.awaits = true
  stopped : a.state.control = .stopped → ∃ fault, a.state.published.state.fault? = some fault
  position : Position script m a

/-- How much the control thread has still to do in its turn. -/
def Desk.effort {ι : Type} (d : Desk δ ρ ι) : Nat :=
  match d.control with
  | .ready | .stopped => 0
  | .published none => 1
  | .published (some _) => 2
  | .telling rest _ _ => 3 + rest.length
  | .moved _ => 4 + (spread d.handlers d.session.outbox).length

/-- How much the client can do before the debuggee is looked at again or a command carried out. -/
def State.patience (s : State δ ρ Unit) : Nat :=
  match s.clients () with
  | .idle => 3
  | .entered .. => 2
  | .waiting _ => if s.queue.isEmpty then 5 else 1
  | .replied .. => 4

def State.effort (s : State δ ρ Unit) : Nat := s.toDesk.effort + s.patience

/-- What a step comes to: the threads are nearer to the next thing that happens to the session, or it has
happened. Then all that came before has been heard. -/
def Advances (script : Script δ ρ) (host : Host δ) (k : Nat) (m : Manual δ ρ)
    (a b : Automatic δ ρ) : Prop :=
  (Abreast script m b ∧ b.state.effort < a.state.effort) ∨
    ∃ n, Manual.nth script host (k + 1) = some n ∧ Abreast script n b ∧
      m.debugger.watcher <+: b.state.heard 0

omit [Debuggee δ] in
theorem goesTo_quiet (same : t.returns = a.state.returns) : a.goesTo t = ⟨t, a.said⟩ := by
  simp [Automatic.goesTo, same]

omit [Debuggee δ] in
theorem goesTo_returned {x : Return (Got ρ) Unit} (returned : t.returns = a.state.returns ++ [x]) :
    a.goesTo t = ⟨t, a.said ++ [x.answer.outcome]⟩ := by
  simp [Automatic.goesTo, returned]

/-- Between turns the published status is that of the session. -/
theorem Abreast.current (abreast : Abreast script m a) (rests : a.state.control.isBusy = false) :
    Alike m.debugger a.state := finish_idle rests ▸ abreast.alike

/-- Nobody looks at the debuggee while the client does not wait. -/
theorem Abreast.rests {l : Line δ ρ} (abreast : Abreast script m a) (idle : a.state.clients () = .idle)
    (calls : script m.said = some l) (other : ∀ check, l.way ≠ .wait check) :
    a.state.control.isBusy = false := by
  cases busy : a.state.control.isBusy with
  | false => rfl
  | true =>
    have unreplied : a.state.control.reply? = none := by
      cases abreast.position with
      | idle _ _ reply _ => exact reply
      | entered _ _ client | queued _ _ client | taken client | replied client =>
        rw [idle] at client
        cases client
    obtain ⟨_, w, waits, awaits⟩ := abreast.looking busy unreplied
    rw [calls] at waits
    cases waits
    obtain ⟨check, way⟩ := Line.way_awaits awaits
    exact absurd way (other check)

omit [Debuggee δ] in
theorem patience_same {s t : State δ ρ Unit} (clients : t.clients = s.clients)
    (queue : t.queue = s.queue) : t.patience = s.patience := by
  simp only [State.patience, clients, queue]

/-- The call of the client has come no further. -/
theorem Position.turned (position : Position script m a)
    (rests : a.state.control.isBusy = false → t.control.isBusy = false)
    (clients : t.clients = a.state.clients) (queue : t.queue = a.state.queue)
    (reply : t.control.reply? = a.state.control.reply?) : Position script m ⟨t, a.said⟩ := by
  cases position with
  | idle client empty unreplied said =>
    exact .idle (clients ▸ client) (queue ▸ empty) (reply ▸ unreplied) said
  | entered calls way client empty still unreplied sound said =>
    exact .entered calls way (clients ▸ client) (queue ▸ empty) (rests still) (reply ▸ unreplied) sound said
  | queued calls way client entry still unreplied sound said =>
    exact .queued calls way (clients ▸ client) (queue ▸ entry) (rests still) (reply ▸ unreplied) sound said
  | taken client empty replies said =>
    exact .taken (clients ▸ client) (queue ▸ empty) (reply ▸ replies) said
  | replied client empty unreplied said =>
    exact .replied (clients ▸ client) (queue ▸ empty) (reply ▸ unreplied) said

/-- The control thread tells of what has happened. -/
theorem turned_advances (abreast : Abreast script m a) (busy : a.state.control.isBusy = true)
    (alike : Alike m.debugger t.finish) (held : t.isHeld = a.state.isHeld)
    (looking : t.control.isBusy = true → t.published = a.state.published)
    (running : t.control ≠ .stopped) (clients : t.clients = a.state.clients)
    (queue : t.queue = a.state.queue) (reply : t.control.reply? = a.state.control.reply?)
    (returns : t.returns = a.state.returns) (less : t.toDesk.effort < a.state.toDesk.effort) :
    Advances script host k m a (a.goesTo t) := by
  rw [goesTo_quiet returns]
  refine .inl ⟨⟨alike, held.trans abreast.held, fun still unreplied => ?_,
    fun stopped => absurd stopped running, ?_⟩, ?_⟩
  · rw [looking still]
    exact abreast.looking busy (reply.symm.trans unreplied)
  · refine abreast.position.turned (fun rests => ?_) clients queue reply
    rw [busy] at rests
    cases rests
  · simp only [State.effort, patience_same clients queue]
    omega

theorem reply_advances (abreast : Abreast script m a) {r : Reply (Got ρ) Unit}
    (published : a.state.control = .published (some r)) : Advances script host k m a
      (a.goesTo ({ a.state with control := .published none }.put r.client
        (.replied r.ticket r.result))) := by
  have finish := abreast.current (by rw [published]; rfl)
  rw [goesTo_quiet (by rfl)]
  cases abreast.position with
  | idle _ _ unreplied | entered _ _ _ _ _ unreplied | queued _ _ _ _ _ unreplied
  | replied _ _ unreplied =>
    rw [published] at unreplied
    cases unreplied
  | @taken n r client empty replies said =>
    rw [published] at replies
    cases replies
    refine .inl ⟨⟨finish.same rfl rfl rfl rfl, abreast.held, fun busy => (by cases busy),
      fun stopped => (by cases stopped), .replied (n := n) ?_ empty rfl said⟩, ?_⟩
    · rw [put_clients, if_pos rfl]
    · simp [State.effort, Desk.effort, State.patience, State.put, published, client, empty]

theorem again_advances (abreast : Abreast script m a) (published : a.state.control = .published none) :
    Advances script host k m a (a.goesTo { a.state with control := .ready }) := by
  have finish := abreast.current (by rw [published]; rfl)
  rw [goesTo_quiet (by rfl)]
  refine .inl ⟨⟨finish.same rfl rfl rfl rfl, abreast.held, fun busy => (by cases busy),
    fun stopped => (by cases stopped), abreast.position.turned (fun _ => rfl) rfl rfl ?_⟩, ?_⟩
  · rw [published]
    rfl
  · simp [State.effort, Desk.effort, State.patience, published]

/-- Nothing that anybody waits for is lost when the control thread ends. -/
theorem quit_advances (abreast : Abreast script m a) (published : a.state.control = .published none)
    {fault : Fault} (faulted : a.state.published.state.fault? = some fault) :
    Advances script host k m a (a.goesTo { a.state with control := .stopped, queue := [] }) := by
  have finish := abreast.current (by rw [published]; rfl)
  rw [goesTo_quiet (by rfl)]
  have empty : a.state.queue = [] := by
    cases abreast.position with
    | idle _ empty | taken _ empty | replied _ empty | entered _ _ _ empty => exact empty
    | queued _ _ _ _ _ _ sound =>
      rw [← finish.published, faulted] at sound
      cases sound
  refine .inl ⟨⟨finish.same rfl rfl rfl rfl, abreast.held, fun busy => (by cases busy),
    fun _ => ⟨fault, faulted⟩, abreast.position.turned (fun _ => rfl) rfl empty.symm ?_⟩, ?_⟩
  · rw [published]
    rfl
  · simp [State.effort, Desk.effort, State.patience, published, empty]

/-- The command is carried out, as it is in manual mode. -/
theorem carryOut_advances (there : Manual.nth script host k = some m) (quiet : Quiet m.debugger)
    (abreast : Abreast script m a) {e : Entry δ (Got ρ) Unit} {rest : List (Entry δ (Got ρ) Unit)}
    (ready : a.state.control = .ready) (queue : a.state.queue = e :: rest) :
    Advances script host k m a (a.goesTo (a.state.carryOut e rest)) := by
  have finish := abreast.current (by rw [ready]; rfl)
  rw [goesTo_quiet (by rfl)]
  cases abreast.position with
  | idle _ empty | entered _ _ _ empty | taken _ empty | replied _ empty =>
    rw [queue] at empty
    cases empty
  | @queued l n c calls way client entry _ _ sound said =>
    rw [queue] at entry
    cases entry
    have run : l.way.run 1 m.debugger = (some (c.request m.debugger.session).1,
        { m.debugger with session := (c.request m.debugger.session).2 }.deliver listen) := by
      rw [way, Way.run, call_carried quiet sound]
      rfl
    have carried : Alike { m.debugger with session := (c.request m.debugger.session).2 }
        (a.state.carryOut ⟨(), n, c⟩ []) := by
      refine ⟨?_, finish.published, finish.handlers, finish.heard⟩
      simp only [State.carryOut, finish.session]
    refine .inr ⟨_, Manual.nth_run there calls run, ⟨settle_alike carried _, abreast.held,
      fun _ unreplied => (by cases unreplied), fun stopped => (by cases stopped),
      .taken client rfl rfl ?_⟩, ?_⟩
    · rw [said, finish.session]
      rfl
    · rw [← finish.heard]
      exact List.prefix_refl _

/-- The control thread looks at the debuggee, as the client does itself in manual mode. -/
theorem look_advances (there : Manual.nth script host k = some m) (steady : m.Steady script)
    (abreast : Abreast script m a) (ready : a.state.control = .ready) (empty : a.state.queue = [])
    (running : a.state.session.state = .running) (looks : t = { a.state with
      session := (pump a.state.session.host.config.pollMillis a.state.session).2
      control := .moved none, history := a.state.history ++ [.look] }) :
    Advances script host k m a (a.goesTo t) := by
  have before := abreast.current (by rw [ready]; rfl)
  have on : m.debugger.session.state = .running := before.session ▸ running
  obtain ⟨l, calls, awaits⟩ := steady.attended on
  obtain ⟨check, way⟩ := Line.way_awaits awaits
  have waits := ((Line.way_wait way).2 _).mpr (steady.quiet.state.trans on)
  have run : l.way.run 1 m.debugger = (none, look m.debugger) := by
    rw [way, Way.run, waitFor_looks waits]
    rfl
  have next := Manual.nth_run there calls run
  rw [Option.toList_none, List.append_nil] at next
  have pumped : Alike { m.debugger with
      session := (pump m.debugger.session.host.config.pollMillis m.debugger.session).2 } t := by
    rw [looks]
    refine ⟨?_, before.published, before.handlers, before.heard⟩
    simp only [before.session]
  have finish : t.finish = t.settle none := by rw [looks]; rfl
  rw [goesTo_quiet (by rw [looks])]
  refine .inr ⟨_, next, ⟨finish ▸ settle_alike pumped none, ?_, fun _ _ => ⟨?_, l, calls, awaits⟩,
    ?_, ?_⟩, ?_⟩
  · rw [looks]
    exact abreast.held
  · rw [pumped.published]
    exact steady.quiet.state.trans on
  · rw [looks]
    rintro ⟨⟩
  · subst looks
    cases abreast.position with
    | idle client empty _ said => exact .idle client empty rfl said
    | entered called way' =>
      rw [calls] at called
      cases called
      rw [way] at way'
      cases way'
    | queued _ _ _ entry =>
      rw [empty] at entry
      cases entry
    | taken _ _ replies =>
      rw [ready] at replies
      cases replies
    | replied client empty _ said => exact .replied client empty rfl said
  · rw [pumped.heard]

theorem control_advances (there : Manual.nth script host k = some m) (steady : m.Steady script)
    (abreast : Abreast script m a) (step : Dispatch.Step .control a.state t)
    (calls : t.calls = a.state.calls) : Advances script host k m a (a.goesTo t) := by
  have finish := abreast.alike
  cases step with
  | carryOut ready queue => exact carryOut_advances there steady.quiet abreast ready queue
  | look held ready empty running => exact look_advances there steady abreast ready empty running rfl
  | collect moved =>
    have busy : a.state.control.isBusy = true := by rw [moved]; rfl
    simp only [State.finish, moved] at finish
    refine turned_advances abreast busy (finish.same rfl rfl rfl ?_) rfl (fun _ => rfl) (by simp) rfl rfl
      (by rw [moved]; rfl) rfl ?_
    · simp only [State.finish, share_spread, State.settle]
    · simp [Desk.effort, moved]
  | @tell _ h e rest status reply telling =>
    have busy : a.state.control.isBusy = true := by rw [telling]; rfl
    simp only [State.finish, telling] at finish
    refine turned_advances abreast busy (finish.same rfl rfl rfl ?_) rfl (fun _ => rfl) (by simp) rfl rfl
      (by rw [telling]; rfl) rfl ?_
    · simp only [State.finish, Function.update_apply]
      by_cases first : 0 = h
      · subst first
        simp [share]
      · simp [share, first, Ne.symm first]
    · simp [Desk.effort, telling]
  | @publish _ status reply telling =>
    have busy : a.state.control.isBusy = true := by rw [telling]; rfl
    simp only [State.finish, telling] at finish
    refine turned_advances abreast busy (finish.same rfl rfl rfl ?_) rfl (by simp [Control.isBusy])
      (by simp) rfl rfl (by rw [telling]; rfl) rfl ?_
    · simp [State.finish, share]
    · cases reply <;> simp [Desk.effort, telling]
  | reenter c held telling => simp [State.bar, State.begin, State.return] at calls
  | reply published => exact reply_advances abreast published
  | again published => exact again_advances abreast published
  | quit published faulted => exact quit_advances abreast published faulted
  | close ready empty released => simp [abreast.held] at released

theorem Position.of_idle (position : Position script m a) (idle : a.state.clients () = .idle) :
    a.state.queue = [] ∧ a.state.control.reply? = none ∧ m.said = a.said := by
  cases position with
  | idle _ empty unreplied said => exact ⟨empty, unreplied, said⟩
  | entered _ _ client | queued _ _ client | taken client | replied client =>
    rw [idle] at client
    cases client

theorem command_advances (there : Manual.nth script host k = some m) (abreast : Abreast script m a)
    {l : Line δ ρ} {c : Command δ (Got ρ)} (called : script a.said = some l) (way : l.way = .command c)
    (step : Dispatch.Step (.client ()) a.state t) (calls : t.calls = a.state.calls ++ [⟨some (), c⟩]) :
    Advances script host k m a (a.goesTo t) := by
  cases step with
  | send | unsent | receive | lose => simp [State.put, State.leave, State.return] at calls
  | enter d held idle published =>
    simp only [State.put, State.begin, List.append_cancel_left_eq, List.cons.injEq, Call.mk.injEq,
      true_and, and_true] at calls
    subst calls
    obtain ⟨empty, unreplied, said⟩ := abreast.position.of_idle idle
    rw [← said] at called
    have rests := abreast.rests idle called (by simp [way])
    have current := abreast.current rests
    rw [goesTo_quiet (by rfl)]
    refine .inl ⟨⟨abreast.alike.finished rfl, abreast.held, abreast.looking, abreast.stopped,
      .entered (n := a.state.issued) called way ?_ empty rests unreplied ?_ said⟩, ?_⟩
    · rw [put_clients, if_pos rfl]
    · rw [← current.published]
      exact published
    · simp [State.effort, State.patience, State.put, State.begin, idle]
  | @bar _ _ fault d held idle published =>
    obtain ⟨empty, unreplied, said⟩ := abreast.position.of_idle idle
    rw [← said] at called
    have rests := abreast.rests idle called (by simp [way])
    have current := abreast.current rests
    have run : l.way.run 1 m.debugger = (some (.error (.faulted fault)), m.debugger) := by
      rw [way, Way.run, call_faulted (current.published ▸ published)]
      rfl
    rw [goesTo_returned (by rfl)]
    refine .inr ⟨_, Manual.nth_run there called run, ⟨abreast.alike.finished rfl, abreast.held,
      fun busy => ?_, abreast.stopped, .idle idle empty unreplied ?_⟩, ?_⟩
    · exact absurd (rests.symm.trans busy) Bool.false_ne_true
    · rw [said]
      rfl
    · rw [← current.heard]
      exact List.prefix_refl _

theorem client_advances (abreast : Abreast script m a) (step : Dispatch.Step (.client ()) a.state t)
    (calls : t.calls = a.state.calls) : Advances script host k m a (a.goesTo t) := by
  cases step with
  | enter | bar => simp [State.put, State.begin, State.bar, State.return] at calls
  | @send _ _ n c client going =>
    cases abreast.position with
    | idle client' | queued _ _ client' | taken client' | replied client' =>
      rw [client] at client'
      cases client'
    | entered called way client' empty rests unreplied sound said =>
      rw [client] at client'
      cases client'
      rw [goesTo_quiet (by rfl)]
      refine .inl ⟨⟨abreast.alike.finished rfl, abreast.held, abreast.looking, abreast.stopped,
        .queued (n := n) called way ?_ ?_ rests unreplied sound said⟩, ?_⟩
      · rw [put_clients, if_pos rfl]
      · simp [State.put, empty]
      · simp [State.effort, State.patience, State.put, client]
  | unsent client stopped =>
    obtain ⟨fault, faulted⟩ := abreast.stopped stopped
    cases abreast.position with
    | idle client' | queued _ _ client' | taken client' | replied client' =>
      rw [client] at client'
      cases client'
    | entered _ _ _ _ rests _ sound =>
      rw [← (abreast.current rests).published, faulted] at sound
      cases sound
  | receive client =>
    cases abreast.position with
    | idle client' | entered _ _ client' | queued _ _ client' | taken client' =>
      rw [client] at client'
      cases client'
    | replied client' empty unreplied said =>
      rw [client] at client'
      cases client'
      rw [goesTo_returned (by rfl)]
      refine .inl ⟨⟨abreast.alike.finished rfl, abreast.held, abreast.looking, abreast.stopped,
        .idle ?_ empty unreplied said⟩, ?_⟩
      · exact (put_clients ..).trans (if_pos rfl)
      · simp [State.effort, State.patience, State.leave, State.put, State.return, client]
  | lose client unqueued unanswered =>
    cases abreast.position with
    | idle client' | entered _ _ client' | replied client' =>
      rw [client] at client'
      cases client'
    | queued _ _ client' entry =>
      rw [client] at client'
      cases client'
      exact absurd rfl (unqueued _ (entry ▸ List.mem_singleton.mpr rfl))
    | taken client' _ replies =>
      rw [client] at client'
      cases client'
      exact absurd rfl (unanswered _ replies)

/-- A call that is answered by the client's own thread. -/
theorem answered_advances (there : Manual.nth script host k = some m) (abreast : Abreast script m a)
    {l : Line δ ρ} (called : script m.said = some l) (idle : a.state.clients () = .idle)
    (rests : a.state.control.isBusy = false) {r : Said ρ}
    (run : l.way.run 1 m.debugger = (some r, m.debugger)) :
    Advances script host k m a ⟨a.state, a.said ++ [r]⟩ := by
  obtain ⟨empty, unreplied, said⟩ := abreast.position.of_idle idle
  refine .inr ⟨_, Manual.nth_run there called run, ⟨abreast.alike, abreast.held, fun busy => ?_,
    abreast.stopped, .idle idle empty unreplied ?_⟩, ?_⟩
  · exact absurd (rests.symm.trans busy) Bool.false_ne_true
  · rw [said]
    rfl
  · rw [← (abreast.current rests).heard]

theorem toggle_advances (there : Manual.nth script host k = some m) (abreast : Abreast script m a)
    {l : Line δ ρ} {id : BreakpointId} {enabled : Bool} (called : script a.said = some l)
    (way : l.way = .toggle id enabled) (idle : a.state.clients () = .idle)
    (step : Dispatch.Step .holder a.state t)
    (toggles : t.history = a.state.history ++ [.toggle id enabled]) :
    Advances script host k m a ⟨t, a.said ++ [.ok .done]⟩ := by
  cases step with
  | subscribe | release => simp at toggles
  | toggle id' enabled' =>
    simp only [List.append_cancel_left_eq, List.cons.injEq, Deed.toggle.injEq, and_true] at toggles
    obtain ⟨rfl, rfl⟩ := toggles
    obtain ⟨empty, unreplied, said⟩ := abreast.position.of_idle idle
    rw [← said] at called
    have rests := abreast.rests idle called (by simp [way])
    have current := abreast.current rests
    have run : l.way.run 1 m.debugger =
        (some (.ok .done), { m.debugger with session := m.debugger.session.setEnabled id' enabled' }) := by
      rw [way]
      rfl
    refine .inr ⟨_, Manual.nth_run there called run, ⟨?_, abreast.held, fun busy => ?_, abreast.stopped,
      .idle idle empty unreplied ?_⟩, ?_⟩
    · rw [finish_idle (by exact rests)]
      refine ⟨?_, current.published, current.handlers, current.heard⟩
      simp only [current.session]
    · exact absurd (rests.symm.trans busy) Bool.false_ne_true
    · rw [said]
      rfl
    · rw [← current.heard]

/-- No step of the threads, however they take turns, gets away from the client in manual mode. -/
theorem step_advances (there : Manual.nth script host k = some m) (steady : m.Steady script)
    (abreast : Abreast script m a) (step : Automatic.Step script a b) : Advances script host k m a b := by
  have answered {l : Line δ ρ} (called : script a.said = some l) (idle : a.state.clients () = .idle) :
      script m.said = some l := by
    rw [(abreast.position.of_idle idle).2.2]
    exact called
  cases step with
  | control step calls => exact control_advances there steady abreast step calls
  | command called way step calls => exact command_advances there abreast called way step calls
  | client step calls => exact client_advances abreast step calls
  | toggle called way idle step toggles => exact toggle_advances there abreast called way idle step toggles
  | see called way idle =>
    have calls := answered called idle
    have rests := abreast.rests idle calls (by simp [way])
    refine answered_advances there abreast calls idle rests ?_
    rw [way, Way.run, (abreast.current rests).published]
  | wait called way idle passed =>
    have calls := answered called idle
    have rests : a.state.control.isBusy = false := by
      cases busy : a.state.control.isBusy with
      | false => rfl
      | true =>
        have running := (abreast.looking busy (abreast.position.of_idle idle).2.1).1
        rw [((Line.way_wait way).2 _).mpr running] at passed
        cases passed
    refine answered_advances there abreast calls idle rests ?_
    rw [(abreast.current rests).published] at passed
    rw [way, Way.run, waitFor_passed passed]
  | within called way idle passed =>
    have calls := answered called idle
    have rests := abreast.rests idle calls (by simp [way])
    refine answered_advances there abreast calls idle rests ?_
    rw [(abreast.current rests).published] at passed
    rw [way, Manual.within_run steady.quiet.delivering passed]
  | timeout called way idle running =>
    have calls := answered called idle
    have rests := abreast.rests idle calls (by simp [way])
    rw [(abreast.current rests).published, steady.quiet.state] at running
    exact absurd running (steady.rests calls (by simp [way]))

end Abreast

end SourceDebugger.Dispatch
