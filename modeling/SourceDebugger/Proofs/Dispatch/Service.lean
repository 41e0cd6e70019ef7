import SourceDebugger.Proofs.Dispatch.Answers
/-!
What the control thread does in one turn, and that every call returns: the control thread and the caller
can bring it to its end by themselves, from wherever the others have come to. Left alone with a client,
the control thread serves it as a debugger does that has no threads.
-/
namespace SourceDebugger.Dispatch

open Session

variable {δ ρ ι : Type} [Debuggee δ] [DecidableEq ι]

/-- The control thread, or one client. -/
def Actor.Serves (i : ι) : Actor ι → Prop
  | .client j => j = i
  | .control => True
  | .holder => False

variable {s t : State δ ρ ι} {i : ι} {n : Ticket}

abbrev Serves (i : ι) : State δ ρ ι → State δ ρ ι → Prop := LeadsBy (Actor.Serves i)

theorem Serves.leads (serves : Serves i s t) : Leads s t := by
  induction serves with
  | refl => exact .refl
  | tail _ next ih =>
    obtain ⟨actor, _, step⟩ := next
    exact ih.tail ⟨actor, trivial, step⟩

theorem Serves.control (step : Step .control s t) : Serves i s t := .single ⟨.control, trivial, step⟩

theorem Serves.client (step : Step (.client i) s t) : Serves i s t := .single ⟨.client i, rfl, step⟩

section Turn

variable {reply : Option (Reply ρ ι)}

theorem tell_all {rest : List (Nat × DebuggerEvent)} {status : Status}
    (telling : s.control = .telling rest status reply) : Serves i s { s with
      control := .telling [] status reply, heard := fun h => s.heard h ++ share h rest } := by
  induction rest generalizing s with
  | nil =>
    have same : s = { s with control := .telling [] status reply
                             heard := fun h => s.heard h ++ share h [] } := by
      simp [share, ← telling]
    rw [← same]
  | cons first rest ih =>
    obtain ⟨h, e⟩ := first
    have heard : (fun k => s.heard k ++ share k ((h, e) :: rest)) =
        fun k => Function.update s.heard h (s.heard h ++ [e]) k ++ share k rest := by
      funext k
      by_cases here : k = h
      · subst here
        simp [share]
      · have other : h ≠ k := fun same => here same.symm
        simp [share, here, other]
    rw [heard]
    exact (Serves.control (.tell telling)).trans (ih rfl)

/-- The session after its events have been collected, told and their status published. -/
def State.settle (s : State δ ρ ι) (reply : Option (Reply ρ ι)) : State δ ρ ι :=
  { s with session := { s.session with outbox := [] }
           published := s.session.status
           control := .published reply
           history := s.history ++ [.collect s.handlers]
           settled := s.history.length + 1
           heard := fun h => s.heard h ++ if h < s.handlers then s.session.outbox else [] }

theorem settles (moved : s.control = .moved reply) : Serves i s (s.settle reply) := by
  refine (Serves.control (.collect moved)).trans ?_
  refine (tell_all rfl).trans ?_
  simp only [share_spread]
  refine (Serves.control (.publish rfl)).trans ?_
  simp only [List.length_append, List.length_singleton]
  exact .refl

end Turn

section Returns

variable {host : Host δ} {reply : Option (Reply ρ ι)}

/-- The control thread and the caller can bring the call to its end. -/
def Returns (i : ι) (n : Ticket) (s : State δ ρ ι) : Prop :=
  ∃ t a, Serves i s t ∧ Return.mk (some i) n a ∈ t.returns

theorem Returns.before (first : Serves i s t) (returns : Returns i n t) : Returns i n s := by
  obtain ⟨u, a, later, member⟩ := returns
  exact ⟨u, a, first.trans later, member⟩

theorem leave_returns {a : Answer ρ} (step : Step (.client i) s (s.leave i n a)) : Returns i n s :=
  ⟨s.leave i n a, a, Serves.client step, List.mem_append_right _ (List.mem_singleton.mpr rfl)⟩

theorem stopped_returns (ends : s.Ends) (waits : s.clients i = .waiting n)
    (stopped : s.control = .stopped) : Returns i n s := by
  refine leave_returns (.lose waits ?_ ?_)
  · simp [ends.empty stopped]
  · simp [stopped, Control.reply?]

/-- The call has come to its end, or the control thread can turn to what stands in the queue. -/
def Goes (i : ι) (n : Ticket) (queue : List (Entry δ ρ ι)) (s : State δ ρ ι) : Prop :=
  Returns i n s ∨
    ∃ t, Serves i s t ∧ t.control = .ready ∧ t.queue = queue ∧ t.clients i = .waiting n

theorem Goes.before {queue : List (Entry δ ρ ι)} (first : Serves i s t) (goes : Goes i n queue t) :
    Goes i n queue s := by
  rcases goes with returns | ⟨u, later, ready⟩
  · exact .inl (returns.before first)
  · exact .inr ⟨u, first.trans later, ready⟩

theorem rested_goes (waits : s.clients i = .waiting n) (rested : s.control = .published none) :
    Goes i n s.queue s := by
  cases published : s.published.state.fault? with
  | none => exact .inr ⟨_, Serves.control (.again rested published), rfl, rfl, waits⟩
  | some fault =>
    refine .inl (.before (Serves.control (.quit rested published)) (leave_returns (.lose waits ?_ ?_)))
    · rintro _ ⟨⟩
    · rintro _ ⟨⟩

theorem published_goes (ticketed : s.Ticketed) (waits : s.clients i = .waiting n)
    (published : s.control = .published reply) : Goes i n s.queue s := by
  cases reply with
  | none => exact rested_goes waits published
  | some r =>
    have replies := Serves.control (i := i) (.reply published)
    by_cases mine : i = r.client
    · have own := (ticketed.owing r (by rw [published]; rfl)).1
      rw [← mine, waits] at own
      cases own
      refine .inl (.before replies (leave_returns (.receive (r := r.result) ?_)))
      rw [put_clients, if_pos mine]
    · refine .before replies (rested_goes ?_ rfl)
      rw [put_clients, if_neg mine]
      exact waits

/-- The control thread finishes what it has begun. -/
theorem turn_goes (reach : Reachable host s) (waits : s.clients i = .waiting n) :
    Goes i n s.queue s := by
  have after {t : State δ ρ ι} {reply : Option (Reply ρ ι)} (serves : Serves i s t)
      (published : t.control = .published reply) (clients : t.clients = s.clients)
      (queue : t.queue = s.queue) : Goes i n s.queue s := by
    have ticketed := reachable_ticketed (reach.trans serves.leads)
    exact queue ▸ .before serves (published_goes ticketed (by rw [clients, waits]) published)
  cases control : s.control with
  | ready => exact .inr ⟨s, .refl, control, rfl, waits⟩
  | moved reply => exact after (settles control) rfl rfl rfl
  | telling rest status reply =>
    exact after ((tell_all control).trans (Serves.control (.publish rfl))) rfl rfl rfl
  | published reply => exact after .refl control rfl rfl
  | stopped => exact .inl (stopped_returns (reachable_ends reach) waits control)

theorem waiting_returns (reach : Reachable host s) (waits : s.clients i = .waiting n) :
    Returns i n s := by
  induction queue : s.queue generalizing s with
  | nil =>
    rcases turn_goes reach waits with returns | ⟨t, serves, ready, empty, still⟩
    · exact returns
    · have ticketed := reachable_ticketed (reach.trans serves.leads)
      -- With nothing in the queue, the command would have been carried out and not replied to.
      have lost := lost ticketed still (by simp [empty, queue]) (by simp [ready, Control.reply?])
      rw [ready] at lost
      cases lost.2
  | cons e rest ih =>
    rcases turn_goes reach waits with returns | ⟨t, serves, ready, entries, still⟩
    · exact returns
    · have carries := Serves.control (i := i) (.carryOut ready (entries.trans queue))
      have later : Serves i s (t.carryOut e rest) := serves.trans carries
      exact .before later (ih (reach.trans later.leads) still rfl)

theorem call_returns (reach : Reachable host s) (holds : s.holds i = some n) : Returns i n s := by
  cases client : s.clients i with
  | idle => simp [State.holds, client, Client.ticket?] at holds
  | entered m c =>
    obtain rfl : m = n := by simpa [State.holds, client, Client.ticket?] using holds
    by_cases stopped : s.control = .stopped
    · exact leave_returns (.unsent client stopped)
    · have sends := Serves.client (.send client stopped)
      refine .before sends (waiting_returns (reach.trans sends.leads) ?_)
      rw [put_clients, if_pos rfl]
  | waiting m =>
    obtain rfl : m = n := by simpa [State.holds, client, Client.ticket?] using holds
    exact waiting_returns reach client
  | replied m r =>
    obtain rfl : m = n := by simpa [State.holds, client, Client.ticket?] using holds
    exact leave_returns (.receive client)

end Returns

section Alone

/-- A watcher that remembers what it sees. -/
def listen : Watch δ (List DebuggerEvent) := fun e d => { d with watcher := d.watcher ++ [e] }

omit [Debuggee δ] in
theorem foldl_listen (events : List DebuggerEvent) (d : Debugger δ (List DebuggerEvent)) :
    events.foldl (fun d e => listen e d) d = { d with watcher := d.watcher ++ events } := by
  induction events generalizing d with
  | nil => simp
  | cons e rest ih =>
    rw [List.foldl_cons, ih]
    simp [listen]

/-- A debugger without threads, and one with threads of which only the first handler listens. -/
structure Alike (d : Debugger δ (List DebuggerEvent)) (s : State δ ρ ι) : Prop where
  session : s.session = d.session
  published : s.published = d.published
  handlers : s.handlers = 1
  heard : s.heard 0 = d.watcher

omit [Debuggee δ] [DecidableEq ι] in
theorem settle_alike {d : Debugger δ (List DebuggerEvent)} (alike : Alike d s)
    (reply : Option (Reply ρ ι)) : Alike (d.deliver listen) (s.settle reply) := by
  obtain ⟨session, published, handlers, heard⟩ := alike
  constructor <;> simp [State.settle, Debugger.deliver, foldl_listen, session, handlers, heard]

def Answer.outcome : Answer ρ → Except DebuggerError ρ
  | .result r => r
  | .refused e => .error e

omit [Debuggee δ] [DecidableEq ι] in
theorem Alike.of_desk {d : Debugger δ (List DebuggerEvent)} (alike : Alike d s)
    (same : t.toDesk = s.toDesk) : Alike d t := by
  obtain ⟨session, published, handlers, heard⟩ := alike
  constructor <;> rw [same] <;> assumption

/-- A turn of the control thread with the only command that there is. -/
theorem turn_alone {c : Command δ ρ} (ready : s.control = .ready)
    (queue : s.queue = [Entry.mk i n c]) : ∃ t, Serves i s t ∧
      t.returns = s.returns ++ [⟨some i, n, .result (c.request s.session).1⟩] ∧
      t.toDesk = ((s.carryOut ⟨i, n, c⟩ []).settle none).toDesk := by
  have carries := Serves.control (i := i) (.carryOut ready queue)
  have settled := carries.trans (settles rfl)
  have replied := settled.trans (Serves.control (.reply rfl))
  have received := replied.trans (Serves.client (.receive (by rw [put_clients, if_pos rfl])))
  exact ⟨_, received, rfl, rfl⟩

/-- A client that calls when nobody else does gets what `Debugger.call` answers. -/
theorem call_alone {host : Host δ} {d : Debugger δ (List DebuggerEvent)} (reach : Reachable host s)
    (alike : Alike d s) (quiet : d.delivering = false) (held : s.isHeld = true)
    (idle : s.clients i = .idle) (empty : s.queue = [])
    (rests : s.control = .ready ∨ s.control = .stopped) (c : Command δ ρ) :
    ∃ t a, Serves i s t ∧ t.returns = s.returns ++ [⟨some i, s.issued, a⟩] ∧
      a.outcome = (Debugger.call listen c.request d).1 ∧
      Alike (Debugger.call listen c.request d).2 t := by
  cases published : s.published.state.fault? with
  | some fault =>
    have called : Debugger.call listen c.request d = (.error (.faulted fault), d) := by
      simp only [Debugger.call, ← alike.published, published]
    rw [called]
    exact ⟨_, _, Serves.client (.bar c held idle published), rfl, rfl,
      ⟨alike.session, alike.published, alike.handlers, alike.heard⟩⟩
  | none =>
    have ready : s.control = .ready := by
      refine rests.resolve_right fun stopped => ?_
      rw [(reachable_ends reach).ended stopped published] at held
      cases held
    have called : Debugger.call listen c.request d = ((c.request d.session).1,
        { d with session := (c.request d.session).2 }.deliver listen) := by
      simp [Debugger.call, ← alike.published, published, Debugger.isReentrant, quiet]
      rfl
    rw [called]
    have enters := Serves.client (.enter c held idle published)
    have sends := Serves.client (.send (s := (s.begin (some i) c).put i (.entered s.issued c))
      (by rw [put_clients, if_pos rfl]) (show s.control ≠ .stopped by simp [ready]))
    obtain ⟨t, serves, returns, desk⟩ := turn_alone (i := i) (n := s.issued) (c := c)
      (s := State.put { (s.begin (some i) c).put i (.entered s.issued c) with
        queue := s.queue ++ [Entry.mk i s.issued c], sent := s.sent ++ [s.issued] } i (.waiting s.issued))
      ready (by simp [State.put, empty])
    have carried : Alike { d with session := (c.request d.session).2 }
        (s.carryOut ⟨i, s.issued, c⟩ []) := by
      refine ⟨?_, alike.published, alike.handlers, alike.heard⟩
      simp only [State.carryOut, alike.session]
    have settled := settle_alike carried none
    refine ⟨t, _, (enters.trans sends).trans serves, returns, ?_, settled.of_desk desk⟩
    show (c.request s.session).1 = (c.request d.session).1
    rw [alike.session]

/-- When there is nothing to do, the control thread does what a debugger does that waits. -/
theorem look_alone {d : Debugger δ (List DebuggerEvent)} (alike : Alike d s) (held : s.isHeld = true)
    (ready : s.control = .ready) (empty : s.queue = []) (running : s.session.state = .running) :
    ∃ t, Serves i s t ∧ t.control = .published none ∧ Alike ({ d with
      session := (pump d.session.host.config.pollMillis d.session).2 }.deliver listen) t := by
  have looks := Serves.control (i := i) (.look held ready empty running)
  refine ⟨_, looks.trans (settles rfl), rfl, settle_alike ⟨?_, ?_, ?_, ?_⟩ none⟩
  · simp only [alike.session]
  · exact alike.published
  · exact alike.handlers
  · exact alike.heard

end Alone

end SourceDebugger.Dispatch
