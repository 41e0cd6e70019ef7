import Mathlib.Data.List.Infix
import Mathlib.Logic.Function.Basic
import SourceDebugger.Debugger
import SourceDebugger.Proofs.Session.Lifecycle
/-!
A session with a thread of its own. Clients put their commands into a queue and wait for the replies.
The control thread carries out one command after the other, looks for an event of the debuggee when
there is none, tells the handlers what has happened, publishes the status and only then replies. A
fault ends it, and with it the queue.

Every thread takes one step at a time, and steps of different threads may come in any order. Breakpoints
are turned on and off past the queue, and handlers may be added at any moment.
-/
namespace SourceDebugger.Dispatch

open Session

/-- A request that takes a session from order to order, by passages. -/
structure Command (δ ρ : Type) where
  request : Request δ ρ
  orderly : ∀ s : Session δ, s.Orderly → (request s).2.Orderly
  passes : ∀ s : Session δ, s.Orderly → Passes True s.record (request s).2.record

abbrev Ticket := Nat

structure Entry (δ ρ ι : Type) where
  client : ι
  ticket : Ticket
  command : Command δ ρ

/-- What a caller gets: the result of its command, or a refusal. -/
inductive Answer (ρ : Type) where
  | result (r : Except DebuggerError ρ)
  | refused (e : DebuggerError)

/-- A call that has begun; the caller is a client, or else a handler on the control thread. -/
structure Call (δ ρ ι : Type) where
  caller : Option ι
  command : Command δ ρ

/-- A call that has returned. -/
structure Return (ρ ι : Type) where
  caller : Option ι
  ticket : Ticket
  answer : Answer ρ

/-- How far the call of a client has come. -/
inductive Client (δ ρ : Type) where
  | idle
  /-- No fault had been published when the call began. -/
  | entered (ticket : Ticket) (command : Command δ ρ)
  | waiting (ticket : Ticket)
  | replied (ticket : Ticket) (r : Except DebuggerError ρ)

def Client.ticket? {δ ρ : Type} : Client δ ρ → Option Ticket
  | .idle => none
  | .entered t _ | .waiting t | .replied t _ => some t

/-- A reply that has yet to be given. -/
structure Reply (ρ ι : Type) where
  client : ι
  ticket : Ticket
  result : Except DebuggerError ρ

/-- Where the control thread is in its loop. -/
inductive Control (ρ ι : Type) where
  | ready
  /-- The session has moved, and nobody has been told. -/
  | moved (reply : Option (Reply ρ ι))
  /-- What each handler has yet to hear, before a status can be published. -/
  | telling (rest : List (Nat × DebuggerEvent)) (status : Status) (reply : Option (Reply ρ ι))
  | published (reply : Option (Reply ρ ι))
  | stopped

def Control.reply? {ρ ι : Type} : Control ρ ι → Option (Reply ρ ι)
  | .ready | .stopped => none
  | .moved r | .telling _ _ r | .published r => r

/-- What can happen to a session. -/
inductive Deed (δ ρ : Type) where
  | command (ticket : Ticket) (c : Command δ ρ)
  | look
  | toggle (id : BreakpointId) (enabled : Bool)
  /-- The waiting events are taken out, to be told to so many handlers. -/
  | collect (handlers : Nat)

/-- The control thread's own affairs. -/
structure Desk (δ ρ ι : Type) where
  session : Session δ
  published : Status
  control : Control ρ ι
  handlers : Nat
  /-- All that has happened to the session. -/
  history : List (Deed δ ρ)
  /-- Of how much of this the published status tells. -/
  settled : Nat
  /-- What each handler has heard. -/
  heard : Nat → List DebuggerEvent

structure State (δ ρ ι : Type) extends Desk δ ρ ι where
  queue : List (Entry δ ρ ι)
  clients : ι → Client δ ρ
  /-- Somebody still holds the debugger and can call it. -/
  isHeld : Bool
  /-- All calls that have begun, each in the place that its ticket says. -/
  calls : List (Call δ ρ ι)
  /-- The tickets of all commands that were ever put into the queue. -/
  sent : List Ticket
  returns : List (Return ρ ι)

/-- Each event goes to all handlers before the next one. -/
def spread (handlers : Nat) (events : List DebuggerEvent) : List (Nat × DebuggerEvent) :=
  events.flatMap fun e => (List.range handlers).map (·, e)

section Steps

variable {δ ρ ι : Type} [Debuggee δ] [DecidableEq ι]

def State.start (host : Host δ) : State δ ρ ι :=
  { session := .new host, published := (Session.new host).status, control := .ready, handlers := 0
    history := [], settled := 0, heard := fun _ => [], queue := [], clients := fun _ => .idle, isHeld := true
    calls := [], sent := [], returns := [] }

/-- The ticket of the next call. -/
def State.issued (s : State δ ρ ι) : Ticket := s.calls.length

def State.begin (s : State δ ρ ι) (caller : Option ι) (c : Command δ ρ) : State δ ρ ι :=
  { s with calls := s.calls ++ [⟨caller, c⟩] }

def State.put (s : State δ ρ ι) (i : ι) (c : Client δ ρ) : State δ ρ ι :=
  { s with clients := Function.update s.clients i c }

/-- What a client makes of a queue that is gone. -/
def State.disconnected (s : State δ ρ ι) : DebuggerError :=
  match s.published.state.fault? with
  | some fault => .faulted fault
  | none => .disconnected

/-- What a handler is answered that calls the debugger. -/
def State.reentered (s : State δ ρ ι) : DebuggerError :=
  match s.published.state.fault? with
  | some fault => .faulted fault
  | none => .reentrant

def State.return (s : State δ ρ ι) (caller : Option ι) (t : Ticket) (a : Answer ρ) : State δ ρ ι :=
  { s with returns := s.returns ++ [⟨caller, t, a⟩] }

/-- The call of a client returns. -/
def State.leave (s : State δ ρ ι) (i : ι) (t : Ticket) (a : Answer ρ) : State δ ρ ι :=
  (s.return (some i) t a).put i .idle

/-- A call that begins and is refused at once. -/
def State.bar (s : State δ ρ ι) (caller : Option ι) (c : Command δ ρ) (e : DebuggerError) :
    State δ ρ ι :=
  (s.begin caller c).return caller s.issued (.refused e)

/-- The control thread's turn with the command at the head of the queue. -/
def State.carryOut (s : State δ ρ ι) (e : Entry δ ρ ι) (rest : List (Entry δ ρ ι)) : State δ ρ ι :=
  { s with
    session := (e.command.request s.session).2
    control := .moved (some ⟨e.client, e.ticket, (e.command.request s.session).1⟩)
    history := s.history ++ [.command e.ticket e.command]
    queue := rest }

inductive Actor (ι : Type) where
  | client (i : ι)
  | control
  /-- Whoever holds a breakpoint or the debugger. -/
  | holder

inductive Step : Actor ι → State δ ρ ι → State δ ρ ι → Prop
  | enter {s : State δ ρ ι} {i : ι} (c : Command δ ρ) : s.isHeld = true → s.clients i = .idle →
      s.published.state.fault? = none →
      Step (.client i) s ((s.begin (some i) c).put i (.entered s.issued c))
  | bar {s : State δ ρ ι} {i : ι} {fault : Fault} (c : Command δ ρ) : s.isHeld = true →
      s.clients i = .idle → s.published.state.fault? = some fault →
      Step (.client i) s (s.bar (some i) c (.faulted fault))
  | send {s : State δ ρ ι} {i : ι} {t : Ticket} {c : Command δ ρ} : s.clients i = .entered t c →
      s.control ≠ .stopped → Step (.client i) s
        ({ s with queue := s.queue ++ [Entry.mk i t c], sent := s.sent ++ [t] }.put i (.waiting t))
  | unsent {s : State δ ρ ι} {i : ι} {t : Ticket} {c : Command δ ρ} : s.clients i = .entered t c →
      s.control = .stopped → Step (.client i) s (s.leave i t (.refused s.disconnected))
  | receive {s : State δ ρ ι} {i : ι} {t : Ticket} {r : Except DebuggerError ρ} :
      s.clients i = .replied t r → Step (.client i) s (s.leave i t (.result r))
  /-- The command is neither in the queue nor being carried out, so that no reply can come. -/
  | lose {s : State δ ρ ι} {i : ι} {t : Ticket} : s.clients i = .waiting t →
      (∀ e ∈ s.queue, e.ticket ≠ t) → (∀ r, s.control.reply? = some r → r.ticket ≠ t) →
      Step (.client i) s (s.leave i t (.refused s.disconnected))
  | carryOut {s : State δ ρ ι} {e : Entry δ ρ ι} {rest : List (Entry δ ρ ι)} : s.control = .ready →
      s.queue = e :: rest → Step .control s (s.carryOut e rest)
  | look {s : State δ ρ ι} : s.isHeld = true → s.control = .ready → s.queue = [] →
      s.session.state = .running → Step .control s
        { s with session := (pump s.session.host.config.pollMillis s.session).2
                 control := .moved none, history := s.history ++ [.look] }
  | collect {s : State δ ρ ι} {reply : Option (Reply ρ ι)} : s.control = .moved reply →
      Step .control s
        { s with session := { s.session with outbox := [] }
                 control := .telling (spread s.handlers s.session.outbox) s.session.status reply
                 history := s.history ++ [.collect s.handlers] }
  | tell {s : State δ ρ ι} {h : Nat} {e : DebuggerEvent} {rest : List (Nat × DebuggerEvent)}
      {status : Status} {reply : Option (Reply ρ ι)} :
      s.control = .telling ((h, e) :: rest) status reply → Step .control s
        { s with control := .telling rest status reply
                 heard := Function.update s.heard h (s.heard h ++ [e]) }
  /-- A handler calls the debugger. -/
  | reenter {s : State δ ρ ι} {told : Nat × DebuggerEvent} {rest : List (Nat × DebuggerEvent)}
      {status : Status} {reply : Option (Reply ρ ι)} (c : Command δ ρ) : s.isHeld = true →
      s.control = .telling (told :: rest) status reply →
      Step .control s (s.bar none c s.reentered)
  | publish {s : State δ ρ ι} {status : Status} {reply : Option (Reply ρ ι)} :
      s.control = .telling [] status reply →
      Step .control s { s with published := status, control := .published reply
                               settled := s.history.length }
  | reply {s : State δ ρ ι} {r : Reply ρ ι} : s.control = .published (some r) →
      Step .control s ({ s with control := .published none }.put r.client (.replied r.ticket r.result))
  | again {s : State δ ρ ι} : s.control = .published none → s.published.state.fault? = none →
      Step .control s { s with control := .ready }
  | quit {s : State δ ρ ι} {fault : Fault} : s.control = .published none →
      s.published.state.fault? = some fault →
      Step .control s { s with control := .stopped, queue := [] }
  /-- Nobody can call any more. -/
  | close {s : State δ ρ ι} : s.control = .ready → s.queue = [] → s.isHeld = false →
      Step .control s { s with control := .stopped }
  | subscribe {s : State δ ρ ι} : Step .holder s { s with handlers := s.handlers + 1 }
  | toggle {s : State δ ρ ι} (id : BreakpointId) (enabled : Bool) :
      Step .holder s { s with session := s.session.setEnabled id enabled
                              history := s.history ++ [.toggle id enabled] }
  | release {s : State δ ρ ι} : (∀ i, s.clients i = .idle) → Step .holder s { s with isHeld := false }

/-- A run in which only some take steps. -/
abbrev LeadsBy (some : Actor ι → Prop) : State δ ρ ι → State δ ρ ι → Prop :=
  Relation.ReflTransGen fun s t => ∃ actor, some actor ∧ Step actor s t

abbrev Leads : State δ ρ ι → State δ ρ ι → Prop := LeadsBy fun _ => True

def Reachable (host : Host δ) (s : State δ ρ ι) : Prop := Leads (State.start host) s

theorem Reachable.step {host : Host δ} {s t : State δ ρ ι} {actor : Actor ι}
    (reach : Reachable host s) (step : Step actor s t) : Reachable host t :=
  reach.tail ⟨actor, trivial, step⟩

end Steps

section Play

variable {δ ρ : Type} [Debuggee δ]

def Deed.play (s : Session δ) : Deed δ ρ → Session δ
  | .command _ c => (c.request s).2
  | .look => (pump s.host.config.pollMillis s).2
  | .toggle id enabled => s.setEnabled id enabled
  | .collect _ => { s with outbox := [] }

/-- A session to which everything happens in turn. -/
def plays (s : Session δ) (history : List (Deed δ ρ)) : Session δ := history.foldl Deed.play s

/-- The events that come of something. -/
def Deed.news (s : Session δ) : Deed δ ρ → List DebuggerEvent
  | .collect _ => []
  | deed => (deed.play s).outbox.drop s.outbox.length

def news : Session δ → List (Deed δ ρ) → List DebuggerEvent
  | _, [] => []
  | s, deed :: rest => deed.news s ++ news (deed.play s) rest

/-- What a handler is to be told when something happens. -/
def Deed.tells (h : Nat) (s : Session δ) : Deed δ ρ → List DebuggerEvent
  | .collect handlers => if h < handlers then s.outbox else []
  | .command .. | .look | .toggle .. => []

def told (h : Nat) : Session δ → List (Deed δ ρ) → List DebuggerEvent
  | _, [] => []
  | s, deed :: rest => deed.tells h s ++ told h (deed.play s) rest

/-- Nothing is collected without this handler. -/
def Deed.reaches (h : Nat) : Deed δ ρ → Prop
  | .collect handlers => h < handlers
  | .command .. | .look | .toggle .. => True

/-- Commands and looks; of anything else the status does not tell. -/
def Deed.isWork : Deed δ ρ → Bool
  | .command .. | .look => true
  | .toggle .. | .collect _ => false

def Deed.ticket? : Deed δ ρ → Option Ticket
  | .command t _ => some t
  | .look | .toggle .. | .collect _ => none

/-- The tickets of the commands that have been carried out, in their order. -/
def executed (history : List (Deed δ ρ)) : List Ticket := history.filterMap Deed.ticket?

/-- A command was carried out under a ticket, with a result. -/
def Ran (s : Session δ) (history : List (Deed δ ρ)) (t : Ticket) (c : Command δ ρ)
    (r : Except DebuggerError ρ) : Prop :=
  ∃ before after, history = before ++ .command t c :: after ∧ (c.request (plays s before)).1 = r

end Play

end SourceDebugger.Dispatch
