import Mathlib.Data.List.Nodup
import SourceDebugger.Proofs.Dispatch.Course
/-!
Who has which ticket. Each call gets a ticket of its own, each command goes into the queue once, and the
commands are carried out in the order in which they were put there. A command that is no longer in the
queue and has not been carried out was dropped when the control thread stopped.
-/
namespace SourceDebugger.Dispatch

open Session

variable {δ ρ ι : Type}

def State.holds (s : State δ ρ ι) (i : ι) : Option Ticket := (s.clients i).ticket?

/-- A call that is under way or has returned stands among the calls as its caller's own. -/
structure State.Held (s : State δ ρ ι) : Prop where
  own : ∀ i n, s.holds i = some n → ∃ c, s.calls[n]? = some ⟨some i, c⟩
  entered : ∀ i n c, s.clients i = .entered n c → s.calls[n]? = some ⟨some i, c⟩
  returned : ∀ x ∈ s.returns, (∃ c, s.calls[x.ticket]? = some ⟨x.caller, c⟩) ∧
    ∀ i, s.holds i ≠ some x.ticket
  returns : (s.returns.map Return.ticket).Nodup

structure State.Ticketed (s : State δ ρ ι) : Prop extends s.Held where
  sent : ∀ n ∈ s.sent, n < s.issued
  once : s.sent.Nodup
  unsent : ∀ i n c, s.clients i = .entered n c → n ∉ s.sent
  /-- Once the control thread has stopped, commands may have been dropped. -/
  order : ∃ dropped, s.sent = executed s.history ++ s.queue.map Entry.ticket ++ dropped ∧
    (s.control ≠ .stopped → dropped = [])
  queued : ∀ e ∈ s.queue, s.clients e.client = .waiting e.ticket ∧
    s.calls[e.ticket]? = some ⟨some e.client, e.command⟩
  deeds : ∀ n c, .command n c ∈ s.history → ∃ i, s.calls[n]? = some ⟨some i, c⟩
  owing : ∀ r, s.control.reply? = some r →
    s.clients r.client = .waiting r.ticket ∧ r.ticket ∈ executed s.history
  waiting : ∀ i n, s.clients i = .waiting n → n ∈ s.sent ∧
    (n ∈ executed s.history → ∃ r, s.control.reply? = some r ∧ r.ticket = n)

section Held

variable {s t : State δ ρ ι} {i j : ι} {n : Ticket} {caller : Option ι} {c d : Command δ ρ}

@[simp] theorem begin_calls : (s.begin caller c).calls = s.calls ++ [⟨caller, c⟩] := rfl

@[simp] theorem begin_issued : (s.begin caller c).issued = s.issued + 1 := List.length_append ..

theorem begin_before {x : Call δ ρ ι} (before : s.calls[n]? = some x) :
    (s.begin caller c).calls[n]? = some x := by
  obtain ⟨known, _⟩ := List.getElem?_eq_some_iff.mp before
  rw [begin_calls, List.getElem?_append_left known, before]

@[simp] theorem begin_self : (s.begin caller c).calls[s.issued]? = some ⟨caller, c⟩ := by
  simp [State.issued]

theorem lt_issued {x : Call δ ρ ι} (known : s.calls[n]? = some x) : n < s.issued :=
  (List.getElem?_eq_some_iff.mp known).1

theorem State.Held.known (held : s.Held) (has : s.holds i = some n) : n < s.issued := by
  obtain ⟨c, known⟩ := held.own i n has
  exact lt_issued known

theorem State.Held.single (held : s.Held) (first : s.holds i = some n) (second : s.holds j = some n) :
    i = j := by
  obtain ⟨c, mine⟩ := held.own i n first
  obtain ⟨d, yours⟩ := held.own j n second
  rw [mine] at yours
  cases yours
  rfl

theorem State.Held.same (held : s.Held) (holds : t.holds = s.holds)
    (entered : ∀ i n c, t.clients i = .entered n c → s.clients i = .entered n c)
    (calls : t.calls = s.calls) (returns : t.returns = s.returns) : t.Held := by
  constructor
  · simpa only [holds, calls] using held.own
  · intro i n c now
    rw [calls]
    exact held.entered i n c (entered i n c now)
  · simpa only [holds, calls, returns] using held.returned
  · simpa only [returns] using held.returns

/-- A return under a ticket that no earlier one has. -/
theorem nodup_returns {returns : List (Return ρ ι)} (nodup : (returns.map Return.ticket).Nodup)
    (caller : Option ι) (a : Answer ρ) (fresh : ∀ x ∈ returns, x.ticket ≠ n) :
    ((returns ++ [Return.mk caller n a]).map Return.ticket).Nodup := by
  rw [List.map_append, List.nodup_append']
  refine ⟨nodup, List.nodup_singleton n, ?_⟩
  intro m before last
  obtain ⟨x, member, rfl⟩ := List.mem_map.mp before
  exact fresh x member (List.mem_singleton.mp last)

theorem bar_held (held : s.Held) (caller : Option ι) (c : Command δ ρ) (e : DebuggerError) :
    (s.bar caller c e).Held := by
  constructor
  · intro j m has
    obtain ⟨d, known⟩ := held.own j m has
    exact ⟨d, begin_before known⟩
  · exact fun j m d entered => begin_before (held.entered j m d entered)
  · intro x member
    rcases List.mem_append.mp member with before | last
    · obtain ⟨⟨d, known⟩, unheld⟩ := held.returned x before
      exact ⟨⟨d, begin_before known⟩, unheld⟩
    · rw [List.mem_singleton] at last
      subst last
      exact ⟨⟨c, begin_self⟩, fun j has => Nat.lt_irrefl _ (held.known has)⟩
  · refine nodup_returns held.returns _ _ fun x member => ?_
    obtain ⟨⟨d, known⟩, _⟩ := held.returned x member
    exact Nat.ne_of_lt (lt_issued known)

variable [DecidableEq ι]

theorem put_clients (s : State δ ρ ι) (i : ι) (c : Client δ ρ) (j : ι) :
    (s.put i c).clients j = if j = i then c else s.clients j :=
  Function.update_apply ..

theorem holds_put (s : State δ ρ ι) (i : ι) (c : Client δ ρ) (j : ι) :
    (s.put i c).holds j = if j = i then c.ticket? else s.holds j := by
  simp only [State.holds, put_clients]
  split <;> rfl

/-- The call of a client goes on under its ticket. -/
theorem holds_put_same {c : Client δ ρ} (mine : s.holds i = some n) (same : c.ticket? = some n) :
    (s.put i c).holds = s.holds := by
  funext j
  rw [holds_put]
  split
  · rename_i here
    rw [here, mine, same]
  · rfl

theorem enter_held (held : s.Held) (c : Command δ ρ) :
    ((s.begin (some i) c).put i (.entered s.issued c)).Held := by
  constructor
  · intro j m has
    rw [holds_put] at has
    split at has
    · rename_i here
      obtain rfl := Option.some.inj has
      exact ⟨c, here ▸ begin_self⟩
    · obtain ⟨d, known⟩ := held.own j m has
      exact ⟨d, begin_before known⟩
  · intro j m d entered
    rw [put_clients] at entered
    split at entered
    · rename_i here
      cases entered
      exact here ▸ begin_self
    · exact begin_before (held.entered j m d entered)
  · intro x member
    obtain ⟨⟨d, known⟩, unheld⟩ := held.returned x member
    refine ⟨⟨d, begin_before known⟩, fun j has => ?_⟩
    rw [holds_put] at has
    split at has
    · exact Nat.ne_of_lt (lt_issued known) (Option.some.inj has).symm
    · exact unheld j has
  · exact held.returns

theorem leave_held (held : s.Held) (mine : s.holds i = some n) (a : Answer ρ) :
    (s.leave i n a).Held := by
  -- Whoever has a ticket now is another client and had it before.
  have later {j : ι} {m : Ticket} (has : (s.leave i n a).holds j = some m) :
      j ≠ i ∧ s.holds j = some m := by
    rw [State.leave, holds_put] at has
    split at has
    · cases has
    · exact ⟨‹_›, has⟩
  constructor
  · exact fun j m has => held.own j m (later has).2
  · intro j m d entered
    rw [State.leave, put_clients] at entered
    split at entered
    · cases entered
    · exact held.entered j m d entered
  · intro x member
    rcases List.mem_append.mp member with before | last
    · obtain ⟨known, unheld⟩ := held.returned x before
      exact ⟨known, fun j has => unheld j (later has).2⟩
    · obtain rfl := List.mem_singleton.mp last
      refine ⟨held.own i n mine, fun j has => ?_⟩
      obtain ⟨away, before⟩ := later has
      exact away (held.single before mine)
  · refine nodup_returns held.returns _ _ fun x member same => ?_
    exact (held.returned x member).2 i (same ▸ mine)

end Held

section Ticketed

variable {s t : State δ ρ ι} {i : ι} {n : Ticket}

theorem State.Ticketed.executed_sent (ticketed : s.Ticketed) (ran : n ∈ executed s.history) :
    n ∈ s.sent := by
  obtain ⟨dropped, order, _⟩ := ticketed.order
  simp [order, ran]

/-- What stands in the queue has not been carried out. -/
theorem State.Ticketed.pending (ticketed : s.Ticketed) {e : Entry δ ρ ι} (member : e ∈ s.queue) :
    e.ticket ∉ executed s.history := by
  intro ran
  obtain ⟨dropped, order, _⟩ := ticketed.order
  have once := ticketed.once
  rw [order, List.append_assoc, List.nodup_append'] at once
  exact once.2.2 ran (List.mem_append_left _ (List.mem_map_of_mem member))

/-- Nothing happens to tickets. -/
theorem State.Ticketed.same (ticketed : s.Ticketed) (clients : t.clients = s.clients)
    (queue : t.queue = s.queue) (sent : t.sent = s.sent) (returns : t.returns = s.returns)
    (calls : t.calls = s.calls) (ran : executed t.history = executed s.history)
    (deeds : ∀ n c, .command n c ∈ t.history → .command n c ∈ s.history)
    (reply : t.control.reply? = s.control.reply?)
    (stops : t.control ≠ .stopped → s.control ≠ .stopped) : t.Ticketed := by
  constructor
  · refine ticketed.toHeld.same ?_ (by simp only [clients, imp_self, implies_true]) calls returns
    funext j
    simp only [State.holds, clients]
  · simpa only [sent, State.issued, calls] using ticketed.sent
  · simpa only [sent] using ticketed.once
  · simpa only [clients, sent] using ticketed.unsent
  · obtain ⟨dropped, order, none⟩ := ticketed.order
    exact ⟨dropped, by simpa only [sent, ran, queue] using order, fun going => none (stops going)⟩
  · simpa only [clients, queue, calls] using ticketed.queued
  · intro n c member
    rw [calls]
    exact ticketed.deeds n c (deeds n c member)
  · simpa only [clients, reply, ran] using ticketed.owing
  · simpa only [clients, sent, reply, ran] using ticketed.waiting

/-- The session goes on without a command. -/
theorem State.Ticketed.aside (ticketed : s.Ticketed) (deed : Deed δ ρ) (other : deed.ticket? = none)
    (history : t.history = s.history ++ [deed]) (clients : t.clients = s.clients)
    (queue : t.queue = s.queue) (sent : t.sent = s.sent) (returns : t.returns = s.returns)
    (calls : t.calls = s.calls) (reply : t.control.reply? = s.control.reply?)
    (stops : t.control ≠ .stopped → s.control ≠ .stopped) : t.Ticketed := by
  refine ticketed.same clients queue sent returns calls ?_ ?_ reply stops
  · simp [history, executed, other]
  · intro n c member
    rw [history] at member
    rcases List.mem_append.mp member with before | last
    · exact before
    · rw [← List.mem_singleton.mp last] at other
      cases other

/-- A call begins and is refused at once. -/
theorem bar_ticketed (ticketed : s.Ticketed) (caller : Option ι) (c : Command δ ρ)
    (e : DebuggerError) : (s.bar caller c e).Ticketed := by
  constructor
  · exact bar_held ticketed.toHeld caller c e
  · intro m member
    exact Nat.lt_of_lt_of_eq (Nat.lt_succ_of_lt (ticketed.sent m member)) begin_issued.symm
  · exact ticketed.once
  · exact ticketed.unsent
  · exact ticketed.order
  · intro x member
    obtain ⟨waits, own⟩ := ticketed.queued x member
    exact ⟨waits, begin_before own⟩
  · intro m d member
    obtain ⟨i, own⟩ := ticketed.deeds m d member
    exact ⟨i, begin_before own⟩
  · exact ticketed.owing
  · exact ticketed.waiting

variable [DecidableEq ι]

theorem enter_ticketed (ticketed : s.Ticketed) (idle : s.clients i = .idle) (c : Command δ ρ) :
    ((s.begin (some i) c).put i (.entered s.issued c)).Ticketed := by
  have away {j : ι} {m : Ticket} (waits : s.clients j = .waiting m) : j ≠ i := by
    rintro rfl
    simp [waits] at idle
  constructor
  · exact enter_held ticketed.toHeld c
  · intro m member
    exact Nat.lt_of_lt_of_eq (Nat.lt_succ_of_lt (ticketed.sent m member)) begin_issued.symm
  · exact ticketed.once
  · intro j m d entered member
    rw [put_clients] at entered
    split at entered
    · cases entered
      exact Nat.lt_irrefl _ (ticketed.sent _ member)
    · exact ticketed.unsent j m d entered member
  · exact ticketed.order
  · intro e member
    obtain ⟨waits, own⟩ := ticketed.queued e member
    rw [put_clients, if_neg (away waits)]
    exact ⟨waits, begin_before own⟩
  · intro m d member
    obtain ⟨j, own⟩ := ticketed.deeds m d member
    exact ⟨j, begin_before own⟩
  · intro r owed
    obtain ⟨waits, ran⟩ := ticketed.owing r owed
    rw [put_clients, if_neg (away waits)]
    exact ⟨waits, ran⟩
  · intro j m waits
    rw [put_clients] at waits
    split at waits
    · cases waits
    · exact ticketed.waiting j m waits

theorem send_ticketed (ticketed : s.Ticketed) {c : Command δ ρ} (holds : s.clients i = .entered n c)
    (going : s.control ≠ .stopped) :
    ({ s with queue := s.queue ++ [Entry.mk i n c], sent := s.sent ++ [n] }.put i
      (.waiting n)).Ticketed := by
  have mine : s.holds i = some n := by rw [State.holds, holds]; rfl
  have new := ticketed.unsent i n c holds
  have away {j : ι} {m : Ticket} (waits : s.clients j = .waiting m) : j ≠ i := by
    rintro rfl
    simp [waits] at holds
  constructor
  · refine ticketed.toHeld.same (holds_put_same mine rfl) ?_ rfl rfl
    intro j m d entered
    rw [put_clients] at entered
    split at entered
    · cases entered
    · exact entered
  · intro m member
    rcases List.mem_append.mp member with before | last
    · exact ticketed.sent m before
    · obtain rfl := List.mem_singleton.mp last
      exact ticketed.known mine
  · show (s.sent ++ [n]).Nodup
    rw [List.nodup_append']
    refine ⟨ticketed.once, List.nodup_singleton n, ?_⟩
    intro m member last
    obtain rfl := List.mem_singleton.mp last
    exact new member
  · intro j m d entered member
    rw [put_clients] at entered
    split at entered
    · cases entered
    · rename_i other
      rcases List.mem_append.mp member with before | last
      · exact ticketed.unsent j m d entered before
      · obtain rfl := List.mem_singleton.mp last
        refine other (ticketed.single ?_ mine)
        rw [State.holds, entered]
        rfl
  · obtain ⟨dropped, order, none⟩ := ticketed.order
    obtain rfl := none going
    refine ⟨[], ?_, fun _ => rfl⟩
    show s.sent ++ [n] = executed s.history ++ (s.queue ++ [Entry.mk i n c]).map Entry.ticket ++ []
    simp [order]
  · intro e member
    rcases List.mem_append.mp member with before | last
    · obtain ⟨waits, own⟩ := ticketed.queued e before
      rw [put_clients, if_neg (away waits)]
      exact ⟨waits, own⟩
    · obtain rfl := List.mem_singleton.mp last
      rw [put_clients, if_pos rfl]
      exact ⟨rfl, ticketed.entered i n c holds⟩
  · exact ticketed.deeds
  · intro r owed
    obtain ⟨waits, ran⟩ := ticketed.owing r owed
    rw [put_clients, if_neg (away waits)]
    exact ⟨waits, ran⟩
  · intro j m waits
    rw [put_clients] at waits
    split at waits
    · cases waits
      exact ⟨List.mem_append_right _ (List.mem_singleton.mpr rfl),
        fun ran => absurd (ticketed.executed_sent ran) new⟩
    · obtain ⟨sent, held⟩ := ticketed.waiting j m waits
      exact ⟨List.mem_append_left _ sent, held⟩

/-- The call of a client returns that nobody is going to reply to any more. -/
theorem leave_ticketed (ticketed : s.Ticketed) (mine : s.holds i = some n)
    (unqueued : ∀ e ∈ s.queue, e.client ≠ i)
    (unowed : ∀ r, s.control.reply? = some r → r.client ≠ i) (a : Answer ρ) :
    (s.leave i n a).Ticketed := by
  constructor
  · exact leave_held ticketed.toHeld mine a
  · exact ticketed.sent
  · exact ticketed.once
  · intro j m d entered
    rw [State.leave, put_clients] at entered
    split at entered
    · cases entered
    · exact ticketed.unsent j m d entered
  · exact ticketed.order
  · intro e member
    rw [State.leave, put_clients, if_neg (unqueued e member)]
    exact ticketed.queued e member
  · exact ticketed.deeds
  · intro r owed
    rw [State.leave, put_clients, if_neg (unowed r owed)]
    exact ticketed.owing r owed
  · intro j m waits
    rw [State.leave, put_clients] at waits
    split at waits
    · cases waits
    · exact ticketed.waiting j m waits

omit [DecidableEq ι] in
theorem carryOut_ticketed [Debuggee δ] (ticketed : s.Ticketed) {e : Entry δ ρ ι}
    {rest : List (Entry δ ρ ι)} (ready : s.control = .ready) (queue : s.queue = e :: rest) :
    (s.carryOut e rest).Ticketed := by
  have ran : executed (s.carryOut e rest).history = executed s.history ++ [e.ticket] := by
    simp [State.carryOut, executed, Deed.ticket?]
  have first : e ∈ s.queue := by simp [queue]
  constructor
  · exact ticketed.toHeld.same rfl (fun _ _ _ now => now) rfl rfl
  · exact ticketed.sent
  · exact ticketed.once
  · exact ticketed.unsent
  · obtain ⟨dropped, order, none⟩ := ticketed.order
    refine ⟨[], ?_, fun _ => rfl⟩
    rw [none (by simp [ready]), queue] at order
    rw [ran]
    simpa [State.carryOut] using order
  · intro x member
    exact ticketed.queued x (by rw [queue]; exact List.mem_cons_of_mem _ member)
  · intro m d member
    rcases List.mem_append.mp member with before | last
    · exact ticketed.deeds m d before
    · cases List.mem_singleton.mp last
      exact ⟨e.client, (ticketed.queued e first).2⟩
  · rintro r ⟨⟩
    exact ⟨(ticketed.queued e first).1, by simp [ran]⟩
  · intro j m waits
    obtain ⟨sent, held⟩ := ticketed.waiting j m waits
    refine ⟨sent, fun now => ⟨_, rfl, ?_⟩⟩
    rw [ran] at now
    rcases List.mem_append.mp now with before | last
    · obtain ⟨r, owed, _⟩ := held before
      simp [ready, Control.reply?] at owed
    · exact (List.mem_singleton.mp last).symm

theorem reply_ticketed (ticketed : s.Ticketed) {r : Reply ρ ι}
    (published : s.control = .published (some r)) :
    ({ s with control := .published none }.put r.client (.replied r.ticket r.result)).Ticketed := by
  have owed : s.control.reply? = some r := by rw [published]; rfl
  obtain ⟨waits, ran⟩ := ticketed.owing r owed
  have mine : s.holds r.client = some r.ticket := by rw [State.holds, waits]; rfl
  constructor
  · refine ticketed.toHeld.same (holds_put_same mine rfl) ?_ rfl rfl
    intro j m d entered
    rw [put_clients] at entered
    split at entered
    · cases entered
    · exact entered
  · exact ticketed.sent
  · exact ticketed.once
  · intro j m d entered
    rw [put_clients] at entered
    split at entered
    · cases entered
    · exact ticketed.unsent j m d entered
  · obtain ⟨dropped, order, none⟩ := ticketed.order
    exact ⟨dropped, order, fun _ => none (by simp [published])⟩
  · intro e member
    obtain ⟨queued, own⟩ := ticketed.queued e member
    refine ⟨?_, own⟩
    rw [put_clients, if_neg, queued]
    intro same
    rw [same, waits] at queued
    exact ticketed.pending member (Client.waiting.inj queued ▸ ran)
  · exact ticketed.deeds
  · rintro _ ⟨⟩
  · intro j m other
    rw [put_clients] at other
    split at other
    · cases other
    · rename_i away
      obtain ⟨sent, held⟩ := ticketed.waiting j m other
      refine ⟨sent, fun now => ?_⟩
      obtain ⟨x, same, rfl⟩ := held now
      obtain rfl := Option.some.inj (same.symm.trans owed)
      refine absurd (ticketed.single ?_ mine) away
      rw [State.holds, other]
      rfl

omit [DecidableEq ι] in
theorem quit_ticketed (ticketed : s.Ticketed) (published : s.control = .published none) :
    State.Ticketed { s with control := .stopped, queue := [] } := by
  constructor
  · exact ticketed.toHeld.same rfl (fun _ _ _ now => now) rfl rfl
  · exact ticketed.sent
  · exact ticketed.once
  · exact ticketed.unsent
  · obtain ⟨dropped, order, _⟩ := ticketed.order
    exact ⟨s.queue.map Entry.ticket ++ dropped, by simpa using order, fun going => absurd rfl going⟩
  · rintro _ ⟨⟩
  · exact ticketed.deeds
  · rintro _ ⟨⟩
  · intro j m waits
    obtain ⟨sent, held⟩ := ticketed.waiting j m waits
    refine ⟨sent, fun ran => ?_⟩
    obtain ⟨r, owed, _⟩ := held ran
    simp [published, Control.reply?] at owed

variable [Debuggee δ]

theorem step_ticketed {actor : Actor ι} (step : Step actor s t) (ticketed : s.Ticketed) :
    t.Ticketed := by
  cases step with
  | enter c held idle => exact enter_ticketed ticketed idle c
  | bar c | reenter c => exact bar_ticketed ticketed _ c _
  | send holds going => exact send_ticketed ticketed holds going
  | unsent holds | receive holds =>
    refine leave_ticketed ticketed (by rw [State.holds, holds]; rfl) ?_ ?_ _
    · rintro e member rfl
      simp [(ticketed.queued e member).1] at holds
    · rintro r owed rfl
      simp [(ticketed.owing r owed).1] at holds
  | lose waits unqueued unowed =>
    refine leave_ticketed ticketed (by rw [State.holds, waits]; rfl) ?_ ?_ _
    · rintro e member rfl
      exact unqueued e member (by simpa [(ticketed.queued e member).1] using waits)
    · rintro r owed rfl
      exact unowed r owed (by simpa [(ticketed.owing r owed).1] using waits)
  | carryOut ready queue => exact carryOut_ticketed ticketed ready queue
  | look held ready =>
    exact ticketed.aside .look rfl rfl rfl rfl rfl rfl rfl (by rw [ready]; rfl)
      fun _ => by simp [ready]
  | collect moved =>
    exact ticketed.aside (.collect s.handlers) rfl rfl rfl rfl rfl rfl rfl
      (by rw [moved]; rfl) fun _ => by simp [moved]
  | tell telling | publish telling =>
    exact ticketed.same rfl rfl rfl rfl rfl rfl (fun _ _ member => member) (by rw [telling]; rfl)
      fun _ => by simp [telling]
  | reply published => exact reply_ticketed ticketed published
  | again published =>
    exact ticketed.same rfl rfl rfl rfl rfl rfl (fun _ _ member => member) (by rw [published]; rfl)
      fun _ => by simp [published]
  | quit published => exact quit_ticketed ticketed published
  | close ready =>
    exact ticketed.same rfl rfl rfl rfl rfl rfl (fun _ _ member => member) (by rw [ready]; rfl)
      fun going => absurd rfl going
  | subscribe | release =>
    exact ticketed.same rfl rfl rfl rfl rfl rfl (fun _ _ member => member) rfl fun going => going
  | toggle id enabled =>
    exact ticketed.aside (.toggle id enabled) rfl rfl rfl rfl rfl rfl rfl rfl
      fun going => going

omit [Debuggee δ] [DecidableEq ι] in
theorem start_ticketed (host : Host δ) : (State.start (ρ := ρ) (ι := ι) host).Ticketed where
  own := by rintro _ _ ⟨⟩
  entered := by rintro _ _ _ ⟨⟩
  returned := by rintro _ ⟨⟩
  returns := List.nodup_nil
  sent := by rintro _ ⟨⟩
  once := List.nodup_nil
  unsent := by rintro _ _ _ ⟨⟩
  order := ⟨[], rfl, fun _ => rfl⟩
  queued := by rintro _ ⟨⟩
  deeds := by rintro _ _ ⟨⟩
  owing := by rintro _ ⟨⟩
  waiting := by rintro _ _ ⟨⟩

theorem reachable_ticketed {host : Host δ} (reach : Reachable host s) : s.Ticketed := by
  induction reach with
  | refl => exact start_ticketed host
  | tail _ next ih =>
    obtain ⟨actor, _, step⟩ := next
    exact step_ticketed step ih

end Ticketed

end SourceDebugger.Dispatch
