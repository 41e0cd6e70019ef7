import SourceDebugger.Proofs.Dispatch.Commands
import SourceDebugger.Proofs.Dispatch.Service
import SourceDebugger.Script
/-!
However the threads take turns, a session with a thread of its own behaves as if its commands were
carried out one after the other, in the order of the queue.
-/
namespace SourceDebugger.Dispatch

open Session

variable {δ ρ ι : Type} [Debuggee δ] [DecidableEq ι]

structure State.Linearized (host : Host δ) (s : State δ ρ ι) : Prop where
  /-- The session is what its history makes of it, one deed after the other. -/
  session : s.session = plays (.new host) s.history
  /-- No command is carried out twice, and none before one that was queued earlier. -/
  once : s.sent.Nodup
  order : executed s.history <+: s.sent
  /-- No command or look follows before what the one before it has done is published. -/
  single : s.present.countP Deed.isWork ≤ 1
  /-- And none before the command before it has been replied to. -/
  served : s.control = .ready → ∀ i n, s.clients i = .waiting n → n ∉ executed s.history
  /-- The published status is that of a part of the history, all of whose events have been heard. -/
  published : s.published = (plays (.new host) s.past).status
  heard : ∀ h, told h (.new host) s.past <+: s.heard h ∧ s.heard h <+: told h (.new host) s.history
  /-- Those are all events that there have been, for a handler that was there in time. -/
  complete : ∀ h, (∀ deed ∈ s.past, deed.reaches h) → told h (.new host) s.past = news (.new host) s.past
  generation : ∀ before after, s.past = before ++ after →
    (plays (.new host) before).generation ≤ s.published.generation
  /-- A call returns once. Either its own command has been carried out, and by now been published,
  and this is its result; or it was refused and its command is never carried out. -/
  tickets : (s.returns.map Return.ticket).Nodup
  answers : ∀ x ∈ s.returns, ∃ c, s.calls[x.ticket]? = some ⟨x.caller, c⟩ ∧ match x.answer with
    | .result r => x.ticket ∈ executed s.history ∧ x.caller ≠ none ∧
        Ran (.new host) s.past x.ticket c r
    | .refused e => x.ticket ∉ executed s.history ∧ (e = .reentrant ∧ x.caller = none ∨
        ∃ fault, s.published.state.fault? = some fault ∧ e = .faulted fault)
  /-- Every call can return. -/
  returns : ∀ i n, s.holds i = some n → Returns i n s

section Linearizable

variable {host : Host δ} {s t : State δ ρ ι}

omit [DecidableEq ι] in
/-- What is carried out under a ticket is the command of that call. -/
theorem ran_own {n : Ticket} {caller : Option ι} {c d : Command δ ρ} {r : Except DebuggerError ρ}
    (ticketed : s.Ticketed) (own : s.calls[n]? = some ⟨caller, c⟩)
    (ran : Ran (.new host) s.past n d r) :
    n ∈ executed s.history ∧ Ran (.new host) s.past n c r := by
  have inside := ran.mono (List.take_prefix ..)
  refine ⟨inside.executed, ?_⟩
  obtain ⟨before, after, history, _⟩ := inside
  obtain ⟨i, known⟩ := ticketed.deeds n d (by simp [history])
  rw [known] at own
  cases own
  exact ran

/-- In every state that the threads can come to, whatever turns they take. -/
theorem linearizable (reach : Reachable host s) (leads : Leads s t) :
    s.Linearized host ∧ Later s t := by
  have sound := reachable_sound reach
  have ticketed := reachable_ticketed reach
  have answered := reachable_answered reach
  refine ⟨?_, leads_later reach leads⟩
  constructor
  · exact sound.session
  · exact ticketed.once
  · obtain ⟨dropped, order, _⟩ := ticketed.order
    rw [order, List.append_assoc]
    exact List.prefix_append ..
  · rw [sound.work]
    split <;> decide
  · intro ready i n waits ran
    obtain ⟨r, owed, _⟩ := (ticketed.waiting i n waits).2 ran
    rw [ready] at owed
    cases owed
  · exact sound.published
  · intro h
    refine ⟨sound.heard h, ?_⟩
    rw [← sound.untold h]
    exact List.prefix_append ..
  · intro h reaches
    have all := told_news (new_orderly host) reaches
    rw [sound.collected, List.append_nil] at all
    exact all.symm
  · intro before after past
    have orderly := plays_orderly (new_orderly host) before
    rw [sound.published, past, plays_append]
    exact plays_generation_le orderly after
  · exact ticketed.returns
  · intro x member
    obtain ⟨⟨c, own⟩, _⟩ := ticketed.returned x member
    refine ⟨c, own, ?_⟩
    have honest := answered.returned x member
    unfold Return.Honest at honest
    cases answer : x.answer with
    | result r =>
      simp only [answer] at honest
      obtain ⟨client, d, ran⟩ := honest
      obtain ⟨executed, ran⟩ := ran_own ticketed own ran
      exact ⟨executed, client, ran⟩
    | refused e =>
      simp only [answer] at honest
      exact honest
  · exact fun i n holds => call_returns reach holds

end Linearizable

section Lost

/-- A debuggee that cannot be reached when it is first looked at. -/
def lostHost : Host Scripted where
  config := .standard
  launch _ _ := .ok ⟨1, [], [], [⟨.failure "gone", [], []⟩], [], []⟩
  symbols _ := none

def launchLost : Command Scripted Unit := .act (.start ⟨"/bin/errand", "/", []⟩)

theorem launchLost_fails :
    launchLost.request (.new lostHost) = (.error (.channel (.described "gone")),
      (launchLost.request (.new lostHost)).2) ∧
    (launchLost.request (.new lostHost)).2.state.fault? = some (.described "gone") :=
  ⟨rfl, rfl⟩

/-- Two clients call at once. The first one's call ends the session's run, and the other's command is
dropped with the queue. -/
theorem lost_reachable : ∃ s : State Scripted Unit Bool, Reachable lostHost s ∧ s.returns =
    [⟨some false, 0, .result (.error (.channel (.described "gone")))⟩,
      ⟨some true, 1, .refused (.faulted (.described "gone"))⟩] := by
  have start : Reachable lostHost (State.start (ρ := Unit) (ι := Bool) lostHost) := .refl
  have calls := ((start.step (.enter (i := false) launchLost rfl rfl rfl)).step
    (.enter (i := true) (.act .break) rfl rfl rfl))
  have sends := (calls.step (.send (i := false) (t := 0) (c := launchLost) rfl (by rintro ⟨⟩))).step
    (.send (i := true) (t := 1) (c := .act .break) rfl (by rintro ⟨⟩))
  have carries := sends.step (.carryOut rfl rfl)
  have settled : Reachable lostHost _ := carries.trans (settles (i := false) rfl).leads
  have quits := (settled.step (.reply rfl)).step (.quit rfl launchLost_fails.2)
  have first := quits.step (.receive (i := false) (t := 0) rfl)
  have second := first.step (.lose (i := true) (t := 1) rfl (by rintro _ ⟨⟩) (by rintro _ ⟨⟩))
  exact ⟨_, second, rfl⟩

theorem linearizable_lost : ∃ s : State Scripted Unit Bool, s.returns =
    [⟨some false, 0, .result (.error (.channel (.described "gone")))⟩,
      ⟨some true, 1, .refused (.faulted (.described "gone"))⟩] ∧
    s.Linearized lostHost ∧ Later s s := by
  obtain ⟨s, reach, returns⟩ := lost_reachable
  obtain ⟨linearized, later⟩ := linearizable reach .refl
  exact ⟨s, returns, linearized, later⟩

end Lost

end SourceDebugger.Dispatch
