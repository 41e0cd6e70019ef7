import SourceDebugger.Proofs.Dispatch.Tickets
/-!
What callers are answered. A result is that of the caller's own command, and it has been published what
the command has done. A refused call has done nothing; a client is refused only for a fault that has
been published, and with that fault the control thread's work is over.
-/
namespace SourceDebugger.Dispatch

open Session

variable {δ ρ ι : Type} [Debuggee δ]

theorem Ran.mono {s : Session δ} {history more : List (Deed δ ρ)} {n : Ticket} {c : Command δ ρ}
    {r : Except DebuggerError ρ} (ran : Ran s history n c r) (grows : history <+: more) :
    Ran s more n c r := by
  obtain ⟨after, rfl⟩ := grows
  exact ran.append after

/-- How the control thread comes to its end. -/
structure State.Ends (s : State δ ρ ι) : Prop where
  going : (∀ reply, s.control ≠ .published reply) → s.control ≠ .stopped →
    s.published.state.fault? = none
  released : s.isHeld = false → ∀ i, s.clients i = .idle
  ended : s.control = .stopped → s.published.state.fault? = none → s.isHeld = false
  empty : s.control = .stopped → s.queue = []

/-- What is told stays told. Once a fault is published no command is carried out any more. -/
structure Later (s t : State δ ρ ι) : Prop where
  history : s.history <+: t.history
  past : s.past <+: t.past
  generation : s.published.generation ≤ t.published.generation
  heard : ∀ h, s.heard h <+: t.heard h
  calls : s.calls <+: t.calls
  returns : s.returns <+: t.returns
  fault : ∀ fault, s.published.state.fault? = some fault →
    t.published = s.published ∧ executed t.history = executed s.history

/-- What a caller may be answered, once it is known which commands have been carried out. -/
def Return.Honest (host : Host δ) (s : State δ ρ ι) (x : Return ρ ι) : Prop :=
  match x.answer with
  | .result r => x.caller ≠ none ∧ ∃ c, Ran (.new host) s.past x.ticket c r
  | .refused e => x.ticket ∉ executed s.history ∧ (e = .reentrant ∧ x.caller = none ∨
      ∃ fault, s.published.state.fault? = some fault ∧ e = .faulted fault)

structure State.Answered (host : Host δ) (s : State δ ρ ι) : Prop where
  owed : ∀ r, s.control.reply? = some r → ∃ c, Ran (.new host) s.history r.ticket c r.result
  due : ∀ r, s.control = .published (some r) → ∃ c, Ran (.new host) s.past r.ticket c r.result
  replied : ∀ i n r, s.clients i = .replied n r → ∃ c, Ran (.new host) s.past n c r
  returned : ∀ x ∈ s.returns, x.Honest host s

section Later

variable {s t u : State δ ρ ι}

omit [Debuggee δ] in
theorem Later.refl (s : State δ ρ ι) : Later s s :=
  ⟨List.prefix_refl _, List.prefix_refl _, Nat.le_refl _, fun _ => List.prefix_refl _,
    List.prefix_refl _, List.prefix_refl _, fun _ _ => ⟨rfl, rfl⟩⟩

omit [Debuggee δ] in
theorem Later.trans (first : Later s t) (second : Later t u) : Later s u where
  history := first.history.trans second.history
  past := first.past.trans second.past
  generation := Nat.le_trans first.generation second.generation
  heard h := (first.heard h).trans (second.heard h)
  calls := first.calls.trans second.calls
  returns := first.returns.trans second.returns
  fault fault published := by
    obtain ⟨same, ran⟩ := first.fault fault published
    obtain ⟨still, none⟩ := second.fault fault (same ▸ published)
    exact ⟨still.trans same, none.trans ran⟩

omit [Debuggee δ] in
/-- Only what users do and hear changes. -/
theorem Later.aside (history : t.history = s.history) (settled : t.settled = s.settled)
    (published : t.published = s.published) (heard : t.heard = s.heard) (calls : s.calls <+: t.calls)
    (returns : s.returns <+: t.returns) : Later s t where
  history := history ▸ List.prefix_refl _
  past := by rw [Desk.past, Desk.past, history, settled]
  generation := published ▸ Nat.le_refl _
  heard h := heard ▸ List.prefix_refl _
  calls := calls
  returns := returns
  fault _ _ := ⟨published, history ▸ rfl⟩

omit [Debuggee δ] in
/-- Something happens to the session. -/
theorem Later.deed {deed : Deed δ ρ} (history : t.history = s.history ++ [deed])
    (settled : t.settled = s.settled) (known : s.settled ≤ s.history.length)
    (published : t.published = s.published) (heard : t.heard = s.heard) (calls : t.calls = s.calls)
    (returns : t.returns = s.returns)
    (lawful : ∀ fault, s.published.state.fault? = some fault → deed.ticket? = none) : Later s t where
  history := history ▸ List.prefix_append ..
  past := by
    rw [Desk.past, Desk.past, history, settled, List.take_append_of_le_length known]
  generation := published ▸ Nat.le_refl _
  heard h := heard ▸ List.prefix_refl _
  calls := calls ▸ List.prefix_refl _
  returns := returns ▸ List.prefix_refl _
  fault fault known := ⟨published, by simp [history, executed, lawful fault known]⟩

variable {host : Host δ} [DecidableEq ι] {actor : Actor ι}

theorem step_later (step : Step actor s t) (sound : s.Sound host) (ends : s.Ends) : Later s t := by
  have unfaulted (going : s.control = .ready) : s.published.state.fault? = none :=
    ends.going (by simp [going]) (by simp [going])
  cases step with
  | enter => exact Later.aside rfl rfl rfl rfl (List.prefix_append ..) (List.prefix_refl _)
  | bar | reenter => exact Later.aside rfl rfl rfl rfl (List.prefix_append ..) (List.prefix_append ..)
  | unsent | receive | lose => exact Later.aside rfl rfl rfl rfl (List.prefix_refl _) (List.prefix_append ..)
  | send | reply | again | quit | close | subscribe | release =>
    exact Later.aside rfl rfl rfl rfl (List.prefix_refl _) (List.prefix_refl _)
  | carryOut ready =>
    refine Later.deed rfl rfl sound.settled rfl rfl rfl rfl fun fault published => ?_
    rw [unfaulted ready] at published
    cases published
  | look held ready | collect moved | toggle =>
    exact Later.deed rfl rfl sound.settled rfl rfl rfl rfl fun _ _ => rfl
  | @tell _ h event rest status reply telling =>
    refine ⟨List.prefix_refl _, List.prefix_refl _, Nat.le_refl _, fun k => ?_, List.prefix_refl _,
      List.prefix_refl _, fun _ _ => ⟨rfl, rfl⟩⟩
    by_cases here : k = h
    · subst here
      simp
    · simp [here]
  | publish telling =>
    have before : s.published.state.fault? = none := ends.going (by simp [telling]) (by simp [telling])
    refine ⟨List.prefix_refl _, ?_, ?_, fun _ => List.prefix_refl _, List.prefix_refl _,
      List.prefix_refl _, fun fault published => ?_⟩
    · rw [Desk.past, Desk.past, List.take_length]
      exact List.take_prefix ..
    · rw [sound.telling _ _ _ telling]
      exact sound.generation_le
    · rw [before] at published
      cases published

end Later

section Ends

variable {s t : State δ ρ ι} [DecidableEq ι] {actor : Actor ι}

theorem step_ends (step : Step actor s t) (ticketed : s.Ticketed) (ends : s.Ends) : t.Ends := by
  have held (held : s.isHeld = true) {P : Prop} (gone : s.isHeld = false) : P := by
    rw [held] at gone
    cases gone
  have unreleased (i : ι) (busy : s.clients i ≠ .idle) {P : Prop} (gone : s.isHeld = false) : P :=
    absurd (ends.released gone i) busy
  cases step with
  | enter c is_held => exact ⟨ends.going, held is_held, ends.ended, ends.empty⟩
  | bar c is_held | reenter c is_held => exact ⟨ends.going, ends.released, ends.ended, ends.empty⟩
  | @send _ i _ _ holds going =>
    exact ⟨ends.going, unreleased i (by simp [holds]), ends.ended, fun stopped => absurd stopped going⟩
  | @unsent _ i _ _ holds | @receive _ i _ _ holds | @lose _ i _ holds =>
    exact ⟨ends.going, unreleased i (by simp [holds]), ends.ended, ends.empty⟩
  | carryOut ready | look _ ready =>
    have none := ends.going (by simp [ready]) (by simp [ready])
    refine ⟨fun _ _ => none, ends.released, ?_, ?_⟩ <;> rintro ⟨⟩
  | collect moved | tell moved =>
    have none := ends.going (by simp [moved]) (by simp [moved])
    refine ⟨fun _ _ => none, ends.released, ?_, ?_⟩ <;> rintro ⟨⟩
  | publish telling =>
    refine ⟨fun no _ => absurd rfl (no _), ends.released, ?_, ?_⟩ <;> rintro ⟨⟩
  | @reply _ r published =>
    have waits := (ticketed.owing r (by rw [published]; rfl)).1
    refine ⟨fun no => absurd rfl (no _), unreleased r.client (by simp [waits]), ?_, ?_⟩ <;> rintro ⟨⟩
  | again published none =>
    refine ⟨fun _ _ => none, ends.released, ?_, ?_⟩ <;> rintro ⟨⟩
  | quit published faulted =>
    refine ⟨fun _ on => absurd rfl on, ends.released, fun _ none => ?_, fun _ => rfl⟩
    rw [show s.published.state.fault? = Option.none from none] at faulted
    cases faulted
  | close ready empty gone =>
    exact ⟨fun _ on => absurd rfl on, ends.released, fun _ _ => gone, fun _ => empty⟩
  | subscribe | toggle => exact ⟨ends.going, ends.released, ends.ended, ends.empty⟩
  | release idle => exact ⟨ends.going, fun _ => idle, fun _ _ => rfl, ends.empty⟩

omit [Debuggee δ] [DecidableEq ι] in
theorem start_ends (host : Host δ) : (State.start (ρ := ρ) (ι := ι) host).Ends where
  going _ _ := rfl
  released := by rintro ⟨⟩
  ended := by rintro ⟨⟩
  empty := by rintro ⟨⟩

end Ends

section Answered

variable {host : Host δ} {s t : State δ ρ ι}

theorem Return.Honest.later {x : Return ρ ι} (honest : x.Honest host s) (later : Later s t)
    (unrun : x.ticket ∉ executed s.history → x.ticket ∉ executed t.history) : x.Honest host t := by
  unfold Return.Honest at honest ⊢
  cases answer : x.answer with
  | result r =>
    simp only [answer] at honest ⊢
    obtain ⟨client, c, ran⟩ := honest
    exact ⟨client, c, ran.mono later.past⟩
  | refused e =>
    simp only [answer] at honest ⊢
    refine ⟨unrun honest.1, honest.2.imp_right ?_⟩
    rintro ⟨fault, published, rfl⟩
    exact ⟨fault, by rw [(later.fault fault published).1, published], rfl⟩

omit [Debuggee δ] in
/-- Whoever still waits when the control thread has stopped is told the fault. -/
theorem disconnected_eq (ends : s.Ends) {i : ι} (busy : s.clients i ≠ .idle)
    (stopped : s.control = .stopped) :
    ∃ fault, s.published.state.fault? = some fault ∧ s.disconnected = .faulted fault := by
  unfold State.disconnected
  cases published : s.published.state.fault? with
  | some fault => exact ⟨fault, rfl, rfl⟩
  | none => exact absurd (ends.released (ends.ended stopped published) i) busy

omit [Debuggee δ] in
/-- A command that is in nobody's hands any more has never been carried out. -/
theorem lost (ticketed : s.Ticketed) {i : ι} {n : Ticket} (waits : s.clients i = .waiting n)
    (unqueued : ∀ e ∈ s.queue, e.ticket ≠ n)
    (unowed : ∀ r, s.control.reply? = some r → r.ticket ≠ n) :
    n ∉ executed s.history ∧ s.control = .stopped := by
  obtain ⟨sent, held⟩ := ticketed.waiting i n waits
  have unrun : n ∉ executed s.history := fun ran =>
    let ⟨r, owed, same⟩ := held ran
    unowed r owed same
  refine ⟨unrun, ?_⟩
  by_contra going
  obtain ⟨dropped, order, none⟩ := ticketed.order
  rw [order, none going, List.append_nil, List.mem_append, List.mem_map] at sent
  rcases sent with ran | ⟨e, member, same⟩
  · exact unrun ran
  · exact unqueued e member same

variable [DecidableEq ι] {actor : Actor ι}

/-- A call that has returned is not carried out afterwards. -/
theorem step_unrun (step : Step actor s t) (ticketed : s.Ticketed) {n : Ticket}
    (unheld : ∀ i, s.holds i ≠ some n) (unrun : n ∉ executed s.history) : n ∉ executed t.history := by
  cases step with
  | @carryOut _ e rest ready queue =>
    have waits := (ticketed.queued e (by simp [queue])).1
    have other : n ≠ e.ticket := by
      rintro rfl
      exact unheld e.client (by rw [State.holds, waits]; rfl)
    simpa [State.carryOut, executed, Deed.ticket?, other] using unrun
  | look | collect | toggle => simpa [executed, Deed.ticket?] using unrun
  | _ => exact unrun

theorem step_owed (step : Step actor s t) (sound : s.Sound host) (later : Later s t)
    (answered : s.Answered host) (r : Reply ρ ι) (owed : t.control.reply? = some r) :
    ∃ c, Ran (.new host) t.history r.ticket c r.result := by
  have before (owed : s.control.reply? = some r) :
      ∃ c, Ran (.new host) t.history r.ticket c r.result := by
    obtain ⟨c, ran⟩ := answered.owed r owed
    exact ⟨c, ran.mono later.history⟩
  cases step with
  | @carryOut _ e rest =>
    cases owed
    refine ⟨e.command, ?_⟩
    rw [sound.session]
    exact ran_snoc ..
  | collect control | tell control | publish control => exact before (by rw [control]; exact owed)
  | look | reply | again | quit | close => cases owed
  | _ => exact before owed

theorem step_due (step : Step actor s t) (later : Later s t) (answered : s.Answered host)
    (r : Reply ρ ι) (due : t.control = .published (some r)) :
    ∃ c, Ran (.new host) t.past r.ticket c r.result := by
  have before (due : s.control = .published (some r)) :
      ∃ c, Ran (.new host) t.past r.ticket c r.result := by
    obtain ⟨c, ran⟩ := answered.due r due
    exact ⟨c, ran.mono later.past⟩
  cases step with
  | publish telling =>
    cases due
    obtain ⟨c, ran⟩ := answered.owed r (by rw [telling]; rfl)
    refine ⟨c, ?_⟩
    rwa [Desk.past, List.take_length]
  | carryOut | look | collect | tell | reply | again | quit | close => cases due
  | _ => exact before due

theorem step_replied (step : Step actor s t) (later : Later s t) (answered : s.Answered host)
    {i : ι} {n : Ticket} {r : Except DebuggerError ρ} (replied : t.clients i = .replied n r) :
    ∃ c, Ran (.new host) t.past n c r := by
  have before (replied : s.clients i = .replied n r) : ∃ c, Ran (.new host) t.past n c r := by
    obtain ⟨c, ran⟩ := answered.replied i n r replied
    exact ⟨c, ran.mono later.past⟩
  cases step with
  | enter | send | unsent | receive | lose =>
    simp only [State.leave, put_clients] at replied
    split at replied
    · cases replied
    · exact before replied
  | @reply _ owed published =>
    rw [put_clients] at replied
    split at replied
    · cases replied
      exact answered.due owed published
    · exact before replied
  | _ => exact before replied

theorem step_returned (step : Step actor s t) (ticketed : s.Ticketed) (ends : s.Ends)
    (later : Later s t) (answered : s.Answered host) : ∀ x ∈ t.returns, x.Honest host t := by
  have before (x : Return ρ ι) (member : x ∈ s.returns) : x.Honest host t :=
    (answered.returned x member).later later (step_unrun step ticketed (ticketed.returned x member).2)
  have new {y : Return ρ ι} (honest : y.Honest host t) (x : Return ρ ι)
      (member : x ∈ s.returns ++ [y]) : x.Honest host t := by
    rcases List.mem_append.mp member with old | last
    · exact before x old
    · rwa [List.mem_singleton.mp last]
  have unissued : s.issued ∉ executed s.history := fun ran =>
    Nat.lt_irrefl _ (ticketed.sent _ (ticketed.executed_sent ran))
  cases step with
  | bar c held idle published => exact new ⟨unissued, .inr ⟨_, published, rfl⟩⟩
  | reenter c held telling =>
    refine new ⟨unissued, .inl ⟨?_, rfl⟩⟩
    have none := ends.going (by simp [telling]) (by simp [telling])
    simp only [State.reentered, none]
  | @unsent _ i n c holds stopped =>
    have unrun : n ∉ executed s.history := fun ran =>
      ticketed.unsent i n c holds (ticketed.executed_sent ran)
    obtain ⟨fault, published, eq⟩ := disconnected_eq ends (i := i) (by simp [holds]) stopped
    exact new ⟨unrun, .inr ⟨fault, published, eq⟩⟩
  | @receive _ i n r replied =>
    obtain ⟨c, ran⟩ := answered.replied i n r replied
    exact new ⟨Option.some_ne_none i, c, ran⟩
  | @lose _ i n waits unqueued unowed =>
    obtain ⟨unrun, stopped⟩ := lost ticketed waits unqueued unowed
    obtain ⟨fault, published, eq⟩ := disconnected_eq ends (i := i) (by simp [waits]) stopped
    exact new ⟨unrun, .inr ⟨fault, published, eq⟩⟩
  | _ => exact before

theorem step_answered (step : Step actor s t) (sound : s.Sound host) (ticketed : s.Ticketed)
    (ends : s.Ends) (answered : s.Answered host) : t.Answered host :=
  have later := step_later step sound ends
  ⟨step_owed step sound later answered, step_due step later answered,
    fun _ _ _ => step_replied step later answered,
    step_returned step ticketed ends later answered⟩

omit [DecidableEq ι] in
theorem start_answered (host : Host δ) : (State.start (ρ := ρ) (ι := ι) host).Answered host where
  owed := by rintro _ ⟨⟩
  due := by rintro _ ⟨⟩
  replied := by rintro _ _ _ ⟨⟩
  returned := by rintro _ ⟨⟩

end Answered

section Reachable

variable {host : Host δ} {s t : State δ ρ ι} [DecidableEq ι]

theorem reachable_ends (reach : Reachable host s) : s.Ends := by
  induction reach with
  | refl => exact start_ends host
  | tail reach next ih =>
    obtain ⟨actor, _, step⟩ := next
    exact step_ends step (reachable_ticketed reach) ih

theorem reachable_answered (reach : Reachable host s) : s.Answered host := by
  induction reach with
  | refl => exact start_answered host
  | tail reach next ih =>
    obtain ⟨actor, _, step⟩ := next
    exact step_answered step (reachable_sound reach) (reachable_ticketed reach) (reachable_ends reach) ih

theorem leads_later (reach : Reachable host s) (leads : Leads s t) : Later s t := by
  induction leads with
  | refl => exact Later.refl s
  | tail leads next ih =>
    obtain ⟨actor, _, step⟩ := next
    have reach := reach.trans leads
    exact ih.trans (step_later step (reachable_sound reach) (reachable_ends reach))

end Reachable

end SourceDebugger.Dispatch
