import SourceDebugger.Proofs.Dispatch.Threads
/-!
What the control thread does to its session, told as one history. At every moment the session is what
the history has made of it, the published status is that of a part of the history all of whose events
have been heard, and at most one command or look is not yet in that part.
-/
namespace SourceDebugger

theorem Passage.events_grow {launching : Prop} {r r' : Record} (passage : Passage launching r r') :
    r.events <+: r'.events := by
  cases passage with
  | launched | resumed => exact List.prefix_refl _
  | wrote | paused => exact List.prefix_append ..
  | ended => exact (List.prefix_append ..).trans (List.prefix_append ..)

/-- What has been reported stays reported. -/
theorem Passes.events_grow {launching : Prop} {r r' : Record} (passes : Passes launching r r') :
    r.events <+: r'.events := by
  induction passes with
  | refl => exact List.prefix_refl _
  | tail _ passage ih => exact ih.trans passage.events_grow

namespace Dispatch

open Session

variable {δ ρ ι : Type} [Debuggee δ]

section Play

variable {s : Session δ} {deed : Deed δ ρ} {history : List (Deed δ ρ)}

theorem play_orderly (orderly : s.Orderly) (deed : Deed δ ρ) : (deed.play s).Orderly := by
  cases deed with
  | command t c => exact c.orderly s orderly
  | look => exact (pump_goes orderly _).2
  | toggle id enabled => exact setEnabled_goes orderly id enabled
  | collect handlers => exact ⟨orderly.attached, orderly.paused, orderly.exited⟩

theorem play_generation_le (orderly : s.Orderly) (deed : Deed δ ρ) :
    s.generation ≤ (deed.play s).generation := by
  cases deed with
  | command t c => exact (c.passes s orderly).generation_le
  | look => exact (pump_goes orderly _).1.generation_le
  | toggle | collect => exact Nat.le_refl _

theorem plays_orderly (orderly : s.Orderly) (history : List (Deed δ ρ)) :
    (plays s history).Orderly := by
  induction history generalizing s with
  | nil => exact orderly
  | cons deed rest ih => exact ih (play_orderly orderly deed)

theorem plays_generation_le (orderly : s.Orderly) (history : List (Deed δ ρ)) :
    s.generation ≤ (plays s history).generation := by
  induction history generalizing s with
  | nil => exact Nat.le_refl _
  | cons deed rest ih =>
    exact Nat.le_trans (play_generation_le orderly deed) (ih (play_orderly orderly deed))

theorem play_outbox (orderly : s.Orderly) (deed : Deed δ ρ) (work : deed.isWork = true) :
    s.outbox <+: (deed.play s).outbox := by
  cases deed with
  | command t c => exact (c.passes s orderly).events_grow
  | look => exact (pump_goes orderly _).1.events_grow
  | toggle | collect => cases work

theorem plays_append (s : Session δ) (before after : List (Deed δ ρ)) :
    plays s (before ++ after) = plays (plays s before) after := by
  simp [plays]

theorem plays_snoc (s : Session δ) (history : List (Deed δ ρ)) (deed : Deed δ ρ) :
    plays s (history ++ [deed]) = deed.play (plays s history) := by
  simp [plays]

theorem told_append (h : Nat) (s : Session δ) (before after : List (Deed δ ρ)) :
    told h s (before ++ after) = told h s before ++ told h (plays s before) after := by
  induction before generalizing s with
  | nil => rfl
  | cons deed rest ih =>
    simp only [List.cons_append, told, ih, List.append_assoc]
    rfl

theorem told_snoc (h : Nat) (s : Session δ) (history : List (Deed δ ρ)) (deed : Deed δ ρ) :
    told h s (history ++ [deed]) = told h s history ++ deed.tells h (plays s history) := by
  simp [told_append, told]

/-- What is waiting to be told, with the news of a deed: some of it is told, the rest is waiting. -/
theorem play_news (orderly : s.Orderly) {h : Nat} (reaches : deed.reaches h) :
    s.outbox ++ deed.news s = deed.tells h s ++ (deed.play s).outbox := by
  cases deed with
  | command t c => exact List.prefix_iff_eq_append.mp (play_outbox orderly (.command t c) rfl)
  | look => exact List.prefix_iff_eq_append.mp (play_outbox orderly .look rfl)
  | toggle id enabled => exact List.prefix_iff_eq_append.mp (List.prefix_refl _)
  | collect handlers => exact congrArg (· ++ []) (if_pos reaches).symm

/-- A handler that is there whenever events are collected is told all the news. -/
theorem told_news (orderly : s.Orderly) {h : Nat} (reaches : ∀ deed ∈ history, deed.reaches h) :
    s.outbox ++ news s history = told h s history ++ (plays s history).outbox := by
  induction history generalizing s with
  | nil => simp [news, told, plays]
  | cons deed rest ih =>
    have first := play_news orderly (reaches deed List.mem_cons_self)
    have later := ih (play_orderly orderly deed) fun d member => reaches d (List.mem_cons_of_mem _ member)
    calc s.outbox ++ news s (deed :: rest)
        = s.outbox ++ deed.news s ++ news (deed.play s) rest := (List.append_assoc ..).symm
      _ = deed.tells h s ++ ((deed.play s).outbox ++ news (deed.play s) rest) := by
        rw [first, List.append_assoc]
      _ = told h s (deed :: rest) ++ (plays s (deed :: rest)).outbox := by
        rw [later, ← List.append_assoc]
        rfl

/-- Where there is no work, the status stays as it is. -/
theorem plays_status (idle : history.countP Deed.isWork = 0) :
    (plays s history).status = s.status := by
  induction history generalizing s with
  | nil => rfl
  | cons deed rest ih =>
    simp only [List.countP_cons, Nat.add_eq_zero_iff] at idle
    have same : (deed.play s).status = s.status := by
      cases deed with
      | command | look => simp [Deed.isWork] at idle
      | toggle | collect => rfl
    exact (ih idle.1).trans same

section Ran

variable {t : Ticket} {c : Command δ ρ} {r : Except DebuggerError ρ}

theorem Ran.append (ran : Ran s history t c r) (more : List (Deed δ ρ)) :
    Ran s (history ++ more) t c r := by
  obtain ⟨before, after, rfl, result⟩ := ran
  exact ⟨before, after ++ more, by simp, result⟩

theorem Ran.executed (ran : Ran s history t c r) : t ∈ executed history := by
  obtain ⟨before, after, rfl, _⟩ := ran
  simp [Dispatch.executed, Deed.ticket?]

theorem ran_snoc (s : Session δ) (history : List (Deed δ ρ)) (t : Ticket) (c : Command δ ρ) :
    Ran s (history ++ [.command t c]) t c (c.request (plays s history)).1 :=
  ⟨history, [], rfl, rfl⟩

end Ran

end Play

section Shares

/-- What of some news is for one handler. -/
def share (h : Nat) (rest : List (Nat × DebuggerEvent)) : List DebuggerEvent :=
  (rest.filter (·.1 = h)).map (·.2)

theorem filter_range (h n : Nat) :
    (List.range n).filter (fun k => k = h) = if h < n then [h] else [] := by
  induction n with
  | zero => rfl
  | succ n ih =>
    rw [List.range_succ, List.filter_append, ih]
    by_cases last : n = h
    · simp [last]
    · have : h < n + 1 ↔ h < n := by omega
      simp [last, this]

theorem share_spread (h handlers : Nat) (events : List DebuggerEvent) :
    share h (spread handlers events) = if h < handlers then events else [] := by
  have one (e : DebuggerEvent) :
      share h ((List.range handlers).map (·, e)) = if h < handlers then [e] else [] := by
    simp only [share, List.filter_map, Function.comp_def, filter_range, List.map_map]
    split <;> rfl
  induction events with
  | nil => simp [spread, share]
  | cons e rest ih =>
    have split_off : share h (spread handlers (e :: rest)) =
        share h ((List.range handlers).map (·, e)) ++ share h (spread handlers rest) := by
      simp [share, spread]
    rw [split_off, one, ih]
    split <;> rfl

end Shares

/-- Whether the session has moved since the last publication. -/
def Control.isBusy : Control ρ ι → Bool
  | .moved _ | .telling .. => true
  | .ready | .published _ | .stopped => false

def Control.untold : Control ρ ι → List (Nat × DebuggerEvent)
  | .telling rest _ _ => rest
  | .ready | .moved _ | .published _ | .stopped => []

/-- The part of the history that the published status tells of. -/
def Desk.past (d : Desk δ ρ ι) : List (Deed δ ρ) := d.history.take d.settled

def Desk.present (d : Desk δ ρ ι) : List (Deed δ ρ) := d.history.drop d.settled

structure Desk.Sound (host : Host δ) (d : Desk δ ρ ι) : Prop where
  session : d.session = plays (.new host) d.history
  settled : d.settled ≤ d.history.length
  published : d.published = (plays (.new host) d.past).status
  collected : (plays (.new host) d.past).outbox = []
  work : d.present.countP Deed.isWork = if d.control.isBusy then 1 else 0
  quiet : (∀ reply, d.control ≠ .moved reply) → d.session.outbox = []
  telling : ∀ rest status reply, d.control = .telling rest status reply →
    status = d.session.status
  heard : ∀ h, told h (.new host) d.past <+: d.heard h
  untold : ∀ h, d.heard h ++ share h d.control.untold = told h (.new host) d.history

section Sound

variable {host : Host δ} {d e : Desk δ ρ ι}

omit [Debuggee δ] in
theorem Desk.Sound.split (d : Desk δ ρ ι) : d.history = d.past ++ d.present :=
  (List.take_append_drop ..).symm

/-- While nothing is going on, the published status is the session's. -/
theorem Desk.Sound.current (sound : d.Sound host) (rests : d.control.isBusy = false) :
    d.published = d.session.status := by
  have work := sound.work
  rw [rests] at work
  rw [sound.published, sound.session, Desk.Sound.split d, plays_append]
  exact (plays_status work).symm

theorem Desk.Sound.orderly (sound : d.Sound host) : d.session.Orderly := by
  rw [sound.session]
  exact plays_orderly (new_orderly host) _

theorem Desk.Sound.generation_le (sound : d.Sound host) :
    d.published.generation ≤ d.session.generation := by
  rw [sound.published, sound.session, Desk.Sound.split d, plays_append]
  exact plays_generation_le (plays_orderly (new_orderly host) d.past) d.present

/-- Something new happens to the session. -/
theorem Desk.Sound.snoc (sound : d.Sound host) (deed : Deed δ ρ)
    (session : e.session = deed.play d.session) (history : e.history = d.history ++ [deed])
    (settled : e.settled = d.settled) (published : e.published = d.published)
    (work : (if deed.isWork then 1 else 0) + (if d.control.isBusy then 1 else 0) =
      if e.control.isBusy then 1 else 0)
    (quiet : (∀ reply, e.control ≠ .moved reply) → e.session.outbox = [])
    (telling : ∀ rest status reply, e.control = .telling rest status reply →
      status = e.session.status)
    (heard : e.heard = d.heard)
    (untold : ∀ h, share h e.control.untold = share h d.control.untold ++ deed.tells h d.session) :
    e.Sound host := by
  have past : e.past = d.past := by
    rw [Desk.past, history, settled, List.take_append_of_le_length sound.settled, Desk.past]
  have present : e.present = d.present ++ [deed] := by
    rw [Desk.present, history, settled, List.drop_append_of_le_length sound.settled, Desk.present]
  constructor
  · rw [session, history, plays_snoc, sound.session]
  · rw [history, settled, List.length_append]
    exact Nat.le_add_right_of_le sound.settled
  · rw [published, past, sound.published]
  · rw [past, sound.collected]
  · rw [present, List.countP_append, sound.work, ← work, Nat.add_comm]
    simp [List.countP_cons]
  · exact quiet
  · exact telling
  · intro h
    rw [past, heard]
    exact sound.heard h
  · intro h
    rw [heard, untold, history, told_snoc, ← sound.untold, sound.session, List.append_assoc]

/-- The control thread goes on, with nothing left to tell and nothing new. -/
theorem Desk.Sound.rest (sound : d.Sound host) (session : e.session = d.session)
    (published : e.published = d.published) (history : e.history = d.history)
    (settled : e.settled = d.settled) (heard : e.heard = d.heard)
    (before : d.control.isBusy = false) (after : e.control.isBusy = false) : e.Sound host := by
  have past : e.past = d.past := by rw [Desk.past, history, settled, Desk.past]
  have present : e.present = d.present := by rw [Desk.present, history, settled, Desk.present]
  have nothing (c : Control ρ ι) (rests : c.isBusy = false) : c.untold = [] := by
    cases c <;> first | rfl | cases rests
  have idle : ∀ reply, d.control ≠ .moved reply := by
    rintro reply moved
    simp [moved, Control.isBusy] at before
  constructor
  · rw [session, history, sound.session]
  · rw [settled, history]
    exact sound.settled
  · rw [published, past, sound.published]
  · rw [past, sound.collected]
  · rw [present, sound.work, before, after]
  · intro _
    rw [session, sound.quiet idle]
  · rintro rest status reply telling
    simp [telling, Control.isBusy] at after
  · intro h
    rw [past, heard]
    exact sound.heard h
  · intro h
    rw [nothing _ after, ← nothing _ before, heard, history]
    exact sound.untold h

theorem tell_sound {h : Nat} {event : DebuggerEvent} {rest : List (Nat × DebuggerEvent)}
    {status : Status} {reply : Option (Reply ρ ι)} (sound : d.Sound host)
    (telling : d.control = .telling ((h, event) :: rest) status reply) :
    Desk.Sound host { d with control := .telling rest status reply
                             heard := Function.update d.heard h (d.heard h ++ [event]) } := by
  constructor
  · exact sound.session
  · exact sound.settled
  · exact sound.published
  · exact sound.collected
  · have work := sound.work
    rw [telling] at work
    exact work
  · exact fun _ => sound.quiet (by simp [telling])
  · rintro _ _ _ ⟨⟩
    exact sound.telling _ _ _ telling
  · intro k
    refine (sound.heard k).trans ?_
    by_cases here : k = h
    · subst here
      simp
    · simp [here]
  · intro k
    have owed := sound.untold k
    rw [telling] at owed
    by_cases here : k = h
    · subst here
      simpa [share, Control.untold] using owed
    · have other : h ≠ k := fun same => here same.symm
      simpa [share, Control.untold, here, other] using owed

theorem publish_sound {status : Status} {reply : Option (Reply ρ ι)} (sound : d.Sound host)
    (telling : d.control = .telling [] status reply) :
    Desk.Sound host { d with published := status, control := .published reply
                             settled := d.history.length } := by
  have empty := sound.quiet (by simp [telling])
  have all (h : Nat) : d.heard h = told h (.new host) d.history := by
    simpa [telling, share, Control.untold] using sound.untold h
  constructor
  · exact sound.session
  · exact Nat.le_refl _
  · rw [Desk.past, List.take_length, ← sound.session]
    exact sound.telling _ _ _ telling
  · rw [Desk.past, List.take_length, ← sound.session]
    exact empty
  · simp [Desk.present, Control.isBusy]
  · exact fun _ => empty
  · rintro _ _ _ ⟨⟩
  · intro h
    rw [Desk.past, List.take_length]
    exact (all h) ▸ List.prefix_refl _
  · intro h
    simpa [share, Control.untold] using all h

variable [DecidableEq ι] {s t : State δ ρ ι} {actor : Actor ι}

theorem step_sound (step : Step actor s t) (sound : s.Sound host) : t.Sound host := by
  cases step with
  | enter | bar | send | unsent | receive | lose | reenter | release => exact sound
  | @carryOut _ e rest ready queue =>
    refine sound.snoc (.command e.ticket e.command) rfl rfl rfl rfl ?_ ?_ ?_ rfl ?_
    · simp [ready, State.carryOut, Control.isBusy, Deed.isWork]
    · intro idle
      exact absurd rfl (idle _)
    · rintro _ _ _ ⟨⟩
    · simp [ready, State.carryOut, Control.untold, share, Deed.tells]
  | look held ready queue running =>
    refine sound.snoc .look rfl rfl rfl rfl ?_ ?_ ?_ rfl ?_
    · simp [ready, Control.isBusy, Deed.isWork]
    · intro idle
      exact absurd rfl (idle _)
    · rintro _ _ _ ⟨⟩
    · simp [ready, Control.untold, share, Deed.tells]
  | @collect _ reply moved =>
    refine sound.snoc (.collect s.handlers) rfl rfl rfl rfl ?_ ?_ ?_ rfl ?_
    · simp [moved, Control.isBusy, Deed.isWork]
    · exact fun _ => rfl
    · rintro _ _ _ ⟨⟩
      rfl
    · intro h
      simp only [Control.untold, share_spread, moved, Deed.tells]
      simp [share]
  | tell telling => exact tell_sound sound telling
  | publish telling => exact publish_sound sound telling
  | reply published | again published | quit published =>
    exact sound.rest rfl rfl rfl rfl rfl (by rw [published]; rfl) rfl
  | close ready => exact sound.rest rfl rfl rfl rfl rfl (by rw [ready]; rfl) rfl
  | subscribe =>
    exact ⟨sound.session, sound.settled, sound.published, sound.collected, sound.work, sound.quiet,
      sound.telling, sound.heard, sound.untold⟩
  | toggle id enabled =>
    refine sound.snoc (.toggle id enabled) rfl rfl rfl rfl ?_ sound.quiet sound.telling rfl ?_
    · simp [Deed.isWork]
    · simp [Deed.tells]

omit [DecidableEq ι] in
theorem start_sound (host : Host δ) : (State.start (ρ := ρ) (ι := ι) host).Sound host where
  session := rfl
  settled := Nat.le_refl _
  published := rfl
  collected := rfl
  work := rfl
  quiet _ := rfl
  telling := by rintro _ _ _ ⟨⟩
  heard _ := List.prefix_refl _
  untold _ := rfl

theorem reachable_sound (reach : Reachable host s) : s.Sound host := by
  induction reach with
  | refl => exact start_sound host
  | tail _ next ih =>
    obtain ⟨actor, _, step⟩ := next
    exact step_sound step ih

end Sound

end Dispatch

end SourceDebugger
