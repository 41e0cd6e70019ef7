import SourceDebugger.Proofs.Dispatch.Commands
import SourceDebugger.Proofs.Keeping
/-!
A debugger whose watcher uses it while events are delivered. A use publishes the status that the session
had before the delivery; what the watcher has done in the delivery has published later ones by then. So the
published status can go back while a use comes to its end, but never behind where it was when the use began:
whoever uses the debugger from outside sees it go forward only.
-/
namespace SourceDebugger.Dispatch

open Session

variable {δ ω ρ : Type} [Debuggee δ]

/-- What is done with a debugger: a call is made, or a wait looks at the debuggee once. -/
inductive Use (δ ρ : Type) where
  | call (c : Command δ ρ)
  | look

def Use.carry (watch : Watch δ ω) (d : Debugger δ ω) : Use δ ρ → Debugger δ ω
  | .call c => (Debugger.call watch c.request d).2
  | .look =>
    { d with session := (pump d.session.host.config.pollMillis d.session).2 }.deliver watch

/-- How a watcher uses its debugger when it hears of an event, and what it remembers. -/
abbrev Habit (δ ω ρ : Type) := ω → DebuggerEvent → List (Use δ ρ) × ω

/-- A watcher with such a habit, which hears of what its uses lead to so many times over. -/
def Habit.watch (habit : Habit δ ω ρ) : Nat → Watch δ ω
  | 0, e, d => { d with watcher := (habit d.watcher e).2 }
  | n + 1, e, d => (habit d.watcher e).1.foldl (Use.carry (habit.watch n))
      { d with watcher := (habit d.watcher e).2 }

/-- What is published may be old, but is not ahead of the session. -/
structure Behind (d : Debugger δ ω) : Prop where
  orderly : d.session.Orderly
  published : d.published.generation ≤ d.session.generation

/-- The session goes forward. -/
def Forth (d d' : Debugger δ ω) : Prop :=
  Behind d → Behind d' ∧ d.session.generation ≤ d'.session.generation

variable {d d' : Debugger δ ω} {watch : Watch δ ω}

omit [Debuggee δ] in
theorem forth_onwards : Onwards (Forth (δ := δ) (ω := ω)) where
  refl _ behind := ⟨behind, Nat.le_refl _⟩
  trans first second behind := by
    obtain ⟨between, grows⟩ := first behind
    obtain ⟨after, more⟩ := second between
    exact ⟨after, Nat.le_trans grows more⟩

omit [Debuggee δ] in
theorem forth_foldl {α : Type} {f : Debugger δ ω → α → Debugger δ ω} (forth : ∀ d a, Forth d (f d a))
    (as : List α) (d : Debugger δ ω) : Forth d (as.foldl f d) := by
  induction as generalizing d with
  | nil => exact forth_onwards.refl d
  | cons a as ih => exact forth_onwards.trans (forth d a) (ih (f d a))

omit [Debuggee δ] in
/-- However far a watcher brings the session, what is published then is the status from before. -/
theorem deliver_forth (forth : ∀ e d, Forth d (watch e d)) (d : Debugger δ ω) :
    Forth d (d.deliver watch) := by
  intro behind
  obtain ⟨after, grows⟩ := forth_foldl (fun d e => forth e d) d.session.outbox
    { d with session := { d.session with outbox := [] }, delivering := true }
    ⟨⟨behind.orderly.attached, behind.orderly.paused, behind.orderly.exited⟩, behind.published⟩
  exact ⟨⟨after.orderly, grows⟩, grows⟩

/-- A use leaves published no older status than there was when it began. -/
theorem carry_forth (forth : ∀ e d, Forth d (watch e d)) (d : Debugger δ ω) (use : Use δ ρ) (behind : Behind d) :
    Behind (use.carry watch d) ∧ d.session.generation ≤ (use.carry watch d).session.generation ∧
      d.published.generation ≤ (use.carry watch d).published.generation := by
  have unchanged : Behind d ∧ d.session.generation ≤ d.session.generation ∧
      d.published.generation ≤ d.published.generation := ⟨behind, Nat.le_refl _, Nat.le_refl _⟩
  have delivered (session : Session δ) (orderly : session.Orderly)
      (grows : d.session.generation ≤ session.generation) :
      Behind ({ d with session }.deliver watch) ∧
        d.session.generation ≤ ({ d with session }.deliver watch).session.generation ∧
          d.published.generation ≤ ({ d with session }.deliver watch).published.generation := by
    have first := Nat.le_trans behind.published grows
    obtain ⟨after, more⟩ := deliver_forth forth { d with session } ⟨orderly, first⟩
    exact ⟨after, Nat.le_trans grows more, first⟩
  cases use with
  | call c =>
    have carried := delivered (c.request d.session).2 (c.orderly _ behind.orderly)
      (c.passes _ behind.orderly).generation_le
    rw [Use.carry, Debugger.call]
    split
    · exact unchanged
    · split
      · exact unchanged
      · exact carried
  | look =>
    obtain ⟨passes, orderly⟩ := pump_goes behind.orderly d.session.host.config.pollMillis
    exact delivered _ orderly passes.generation_le

theorem watch_forth (habit : Habit δ ω ρ) (n : Nat) (e : DebuggerEvent) (d : Debugger δ ω) :
    Forth d (habit.watch n e d) := by
  have remembers (d : Debugger δ ω) (w : ω) : Forth d { d with watcher := w } :=
    fun behind => ⟨⟨behind.orderly, behind.published⟩, Nat.le_refl _⟩
  induction n generalizing e d with
  | zero => exact remembers d _
  | succ n ih =>
    refine forth_onwards.trans (remembers d (habit d.watcher e).2) (forth_foldl (fun d use behind => ?_) _ _)
    obtain ⟨after, grows, _⟩ := carry_forth ih d use behind
    exact ⟨after, grows⟩

/-- The debugger after a series of uses from outside. -/
def uses (habit : Habit δ ω ρ) (n : Nat) (d : Debugger δ ω) (series : List (Use δ ρ)) : Debugger δ ω :=
  series.foldl (Use.carry (habit.watch n)) d

variable (habit : Habit δ ω ρ) (n : Nat) {series : List (Use δ ρ)}

theorem uses_forth (series : List (Use δ ρ)) (behind : Behind d) :
    Behind (uses habit n d series) ∧
      d.published.generation ≤ (uses habit n d series).published.generation := by
  induction series generalizing d with
  | nil => exact ⟨behind, Nat.le_refl _⟩
  | cons use series ih =>
    obtain ⟨next, _, grows⟩ := carry_forth (watch_forth habit n) d use behind
    obtain ⟨after, more⟩ := ih next
    exact ⟨after, Nat.le_trans grows more⟩

omit [Debuggee δ] in
theorem new_behind (host : Host δ) (w : ω) : Behind (Debugger.new host w) :=
  ⟨new_orderly host, Nat.le_refl _⟩

/-- Seen from outside, between one use and the next, the published status never goes back, and it is never
ahead of the session, whatever the watcher does while it hears of events. -/
theorem published_forth (host : Host δ) (w : ω) (before after : List (Use δ ρ)) :
    let d := uses habit n (.new host w) before
    let d' := uses habit n (.new host w) (before ++ after)
    d.published.generation ≤ d'.published.generation ∧
      d'.published.generation ≤ d'.session.generation := by
  intro d d'
  obtain ⟨there, _⟩ := uses_forth habit n before (new_behind host w)
  obtain ⟨later, grows⟩ := uses_forth habit n after there
  have same : d' = uses habit n d after := List.foldl_append
  rw [same]
  exact ⟨grows, later.published⟩

section Silent

variable {habit} (silent : ∀ w e, (habit w e).1 = [])

include silent

theorem watch_silent (e : DebuggerEvent) (d : Debugger δ ω) :
    (habit.watch n e d).session = d.session := by
  cases n with
  | zero => rfl
  | succ n => rw [Habit.watch, silent, List.foldl_nil]

theorem deliver_silent (d : Debugger δ ω) : (d.deliver (habit.watch n)).published =
    (d.deliver (habit.watch n)).session.status := by
  have still (events : List DebuggerEvent) (d : Debugger δ ω) :
      (events.foldl (fun d e => habit.watch n e d) d).session = d.session := by
    induction events generalizing d with
    | nil => rfl
    | cons e events ih => exact (ih _).trans (watch_silent n silent e d)
  rw [Debugger.deliver]
  dsimp only
  rw [still]
  rfl

/-- If the watcher only listens, what is published is the status of the session. -/
theorem published_current (host : Host δ) (w : ω) (series : List (Use δ ρ)) :
    (uses habit n (.new host w) series).published =
      (uses habit n (.new host w) series).session.status := by
  have keeps (series : List (Use δ ρ)) (d : Debugger δ ω) (current : d.published = d.session.status) :
      (uses habit n d series).published = (uses habit n d series).session.status := by
    induction series generalizing d with
    | nil => exact current
    | cons use series ih =>
      refine ih _ ?_
      cases use with
      | call c =>
        rw [Use.carry, Debugger.call]
        split
        · exact current
        · split
          · exact current
          · exact deliver_silent n silent _
      | look => exact deliver_silent n silent _
  exact keeps series _ rfl

end Silent

end SourceDebugger.Dispatch
