import SourceDebugger.Proofs.Dispatch.Automatic
import SourceDebugger.Script
/-!
It makes no difference to a client whether its calls are carried out on its own thread or on one of the
session's own, as long as it waits whenever it has made the debuggee run.
-/
namespace SourceDebugger.Dispatch

open Session

variable {δ ρ : Type} [Debuggee δ] {script : Script δ ρ} {host : Host δ} {m n : Manual δ ρ}
  {a b : Automatic δ ρ} {k : Nat}

section Progress

theorem start_abreast (script : Script δ ρ) (host : Host δ) :
    Abreast script (Manual.start host) (Automatic.start host) where
  alike := ⟨rfl, rfl, rfl, rfl⟩
  held := rfl
  looking busy := by cases busy
  stopped stopped := by cases stopped
  position := .idle rfl rfl rfl rfl

theorem leads_abreast (paired : script.Paired) (leads : Automatic.Leads script (.start host) a) :
    ∃ k m, Manual.nth script host k = some m ∧ Abreast script m a := by
  induction leads with
  | refl => exact ⟨0, _, rfl, start_abreast script host⟩
  | tail _ step ih =>
    obtain ⟨k, m, there, abreast⟩ := ih
    rcases step_advances there (Manual.nth_steady paired there) abreast step with
      ⟨after, _⟩ | ⟨n, next, after, _⟩
    · exact ⟨k, m, there, after⟩
    · exact ⟨k + 1, n, next, after⟩

/-- These are runs of the threads like any other. -/
theorem leads_reachable (leads : Automatic.Leads script (.start host) a) : Reachable host a.state := by
  induction leads with
  | refl => exact Reachable.step .refl .subscribe
  | tail _ step ih =>
    cases step with
    | control step | command _ _ step | client step | toggle _ _ _ step => exact ih.step step
    | see | wait | within | timeout => exact ih

/-- What the client in automatic mode has been given, and at most one answer that is on its way. -/
theorem Position.said (position : Position script m a) :
    a.said <+: m.said ∧ m.said.dropLast <+: a.said := by
  cases position with
  | idle _ _ _ said | entered _ _ _ _ _ _ _ said | queued _ _ _ _ _ _ _ said =>
    rw [said]
    exact ⟨List.prefix_refl _, List.dropLast_prefix _⟩
  | taken _ _ _ said | replied _ _ _ said =>
    rw [said, List.dropLast_concat]
    exact ⟨List.prefix_append .., List.prefix_refl _⟩

omit [Debuggee δ] in
theorem finish_heard {ι : Type} (s : State δ ρ ι) (h : Nat) : s.heard h <+: s.finish.heard h := by
  unfold State.finish
  split
  · exact List.prefix_append ..
  · exact List.prefix_append ..
  · exact List.prefix_refl _
  · exact List.prefix_refl _
  · exact List.prefix_refl _

/-- The control thread stops in the middle of nothing. -/
theorem stuck_rests (stuck : ∀ b, ¬ Automatic.Step script a b) :
    a.state.control = .ready ∨ a.state.control = .stopped := by
  cases control : a.state.control with
  | ready => exact .inl rfl
  | stopped => exact .inr rfl
  | moved reply => exact absurd (.control (.collect control) rfl) (stuck _)
  | telling rest status reply =>
    cases rest with
    | nil => exact absurd (.control (.publish control) rfl) (stuck _)
    | cons told rest => exact absurd (.control (.tell control) rfl) (stuck _)
  | published reply =>
    cases reply with
    | some r => exact absurd (.control (.reply control) rfl) (stuck _)
    | none =>
      cases faulted : a.state.published.state.fault? with
      | none => exact absurd (.control (.again control faulted) rfl) (stuck _)
      | some fault => exact absurd (.control (.quit control faulted) rfl) (stuck _)

/-- When nobody can take a turn, the client has come to the end of its script. -/
theorem stuck_ended (steady : m.Steady script) (abreast : Abreast script m a)
    (stuck : ∀ b, ¬ Automatic.Step script a b) :
    script a.said = none ∧ m.said = a.said ∧ a.state.heard 0 = m.debugger.watcher := by
  have control := stuck_rests stuck
  have rests : a.state.control.isBusy = false := by
    rcases control with ready | stopped
    · rw [ready]; rfl
    · rw [stopped]; rfl
  have current := abreast.current rests
  -- the control thread ends with a fault only, which has been published
  have ready (sound : a.state.published.state.fault? = none) : a.state.control = .ready := by
    refine control.resolve_right fun stopped => ?_
    obtain ⟨fault, faulted⟩ := abreast.stopped stopped
    rw [sound] at faulted
    cases faulted
  cases abreast.position with
  | entered _ _ client _ _ _ sound =>
    rw [← current.published] at sound
    refine absurd (.client (.send client ?_) rfl) (stuck _)
    rw [ready sound]
    rintro ⟨⟩
  | queued _ _ _ entry _ _ sound =>
    rw [← current.published] at sound
    exact absurd (.control (.carryOut (ready sound) entry) rfl) (stuck _)
  | taken _ _ replies =>
    rcases control with ready | stopped
    · rw [ready] at replies
      cases replies
    · rw [stopped] at replies
      cases replies
  | replied client => exact absurd (.client (.receive client) rfl) (stuck _)
  | idle client empty _ said =>
    refine ⟨?_, said, current.heard⟩
    cases called : script a.said with
    | none => rfl
    | some l =>
      cases way : l.way with
      | command c =>
        cases published : a.state.published.state.fault? with
        | none =>
          exact absurd (.command called way (.enter c abreast.held client published) rfl) (stuck _)
        | some fault =>
          exact absurd (.command called way (.bar c abreast.held client published) rfl) (stuck _)
      | toggle id enabled => exact absurd (.toggle called way client (.toggle id enabled) rfl) (stuck _)
      | see read => exact absurd (.see called way client) (stuck _)
      | within budget =>
        cases passed : (pauses (.whether true) a.state.published.state : Option (Said ρ)) with
        | none => exact absurd (.timeout called way client (pauses_none.mp passed)) (stuck _)
        | some r => exact absurd (.within called way client passed) (stuck _)
      | wait check =>
        cases passed : check a.state.published.state with
        | some r => exact absurd (.wait called way client passed) (stuck _)
        | none =>
          have running := ((Line.way_wait way).2 _).mp passed
          have on : a.state.session.state = .running := by
            rw [current.session, ← steady.quiet.state, ← current.published, running]
          have sound : a.state.published.state.fault? = none := by rw [running]; rfl
          exact absurd (.control (.look abreast.held (ready sound) empty on) rfl) (stuck _)

/-- Schedules end in which the client in manual mode does not come further than to some point. -/
theorem bounded_acc (paired : script.Paired) (most : Nat) {related : Automatic δ ρ → Automatic δ ρ → Prop}
    (steps : ∀ {a b}, related b a → Automatic.Step script a b)
    (bounded : ∀ {k m n a b}, Manual.nth script host k = some m → related b a →
      Manual.nth script host (k + 1) = some n → Abreast script n b →
      m.debugger.watcher <+: b.state.heard 0 → k < most)
    (there : Manual.nth script host k = some m) (abreast : Abreast script m a) : Acc related a := by
  induction left : most - k using Nat.strong_induction_on generalizing k m a with
  | h left further =>
    induction effort : a.state.effort using Nat.strong_induction_on generalizing a with
    | h effort nearer =>
      refine ⟨a, fun b next => ?_⟩
      rcases step_advances there (Manual.nth_steady paired there) abreast (steps next) with
        ⟨after, less⟩ | ⟨n, later, after, heard⟩
      · exact nearer _ (effort ▸ less) after rfl
      · have within := bounded there next later after heard
        exact further (most - (k + 1)) (by omega) later after rfl

end Progress

section Agreement

/-- What the client in manual mode has come to has happened here as well, except that the last answer may
still be on its way. -/
def Automatic.Passed (a : Automatic δ ρ) (m : Manual δ ρ) : Prop :=
  m.said.dropLast <+: a.said ∧ m.debugger.watcher <+: a.state.heard 0

/-- Automatic and manual mode cannot be told apart by what calls return and what is heard. -/
structure Automatic.Agrees (script : Script δ ρ) (host : Host δ) (a : Automatic δ ρ) : Prop where
  reachable : Reachable host a.state
  /-- All that has been returned is returned in manual mode, and all that has been heard is heard there. -/
  possible : ∃ m, Manual.Leads script (.start host) m ∧ a.said <+: m.said ∧
    a.state.heard 0 <+: m.debugger.watcher
  /-- Where no thread can go on the script is at its end, in manual mode with the same answers and events. -/
  ended : (∀ b, ¬ Automatic.Step script a b) → script a.said = none ∧
    ∃ d, Manual.Leads script (.start host) ⟨a.said, d⟩ ∧ a.state.heard 0 = d.watcher
  /-- No schedule goes on forever without passing whatever manual mode comes to. -/
  passes : ∀ m, Manual.Leads script (.start host) m →
    Acc (fun c b => Automatic.Step script b c ∧ ¬ c.Passed m) a
  /-- If the script comes to its end in manual mode, every schedule does, with the same answers and
  events. -/
  ends : ∀ m, Manual.Leads script (.start host) m → script m.said = none →
    Acc (fun c b => Automatic.Step script b c) a ∧
      ∀ b, Automatic.Leads script a b → (∀ c, ¬ Automatic.Step script b c) →
        b.said = m.said ∧ b.state.heard 0 = m.debugger.watcher

theorem passes_acc (paired : script.Paired) (there : Manual.nth script host k = some m)
    (abreast : Abreast script m a) {j : Nat} (target : Manual.nth script host j = some n) :
    Acc (fun c b => Automatic.Step script b c ∧ ¬ c.Passed n) a := by
  refine bounded_acc paired j And.left ?_ there abreast
  intro k m o b c there related later after heard
  by_contra beyond
  obtain ⟨i, rfl⟩ := Nat.exists_eq_add_of_le (Nat.le_of_not_lt beyond)
  have said := (Manual.nth_grows paired target (i + 1) later).1
  have watcher := (Manual.nth_grows paired target i there).2
  have fewer : n.said.dropLast <+: o.said.dropLast := by
    refine List.prefix_of_prefix_length_le ((List.dropLast_prefix _).trans said)
      (List.dropLast_prefix _) ?_
    rw [List.length_dropLast, List.length_dropLast]
    exact Nat.sub_le_sub_right said.length_le 1
  exact related.2 ⟨fewer.trans after.position.said.2, watcher.trans heard⟩

theorem ends_acc (paired : script.Paired) (there : Manual.nth script host k = some m)
    (abreast : Abreast script m a) {j : Nat} (target : Manual.nth script host j = some n)
    (ended : script n.said = none) : Acc (fun c b => Automatic.Step script b c) a :=
  bounded_acc paired j id (fun _ _ later _ _ => Manual.nth_over target ended later) there abreast

/-- For every script of a single client that waits after each call that may make the debuggee run, in
whichever order the threads take their turns. -/
theorem modes_agree (paired : script.Paired) (leads : Automatic.Leads script (.start host) a) :
    a.Agrees script host := by
  obtain ⟨k, m, there, abreast⟩ := leads_abreast paired leads
  have stuck {b : Automatic δ ρ} (leads : Automatic.Leads script (.start host) b)
      (stuck : ∀ c, ¬ Automatic.Step script b c) : ∃ j m, Manual.nth script host j = some m ∧
        script b.said = none ∧ m.said = b.said ∧ b.state.heard 0 = m.debugger.watcher := by
    obtain ⟨j, m, there, abreast⟩ := leads_abreast paired leads
    exact ⟨j, m, there, stuck_ended (Manual.nth_steady paired there) abreast stuck⟩
  refine ⟨leads_reachable leads, ⟨m, Manual.nth_leads there, abreast.position.said.1, ?_⟩,
    fun none => ?_, fun n reached => ?_, fun n reached ended => ⟨?_, fun b later none => ?_⟩⟩
  · rw [← abreast.alike.heard]
    exact finish_heard a.state 0
  · obtain ⟨j, n, there, ended, said, heard⟩ := stuck leads none
    refine ⟨ended, n.debugger, ?_, heard⟩
    rw [← said]
    exact Manual.nth_leads there
  · obtain ⟨j, target⟩ := Manual.leads_nth reached
    exact passes_acc paired there abreast target
  · obtain ⟨j, target⟩ := Manual.leads_nth reached
    exact ends_acc paired there abreast target ended
  · obtain ⟨j, target⟩ := Manual.leads_nth reached
    obtain ⟨i, o, last, ended', said, heard⟩ := stuck (leads.trans later) none
    rw [← said] at ended'
    have same : i = j := Nat.le_antisymm (Manual.nth_over target ended last)
      (Manual.nth_over last ended' target)
    rw [same, target] at last
    cases last
    exact ⟨said.symm, heard⟩

/-- Where all schedules end there is one that does. -/
theorem exists_stuck (finite : Acc (fun c b => Automatic.Step script b c) a) :
    ∃ b, Automatic.Leads script a b ∧ ∀ c, ¬ Automatic.Step script b c := by
  induction finite with
  | intro a _ ih =>
    by_cases further : ∃ b, Automatic.Step script a b
    · obtain ⟨b, step⟩ := further
      obtain ⟨c, leads, stuck⟩ := ih b step
      exact ⟨c, .head step leads, stuck⟩
    · exact ⟨a, .refl, fun b step => further ⟨b, step⟩⟩

end Agreement

section Voyage

/-- A debuggee that says something, stops at a signal, and cannot be reached any more when it goes on. -/
def voyageHost : Host Scripted where
  config := .standard
  launch _ _ := .ok ⟨1, [(1, ⟨0x1000, 0, 0⟩)], [], [⟨.event (.threadStarted 1), [], []⟩,
    ⟨.event (.moduleLoaded "/bin/ship" 0x1000 0x10), [], []⟩, ⟨.nothing, [], []⟩,
    ⟨.event (.output "ahoy\n"), [], []⟩, ⟨.nothing, [], []⟩,
    ⟨.event (.signal 1 11 "SIGSEGV"), [], []⟩, ⟨.nothing, [], []⟩, ⟨.failure "gone", [], []⟩], [], []⟩
  symbols _ := none

def voyage : List (Line Scripted Unit) :=
  [.start ⟨"/bin/ship", "/", []⟩, .waitForPause, .add (.address 0x1001), .continue, .waitForExit, .break]

def voyageSaid : List (Said Unit) :=
  [.ok .done, .ok .done, .ok (.breakpoint 1), .ok .done, .error (.faulted (.described "gone")),
    .error (.faulted (.described "gone"))]

def voyageEvents : List DebuggerEvent := [.log "ahoy\n", .paused .exception 1, .exited none]

theorem modes_agree_voyage : (Automatic.start voyageHost).Agrees (.ofList voyage) voyageHost ∧
    ∃ a, Automatic.Leads (.ofList voyage) (.start voyageHost) a ∧ a.said = voyageSaid ∧
      a.state.heard 0 = voyageEvents := by
  have paired : (Script.ofList voyage).Paired := ofList_paired (by decide)
  have agrees := modes_agree paired (.refl : Automatic.Leads _ (.start voyageHost) _)
  refine ⟨agrees, ?_⟩
  have run : (Manual.nth (.ofList voyage) voyageHost 11).map (fun m => (m.said, m.debugger.watcher)) =
      some (voyageSaid, voyageEvents) := by decide +kernel
  obtain ⟨m, there, same⟩ := Option.map_eq_some_iff.mp run
  obtain ⟨said, watcher⟩ := Prod.mk.inj same
  have ended : Script.ofList voyage m.said = none := by rw [said]; rfl
  obtain ⟨finite, last⟩ := agrees.ends m (Manual.nth_leads there) ended
  obtain ⟨a, leads, stuck⟩ := exists_stuck finite
  obtain ⟨said', heard⟩ := last a leads stuck
  exact ⟨a, leads, said'.trans said, heard.trans watcher⟩

end Voyage

end SourceDebugger.Dispatch
