import Mathlib.Logic.Relation
import SourceDebugger.Proofs.Effects
/-!
How a session's run state can change, and what is reported of it. The debuggee may be anything: it
may report what it likes, in any order, and each operation on it may fail.
-/
namespace SourceDebugger

def RunState.isLive : RunState → Bool
  | .running | .paused .. => true
  | _ => false

/-- What a session shows of its course. -/
structure Record where
  state : RunState
  generation : Nat
  output : LineBuffer
  events : List DebuggerEvent

/-- One passage from run state to run state, or a piece of output. Runs begin only where launching
is possible; everything else happens to a live debuggee, and an end is the end of its run. -/
inductive Passage (launching : Prop) : Record → Record → Prop
  | launched {r : Record} : launching → r.state.isLive = false →
      Passage launching r { r with state := .running, output := .empty }
  | wrote {r : Record} (text : String) : r.state.isLive = true →
      Passage launching r { r with output := (r.output.push text).2
                                   events := r.events ++ (r.output.push text).1.map .log }
  | resumed {r : Record} {reason : PauseReason} {thread : ThreadId} :
      r.state = .paused reason thread →
      Passage launching r { r with state := .running, generation := r.generation + 1 }
  | paused {r : Record} (reason : PauseReason) (thread : ThreadId) : r.state = .running →
      Passage launching r { r with state := .paused reason thread, generation := r.generation + 1
                                   events := r.events ++ [.paused reason thread] }
  | ended {r : Record} (code : Option Int) (fault : Option Fault) : r.state.isLive = true →
      Passage launching r ⟨.exited code fault, r.generation + 1, .empty,
        r.events ++ r.output.flush.toList.map .log ++ [.exited code]⟩

abbrev Passes (launching : Prop) : Record → Record → Prop := Relation.ReflTransGen (Passage launching)

section Passes

variable {launching : Prop} {r r' : Record}

theorem Passage.one (passage : Passage launching r r') : Passes launching r r' :=
  Relation.ReflTransGen.single passage

theorem Passes.mono {other : Prop} (more : launching → other) (passes : Passes launching r r') :
    Passes other r r' := by
  induction passes with
  | refl => exact .refl
  | tail _ passage ih =>
    refine ih.tail ?_
    cases passage with
    | launched first idle => exact .launched (more first) idle
    | wrote text live => exact .wrote text live
    | resumed paused => exact .resumed paused
    | paused reason thread running => exact .paused reason thread running
    | ended code fault live => exact .ended code fault live

theorem Passage.generation_le (passage : Passage launching r r') :
    r.generation ≤ r'.generation := by
  cases passage <;> simp

theorem Passes.generation_le (passes : Passes launching r r') : r.generation ≤ r'.generation := by
  induction passes with
  | refl => exact Nat.le_refl _
  | tail _ passage ih => exact Nat.le_trans ih passage.generation_le

/-- Nothing happens to a session without a debuggee until one is launched. -/
theorem Passes.still (passes : Passes False r r') (idle : r.state.isLive = false) : r' = r := by
  induction passes with
  | refl => rfl
  | tail _ passage same =>
    subst same
    cases passage with
    | launched never => exact never.elim
    | wrote _ live | ended _ _ live => simp [idle] at live
    | resumed paused => simp [paused, RunState.isLive] at idle
    | paused _ _ running => simp [running, RunState.isLive] at idle

end Passes

namespace Session

open Effect

variable {δ : Type}

def record (s : Session δ) : Record := ⟨s.state, s.generation, s.output, s.outbox⟩

/-- What holds of a session between two requests. -/
structure Orderly (s : Session δ) : Prop where
  attached : s.debuggee.isSome = s.state.isLive
  paused : ∀ reason thread, s.state = .paused reason thread →
    s.stepper = none ∧ s.roster.current = some thread
  exited : s.state.isExited = true → (∀ b ∈ s.breakpoints.registered, b.address? = none) ∧
    s.roster.modules = [] ∧ s.roster.threads = []

/-- A session in the middle of a request. -/
structure Active (s : Session δ) : Prop where
  attached : s.debuggee.isSome = true
  live : s.state.isLive = true

/-- A change that nobody is told of. -/
structure Hushed (s t : Session δ) : Prop where
  record : t.record = s.record
  attached : t.debuggee.isSome = s.debuggee.isSome
  roster : t.roster = s.roster

/-- Moves that may be made before the debuggee has been resumed. -/
def Move.begins : Move → Bool
  | .resume .. | .act _ | .stepOut _ | .runTo .. => true
  | _ => false

/-- A session with a move to make. -/
structure Open (s : Session δ) (move : Move) : Prop where
  attached : s.debuggee.isSome = true
  state : s.state = .running ∨ ∃ reason thread, s.state = .paused reason thread ∧
    s.roster.current = some thread ∧ move.begins = true

section Hushed

variable {s t u : Session δ} {move next : Move}

theorem Hushed.refl (s : Session δ) : Hushed s s := ⟨rfl, rfl, rfl⟩

theorem Hushed.trans (first : Hushed s t) (second : Hushed t u) : Hushed s u :=
  ⟨second.record.trans first.record, second.attached.trans first.attached,
    second.roster.trans first.roster⟩

theorem Hushed.state (hushed : Hushed s t) : t.state = s.state := congrArg Record.state hushed.record

theorem Hushed.active (hushed : Hushed s t) (live : s.Active) : t.Active :=
  ⟨hushed.attached.trans live.attached, by rw [hushed.state]; exact live.live⟩

theorem Hushed.open (hushed : Hushed s t) (is_open : s.Open move) (same : next.begins = move.begins) :
    t.Open next where
  attached := hushed.attached.trans is_open.attached
  state := by
    rw [hushed.state, hushed.roster, same]
    exact is_open.state

theorem Open.active (is_open : s.Open move) : s.Active := by
  refine ⟨is_open.attached, ?_⟩
  rcases is_open.state with state | ⟨_, _, state, _⟩ <;> rw [state] <;> rfl

theorem Open.running (is_open : s.Open move) (later : move.begins = false) :
    s.state = .running := by
  rcases is_open.state with state | ⟨_, _, _, _, begins⟩
  · exact state
  · simp [later] at begins

theorem access_hushed {α : Type} (a : Access δ α) (s : Session δ) : Hushed s (access a s).2 := by
  rcases s with ⟨_, _, debuggee, _, _, _, _, _, _, _, _, _⟩
  cases debuggee <;> exact ⟨rfl, rfl, rfl⟩

theorem instrumented_hushed {α : Type} (a : Access (Instrumented δ) α) (s : Session δ) :
    Hushed s (instrumented a s).2 := by
  rcases s with ⟨_, _, debuggee, _, _, _, _, _, _, _, _, _⟩
  cases debuggee <;> exact ⟨rfl, rfl, rfl⟩

theorem ask_hushed {α : Type} (f : Session δ → δ → Except Fault α) (s : Session δ) :
    Hushed s (ask f s).2 := by
  have same : (ask f s).2 = s := by
    rw [ask, bind_ok (get_run s)]
    cases s.debuggee with
    | none => rfl
    | some d => dsimp only; cases f s d <;> rfl
  rw [same]
  exact .refl s

/-- A sequence fails with its first part, or goes on from where that has led. -/
theorem bind_cases {α β : Type} {a : Change δ α} {f : α → Change δ β}
    {P : Except Fault β × Session δ → Prop} (failed : ∀ e t, a s = (.error e, t) → P (.error e, t))
    (done : ∀ x t, a s = (.ok x, t) → P (f x t)) : P ((a >>= f) s) := by
  rw [bind_run]
  rcases run : a s with ⟨e | x, t⟩
  · exact failed e t run
  · exact done x t run

theorem bind_hushed {α β : Type} {a : Change δ α} {f : α → Change δ β}
    {P : Except Fault β × Session δ → Prop} (quiet : ∀ s, Hushed s (a s).2) (before : Hushed s t)
    (failed : ∀ e u, Hushed s u → P (.error e, u)) (done : ∀ x u, Hushed s u → P (f x u)) :
    P ((a >>= f) t) := by
  have hushed := before.trans (quiet t)
  refine bind_cases (fun e u run => failed e u ?_) fun x u run => done x u ?_ <;>
    rwa [run] at hushed

end Hushed

section Ending

variable {launching : Prop} {s t : Session δ}

theorem exit_state (s : Session δ) (code : Option Int) (fault : Option Fault) :
    (s.exit code fault).state = .exited code fault := by
  rw [exit]
  cases s.output.flush <;> rfl

theorem exit_passes (live : s.state.isLive = true) (code : Option Int) (fault : Option Fault) :
    Passes launching s.record (s.exit code fault).record := by
  have same : (s.exit code fault).record = ⟨.exited code fault, s.generation + 1, .empty,
      s.outbox ++ s.output.flush.toList.map .log ++ [.exited code]⟩ := by
    rw [exit]
    cases flushed : s.output.flush with
    | some rest => rfl
    | none =>
      have empty : s.output = .empty := by
        rcases output : s.output with ⟨rest⟩
        simpa [output, LineBuffer.flush, LineBuffer.empty] using flushed
      simp [record, report, empty]
  rw [same]
  exact (Passage.ended code fault live).one

theorem unbound_unbindWhere (bs : Breakpoints) :
    ∀ b ∈ (bs.unbindWhere fun _ => true).registered, b.address? = none := by
  intro b member
  obtain ⟨inside, registered⟩ := List.mem_filter.mp member
  obtain ⟨c, _, rfl⟩ := List.mem_map.mp inside
  split
  · rfl
  · rename_i other
    rw [if_neg other] at registered
    cases bound : c.address? with
    | none => rfl
    | some a => simp [registered, bound] at other

theorem exit_orderly (s : Session δ) (code : Option Int) (fault : Option Fault) :
    (s.exit code fault).Orderly where
  attached := by
    rw [exit_state, exit]
    cases s.output.flush <;> rfl
  paused reason thread state := by
    rw [exit_state] at state
    cases state
  exited _ := by
    rw [exit]
    cases s.output.flush <;> exact ⟨unbound_unbindWhere _, rfl, rfl⟩

theorem fail_live (live : s.Active) (fault : Fault) : s.fail fault = s.exit none (some fault) := by
  have running : s.state.isExited = false := by
    have live := live.live
    cases state : s.state with
    | exited => simp [state, RunState.isLive] at live
    | notStarted | running | paused => rfl
  rw [fail, running]
  rfl

end Ending

/-- Moves that may end in a pause. -/
def Move.halts : Move → Bool
  | .handle _ | .stepped .. | .arrived _ | .act _ => true
  | _ => false

/-- What a move may come to. -/
def Goes (halts : Bool) (r : Record) : Except Fault (Option Move) × Session δ → Prop
  | (.ok none, t) => Passes False r t.record ∧ t.Orderly ∧ (t.state.isPaused = true → halts = true)
  | (.ok (some move), t) => Passes False r t.record ∧ t.Open move
  | (.error _, t) => Passes False r t.record ∧ t.Active

section Going

variable {s t : Session δ} {r : Record} {halts : Bool}

theorem Goes.after {x : Except Fault (Option Move) × Session δ} (first : Passes False r s.record)
    (goes : Goes halts s.record x) : Goes halts r x := by
  rcases x with ⟨_ | _ | _, _⟩ <;> exact ⟨first.trans goes.1, goes.2⟩

theorem Goes.hushed {x : Except Fault (Option Move) × Session δ} (hushed : Hushed s t)
    (goes : Goes halts t.record x) : Goes halts s.record x := by
  rwa [← hushed.record]

theorem goes_failed (live : s.Active) (e : Fault) (t : Session δ) (hushed : Hushed s t) :
    Goes halts s.record (.error e, t) := by
  refine ⟨?_, hushed.active live⟩
  rw [hushed.record]

theorem goes_on {move next : Move} (hushed : Hushed s t) (is_open : s.Open move)
    (same : next.begins = move.begins) : Goes halts s.record (.ok (some next), t) := by
  refine ⟨?_, hushed.open is_open same⟩
  rw [hushed.record]

/-- With the debuggee running nothing more has to be known. -/
theorem orderly_running (attached : s.debuggee.isSome = true) (running : s.state = .running) :
    s.Orderly where
  attached := by rw [attached, running]; rfl
  paused reason thread state := by rw [running] at state; cases state
  exited exited := by rw [running] at exited; cases exited

theorem goes_later (hushed : Hushed s t) (attached : s.debuggee.isSome = true)
    (running : s.state = .running) (next : Move) : Goes halts s.record (.ok (some next), t) :=
  ⟨by rw [hushed.record], hushed.attached.trans attached, .inl (hushed.state.trans running)⟩

theorem goes_running (hushed : Hushed s t) (attached : s.debuggee.isSome = true)
    (running : s.state = .running) : Goes halts s.record (.ok none, t) := by
  replace running := hushed.state.trans running
  refine ⟨?_, orderly_running (hushed.attached.trans attached) running, fun paused => ?_⟩
  · rw [hushed.record]
  · rw [running] at paused
    cases paused

/-- A pause is reported once, with its reason and thread, and leaves no step behind. -/
theorem pause_goes (attached : s.debuggee.isSome = true) (running : s.state = .running)
    (stepless : s.stepper = none) (reason : PauseReason) (thread : ThreadId) :
    Goes true s.record (.ok none, s.pause reason thread) := by
  refine ⟨(Passage.paused reason thread running).one, ⟨?_, ?_, ?_⟩, fun _ => rfl⟩
  · exact attached
  · intro reason' thread' state
    cases show RunState.paused reason thread = .paused reason' thread' from state
    exact ⟨stepless, rfl⟩
  · intro exited
    cases show RunState.isExited (.paused reason thread) = true from exited

/-- A notice changes no run state. -/
structure Informs (s t : Session δ) : Prop where
  passes : Passes False s.record t.record
  attached : t.debuggee.isSome = s.debuggee.isSome
  state : t.state = s.state

theorem Informs.trans {u : Session δ} (first : Informs s t) (second : Informs t u) :
    Informs s u :=
  ⟨first.passes.trans second.passes, second.attached.trans first.attached,
    second.state.trans first.state⟩

theorem Hushed.informs (hushed : Hushed s t) : Informs s t := by
  refine ⟨?_, hushed.attached, hushed.state⟩
  rw [hushed.record]

theorem Informs.active (informs : Informs s t) (live : s.Active) : t.Active :=
  ⟨informs.attached.trans live.attached, by rw [informs.state]; exact live.live⟩

theorem leavePause_goes {move : Move} (is_open : s.Open move) :
    Passes False s.record (leavePause s).record := by
  rcases is_open.state with running | ⟨reason, thread, paused, _⟩
  · have same : (leavePause s).record = s.record := by
      simp [leavePause, record, running, RunState.isPaused]
    rw [same]
  · have next : (leavePause s).record =
        { s.record with state := .running, generation := s.record.generation + 1 } := by
      simp [leavePause, record, paused, RunState.isPaused]
    rw [next]
    exact (Passage.resumed paused).one

/-- Before a session is resumed it stays as it is, and so it does without a step. -/
theorem goes_still {move : Move} (hushed : Hushed s t) (is_open : s.Open move)
    (stepless : t.stepper = none) : Goes true s.record (.ok none, t) := by
  refine ⟨by rw [hushed.record], ⟨?_, ?_, ?_⟩, fun _ => rfl⟩
  · rw [hushed.attached, hushed.state, is_open.active.live]
    exact is_open.attached
  · intro reason thread paused
    refine ⟨stepless, ?_⟩
    rw [hushed.state] at paused
    rcases is_open.state with running | ⟨reason', thread', state, current, _⟩
    · rw [running] at paused
      cases paused
    · cases state.symm.trans paused
      rw [hushed.roster]
      exact current
  · intro exited
    rw [hushed.state] at exited
    rcases is_open.state with state | ⟨_, _, state, _⟩ <;> rw [state] at exited <;> cases exited

end Going

section Moves

variable [Debuggee δ] {s t : Session δ} {e : Event} {thread : ThreadId} {pc : UInt64}
  {mode : ResumeMode} {notices : List Event}

theorem clearTarget_hushed (s : Session δ) : Hushed s (clearTarget s).2 := by
  rw [clearTarget, bind_ok (get_run s)]
  cases s.stepper with
  | none => exact .refl s
  | some q =>
    dsimp only
    cases q.runningTo with
    | none => exact .refl s
    | some target =>
      dsimp only
      rw [bind_ok (modify_run _ s), bind_ok (get_run _), ite_run]
      split
      · have hushed := instrumented_hushed (Instrumented.removeStep target.address)
          { s with stepper := some { q with runningTo := none } }
        exact ⟨hushed.record, hushed.attached, hushed.roster⟩
      · exact ⟨rfl, rfl, rfl⟩

theorem cancelStep_hushed (s : Session δ) : Hushed s (cancelStep s).2 := by
  rw [cancelStep, bind_run]
  have hushed := clearTarget_hushed s
  rcases run : clearTarget s with ⟨e | _, t⟩ <;> rw [run] at hushed
  · exact hushed
  · exact hushed.trans ⟨rfl, rfl, rfl⟩

theorem cancelStep_stepless (done : cancelStep s = (.ok (), t)) : t.stepper = none := by
  rw [cancelStep, bind_run] at done
  rcases run : clearTarget s with ⟨e | _, u⟩ <;> rw [run] at done
  · cases done
  · cases done
    rfl

theorem pauseAt_goes (attached : s.debuggee.isSome = true) (running : s.state = .running)
    (reason : PauseReason) (thread : ThreadId) : Goes true s.record (pauseAt reason thread s) := by
  have live : s.Active := ⟨attached, by rw [running]; rfl⟩
  have hushed := cancelStep_hushed s
  rw [pauseAt]
  refine bind_cases (fun e t run => ?_) fun _ t run => ?_ <;> rw [run] at hushed
  · exact goes_failed live e t hushed
  · exact .hushed hushed (pause_goes (hushed.attached.trans attached) (hushed.state.trans running)
      (cancelStep_stepless run) reason thread)

theorem notice_informs (live : s.Active) (e : Event) :
    ∃ t, notice e s = (.ok (), t) ∧ Informs s t := by
  cases e with
  | threadStarted t | threadEnded t => exact ⟨_, rfl, .refl, rfl, rfl⟩
  | trap | signal | exited => exact ⟨_, rfl, .refl, rfl, rfl⟩
  | moduleLoaded path base size =>
    refine ⟨(loadModule path base size s).2, ?_, ?_⟩ <;>
      rcases s with ⟨_, _, debuggee, _, _, _, _, _, _, _, _, _⟩ <;>
      cases debuggee <;> first | rfl | exact ⟨.refl, rfl, rfl⟩
  | moduleUnloaded base =>
    refine ⟨(unloadModule base s).2, rfl, ?_⟩
    rw [unloadModule, modify_run]
    cases s.roster.moduleBased? base <;> exact ⟨.refl, rfl, rfl⟩
  | output text => exact ⟨_, rfl, (Passage.wrote text live.live).one, rfl, rfl⟩

theorem notices_informs (live : s.Active) (notices : List Event) :
    ∃ t, notices.forM notice s = (.ok (), t) ∧ Informs s t := by
  induction notices generalizing s with
  | nil => exact ⟨s, rfl, .refl, rfl, rfl⟩
  | cons e rest ih =>
    obtain ⟨t, first, informs⟩ := notice_informs live e
    obtain ⟨u, done, more⟩ := ih (informs.active live)
    refine ⟨u, ?_, informs.trans more⟩
    rw [List.forM_eq_forM, List.forM_cons, bind_ok first, ← List.forM_eq_forM, done]

theorem hitTrap_goes (attached : s.debuggee.isSome = true) (running : s.state = .running)
    (thread : ThreadId) (address : UInt64) : Goes true s.record (hitTrap thread address s) := by
  have active : s.Active := ⟨attached, by rw [running]; rfl⟩
  rw [hitTrap, bind_ok (get_run s), ite_run]
  split
  · rw [bind_ok (modify_run _ s)]
    exact pauseAt_goes (s := { s with breakpoints := s.breakpoints.count (s.traps.users address) })
      attached running .breakpoint thread
  · generalize ((s.stepper.filter (·.thread = thread)).bind (·.runningTo)).filter
      (·.address = address) = waiting
    cases waiting with
    | none => exact goes_later (.refl s) attached running _
    | some target =>
      refine bind_hushed (ask_hushed _) (.refl s) (goes_failed active) fun regs t hushed => ?_
      rw [ite_run]
      split
      · exact bind_hushed clearTarget_hushed hushed (goes_failed active) fun _ u hushed =>
          goes_later hushed attached running _
      · exact goes_later hushed attached running _

theorem handle_goes (is_open : s.Open (.handle e)) : Goes true s.record (advance (.handle e) s) := by
  have attached := is_open.attached
  have running := is_open.running rfl
  have informed : ∀ e, Goes true s.record ((notice e >>= fun _ => pure none) s) := by
    intro e
    obtain ⟨t, done, informs⟩ := notice_informs is_open.active e
    rw [bind_ok done]
    exact ⟨informs.passes, orderly_running (informs.attached.trans attached)
      (informs.state.trans running), fun _ => rfl⟩
  cases e with
  | threadStarted | threadEnded | moduleLoaded | moduleUnloaded | output => exact informed _
  | exited code => exact ⟨exit_passes is_open.active.live _ _, exit_orderly _ _ _, fun _ => rfl⟩
  | signal thread number description => exact pauseAt_goes attached running .exception thread
  | trap thread pc kind =>
    cases kind with
    | interrupt => exact pauseAt_goes attached running .forcedBreak thread
    | raised => exact pauseAt_goes attached running .break thread
    | singleStep => exact goes_later (.refl s) attached running _
    | software =>
      rw [advance, handleEvent, handleTrap, bind_ok (get_run s), ite_run]
      split
      · refine bind_hushed (ask_hushed _) (.refl s) (goes_failed is_open.active) fun regs t hushed => ?_
        refine bind_hushed (access_hushed _) hushed (goes_failed is_open.active) fun _ u hushed => ?_
        exact .hushed hushed (hitTrap_goes (hushed.attached.trans attached) (hushed.state.trans running) _ _)
      · exact pauseAt_goes attached running .break thread

theorem resume_goes (is_open : s.Open (.resume thread mode)) :
    Goes false s.record (advance (.resume thread mode) s) := by
  have attached : (leavePause s).debuggee.isSome = true := is_open.attached
  have running : (leavePause s).state = .running := rfl
  have active : (leavePause s).Active := ⟨attached, rfl⟩
  rw [advance, resumeThread, bind_ok (modify_run _ s)]
  refine .after (leavePause_goes is_open) ?_
  refine bind_hushed (ask_hushed _) (.refl _) (goes_failed active) fun regs t hushed => ?_
  rw [bind_ok (get_run t), ite_run]
  split
  · refine bind_hushed (instrumented_hushed _) hushed (goes_failed active) fun _ u hushed => ?_
    refine bind_hushed (access_hushed _) hushed (goes_failed active) fun _ v hushed => ?_
    exact goes_later hushed attached running _
  · refine bind_hushed (access_hushed _) hushed (goes_failed active) fun _ u hushed => ?_
    exact goes_running hushed attached running

theorem afterLift_goes (attached : s.debuggee.isSome = true) (running : s.state = .running)
    (thread : ThreadId) (pc : UInt64) (mode : ResumeMode) (notices : List Event) (stop : Event) :
    Goes false s.record (afterLift thread pc mode notices stop s) := by
  have active : s.Active := ⟨attached, by rw [running]; rfl⟩
  have settles (here : Bool) {t : Session δ} (hushed : Hushed s t) :
      Goes false s.record ((notices.forM notice >>= fun _ =>
        if here then
          if mode = .step thread then registers thread >>= fun regs =>
            pure (some (.stepped thread regs.pc))
          else access (Debuggee.resume mode) >>= fun _ => pure none
        else pure (some (.handle stop)) : Change δ (Option Move)) t) := by
    obtain ⟨u, noted, informs⟩ := notices_informs (hushed.active active) notices
    rw [bind_ok noted]
    replace informs := hushed.informs.trans informs
    replace active := informs.active active
    replace running := informs.state.trans running
    refine .after informs.passes ?_
    rw [ite_run]
    split
    · rw [ite_run]
      split
      · exact bind_hushed (ask_hushed _) (.refl u) (goes_failed active) fun regs v hushed =>
          goes_later hushed active.attached running _
      · exact bind_hushed (access_hushed _) (.refl u) (goes_failed active) fun _ v hushed =>
          goes_running hushed active.attached running
    · exact goes_later (.refl u) active.attached running _
  unfold afterLift
  rw [ite_run]
  split
  · exact settles _ (.refl s)
  · exact bind_hushed (instrumented_hushed _) (.refl s) (goes_failed active) fun _ t => settles _

theorem await_goes (is_open : s.Open (.await thread pc mode notices)) :
    Goes false s.record (advance (.await thread pc mode notices) s) := by
  have running := is_open.running rfl
  rw [advance, awaitStop, bind_ok (get_run s)]
  refine bind_hushed (access_hushed _) (.refl s) (goes_failed is_open.active) fun event t hushed => ?_
  have attached := hushed.attached.trans is_open.attached
  cases event with
  | none => exact goes_later hushed is_open.attached running _
  | some event =>
    dsimp only
    split
    · exact .hushed hushed (afterLift_goes attached (hushed.state.trans running) _ _ _ _ _)
    · exact goes_later hushed is_open.attached running _

theorem stepped_goes (is_open : s.Open (.stepped thread pc)) :
    Goes true s.record (advance (.stepped thread pc) s) := by
  have attached := is_open.attached
  have running := is_open.running rfl
  rw [advance, afterStep, bind_ok (get_run s), ite_run]
  split
  · exact goes_later (.refl s) attached running _
  · rw [ite_run]
    split
    · rw [bind_ok (modify_run _ s)]
      exact pauseAt_goes (s := { s with breakpoints := s.breakpoints.count (s.traps.users pc) })
        attached running .breakpoint thread
    · exact goes_later (.refl s) attached running _

theorem arrived_goes (is_open : s.Open (.arrived thread)) :
    Goes true s.record (advance (.arrived thread) s) := by
  have attached := is_open.attached
  have running := is_open.running rfl
  rw [advance, arrive]
  refine bind_hushed (ask_hushed _) (.refl s) (goes_failed is_open.active) fun regs t hushed => ?_
  refine bind_hushed (ask_hushed _) hushed (goes_failed is_open.active) fun frame u hushed => ?_
  rw [bind_ok (get_run u)]
  cases u.stepper with
  | none => exact goes_running hushed attached running
  | some q =>
    dsimp only
    have later (q : Stepper) : Hushed s { u with stepper := some q } :=
      hushed.trans ⟨rfl, rfl, rfl⟩
    rw [bind_ok (modify_run _ u)]
    generalize q.arrived regs frame (u.roster.lineAt? regs.pc)
      (((u.roster.functionAt? regs.pc).map (·.hasLines)).getD false) = judged
    cases judged.1 with
    | complete =>
      dsimp only
      rw [bind_ok (modify_run _ _)]
      exact .hushed hushed (pause_goes (s := { u with stepper := none })
        (hushed.attached.trans attached) (hushed.state.trans running) rfl .stepComplete thread)
    | «continue» | runTo target | stepOutAgain => exact goes_later (later _) attached running _

theorem act_goes (is_open : s.Open (.act thread)) : Goes true s.record (advance (.act thread) s) := by
  rw [advance, act]
  refine bind_hushed (ask_hushed _) (.refl s) (goes_failed is_open.active) fun regs t hushed => ?_
  refine bind_hushed (ask_hushed _) hushed (goes_failed is_open.active) fun i u hushed => ?_
  rw [bind_ok (get_run u)]
  cases stepper : u.stepper with
  | none => exact goes_still hushed is_open stepper
  | some q =>
    dsimp only
    rcases q.nextAction regs i with ⟨action, next⟩
    dsimp only
    rw [bind_ok (modify_run _ u)]
    have later : Hushed s { u with stepper := some next } := hushed.trans ⟨rfl, rfl, rfl⟩
    cases action <;> exact goes_on later is_open rfl

theorem stepOut_goes (is_open : s.Open (.stepOut thread)) :
    Goes false s.record (advance (.stepOut thread) s) := by
  rw [advance, stepOut]
  refine bind_hushed (ask_hushed _) (.refl s) (goes_failed is_open.active) fun frames t hushed => ?_
  cases frames[1]? with
  | some caller => exact goes_on hushed is_open rfl
  | none =>
    dsimp only
    rw [bind_ok (modify_run _ t)]
    exact goes_on (hushed.trans ⟨rfl, rfl, rfl⟩) is_open rfl

theorem runTo_goes {target : Target} (is_open : s.Open (.runTo thread target)) :
    Goes false s.record (advance (.runTo thread target) s) := by
  rw [advance, runTo]
  refine bind_hushed (instrumented_hushed _) (.refl s) (goes_failed is_open.active) fun _ t hushed => ?_
  rw [bind_ok (modify_run _ t)]
  exact goes_on (hushed.trans ⟨rfl, rfl, rfl⟩) is_open rfl

/-- A move is a course of passages, wherever it leads. -/
theorem advance_goes {move : Move} (is_open : s.Open move) :
    Goes move.halts s.record (advance move s) := by
  cases move with
  | handle e => exact handle_goes is_open
  | resume thread mode => exact resume_goes is_open
  | await thread pc mode notices => exact await_goes is_open
  | stepped thread pc => exact stepped_goes is_open
  | arrived thread => exact arrived_goes is_open
  | act thread => exact act_goes is_open
  | stepOut thread => exact stepOut_goes is_open
  | runTo thread target => exact runTo_goes is_open

end Moves

end Session

end SourceDebugger
