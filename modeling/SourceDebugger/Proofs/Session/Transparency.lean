import SourceDebugger.Proofs.Session.Integrity
/-!
Breakpoints are transparent to a program. Who goes on at every pause hears the same from a program
with breakpoints as from one without, but for the breakpoints, and comes to the same end.
-/
namespace SourceDebugger

open Machine

/-- A pause that a program without breakpoints does not have. -/
def DebuggerEvent.isMark : DebuggerEvent → Bool
  | .paused .breakpoint _ => true
  | _ => false

namespace Session

/-- What is said besides pauses at breakpoints. -/
def unmarked (said : List DebuggerEvent) : List DebuggerEvent := said.filter fun e => !e.isMark

namespace Voice

/-- Two voices that differ in pauses at breakpoints only. -/
structure Alike (v w : Voice) : Prop where
  line : v.1 = w.1
  said : unmarked v.2 = unmarked w.2

variable {v w : Voice}

theorem Alike.append (alike : v.Alike w) (line : LineBuffer) (more : List DebuggerEvent) :
    Alike (line, v.2 ++ more) (line, w.2 ++ more) :=
  ⟨rfl, by rw [unmarked, unmarked, List.filter_append, List.filter_append]
           exact congrArg (· ++ _) alike.said⟩

theorem Alike.hearAll (alike : v.Alike w) (told : List Event) :
    (v.hearAll told).Alike (w.hearAll told) := by
  induction told generalizing v w with
  | nil => exact alike
  | cons e rest ih =>
    refine ih ?_
    obtain ⟨line, said⟩ := v
    obtain ⟨_, also⟩ := w
    cases alike.line
    cases e with
    | output text => exact alike.append _ _
    | _ => exact alike

theorem Alike.pause (alike : v.Alike w) (reason : PauseReason) :
    (v.pause reason).Alike (w.pause reason) := by
  obtain ⟨line, said⟩ := v
  obtain ⟨_, also⟩ := w
  cases alike.line
  exact alike.append _ _

/-- A pause at a breakpoint makes no difference. -/
theorem Alike.mark (alike : v.Alike w) : v.Alike (w.pause .breakpoint) :=
  ⟨alike.line, by
    rw [alike.said, unmarked, unmarked, Voice.pause, List.filter_append]
    exact (List.append_nil _).symm⟩

theorem Alike.exit (alike : v.Alike w) (code : Option Int) : (v.exit code).Alike (w.exit code) := by
  obtain ⟨line, said⟩ := v
  obtain ⟨_, also⟩ := w
  cases alike.line
  simp only [Voice.exit]
  cases line.flush <;> exact alike.append _ _

end Voice

section Persistence

variable {o u : Observer} {n k : Nat} {d d' d'' : Due} {v v' v'' w : Voice} {code : Int} {last : Moment}

/-- So many steps of an observer who goes on at every pause, and what is said on the way. -/
inductive Persists (o : Observer) : Nat → Due → Voice → Due → Voice → Prop
  | refl (d : Due) (v : Voice) : Persists o 0 d v d v
  | next {n : Nat} {d d' : Due} {v v' : Voice} : (∀ how m, d ≠ .done how m) →
      Persists o n (o.next d).2 (v.hearAll (o.next d).1) d' v' → Persists o (n + 1) d v d' v'
  | resume {n : Nat} {d' : Due} {v v' : Voice} {reason : PauseReason} {m : Moment} :
      Persists o n (.turn .nothing m) (v.pause reason) d' v' →
      Persists o (n + 1) (.done (.paused reason) m) v d' v'

theorem Persists.trans (first : Persists o n d v d' v') (second : Persists o k d' v' d'' v'') :
    Persists o (n + k) d v d'' v'' := by
  induction first with
  | refl => rwa [Nat.zero_add]
  | next going _ ih => exact Nat.add_right_comm _ 1 k ▸ .next going (ih second)
  | resume _ ih => exact Nat.add_right_comm _ 1 k ▸ .resume (ih second)

theorem persists_of_leads {told : List Event} (leads : o.Leads n d told d') (v : Voice) :
    Persists o n d v d' (v.hearAll told) := by
  induction leads generalizing v with
  | refl => exact .refl _ _
  | next going _ ih =>
    rw [Voice.hearAll_append]
    exact .next going (ih _)

/-- Who comes to the end passes everything on the way there. -/
theorem Persists.split (whole : Persists o n d v (.done (.exited code) last) w)
    (first : Persists o k d v d' v') :
    k ≤ n ∧ Persists o (n - k) d' v' (.done (.exited code) last) w := by
  induction first generalizing n with
  | refl => exact ⟨Nat.zero_le _, whole⟩
  | next going _ ih =>
    cases whole with
    | refl => exact absurd rfl (going _ _)
    | next _ whole =>
      obtain ⟨short, left⟩ := ih whole
      exact ⟨by omega, by rwa [Nat.add_sub_add_right]⟩
    | resume => exact absurd rfl (going _ _)
  | resume _ ih =>
    cases whole with
    | next going => exact absurd rfl (going _ _)
    | resume whole =>
      obtain ⟨short, left⟩ := ih whole
      exact ⟨by omega, by rwa [Nat.add_sub_add_right]⟩

/-- No step is on its way. -/
def Unwatched : Due → Prop
  | .turn w _ | .come w _ | .look w _ => w = .nothing
  | .done .. => True

/-- Breakpoints are passed by who persists. -/
theorem Persists.alike (silent : ∀ a, o.stops a = false)
    (whole : Persists o n d v (.done (.exited code) last) w) (idle : Unwatched d) (alike : v.Alike v') :
    ∃ n' w', Persists u n' d v' (.done (.exited code) last) w' ∧ w.Alike w' := by
  generalize ended : Due.done (.exited code) last = stop at whole
  induction whole generalizing v' with
  | refl => exact ⟨0, v', .refl _ _, alike⟩
  | @next _ d _ v _ going _ ih =>
    cases d with
    | done how m => exact absurd rfl (going how m)
    | turn w m =>
      have after : Unwatched (o.next (.turn w m)).2 := by
        rw [Observer.next]
        split
        · exact idle
        · trivial
      obtain ⟨n', w', rest, same⟩ := ih after (alike.hearAll _) ended
      exact ⟨n' + 1, w', .next going rest, same⟩
    | look w m =>
      cases idle
      obtain ⟨n', w', rest, same⟩ := ih rfl alike ended
      exact ⟨n' + 1, w', .next going rest, same⟩
    | come w m =>
      cases idle
      have look : o.next (.come .nothing m) = ([], .look .nothing m) := by
        rw [Observer.next, silent]
        rfl
      rw [look] at ih
      cases stops : u.stops m.pc with
      | false =>
        obtain ⟨n', w', rest, same⟩ := ih rfl alike ended
        refine ⟨n' + 1, w', .next going ?_, same⟩
        rw [Observer.next, stops]
        exact rest
      | true =>
        -- Here is a pause more, after which it is not asked again whether there is a breakpoint.
        obtain ⟨n', w', rest, same⟩ := ih rfl alike.mark ended
        subst ended
        cases rest with
        | @next n _ _ _ _ _ rest =>
          refine ⟨n + 1 + 1, w', .next going ?_, same⟩
          rw [Observer.next, stops]
          exact .resume rest
  | resume _ ih =>
    obtain ⟨n', w', rest, same⟩ := ih rfl (alike.pause _) ended
    exact ⟨n' + 1, w', .resume rest, same⟩

end Persistence

section Rides

variable {p : Program} {e : Executable} {o : Observer} {rs : List Routine} {config : Config}
  {s t : Session Machine} {m : Machine} {d : Due} {v : Voice}

/-- One round of a drive: a running program is looked at, a paused one is told to go on. -/
def ride (s : Session Machine) (millis : Nat) : Session Machine :=
  if s.state = .running then s.perform (.pump millis)
  else if s.state.isPaused then s.perform .continue else s

theorem ride_running (running : s.state = .running) (millis : Nat) :
    s.ride millis = s.perform (.pump millis) := if_pos running

theorem ride_paused {reason : PauseReason} {thread : ThreadId} (paused : s.state = .paused reason thread)
    (millis : Nat) : s.ride millis = s.perform .continue := by
  rw [ride, paused]
  rfl

/-- A drive, looking for so long each time. -/
def rides (s : Session Machine) (millis : List Nat) : Session Machine := millis.foldl ride s

theorem rides_over (resting : s.state.isLive = false) (millis : List Nat) : s.rides millis = s := by
  induction millis with
  | nil => rfl
  | cons n rest ih =>
    have none : s.ride n = s := by
      rw [ride]
      cases state : s.state <;> simp [state, RunState.isLive, RunState.isPaused] at resting ⊢
    rw [rides, List.foldl_cons, none]
    exact ih

/-- A drive of a session beside an observer who persists, of whom it is ahead at no time. -/
structure Rode (o : Observer) (config : Config) (d : Due) (v : Voice) (steps : Nat)
    (t : Session Machine) : Prop where
  ready : Ready (o.program.sight config) t none
  calm : Calm o t
  way : ∃ k d' v', Persists o k d v d' v' ∧ Stage o t none d' v' ∧ (t.state.isLive = true → steps ≤ k)

variable (asm : Assembled p o.program rs) (typed : p.WellTyped) (compact : p.Compact)

include asm typed compact

theorem Stage.ride (ready : Ready (o.program.sight config) s none) (stage : Stage o s none d v)
    (calm : Calm o s) (millis : Nat) : Rode o config d v 1 (s.ride millis) := by
  have lasting := sight_lasting asm typed compact config
  rw [Session.ride]
  split
  · rename_i running
    have after : Ready (o.program.sight config) (s.perform (.pump millis)) none :=
      pump_ready lasting ready millis
    cases stage.pumped asm typed compact ready running millis with
    | unfinished _ stuck => exact absurd calm stuck
    | @on k told d' leads later long still =>
      refine ⟨after, still calm, k, d', _, persists_of_leads leads v, later, fun live => ?_⟩
      by_contra none
      cases leads with
      | next => omega
      | refl =>
        -- A session that rests where the program has ended has ended, too.
        have rest : (s.perform (.pump millis)).state ≠ .running := fun going => none (long going)
        obtain ⟨how, last, rfl, view, _⟩ := later.rests after rest
        obtain ⟨_, code, _, _, _, rfl, _⟩ := stage.ended_of_done running
        rw [view.state] at live
        cases live
  · rename_i rest
    split
    · rename_i paused
      obtain ⟨how, now, rfl, view, _⟩ := stage.rests ready rest
      have state := view.state
      cases how with
      | exited | fault =>
        rw [state] at paused
        cases paused
      | paused reason =>
        obtain ⟨_, m, sound, resting, stepless⟩ := ready.still state
        cases stage with
        | paused _ attached scene _ _ voice =>
          cases sound.attached.symm.trans attached
          have after : Ready (o.program.sight config) (s.perform .continue) none :=
            continue_ready lasting ready
          cases scene.continues asm typed compact sound resting stepless state with
          | unfinished _ stuck => exact absurd trivial stuck
          | on leads later _ still =>
            rw [voice] at later
            exact ⟨after, still trivial, _, _, _, .resume (persists_of_leads leads _), later,
              fun _ => Nat.le_add_left 1 _⟩
    · rename_i resting
      refine ⟨ready, calm, 0, d, v, .refl d v, stage, fun live => ?_⟩
      cases state : s.state <;> simp [state, RunState.isLive, RunState.isPaused] at rest resting live

theorem Stage.rides (ready : Ready (o.program.sight config) s none) (stage : Stage o s none d v)
    (calm : Calm o s) (millis : List Nat) : Rode o config d v millis.length (s.rides millis) := by
  induction millis generalizing s d v with
  | nil => exact ⟨ready, calm, 0, d, v, .refl d v, stage, fun _ => Nat.le_refl 0⟩
  | cons n rest ih =>
    obtain ⟨ready, calm, k, d', v', first, stage, short⟩ := stage.ride asm typed compact ready calm n
    obtain ⟨after, still, j, d'', v'', more, later, long⟩ := ih ready stage calm
    refine ⟨after, still, k + j, d'', v'', first.trans more, later, fun live => ?_⟩
    have early : (s.ride n).state.isLive = true := by
      by_contra resting
      have same : (s.rides (n :: rest)) = s.ride n := rides_over (by simpa using resting) rest
      rw [same] at live
      exact resting live
    have := short early
    have := long live
    rw [List.length_cons]
    omega

omit asm typed compact in
/-- Where a drive has ended, who persists comes to the end. -/
theorem Rode.exited {steps : Nat} {code : Int} (rode : Rode o config d v steps t)
    (state : t.state = .exited (some code) none) :
    ∃ n last w, Persists o n d v (.done (.exited code) last) w ∧ t.voice = w.exit (some code) := by
  obtain ⟨ready, _, n, d', w, way, stage, _⟩ := rode
  obtain ⟨how, last, rfl, view, voice⟩ := stage.rests ready (by rw [state]; simp)
  cases how with
  | paused | fault => cases state.symm.trans view.state
  | exited c =>
    cases state.symm.trans view.state
    exact ⟨n, last, w, way, voice⟩

omit asm typed compact in
/-- When who persists has come to the end, a drive has ended. -/
theorem Rode.ends {n steps : Nat} {code : Int} {last : Moment} {w : Voice}
    (rode : Rode o config d v steps t) (ends : Persists o n d v (.done (.exited code) last) w)
    (long : n < steps) : t.state = .exited (some code) none ∧ t.voice = w.exit (some code) := by
  obtain ⟨ready, _, k, d', v', way, stage, short⟩ := rode
  obtain ⟨early, left⟩ := ends.split way
  have resting : t.state.isLive = false := by
    cases live : t.state.isLive with
    | false => rfl
    | true =>
      have := short live
      omega
  have still : t.state ≠ .running := fun running => by
    rw [running] at resting
    cases resting
  obtain ⟨how, now, rfl, view, voice⟩ := stage.rests ready still
  generalize n - k = rest at left
  cases left with
  | refl => exact ⟨view.state, voice⟩
  | next going => exact absurd rfl (going _ _)
  | resume =>
    rw [view.state] at resting
    cases resting

end Rides

section Transparent

variable {p : Program} {e : Executable} {rs : List Routine} {config : Config} {s : Session Machine}
  {m : Machine} {before : List Action}

/-- A drive of a program that has been started goes beside an observer who begins with it. -/
theorem Begun.rides (asm : Assembled p e rs) (typed : p.WellTyped)
    (compact : p.Compact) (begun : Begun (e.entering config) s m) (apart : s.Apart e)
    (millis : List Nat) : Rode (s.observer e 0) config (.come .nothing (.launch e)) s.voice
      millis.length (s.rides millis) :=
  Stage.rides (o := s.observer e 0) asm typed compact begun.watched
    (begun.stage rfl (posted_observer apart 0)) (calm_of_stepless begun.stepless) millis

/-- Before the first start nothing is said and nothing runs. -/
theorem record_unstarted {δ : Type} [Debuggee δ] (host : Host δ)
    (unstarted : ∀ request, .start request ∉ before) :
    (after host before).record = (new host).record := by
  have keeps : ∀ s : Session δ, s.Orderly → s.record = (new host).record →
      (before.foldl perform s).record = (new host).record := by
    induction before with
    | nil => exact fun _ _ same => same
    | cons action rest ih =>
      intro s orderly same
      have lawful := respond_lawful orderly action
      have idle : s.record.state.isLive = false := by rw [same]; rfl
      have never : ¬ ∃ request d, action = .start request ∧
          s.host.launch s.launches request = .ok d := by
        rintro ⟨request, _, rfl, _⟩
        exact unstarted request List.mem_cons_self
      refine ih (fun request member => unstarted request (List.mem_cons_of_mem _ member)) _
        lawful.orderly ?_
      exact ((lawful.passes.mono never).still idle).trans same
  exact keeps _ (new_orderly host) rfl

/-- A program that is started with breakpoints, none of them on a trap of its own, and told to go on at
every pause ends as it does without breakpoints, and meanwhile the same is said, pauses at breakpoints
apart. -/
theorem rides_transparent (built : p.assemble = .ok e) (typed : p.WellTyped) (compact : p.Compact)
    (config : Config) (unstarted : ∀ request, .start request ∉ before) (request : LaunchRequest)
    (apart : ((after (e.host config) before).perform (.start request)).Apart e) {millis : List Nat}
    {code : Int} (bare : (((new (e.host config)).perform (.start request)).rides millis).state =
      .exited (some code) none) :
    ∃ n, ∀ more : List Nat, n ≤ more.length →
      (((after (e.host config) before).perform (.start request)).rides more).state =
        .exited (some code) none ∧
      unmarked (((after (e.host config) before).perform (.start request)).rides more).outbox =
        unmarked (((new (e.host config)).perform (.start request)).rides millis).outbox := by
  obtain ⟨rs, asm⟩ := assemble_ok built
  have record := record_unstarted (e.host config) unstarted
  have idle : (after (e.host config) before).state = .notStarted := congrArg Record.state record
  have outbox : (after (e.host config) before).outbox = [] := congrArg Record.events record
  have alone : (new (e.host config)).Startable e config := .after e config [] rfl
  have startable : (after (e.host config) before).Startable e config :=
    .after e config before (by rw [idle]; rfl)
  cases alone.start asm compact request with
  | refused _ state =>
    have resting : ((new (e.host config)).perform (.start request)).state.isLive = false := by
      rw [state]
      rfl
    rw [rides_over resting, state] at bare
    cases bare
  | unfinished _ state =>
    rw [rides_over (by rw [state]; rfl), state] at bare
    cases bare
  | begun starts first said items =>
    have none : ((new (e.host config)).perform (.start request)).breakpoints.registered = [] := by
      rw [Breakpoints.registered, List.length_eq_zero_iff.mp items]
      rfl
    have free : ((new (e.host config)).perform (.start request)).Apart e := by
      intro b member
      rw [none] at member
      cases member
    obtain ⟨n, last, w, whole, voice⟩ := (first.rides asm typed compact free millis).exited bare
    have silent (a : UInt64) :
        (((new (e.host config)).perform (.start request)).observer e 0).stops a = false := by
      rw [observer, none]
      rfl
    cases startable.start asm compact request with
    | refused not => exact absurd starts not
    | unfinished not => exact absurd starts not
    | begun _ second also _ =>
      rw [outbox] at also
      obtain ⟨n', w', there, same⟩ := whole.alike
        (u := ((after (e.host config) before).perform (.start request)).observer e 0) silent rfl
        (show Voice.Alike _ (.empty, []) by rw [said]; exact ⟨rfl, rfl⟩)
      refine ⟨n' + 1, fun more long => ?_⟩
      have rode := second.rides asm typed compact apart more
      rw [also] at rode
      obtain ⟨state, told⟩ := rode.ends there long
      refine ⟨state, ?_⟩
      have outboxes := (same.exit (some code)).said
      rw [← voice, ← told] at outboxes
      exact outboxes.symm

/-- Where a sketch of a program that has been started comes to the end, a drive does. -/
theorem Begun.exits (asm : Assembled p e rs) (typed : p.WellTyped) (compact : p.Compact)
    (begun : Begun (e.entering config) s m) (apart : s.Apart e)
    (entry : (s.observer e 0).stops e.entry = false) (most : Nat) {q : Outline} {code : Int}
    (sketched : (s.observer e 0).sketch most .nothing e.outset = some (.exited code, q))
    (millis : List Nat) (long : 3 * most + 2 < millis.length) :
    (s.rides millis).state = .exited (some code) none := by
  obtain ⟨k, told, last, short, leads, _⟩ :=
    Observer.leads_of_launch (o := s.observer e 0) asm typed compact most entry sketched
  exact ((begun.rides asm typed compact apart millis).ends (persists_of_leads leads s.voice)
    (by omega)).1

/-- Breakpoints on the first instruction and, turned off, on one of the function that is called. -/
def errandMarks : List Action :=
  [.add (.address 0x400010), .add (.address 0x400035), .setEnabled 2 false]

theorem errand_exits : (((new (errandCode.host .standard)).perform
    (.start ⟨"/bin/errand", "/", []⟩)).rides (List.replicate 100 0)).state =
      .exited (some 0) none := by
  obtain ⟨rs, asm⟩ := assemble_ok errand_built
  have startable : (new (errandCode.host .standard)).Startable errandCode .standard :=
    .after errandCode .standard [] rfl
  have starts : Starts errandCode ⟨"/bin/errand", "/", []⟩ := by decide +kernel
  cases startable.start asm (by decide +kernel) ⟨"/bin/errand", "/", []⟩ with
  | begun _ begun =>
    exact begun.exits asm (by decide) (by decide +kernel) (by decide +kernel) (by decide +kernel) 20
      (show _ = some (Halt.exited 0, ⟨⟨0, 0x7fff0000, 0⟩, []⟩) by decide +kernel) _ (by decide)
  | refused not => exact absurd starts not
  | unfinished not => exact absurd starts not

theorem rides_transparent_errand : ∃ n, ∀ more : List Nat, n ≤ more.length →
    (((after (errandCode.host .standard) errandMarks).perform
      (.start ⟨"/bin/errand", "/", []⟩)).rides more).state = .exited (some 0) none ∧
    unmarked (((after (errandCode.host .standard) errandMarks).perform
      (.start ⟨"/bin/errand", "/", []⟩)).rides more).outbox =
        unmarked (((new (errandCode.host .standard)).perform
          (.start ⟨"/bin/errand", "/", []⟩)).rides (List.replicate 100 0)).outbox :=
  rides_transparent errand_built (by decide) (by decide +kernel) .standard (by simp [errandMarks])
    ⟨"/bin/errand", "/", []⟩ (by decide +kernel) errand_exits

end Transparent

section Overrun

variable {s : Session Machine} {x : Machine} (entered : Entered s x)

include entered

/-- Without breakpoints there is a break where the program has written a trap, behind it is no
instruction, and the program ends when it is told to go on again. -/
theorem Entered.strays (bare : s.traps.entries = []) :
    (s.rides [0, 0, 0, 0, 0]).state = .exited (some 139) none := by
  obtain ⟨S, H, alone, paused⟩ := entered.breaks bare 0
  obtain ⟨executable, pending, interrupt, signal⟩ := overwritten_kept x S H
  have stopped : (x.overwritten S H).motion = .stopped := rfl
  have pc : (x.overwritten S H).registers.pc = 0x400023 := rfl
  generalize x.overwritten S H = m at *
  have nowhere : m.executable.instrAt? m.registers.pc = none := by
    rw [executable, entered.executable, pc]
    exact overrun_instrAt_behind longText
  have calm : m.interruptRequested = false := interrupt.trans entered.calm
  have quiet : m.pending = [] := pending.trans entered.pending
  have unsignalled : m.pendingSignal = none := signal.trans entered.signal
  have going : m.resumed .running = { m with motion := .running } := by rw [resumed, unsignalled]
  simp only [rides, List.foldl_cons, List.foldl_nil]
  rw [ride_running entered.running, ride_paused paused]
  obtain ⟨alone, running⟩ := alone.goes paused (by rw [stopped]; decide)
  rw [going] at alone
  rw [ride_running running]
  obtain ⟨alone, paused⟩ := alone.fails running (poll_strayed rfl quiet calm nowhere) 0
  rw [ride_paused paused]
  obtain ⟨alone, running⟩ := alone.goes paused (show Motion.stopped ≠ .exited by decide)
  rw [ride_running running]
  exact alone.ends running (poll_pending rfl) 0

/-- With a breakpoint there the program does not come to such an end, however long the drive is. -/
theorem Entered.never_strays {trap : Trap} (found : s.traps.find? 0x400022 = some trap)
    (enabled : s.breakpoints.anyEnabled trap.users = true) (inserted : trap.byte.inserted = true)
    (other : trap.byte.covered ≠ trapByte) (millis : List Nat) :
    (s.rides millis).state ≠ .exited (some 139) none := by
  rcases millis with _ | ⟨i, _ | ⟨j, more⟩⟩
  · show s.state ≠ _
    rw [entered.running]
    nofun
  · show (s.ride i).state ≠ _
    rw [ride_running entered.running, (entered.covers found enabled inserted other i).1]
    nofun
  · obtain ⟨paused, ended⟩ := entered.covers found enabled inserted other i
    show (rides ((s.ride i).ride j) more).state ≠ _
    rw [ride_running entered.running, ride_paused paused, rides_over (by rw [ended]; rfl), ended]
    decide

end Overrun

/-- A program that stores what a variable is not declared for ends with a signal; with a breakpoint on
its last instruction, which is no trap of its own, it does not. -/
theorem rides_not_overrun : (overrun longText).assemble = .ok (overrunCode longText) ∧
    (overrun longText).Compact ∧
      (overrunStart [.add (.address 0x400022)]).Apart (overrunCode longText) ∧
        ((overrunStart []).rides [0, 0, 0, 0, 0]).state = .exited (some 139) none ∧
          ∀ millis, ((overrunStart [.add (.address 0x400022)]).rides millis).state ≠
            .exited (some 139) none := by
  obtain ⟨x, bare⟩ := overrunStart_entered
  have entered : ∃ y, Entered (overrunStart [.add (.address 0x400022)]) y :=
    entered_start rfl (by decide +kernel)
  obtain ⟨y, marked⟩ := entered
  have found : (overrunStart [.add (.address 0x400022)]).traps.find? 0x400022 =
      some ⟨⟨0x400022, 0x90, true⟩, [1], 0⟩ := by decide +kernel
  exact ⟨overrun_built longText, by decide +kernel, by decide +kernel, bare.strays overrunStart_bare,
    marked.never_strays found (by decide +kernel) rfl (by decide)⟩

end Session

end SourceDebugger
