import SourceDebugger.Proofs.Session.Commands
import SourceDebugger.Proofs.Session.Transparency
/-!
What a program comes to depends on its breakpoints only by where they are turned on. Two sessions of one
program that are told the same at each pause say the same, and each time come to rest at the same moment,
whatever else there is of breakpoints that are turned off, and however often the program is looked at.
-/
namespace SourceDebugger

open Machine

/-- The observer, with a step beginning at a moment. -/
def Machine.Observer.setOut (o : Observer) (now : Moment) : Observer :=
  { o with origin := (o.lineAt? now.pc).map fun r => (r.start, r.stop) }

namespace Session

/-- What can be told to a session that is paused. -/
inductive Resumption where
  | continue
  | step (kind : StepKind)
  deriving DecidableEq, Repr

namespace Resumption

def action : Resumption → Action
  | .continue => .continue
  | .step kind => .step kind

/-- What it waits for when so many functions are active. -/
def watch (n : Nat) : Resumption → Watch
  | .continue => .nothing
  | .step kind => watchOf n kind

end Resumption

variable {p : Program} {e : Executable} {o : Observer} {rs : List Routine} {config : Config}
  {s t : Session Machine} {m : Machine} {now : Moment} {how : Halt} {v : Voice}

/-- A session is told how to go on, and its program looked at for so long each time. -/
def resume (s : Session Machine) (r : Resumption) (millis : List Nat) : Session Machine :=
  (s.perform r.action).pumps millis

/-- A session at rest where an observer has come to a halt, before which so much has been said. -/
structure Stands (o : Observer) (config : Config) (s : Session Machine) (how : Halt) (now : Moment)
    (v : Voice) : Prop where
  ready : Ready (o.program.sight config) s none
  rest : s.AtRest
  stage : Stage o s none (.done how now) v

theorem Stands.shows (stands : Stands o config s how now v) :
    s.Shows how now ∧ s.voice = v.halt how := by
  obtain ⟨_, _, same, view, voice⟩ := stands.stage.rests stands.ready stands.rest.1
  cases same
  exact ⟨view, voice⟩

/-- Where a step began does not matter any more at a halt. -/
theorem Stage.turned (stage : Stage o s none (.done how now) v)
    (origin : Option (UInt64 × UInt64)) : Stage { o with origin } s none (.done how now) v := by
  cases stage with
  | paused reason attached scene state stepless voice =>
    refine .paused reason attached ⟨scene.overlaid, scene.lived, scene.free, ?_, ?_⟩ state stepless voice
    · exact ⟨scene.posted.stops, scene.posted.apart⟩
    · intro q known
      rw [stepless] at known
      cases known
  | exited code state departed covering voice => exact .exited code state departed covering voice
  | faulted f state departed covering voice => exact .faulted f state departed covering voice
  | ended code attached covering motion pending => exact .ended code attached covering motion pending

section Step

variable (asm : Assembled p o.program rs) (typed : p.WellTyped) (compact : p.Compact)

include asm typed compact

/-- Told how to go on, a session that comes to rest does so where an observer comes to a halt. -/
theorem Stands.resume {reason : PauseReason} (stands : Stands o config s (.paused reason) now v)
    (r : Resumption) (millis : List Nat) (rest : (s.resume r millis).AtRest) :
    ∃ told how last, (o.setOut now).Ends (.turn (r.watch now.depth) now) told how last ∧
      Stands o config (s.resume r millis) how last ((v.pause reason).hearAll told) := by
  obtain ⟨ready, still, stage⟩ := stands
  have lasting := sight_lasting asm typed compact config
  cases stage.turned ((o.lineAt? now.pc).map fun r => (r.start, r.stop)) with
  | paused _ attached scene state stepless voice =>
    obtain ⟨_, k, sound, resting, _⟩ := ready.still state
    cases sound.attached.symm.trans attached
    have reached : ∃ calm, Reached (o.setOut now) (.turn (r.watch now.depth) now) s.voice calm
        (0 + millis.length) (s.resume r millis) := by
      cases r with
      | «continue» =>
        exact ⟨_, Reached.pumps (o := o.setOut now) asm typed compact
          (Scene.continues (o := o.setOut now) scene asm typed compact sound resting stepless state)
          (continue_ready lasting ready) millis⟩
      | step kind =>
        exact ⟨_, Reached.pumps (o := o.setOut now) asm typed compact
          (Scene.steps (o := o.setOut now) scene asm typed compact sound resting stepless state kind rfl)
          (step_ready lasting ready kind) millis⟩
    have after : Ready (o.program.sight config) (s.resume r millis) none := by
      refine pumps_ready lasting ?_ millis
      cases r with
      | «continue» => exact continue_ready lasting ready
      | step kind => exact step_ready lasting ready kind
    obtain ⟨_, reached⟩ := reached
    cases reached with
    | on leads there =>
      obtain ⟨how, last, rfl, _⟩ := there.rests after rest.1
      rw [voice] at there
      exact ⟨_, how, last, ⟨_, leads⟩, after, rest, there.turned o.origin⟩
    | unfinished state => exact absurd state rest.2

end Step

section Course

/-- What an observer comes to who is told how to go on at each pause. At the end of a program nothing more
comes of it. -/
inductive Course (o : Observer) : Halt → Moment → Voice → List Resumption → Halt → Moment → Voice → Prop
  | rest (how : Halt) (now : Moment) (v : Voice) : Course o how now v [] how now v
  | next {reason : PauseReason} {now then_ last : Moment} {v v' : Voice} {r : Resumption}
      {rs : List Resumption} {told : List Event} {how how' : Halt} :
      (o.setOut now).Ends (.turn (r.watch now.depth) now) told how then_ →
      Course o how then_ ((v.pause reason).hearAll told) rs how' last v' →
      Course o (.paused reason) now v (r :: rs) how' last v'
  | ended {how how' : Halt} {now last : Moment} {v v' : Voice} {r : Resumption} {rs : List Resumption} :
      (∀ reason, how ≠ .paused reason) → Course o how now v rs how' last v' →
      Course o how now v (r :: rs) how' last v'

/-- There is only one course. -/
theorem Course.unique {script : List Resumption} {how₁ how₂ : Halt} {last₁ last₂ : Moment} {v₁ v₂ : Voice}
    (first : Course o how now v script how₁ last₁ v₁) (second : Course o how now v script how₂ last₂ v₂) :
    how₁ = how₂ ∧ last₁ = last₂ ∧ v₁ = v₂ := by
  induction first with
  | rest =>
    cases second
    exact ⟨rfl, rfl, rfl⟩
  | next ends _ ih =>
    cases second with
    | next also rest =>
      obtain ⟨rfl, rfl, rfl⟩ := ends.unique also
      exact ih rest
    | ended stays => exact absurd rfl (stays _)
  | ended stays _ ih =>
    cases second with
    | next => exact absurd rfl (stays _)
    | ended _ rest => exact ih rest

/-- So it is told each time, and looked at for so long. -/
def resumes (s : Session Machine) : List (Resumption × List Nat) → Session Machine
  | [] => s
  | (r, millis) :: script => (s.resume r millis).resumes script

/-- The session comes to rest each time. -/
def Rests (s : Session Machine) : List (Resumption × List Nat) → Prop
  | [] => s.AtRest
  | (r, millis) :: script => s.AtRest ∧ (s.resume r millis).Rests script

theorem Rests.here {script : List (Resumption × List Nat)} (rests : s.Rests script) : s.AtRest := by
  cases script with
  | nil => exact rests
  | cons => exact rests.1

/-- A program that has ended cannot be told to go on. -/
theorem Stands.ended (stands : Stands o config s how now v) (ended : ∀ reason, how ≠ .paused reason)
    (r : Resumption) (millis : List Nat) : s.resume r millis = s := by
  obtain ⟨view, _⟩ := stands.shows
  have unpaused : s.state.isPaused = false := by
    rw [view.state]
    cases how with
    | paused reason => exact absurd rfl (ended reason)
    | exited | fault => rfl
  have refused : s.perform r.action = s := by
    cases state : s.state with
    | paused => rw [state] at unpaused; cases unpaused
    | notStarted | running | exited =>
      cases r <;>
      · show ((requirePaused _ >>= _ : Request Machine Unit) s).2 = s
        rw [Effect.bind_run, requirePaused_run, state]
  rw [Session.resume, refused, pumps_still stands.rest.1]

/-- A session that comes to rest each time follows the course of an observer. -/
theorem Stands.resumes (asm : Assembled p o.program rs) (typed : p.WellTyped) (compact : p.Compact)
    (script : List (Resumption × List Nat)) (stands : Stands o config s how now v)
    (rests : s.Rests script) : ∃ how' last v', Course o how now v (script.map (·.1)) how' last v' ∧
      Stands o config (s.resumes script) how' last v' := by
  induction script generalizing s how now v with
  | nil => exact ⟨how, now, v, .rest how now v, stands⟩
  | cons told script ih =>
    obtain ⟨r, millis⟩ := told
    obtain ⟨_, rests⟩ := rests
    by_cases paused : ∃ reason, how = .paused reason
    · obtain ⟨reason, rfl⟩ := paused
      obtain ⟨said, how, next, ends, after⟩ := stands.resume asm typed compact r millis rests.here
      obtain ⟨how', last, v', course, there⟩ := ih after rests
      exact ⟨how', last, v', .next ends course, there⟩
    · have ended : ∀ reason, how ≠ .paused reason := fun reason same => paused ⟨reason, same⟩
      have same := stands.ended ended r millis
      rw [same] at rests
      obtain ⟨how', last, v', course, there⟩ := ih stands rests
      exact ⟨how', last, v', .ended ended course, by rw [Session.resumes, same]; exact there⟩

end Course

section Two

variable {before before' : List Action} {millis millis' : List Nat}
  {script script' : List (Resumption × List Nat)}

/-- A program that has been started is where an observer comes to a halt when it is at rest. -/
theorem Begun.stands (asm : Assembled p e rs) (typed : p.WellTyped) (compact : p.Compact)
    (begun : Begun (e.entering config) s m) (program : o.program = e) (posted : Posted o s.breakpoints)
    (rest : (s.pumps millis).AtRest) : ∃ how now told, o.Ends (.come .nothing (.launch e)) told how now ∧
      Stands o config (s.pumps millis) how now (s.voice.hearAll told) := by
  subst program
  have stage := begun.stage rfl posted
  have ready := pumps_ready (sight_lasting asm typed compact config) begun.watched millis
  cases stage.pumps asm typed compact begun.watched millis with
  | on leads there =>
    obtain ⟨how, now, rfl, _⟩ := there.rests ready rest.1
    exact ⟨how, now, _, ⟨_, leads⟩, ready, rest, there⟩
  | unfinished state => exact absurd state rest.2

/-- A program is started with breakpoints, none of them on a trap of its own, and once more with others
of which the same are turned on. Told the same at each pause it says the same, and comes to rest at the
same moment. -/
theorem resumes_alike (built : p.assemble = .ok e) (typed : p.WellTyped) (compact : p.Compact)
    (config : Config) (request : LaunchRequest) (starts : Starts e request)
    (unstarted : ∀ request, .start request ∉ before) (unstarted' : ∀ request, .start request ∉ before') :
    let s := (after (e.host config) before).perform (.start request)
    let t := (after (e.host config) before').perform (.start request)
    s.Apart e → t.Apart e → (∀ a, (s.observer e 0).stops a = (t.observer e 0).stops a) →
      (s.pumps millis).Rests script → (t.pumps millis').Rests script' →
      script.map (·.1) = script'.map (·.1) →
      ∃ how last, ((s.pumps millis).resumes script).Shows how last ∧
        ((t.pumps millis').resumes script').Shows how last ∧
        ((t.pumps millis').resumes script').outbox = ((s.pumps millis).resumes script).outbox := by
  intro s t apart apart' same rests rests' told
  obtain ⟨rs, asm⟩ := assemble_ok built
  have begins {before : List Action} (unstarted : ∀ request, .start request ∉ before) :
      ∃ m, Begun (e.entering config) ((after (e.host config) before).perform (.start request)) m ∧
        ((after (e.host config) before).perform (.start request)).voice = (.empty, []) := by
    have record := record_unstarted (e.host config) unstarted
    have idle : (after (e.host config) before).state = .notStarted := congrArg Record.state record
    have startable : (after (e.host config) before).Startable e config :=
      .after e config before (by rw [idle]; rfl)
    cases startable.start asm compact request with
    | refused not | unfinished not => exact absurd starts not
    | begun _ begun said =>
      rw [show (after (e.host config) before).outbox = [] from congrArg Record.events record] at said
      exact ⟨_, begun, said⟩
  obtain ⟨m, first, said⟩ := begins unstarted
  obtain ⟨n, second, also⟩ := begins unstarted'
  have posted : Posted (s.observer e 0) t.breakpoints :=
    ⟨fun a low => by rw [same a]; exact (posted_observer apart' 0).stops a low,
      (posted_observer apart' 0).apart⟩
  obtain ⟨how, now, heard, ends, one⟩ := Begun.stands (o := s.observer e 0) asm typed compact first rfl
    (posted_observer apart 0) rests.here
  obtain ⟨_, _, _, also_ends, other⟩ := Begun.stands (o := s.observer e 0) asm typed compact second rfl
    posted rests'.here
  obtain ⟨rfl, rfl, rfl⟩ := ends.unique also_ends
  rw [said] at one
  rw [also] at other
  obtain ⟨how, last, v, course, one⟩ :=
    Stands.resumes (o := s.observer e 0) asm typed compact script one rests
  obtain ⟨_, _, _, also_course, other⟩ :=
    Stands.resumes (o := s.observer e 0) asm typed compact script' other rests'
  rw [← told] at also_course
  obtain ⟨rfl, rfl, rfl⟩ := course.unique also_course
  obtain ⟨shown, voice⟩ := one.shows
  obtain ⟨also_shown, also_voice⟩ := other.shows
  exact ⟨_, _, shown, also_shown, congrArg Prod.snd (also_voice.trans voice.symm)⟩

end Two

section Run

variable {reason : PauseReason} {thread : ThreadId} {d d' : Due}

/-- What an observer may come to who does not wait for the end of a step. -/
def Plain (o : Observer) : Due → Prop
  | .turn w _ | .come w _ | .look w _ => w = .nothing
  | .done how m => (how = .paused .breakpoint → o.stops m.pc = true) ∧ how ≠ .paused .stepComplete

/-- The program itself knows of neither breakpoints nor steps. -/
theorem turn_halt {how : Halt} {last : Moment} (halts : now.turn = .halt how last) :
    how ≠ .paused .breakpoint ∧ how ≠ .paused .stepComplete := by
  rw [Moment.turn] at halts
  split at halts
  · cases halts
    simp
  · rcases done : execute now.machine with ⟨_ | _, y⟩ <;> rw [done] at halts
    · cases halts
      simp
    · rcases pending : y.pending with _ | ⟨e, _⟩ <;> dsimp only at halts <;> rw [pending] at halts
      · cases halts
      · cases e <;> cases halts <;> simp

theorem Plain.next (plain : Plain o d) : Plain o (o.next d).2 := by
  cases d with
  | done => exact plain
  | turn w m =>
    rw [Observer.next]
    cases turned : m.turn with
    | on => exact plain
    | halt how last =>
      obtain ⟨mark, complete⟩ := turn_halt turned
      exact ⟨fun same => absurd same mark, complete⟩
  | come w m =>
    rw [Observer.next]
    cases stops : o.stops m.pc with
    | true => exact ⟨fun _ => stops, by simp⟩
    | false => exact plain
  | look w m =>
    cases plain
    exact rfl

theorem Plain.leads {k : Nat} {told : List Event} (plain : Plain o d) (leads : o.Leads k d told d') :
    Plain o d' := by
  induction leads with
  | refl => exact plain
  | next _ _ ih => exact ih plain.next

/-- A run comes to rest where an observer does who sees every instruction: at the end, at a trap or fault
of the program's own, or where an instruction has led to a breakpoint. A breakpoint that it sets out from is
not among them. -/
theorem continue_concurs (built : p.assemble = .ok e) (typed : p.WellTyped) (compact : p.Compact)
    (reached : s.Reachable e config) (paused : s.state = .paused reason thread) (apart : s.Apart e) :
    ∃ now, s.Shows (.paused reason) now ∧ Lived e now.machine now.calls ∧
      ∀ millis, ((s.perform .continue).pumps millis).AtRest → ∃ how last,
        ((s.perform .continue).pumps millis).Concurs (s.observer e now.pc) (.turn .nothing now) s.voice
          how last ∧
        (how = .paused .breakpoint → (s.observer e now.pc).stops last.pc = true) ∧
          how ≠ .paused .stepComplete := by
  obtain ⟨rs, asm⟩ := assemble_ok built
  have lasting := sight_lasting asm typed compact config
  have ready := continue_ready lasting (reached.ready asm typed compact)
  obtain ⟨now, pause⟩ := reached.pause asm typed compact paused apart
  refine ⟨now, pause.view, pause.lived, fun millis rest => ?_⟩
  obtain ⟨how, last, concurs⟩ := (pause.continues millis).rests (pumps_ready lasting ready millis) rest
  obtain ⟨told, ⟨k, leads⟩, _⟩ := concurs.told
  have plain : Plain (s.observer e now.pc) (.done how last) :=
    Plain.leads (d := .turn .nothing now) rfl leads
  exact ⟨how, last, concurs, plain.1, plain.2⟩

end Run

end Session

end SourceDebugger
