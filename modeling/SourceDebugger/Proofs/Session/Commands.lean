import SourceDebugger.Proofs.Program.Backtrace
import SourceDebugger.Proofs.Session.Launch
import SourceDebugger.Proofs.Session.Sketch
/-!
Where the commands of a debugger lead. From any pause, a run and each kind of step come to rest where
an observer comes to a halt who sees every instruction.
-/
namespace SourceDebugger.Session

open Machine Traps Effect

variable {p : Program} {e : Executable} {o : Observer} {rs : List Routine} {config : Config}
  {s : Session Machine} {m : Machine} {now : Moment} {reason : PauseReason} {thread : ThreadId}

/-- A session that has come about by actions. -/
def Reachable (s : Session Machine) (e : Executable) (config : Config) : Prop :=
  ∃ actions, after (e.host config) actions = s

theorem Reachable.ready (asm : Assembled p e rs) (typed : p.WellTyped) (compact : p.Compact)
    (reached : s.Reachable e config) : Ready (e.sight config) s none := by
  obtain ⟨actions, rfl⟩ := reached
  exact ready_after asm typed compact config actions

theorem Reachable.perform (reached : s.Reachable e config) (action : Action) :
    (s.perform action).Reachable e config := by
  obtain ⟨actions, rfl⟩ := reached
  exact ⟨actions ++ [action], by rw [after, List.foldl_append]; rfl⟩

theorem Reachable.pumps (reached : s.Reachable e config) (millis : List Nat) :
    (s.pumps millis).Reachable e config := by
  obtain ⟨actions, rfl⟩ := reached
  refine ⟨actions ++ millis.map .pump, ?_⟩
  rw [after, List.foldl_append, List.foldl_map]
  rfl

/-- No breakpoint lies on a trap of the program's own. -/
def Apart (s : Session Machine) (e : Executable) : Prop :=
  ∀ b ∈ s.breakpoints.registered, ∀ a, b.address? = some a → e.instrAt? a ≠ some .break

/-- The one address that there may be is looked at, and not every address there is. -/
instance (o : Option UInt64) (P : UInt64 → Prop) [DecidablePred P] :
    Decidable (∀ a, o = some a → P a) :=
  match o with
  | none => isTrue nofun
  | some a => decidable_of_iff (P a) ⟨fun holds _ same => Option.some.inj same ▸ holds, fun all => all a rfl⟩

instance (s : Session Machine) (e : Executable) : Decidable (s.Apart e) :=
  inferInstanceAs (Decidable (∀ b ∈ s.breakpoints.registered, ∀ a, b.address? = some a → _ ≠ _))

/-- An observer who stops at the breakpoints of a session that are turned on, and whose step begins in
the statement at an address. -/
def observer (s : Session Machine) (e : Executable) (pc : UInt64) : Observer where
  program := e
  origin := (e.module.lineAt? pc).map fun r => (r.start, r.stop)
  stops a := s.breakpoints.registered.any fun b => b.enabled && b.address? == some a

theorem posted_observer (apart : s.Apart e) (pc : UInt64) :
    Posted (s.observer e pc) s.breakpoints where
  stops a _ := by
    simp only [observer, List.any_eq_true, Bool.and_eq_true, beq_iff_eq,
      Breakpoints.mem_registered, and_assoc]
  apart b member registered a bound :=
    apart b (Breakpoints.mem_registered.mpr ⟨member, registered⟩) a bound

theorem observer_stops {a : UInt64} (alone : s.breakpoints.registered.map
    (fun b => (b.enabled, b.address?)) = [(true, some a)]) (pc b : UInt64) :
    (s.observer e pc).stops b = (b == a) := by
  have each : (s.observer e pc).stops b = (s.breakpoints.registered.map
      (fun b => (b.enabled, b.address?))).any fun (on, place) => on && place == some b := by
    rw [List.any_map]
    rfl
  rw [each, alone, Bool.eq_iff_iff]
  simp only [List.any_cons, List.any_nil, Bool.or_false, Bool.true_and, beq_iff_eq,
    Option.some.injEq]
  exact eq_comm

/-- What a step waits for when so many functions are active. -/
def watchOf (n : Nat) : StepKind → Watch
  | .into => .into n
  | .over => .over n
  | .out => .out n

section Begin

variable (scene : Scene o s m now) (asm : Assembled p o.program rs) (typed : p.WellTyped)
  (compact : p.Compact) (sound : Sound (o.program.sight config) s m none) (rest : Resting m)
  (stepless : s.stepper = none) (paused : s.state = .paused reason mainThread)

include scene asm typed compact sound rest stepless paused

theorem Scene.continues :
    Reached o (.turn .nothing now) s.voice True 0 (s.perform .continue) := by
  have live : s.Live := .inr ⟨reason, paused⟩
  have ready : Ready (o.program.sight config) s (some (.resume mainThread .continue)) :=
    .resume sound rest live fun t h => by cases h
  have going : Going now .nothing s.stepper .continue := by
    rw [stepless]
    exact .on (.away (.alone (.inl rfl)))
  rw [perform, respond, continueExecution, bind_run, requirePaused_run, paused]
  exact Conducted.reached (settle_ready (sight_lasting asm typed compact config) ready) (.refl _)
    (Stage.settles asm typed compact ready (.resume sound.attached scene going)) (.inr (Nat.le_refl 0))
    fun _ => calm_of_stepless stepless

theorem Scene.steps (kind : StepKind)
    (origin : o.origin = (o.lineAt? now.pc).map fun r => (r.start, r.stop)) :
    Reached o (.turn (watchOf now.depth kind) now) s.voice (kind = .out ∧ ¬ Snagged o.program) 0
      (s.perform (.step kind)) := by
  obtain ⟨c, others, split, lowest, frame, own⟩ := scene.innermost asm typed compact sound
  have line : s.roster.lineAt? m.registers.pc = o.lineAt? now.pc := by
    rw [scene.overlaid.registers, Roster.lineAt?, show now.machine.registers.pc = now.pc from rfl, own]
    rfl
  have ready := begun_ready sound rest stepless (.inr ⟨reason, paused⟩) kind (o.lineAt? now.pc) c.top
  have begun : Scene o { s with stepper := some (.start kind mainThread (o.lineAt? now.pc) c.top) }
      m now :=
    ⟨scene.overlaid, scene.lived, scene.free, scene.posted, fun q same => by
      cases same
      exact origin.symm⟩
  have stage : Stage o { s with stepper := some (.start kind mainThread (o.lineAt? now.pc) c.top) }
      (some (if kind = .out then .stepOut mainThread else .act mainThread))
      (.turn (watchOf now.depth kind) now) s.voice := by
    cases kind with
    | into => exact .act sound.attached begun rfl rfl (.into rfl rfl rfl)
    | «over» =>
      refine .act sound.attached begun rfl rfl (.across rfl rfl rfl fun _ d member => ?_)
      rw [split] at member
      rcases List.mem_cons.mp member with rfl | outside
      · exact UInt64.le_refl _
      · exact lowest d outside
    | out => exact .stepOut sound.attached begun rfl rfl rfl rfl
  have run := beginStep_run sound.attached kind
  rw [line, frame] at run
  rw [perform, respond, step, bind_run, requirePaused_run, paused]
  dsimp only
  rw [guarded, run]
  exact Conducted.reached (settle_ready (sight_lasting asm typed compact config) ready) (.refl _)
    (Stage.settles asm typed compact ready stage) (.inr (Nat.le_refl 0))
    fun calm q known => by
      cases known
      exact ⟨calm.2, calm.1⟩

end Begin

section Rest

/-- A paused session shows the program between two instructions. -/
theorem Reachable.paused (asm : Assembled p e rs) (typed : p.WellTyped) (compact : p.Compact)
    (reached : s.Reachable e config) (paused : s.state = .paused reason thread) :
    ∃ (m : Machine) (now : Moment), Sound (e.sight config) s m none ∧ Resting m ∧ s.stepper = none ∧
      s.state = .paused reason mainThread ∧ s.traps.Over now.machine m ∧
        Lived e now.machine now.calls := by
  obtain ⟨rfl, m, sound, rest, stepless⟩ := (reached.ready asm typed compact).still paused
  obtain ⟨x, calls, overlaid, lived⟩ := sound.seen.2
  exact ⟨m, ⟨x, calls⟩, sound, rest, stepless, paused, overlaid, lived⟩

/-- What is shown at a pause, and where each command leads from there. -/
structure Pause (s : Session Machine) (e : Executable) (reason : PauseReason) (now : Moment) :
    Prop where
  apart : s.Apart e
  view : s.Shows (.paused reason) now
  lived : Lived e now.machine now.calls
  continues : ∀ millis, Reached (s.observer e now.pc) (.turn .nothing now) s.voice True millis.length
    ((s.perform .continue).pumps millis)
  steps : ∀ kind millis, Reached (s.observer e now.pc) (.turn (watchOf now.depth kind) now) s.voice
    (kind = .out ∧ ¬ Snagged e) millis.length ((s.perform (.step kind)).pumps millis)

theorem Scene.pause (asm : Assembled p o.program rs) (typed : p.WellTyped) (compact : p.Compact)
    (scene : Scene o s m now) (sound : Sound (o.program.sight config) s m none) (rest : Resting m)
    (stepless : s.stepper = none) (paused : s.state = .paused reason mainThread) :
    s.Pause o.program reason now := by
  have lasting := sight_lasting asm typed compact config
  have ready : Ready (o.program.sight config) s none := .paused sound rest stepless paused
  have apart : s.Apart o.program := fun b member a bound => by
    obtain ⟨there, registered⟩ := Breakpoints.mem_registered.mp member
    exact scene.posted.apart b there registered a bound
  have here : Scene (s.observer o.program now.pc) s m now :=
    ⟨scene.overlaid, scene.lived, rest.free, posted_observer apart now.pc, fun q known => by
      rw [stepless] at known
      cases known⟩
  refine ⟨apart, ⟨paused, m, s.traps, ?_, covers sound scene.overlaid⟩, scene.lived, fun millis => ?_,
    fun kind millis => ?_⟩
  · rw [sound.attached]
    rfl
  · rw [← Nat.zero_add millis.length]
    exact Reached.pumps (o := s.observer o.program now.pc) asm typed compact
      (here.continues asm typed compact sound rest stepless paused) (continue_ready lasting ready) millis
  · rw [← Nat.zero_add millis.length]
    exact Reached.pumps (o := s.observer o.program now.pc) asm typed compact
      (here.steps asm typed compact sound rest stepless paused kind rfl) (step_ready lasting ready kind)
      millis

theorem Reachable.pause (asm : Assembled p e rs) (typed : p.WellTyped) (compact : p.Compact)
    (reached : s.Reachable e config) (paused : s.state = .paused reason thread) (apart : s.Apart e) :
    ∃ now, s.Pause e reason now := by
  obtain ⟨m, now, sound, rest, stepless, paused, overlaid, lived⟩ :=
    reached.paused asm typed compact paused
  have scene : Scene (s.observer e now.pc) s m now :=
    ⟨overlaid, lived, rest.free, posted_observer apart now.pc, fun q known => by
      rw [stepless] at known
      cases known⟩
  exact ⟨now, scene.pause asm typed compact sound rest stepless paused⟩

/-- Where an observer comes to a pause, the session does, and from there it can be told to go on. -/
theorem Stage.pause (asm : Assembled p o.program rs) (typed : p.WellTyped) (compact : p.Compact)
    {v : Voice} (stage : Stage o s none (.done (.paused reason) now) v)
    (ready : Ready (o.program.sight config) s none) :
    s.Pause o.program reason now ∧ Posted o s.breakpoints := by
  cases stage with
  | paused reason attached scene state =>
    obtain ⟨_, k, sound, rest, stepless⟩ := ready.still state
    cases sound.attached.symm.trans attached
    exact ⟨scene.pause asm typed compact sound rest stepless state, scene.posted⟩

end Rest

section Sketches

theorem Shows.pc_eq {how : Halt} {m n : Moment} (one : s.Shows how m) (other : s.Shows how n) :
    m.pc = n.pc := by
  obtain ⟨k, _, here, _, rfl, _⟩ := one.machine
  obtain ⟨l, _, there, _, same, _⟩ := other.machine
  cases here.symm.trans there
  exact (congrArg (fun m : Machine => m.registers.pc) same : (_ : Machine).registers.pc = _)

/-- Where a sketch of a program that has been started comes to a pause, the session does. -/
theorem Begun.pauses (asm : Assembled p e rs) (typed : p.WellTyped) (compact : p.Compact)
    (begun : Begun (e.entering config) s m) (apart : s.Apart e)
    (entry : (s.observer e 0).stops e.entry = false) (most : Nat) {q : Outline}
    (sketched : (s.observer e 0).sketch most .nothing e.outset = some (.paused reason, q))
    (millis : List Nat) (long : 3 * most + 2 < millis.length) :
    ∃ now, (s.pumps millis).Pause e reason now ∧ now.outline = q ∧
      (reason = .breakpoint → now.Free e) ∧ ∀ pc a i, e.instrAt? a = some i →
        ((s.pumps millis).observer e pc).stops a = (s.observer e 0).stops a := by
  have stage : Stage (s.observer e 0) s none (.come .nothing (.launch e)) s.voice :=
    begun.stage rfl (posted_observer apart 0)
  have ready := pumps_ready (sight_lasting asm typed compact config) begun.watched millis
  obtain ⟨k, told, last, short, leads, outline, free⟩ :=
    Observer.leads_of_launch (o := s.observer e 0) asm typed compact most entry sketched
  have reached : Reached (s.observer e 0) (.come .nothing (.launch e)) s.voice (Calm (s.observer e 0) s)
      millis.length (s.pumps millis) :=
    Stage.pumps (o := s.observer e 0) asm typed compact begun.watched stage millis
  rcases reached.arrives ready leads (by omega) with ⟨_, stuck⟩ | ⟨_, stage⟩
  · exact absurd (calm_of_stepless begun.stepless) stuck
  · obtain ⟨pause, posted⟩ := stage.pause asm typed compact ready
    refine ⟨last, pause, outline, fun same => free (by rw [same]), fun pc a i found => ?_⟩
    have low := break_low (o := s.observer e 0) asm compact found
    have apart : Apart (s.pumps millis) e := fun b member a bound => by
      obtain ⟨there, registered⟩ := Breakpoints.mem_registered.mp member
      exact posted.apart b there registered a bound
    rw [Bool.eq_iff_iff, posted.stops a low]
    exact (posted_observer apart pc).stops a low

end Sketches

section Matching

variable {t u : Session Machine} {d d' d'' : Due} {v : Voice} {calm : Prop}

/-- Points from which an observer comes to the same halts. -/
def SameHalts (o : Observer) (d d' : Due) : Prop :=
  ∀ k told how last, o.Leads k d told (.done how last) ↔ o.Leads k d' told (.done how last)

theorem Concurs.congr {how : Halt} {last : Moment} (same : SameHalts o d d')
    (concurs : t.Concurs o d v how last) : t.Concurs o d' v how last := by
  obtain ⟨view, told, ⟨k, leads⟩, voice⟩ := concurs
  exact ⟨view, told, ⟨k, (same k told how last).mp leads⟩, voice⟩

/-- Where one session comes to rest another one does too if it is pumped long enough, unless it gives
up: both at the same halt of an observer, after having said the same. -/
def Matched (t u : Session Machine) (o : Observer) (d : Due) (v : Voice) (calm : Prop) : Prop :=
  ∀ millis, (t.pumps millis).AtRest → ∃ how last n, (t.pumps millis).Concurs o d v how last ∧
    ∀ more, n ≤ more.length → calm ∨ (u.pumps more).AtRest →
      (u.pumps more).Concurs o d v how last

theorem matched_of_reached {before : Prop} (first : SameHalts o d' d) (second : SameHalts o d'' d)
    (ready : Ready (o.program.sight config) t none) (also : Ready (o.program.sight config) u none)
    (lasting : (o.program.sight config).Lasting)
    (one : ∀ millis, Reached o d' v before millis.length (t.pumps millis))
    (other : ∀ millis, Reached o d'' v calm millis.length (u.pumps millis)) :
    Matched t u o d v calm := by
  intro millis rest
  obtain ⟨how, last, concurs⟩ := (one millis).rests (pumps_ready lasting ready millis) rest
  obtain ⟨told, ⟨k, leads⟩, _⟩ := concurs.told
  have ends := (second k told how last).mpr ((first k told how last).mp leads)
  exact ⟨how, last, k + 1, concurs.congr first, fun more long given =>
    ((other more).comes (pumps_ready lasting also more) given ends long).congr second⟩

end Matching

section Examples

/-- A session at a breakpoint on the first instruction of its program. -/
def errandPaused : Session Machine :=
  after (errandCode.host .standard)
    [.add (.address 0x400010), .start ⟨"/bin/errand", "/", []⟩, .pump 0]

theorem errandPaused_state : errandPaused.state = .paused .breakpoint mainThread := by
  decide +kernel

theorem errandPaused_apart : errandPaused.Apart errandCode := by decide +kernel

/-- A program with a statement of two calls. -/
def relay : Program where
  path := "/bin/relay"
  sourceFile := "relay.src"
  entry := "main"
  functions :=
    [⟨"main", [], [], some 1, some 4,
        [.of (some 2) [.call "first", .call "second"], .of (some 3) [.nop]]⟩,
      ⟨"first", [], [], some 11, some 13, [.of (some 12) [.nop]]⟩,
      ⟨"second", [], [], some 21, some 23, [.of (some 22) [.nop]]⟩]
  libraries := []

def relayCode : Executable := relay.assemble.toOption.getD default

theorem relay_built : relay.assemble = .ok relayCode := by rfl

def relayActions : List Action :=
  [.add (.address 0x400039), .start ⟨"/bin/relay", "/", []⟩]

/-- A session at a breakpoint on the last statement of the function that is called first. -/
def relayPaused : Session Machine :=
  (after (relayCode.host .standard) relayActions).pumps (List.replicate 40 0)

/-- The outline of the program there. -/
def relayOutline : Outline :=
  ⟨⟨0x400039, 0x7ffeffe0, 0x7ffeffe0⟩,
    [⟨0x400030, some 0x400015, 0x7ffefff0⟩, ⟨0x400010, none, 0x7fff0000⟩]⟩

/-- An observer of a step from there. -/
def relayObserver : Observer where
  program := relayCode
  origin := (relayCode.module.lineAt? 0x400039).map fun r => (r.start, r.stop)
  stops a := a == 0x400039

theorem relayPaused_reachable : relayPaused.Reachable relayCode .standard := by
  unfold relayPaused
  exact Reachable.pumps ⟨relayActions, rfl⟩ _

theorem relayPaused_pause : ∃ now, relayPaused.Pause relayCode .breakpoint now ∧
    now.outline = relayOutline ∧ now.Free relayCode ∧ ∀ most w q,
      (relayPaused.observer relayCode now.pc).sketch most w q = relayObserver.sketch most w q := by
  obtain ⟨rs, asm⟩ := assemble_ok relay_built
  have typed : relay.WellTyped := by decide
  have compact : relay.Compact := by decide +kernel
  have startable : Startable (after (relayCode.host .standard) [.add (.address 0x400039)]) relayCode
      .standard := .after relayCode .standard _ (by decide +kernel)
  have starts : Starts relayCode ⟨"/bin/relay", "/", []⟩ := by decide +kernel
  have started : Started _ relayCode .standard _ (after (relayCode.host .standard) relayActions) :=
    startable.start asm compact ⟨"/bin/relay", "/", []⟩
  cases started with
  | begun _ begun =>
    obtain ⟨now, pause, outline, free, stops⟩ := begun.pauses asm typed compact
      (by decide +kernel) (by decide +kernel) 10
      (show _ = some (Halt.paused .breakpoint, relayOutline) by decide +kernel) (List.replicate 40 0)
      (by decide)
    have pc : now.pc = 0x400039 := congrArg (fun q => q.registers.pc) outline
    unfold relayPaused
    refine ⟨now, pause, outline, free rfl, fun most w q => ?_⟩
    refine Observer.sketch_congr ?_ ?_ (fun a i found => ?_) most w q
    · rfl
    · rw [pc]
      rfl
    · have alone : (after (relayCode.host .standard) relayActions).breakpoints.registered.map
          (fun b => (b.enabled, b.address?)) = [(true, some 0x400039)] := by decide +kernel
      exact (stops now.pc a i found).trans (observer_stops alone 0 a)
  | refused not => exact absurd starts not
  | unfinished not => exact absurd starts not

end Examples

section Steps

variable (built : p.assemble = .ok e) (typed : p.WellTyped) (compact : p.Compact)
  (reached : s.Reachable e config) (paused : s.state = .paused reason thread) (apart : s.Apart e)

include built typed compact reached paused apart

/-- A step over calls comes to rest where an observer does who sees every instruction: at a breakpoint,
at the end, or at the start of another statement with no more functions active than at any time
since. -/
theorem stepOver_concurs : ∃ now, s.Shows (.paused reason) now ∧ Lived e now.machine now.calls ∧
    ∀ millis, ((s.perform (.step .over)).pumps millis).AtRest → ∃ how last,
      ((s.perform (.step .over)).pumps millis).Concurs (s.observer e now.pc)
        (.turn (.over now.depth) now) s.voice how last ∧
      (how = .paused .stepComplete →
        last.depth ≤ now.depth ∧ (s.observer e now.pc).begins last.pc = true) := by
  obtain ⟨rs, asm⟩ := assemble_ok built
  have lasting := sight_lasting asm typed compact config
  have ready := step_ready lasting (reached.ready asm typed compact) .over
  obtain ⟨now, pause⟩ := reached.pause asm typed compact paused apart
  refine ⟨now, pause.view, pause.lived, fun millis rest => ?_⟩
  obtain ⟨how, last, concurs⟩ :=
    (pause.steps .over millis).rests (pumps_ready lasting ready millis) rest
  refine ⟨how, last, concurs, ?_⟩
  rintro rfl
  obtain ⟨told, ⟨k, leads⟩, _⟩ := concurs.told
  exact Observer.over_complete leads

omit built typed compact reached paused apart in
theorem stepOver_concurs_errand : ∃ now, errandPaused.Shows (.paused .breakpoint) now ∧
    Lived errandCode now.machine now.calls ∧
    ∀ millis, ((errandPaused.perform (.step .over)).pumps millis).AtRest → ∃ how last,
      ((errandPaused.perform (.step .over)).pumps millis).Concurs
        (errandPaused.observer errandCode now.pc) (.turn (.over now.depth) now) errandPaused.voice
        how last ∧
      (how = .paused .stepComplete → last.depth ≤ now.depth ∧
        (errandPaused.observer errandCode now.pc).begins last.pc = true) :=
  stepOver_concurs errand_built (by decide) (by decide +kernel) ⟨_, rfl⟩ errandPaused_state
    errandPaused_apart

omit built typed compact reached paused apart in
/-- From the last statement of the first function that `main` calls in one statement, an observer who
only counts activations stops at the start of the second one. The step over calls does not: with
`main` as the innermost function it runs over calls. -/
theorem stepOver_not_within : relay.WellTyped ∧ ∃ now told last,
    relayPaused.Reachable relayCode .standard ∧ relayPaused.Apart relayCode ∧ relayPaused.Shows (.paused .breakpoint) now ∧
    Lived relayCode now.machine now.calls ∧
    (relayPaused.observer relayCode now.pc).Ends (.turn (.within now.depth) now) told
      (.paused .stepComplete) last ∧
    ∃ n, ∀ millis, n ≤ millis.length →
      ((relayPaused.perform (.step .over)).pumps millis).state ≠ .running ∧
        ¬ ((relayPaused.perform (.step .over)).pumps millis).Shows (.paused .stepComplete) last := by
  obtain ⟨rs, asm⟩ := assemble_ok relay_built
  have typed : relay.WellTyped := by decide
  have compact : relay.Compact := by decide +kernel
  obtain ⟨now, pause, outline, free, same⟩ := relayPaused_pause
  have depth : now.depth = 2 := congrArg (fun q => q.calls.length) outline
  have naive : (relayPaused.observer relayCode now.pc).sketch 20 (.within now.depth) now.outline =
      some (.paused .stepComplete, ⟨⟨0x400040, 0x7ffeffe8, 0x7ffefff0⟩,
        [⟨0x400040, some 0x40001a, 0x7ffefff0⟩, ⟨0x400010, none, 0x7fff0000⟩]⟩) := by
    rw [same, outline, depth]
    cbv
  have real : (relayPaused.observer relayCode now.pc).sketch 20 (.over now.depth) now.outline =
      some (.paused .stepComplete, ⟨⟨0x40001f, 0x7ffefff0, 0x7ffefff0⟩,
        [⟨0x400010, none, 0x7fff0000⟩]⟩) := by
    rw [same, outline, depth]
    cbv
  obtain ⟨_, told, last, _, naively, there, _⟩ := Observer.leads_of_sketch
    (o := relayPaused.observer relayCode now.pc) asm typed compact 20 free naive
  obtain ⟨k, _, stop, _, really, here, _⟩ := Observer.leads_of_sketch
    (o := relayPaused.observer relayCode now.pc) asm typed compact 20 free real
  have reached := relayPaused_reachable
  have apart : relayPaused.Apart relayCode := pause.apart
  refine ⟨typed, now, told, last, reached, apart, pause.view, pause.lived, ⟨_, naively⟩, k + 1,
    fun millis long => ?_⟩
  have ready := ((reached.perform (.step .over)).pumps millis).ready asm typed compact
  rcases (pause.steps .over millis).arrives ready really long with ⟨state, _⟩ | ⟨still, stage⟩
  · refine ⟨by rw [state]; simp, fun shows => ?_⟩
    cases state.symm.trans shows.state
  · refine ⟨still, fun shows => ?_⟩
    obtain ⟨_, _, same, view, _⟩ := stage.rests ready still
    cases same
    have pcs : stop.pc = last.pc := view.pc_eq shows
    rw [show stop.pc = 0x40001f from congrArg (fun q => q.registers.pc) here,
      show last.pc = 0x400040 from congrArg (fun q => q.registers.pc) there] at pcs
    exact absurd pcs (by decide)

end Steps

end SourceDebugger.Session
