import SourceDebugger.Proofs.Session.Advance
/-!
A session that runs its program beside an observer. However often a session is asked to look at its
program, it has come to where the observer comes to; and with every look the observer makes a step, so
that both come to a halt, or the session runs out of moves.
-/
namespace SourceDebugger.Session

open Machine Traps Effect

variable {p : Program} {o : Observer} {rs : List Routine} {config : Config} {s t : Session Machine}
  {m n : Machine} {now : Moment} {w : Watch} {d : Due} {v : Voice} {move : Option Move}

/-- Behind a call of the program there is a trap of its own. -/
def Snagged (e : Executable) : Prop :=
  ∃ a target, e.instrAt? a = some (.call target) ∧ e.instrAt? (a + 5) = some .break

/-- Nothing but a step outward is under way, and such a step finds no trap where it runs to. -/
abbrev Calm (o : Observer) (s : Session Machine) : Prop := s.Outward (¬ Snagged o.program)

section Drive

/-- Only a step that runs to a trap of the program's own meets it again and again. -/
theorem Stage.loops (asm : Assembled p o.program rs) (typed : p.WellTyped) (compact : p.Compact)
    (ready : Ready (o.program.sight config) s move) (stage : Stage o s move d v)
    (loops : Loops move d) : Snagged o.program ∧ s.stepper ≠ none := by
  cases stage with
  | again attached here scene signal present away own =>
    rcases ready_trap ready attached rfl with ⟨free, _⟩ | ⟨_, sound⟩
    · rw [present] at free
      cases free
    · have framed := scene.framed asm typed compact
      rw [framed.executable] at own
      rw [← here] at present
      have target := scene.posted.target_of_break sound.tidy own present
      change (s.stepper.bind (·.runningTo)).map (·.address) = some _ at target
      generalize s.stepper = stepper at away target
      cases away with
      | alone => cases target
      | inside running _ inside =>
        obtain ⟨inner, c, rest, a, split, site, rfl, _⟩ := inside.split
        obtain ⟨entry, call⟩ := framed.sites asm c (by rw [split]; simp) a site
        simp only [Option.bind_some, running, Option.map_some, Option.some.injEq] at target
        rw [← target] at own
        exact ⟨⟨a, entry, call, own⟩, by simp⟩
  | _ => exact absurd loops id

/-- What moves come to until none is left. -/
inductive Conducted (o : Observer) (d : Due) (v : Voice) (owed calm : Prop) :
    Except Fault Unit × Session Machine → Prop
  | rest {t : Session Machine} {k : Nat} {told : List Event} {d' : Due} :
      o.Leads k d told d' → Stage o t none d' (v.hearAll told) → (owed → 1 ≤ k) →
      (calm → Calm o t) → Conducted o d v owed calm (.ok (), t)
  | fault {t : Session Machine} {n : Machine} {k : Nat} {f : Fault} {told : List Event}
      {now : Moment} : o.Leads k d told (.done (.fault f) now) → t.debuggee = some n →
      t.traps.Covering heapBase.toNat now.machine n → t.voice = v.hearAll told →
      Conducted o d v owed calm (.error f, t)
  | unfinished {t : Session Machine} : ¬ calm → Conducted o d v owed calm (.error .unfinished, t)

theorem Stage.drives (asm : Assembled p o.program rs) (typed : p.WellTyped) (compact : p.Compact)
    (ready : Ready (o.program.sight config) s move) (stage : Stage o s move d v) (most : Nat) :
    Conducted o d v (Owes move d) (Calm o s ∧ rank move d ≤ most) (drive most move s) := by
  induction most generalizing s move d v with
  | zero =>
    cases move with
    | none => exact .rest (.refl d) stage False.elim And.left
    | some move =>
      refine .unfinished fun calm => ?_
      have some : 0 < rank (Option.some move) d := by
        cases move <;> cases d <;> exact Nat.succ_pos _
      exact absurd calm.2 (Nat.not_le.mpr some)
  | succ most ih =>
    cases move with
    | none => exact .rest (.refl d) stage False.elim And.left
    | some move =>
      have lasting := sight_lasting asm typed compact config
      have quiet (calm : Calm o s) : ¬ Loops (some move) d := fun loops => by
        obtain ⟨snagged, stepping⟩ := stage.loops asm typed compact ready loops
        obtain ⟨q, stepper⟩ := Option.ne_none_iff_exists'.mp stepping
        exact absurd snagged (calm q stepper).1
      have fares := advance_ready lasting ready
      have advances : Advances (¬ Snagged o.program) o s move d v :=
        stage.advances asm typed compact ready
      rw [Advances] at advances
      rw [drive, bind_run]
      rcases advanced : advance move s with ⟨f | next, t⟩ <;> rw [advanced] at fares advances
      · cases advances with
        | fault leads attached covering voice => exact .fault leads attached covering voice
      · cases advances with
        | on leads stage owed calm =>
          have rest := ih fares stage
          dsimp only
          generalize drive most next t = result at rest
          cases rest with
          | rest more stage owes still =>
            rw [← Voice.hearAll_append] at stage
            refine .rest (leads.trans more) stage (fun due => ?_) fun before => ?_
            · rcases owed due with long | due
              · omega
              · have := owes due
                omega
            · obtain ⟨outward, low⟩ := calm ⟨before.1, quiet before.1⟩
              exact still ⟨outward, by have := before.2; omega⟩
          | fault more attached covering voice =>
            rw [← Voice.hearAll_append] at voice
            exact .fault (leads.trans more) attached covering voice
          | unfinished stuck =>
            refine .unfinished fun before => stuck ?_
            obtain ⟨outward, low⟩ := calm ⟨before.1, quiet before.1⟩
            exact ⟨outward, by have := before.2; omega⟩

theorem Stage.settles (asm : Assembled p o.program rs) (typed : p.WellTyped) (compact : p.Compact)
    {move : Move} (ready : Ready (o.program.sight config) s (some move))
    (stage : Stage o s (some move) d v) :
    Conducted o d v (Owes (some move) d) (Calm o s) (settle move s) := by
  have few : rank (some move) d ≤ mostMoves + s.host.config.extraMoves := by
    have low : rank (some move) d ≤ 9 := by
      cases move <;> cases d <;> simp only [rank] <;> omega
    have many : 9 ≤ mostMoves := by decide
    omega
  have drives := stage.drives asm typed compact ready (mostMoves + s.host.config.extraMoves)
  rw [settle, bind_ok (get_run s)]
  generalize drive _ _ s = result at drives
  cases drives with
  | rest leads stage owes calm => exact .rest leads stage owes fun still => calm ⟨still, few⟩
  | fault leads attached covering voice => exact .fault leads attached covering voice
  | unfinished stuck => exact .unfinished fun still => stuck ⟨still, few⟩

end Drive

section Pump

/-- Where a session has got to beside an observer, in at least so many steps unless it has come to rest. -/
inductive Reached (o : Observer) (d : Due) (v : Voice) (calm : Prop) (steps : Nat)
    (t : Session Machine) : Prop
  | on {k : Nat} {told : List Event} {d' : Due} : o.Leads k d told d' →
      Stage o t none d' (v.hearAll told) → (t.state = .running → steps ≤ k) →
      (calm → Calm o t) → Reached o d v calm steps t
  | unfinished : t.state = .exited none (some .unfinished) → ¬ calm → Reached o d v calm steps t

/-- A session at rest is left alone. -/
theorem Reached.trans {calm : Prop} {k j : Nat} {u : Session Machine} (first : Reached o d v calm k t)
    (stays : t.state ≠ .running → u = t)
    (second : ∀ {d' : Due} {v' : Voice}, Stage o t none d' v' → Reached o d' v' (Calm o t) j u) :
    Reached o d v calm (k + j) u := by
  cases first with
  | on leads stage long still =>
    by_cases running : t.state = .running
    · cases second stage with
      | on more stage many calm =>
        rw [← Voice.hearAll_append] at stage
        exact .on (leads.trans more) stage
          (fun going => Nat.add_le_add (long running) (many going)) (calm ∘ still)
      | unfinished state stuck => exact .unfinished state (stuck ∘ still)
    · rw [stays running]
      exact .on leads stage (fun going => absurd going running) still
  | unfinished state stuck =>
    rw [stays (by rw [state]; simp)]
    exact .unfinished state stuck

/-- A fault ends the session. -/
theorem fail_faulted {f : Fault} (live : s.Live) (attached : s.debuggee = some m)
    (covering : s.traps.Covering heapBase.toNat now.machine m) (voice : s.voice = v) :
    Stage o (s.fail f) none (.done (.fault f) now) v ∧ (s.fail f).stepper = none ∧
      (s.fail f).state ≠ .running := by
  obtain ⟨state, departed, stepless, said⟩ := exit_parts attached none (some f)
  rw [fail, live.not_exited, if_neg (by simp)]
  exact ⟨.faulted f state departed covering (said.trans (congrArg (Voice.exit · none) voice)),
    stepless, by rw [state]; simp⟩

theorem fail_unfinished (live : s.Live) :
    (s.fail .unfinished).state = .exited none (some .unfinished) := by
  rw [fail, live.not_exited, if_neg (by simp), exit]
  cases s.output.flush <;> rfl

theorem calm_of_stepless (stepless : s.stepper = none) : Calm o s := by
  intro q known
  rw [stepless] at known
  cases known

/-- What moves come to, once a fault has ended the session. -/
theorem Conducted.reached {a : Change Machine Unit} {owed calm before : Prop} {k steps : Nat}
    {told : List Event} {d' : Due} (ends : Ends (o.program.sight config) (a s))
    (leads : o.Leads k d told d') (conducted : Conducted o d' (v.hearAll told) owed calm (a s))
    (enough : owed ∧ steps ≤ k + 1 ∨ steps ≤ k) (still : before → calm) :
    Reached o d v before steps (guarded a s).2 := by
  rw [guarded]
  generalize a s = result at ends conducted
  cases conducted with
  | rest more stage long after =>
    rw [← Voice.hearAll_append] at stage
    refine .on (leads.trans more) stage (fun _ => ?_) (after ∘ still)
    rcases enough with ⟨owes, short⟩ | short
    · have := long owes
      omega
    · omega
  | fault more attached covering voice =>
    rw [← Voice.hearAll_append] at voice
    obtain ⟨stage, stepless, rests⟩ := fail_faulted ends.2.1 attached covering voice
    exact .on (leads.trans more) stage (fun still => absurd still rests)
      fun _ => calm_of_stepless stepless
  | unfinished stuck => exact .unfinished (fail_unfinished ends.2.1) (stuck ∘ still)

/-- A session that runs though its program has come to a halt is to hear of the end. -/
theorem Stage.ended_of_done {how : Halt} (stage : Stage o s none (.done how now) v)
    (running : s.state = .running) : ∃ m code, s.debuggee = some m ∧
      s.traps.Covering heapBase.toNat now.machine { m with pending := [] } ∧
        m.pending = [.exited code] ∧ how = .exited code ∧ v = s.voice := by
  cases stage with
  | paused reason _ _ state => rw [running] at state; cases state
  | exited code state | faulted f state => rw [running] at state; cases state
  | ended code attached covering _ pending => exact ⟨_, code, attached, covering, pending, rfl, rfl⟩

section Look

variable (asm : Assembled p o.program rs) (typed : p.WellTyped) (compact : p.Compact)

include asm typed compact

/-- One more look is one more step at least. -/
theorem Stage.pumped (ready : Ready (o.program.sight config) s none) (stage : Stage o s none d v)
    (running : s.state = .running) (millis : Nat) :
    Reached o d v (Calm o s) 1 (s.perform (.pump millis)) := by
  have lasting := sight_lasting asm typed compact config
  obtain ⟨m, sound, moving⟩ := ready.on running
  have looked : access (Debuggee.poll millis) s =
      ((poll m).1, { s with debuggee := some (poll m).2 }) := access_run sound.attached _
  change Reached o d v (Calm o s) 1 (pump millis s).2
  rw [pump_run, if_pos running, looked]
  by_cases finished : ∃ how last, d = .done how last
  · obtain ⟨how, last, rfl⟩ := finished
    obtain ⟨n, code, attached, covering, pending, rfl, rfl⟩ := stage.ended_of_done running
    cases Option.some.inj (attached.symm.trans sound.attached)
    rw [poll_pending pending]
    dsimp only
    rw [settle_exit]
    obtain ⟨state, departed, stepless, voice⟩ := exit_parts
      (s := { s with debuggee := some { m with pending := [] } }) rfl (some code) none
    refine .on (.refl _) (.exited code state departed covering voice) (fun still => ?_)
      fun _ => calm_of_stepless stepless
    cases state.symm.trans still
  have sees := poll_ready lasting.toSteady sound running moving
  have polls : Proceeds (¬ Snagged o.program) o d v (∀ how last, d ≠ .done how last) (Calm o s) 10
      (sighted (poll m).1, { s with debuggee := some (poll m).2 }) :=
    stage.polls asm typed compact sound running
  have going : ∀ how last, d ≠ .done how last := fun how last same => finished ⟨how, last, same⟩
  rcases polled : poll m with ⟨f | event, n⟩ <;> rw [polled] at sees polls
  · cases polls with
    | fault leads attached covering voice =>
      obtain ⟨stage, stepless, ended⟩ := fail_faulted sees.2.1 attached covering voice
      exact .on leads stage (fun still => absurd still ended) fun _ => calm_of_stepless stepless
  · cases polls with
    | @on _ _ k _ d' leads stage owed calm =>
      cases event with
      | none =>
        have long : 1 ≤ k := (owed going).resolve_right id
        exact .on leads stage (fun _ => long) fun still => (calm still).1
      | some event =>
        have told : Ready (o.program.sight config) { s with debuggee := some n }
          (some (.handle event)) := sees
        have enough : Owes (some (.handle event)) d' ∧ 1 ≤ k + 1 ∨ 1 ≤ k :=
          (owed going).symm.imp (fun owes => ⟨owes, Nat.le_add_left 1 k⟩) id
        have reached : Reached o d v (Calm o s) 1
            (guarded (settle (.handle event)) { s with debuggee := some n }).2 :=
          (stage.settles asm typed compact told).reached (settle_ready lasting told) leads enough
            fun still => (calm still).1
        rw [guarded] at reached
        dsimp only
        rcases settled : settle (.handle event) { s with debuggee := some n } with ⟨_ | _, t⟩ <;>
          rw [settled] at reached <;> exact reached

/-- A session that is asked to look at its program again and again, waiting for so long each time. -/
def pumps (s : Session Machine) (millis : List Nat) : Session Machine :=
  millis.foldl (fun s n => s.perform (.pump n)) s

omit asm typed compact in
theorem pumps_still (still : s.state ≠ .running) (millis : List Nat) : s.pumps millis = s := by
  induction millis with
  | nil => rfl
  | cons n rest ih =>
    have none : s.perform (.pump n) = s := by
      change (pump n s).2 = s
      rw [pump_run, if_neg still]
    rw [pumps, List.foldl_cons, none]
    exact ih

omit asm typed compact in
theorem pumps_ready {sight : Sight} (lasting : sight.Lasting) (ready : Ready sight s none)
    (millis : List Nat) : Ready sight (s.pumps millis) none := by
  induction millis generalizing s with
  | nil => exact ready
  | cons n rest ih => exact ih (pump_ready lasting ready n)

/-- Every look is a step at least, for as long as the session runs. -/
theorem Stage.pumps (ready : Ready (o.program.sight config) s none) (stage : Stage o s none d v)
    (millis : List Nat) : Reached o d v (Calm o s) millis.length (s.pumps millis) := by
  induction millis generalizing s d v with
  | nil => exact .on (.refl d) stage (fun _ => Nat.zero_le _) id
  | cons n rest ih =>
    by_cases running : s.state = .running
    · have after := pump_ready (sight_lasting asm typed compact config) ready n
      rw [List.length_cons, Nat.add_comm]
      exact (stage.pumped asm typed compact ready running n).trans
        (fun still => pumps_still still rest) (ih after)
    · rw [pumps_still running]
      exact .on (.refl d) stage (fun still => absurd still running) id

theorem Reached.pumps {calm : Prop} {k : Nat} (reached : Reached o d v calm k t)
    (ready : Ready (o.program.sight config) t none) (millis : List Nat) :
    Reached o d v calm (k + millis.length) (t.pumps millis) :=
  reached.trans (fun still => pumps_still still millis) fun stage =>
    stage.pumps asm typed compact ready millis

end Look

section Rest

/-- The state in which a session comes to rest. -/
def haltState : Halt → RunState
  | .paused reason => .paused reason mainThread
  | .exited code => .exited (some code) none
  | .fault f => .exited none (some f)

/-- A halt is said, too. -/
def Voice.halt (v : Voice) : Halt → Voice
  | .paused reason => v.pause reason
  | .exited code => v.exit (some code)
  | .fault _ => v.exit none

/-- A session at rest shows the program at a moment: but for traps in its code the machine that it has,
or has had last, is the program's. -/
structure Shows (s : Session Machine) (how : Halt) (now : Moment) : Prop where
  state : s.state = haltState how
  machine : ∃ m ts, s.debuggee.or s.departed.head? = some m ∧
    Traps.Covering ts heapBase.toNat now.machine m

/-- Neither does the session run, nor has it given up. -/
def AtRest (s : Session Machine) : Prop :=
  s.state ≠ .running ∧ s.state ≠ .exited none (some .unfinished)

variable {how : Halt} {last : Moment} {told : List Event} {calm : Prop} {k steps : Nat}

/-- A session is at rest where an observer comes to a halt, and has said what the program told. -/
structure Concurs (s : Session Machine) (o : Observer) (d : Due) (v : Voice) (how : Halt)
    (last : Moment) : Prop where
  view : s.Shows how last
  told : ∃ told, o.Ends d told how last ∧ s.voice = (v.hearAll told).halt how

theorem Stage.rests (stage : Stage o s none d v) (ready : Ready (o.program.sight config) s none)
    (still : s.state ≠ .running) :
    ∃ how last, d = .done how last ∧ s.Shows how last ∧ s.voice = v.halt how := by
  have calm {m : Machine} (attached : s.debuggee = some m) : Resting m ∧ Sound (o.program.sight config) s m none := by
    cases ready with
    | idle detached => cases detached.gone.symm.trans attached
    | paused sound rest =>
      cases sound.attached.symm.trans attached
      exact ⟨rest, sound⟩
    | running _ running => exact absurd running still
  have gone (exited : s.state.isExited = true) : s.debuggee = none := by
    cases ready with
    | idle detached => exact detached.gone
    | paused _ _ _ paused => rw [paused] at exited; cases exited
    | running _ running => exact absurd running still
  cases stage with
  | paused reason attached scene state stepless voice =>
    refine ⟨_, _, rfl, ⟨state, _, _, by rw [attached]; rfl, covers (calm attached).2 scene.overlaid⟩, voice⟩
  | exited code state departed covering voice | faulted f state departed covering voice =>
    exact ⟨_, _, rfl, ⟨state, _, _, by rw [gone (by rw [state]; rfl)]; exact departed, covering⟩, voice⟩
  | starting mode attached _ _ motion =>
    have := (calm attached).1.motion.symm.trans motion
    cases mode <;> cases this
  | coming mode attached _ _ carried =>
    cases carried with
    | on motion => cases (calm attached).1.motion.symm.trans motion
    | tread _ pending => cases (calm attached).1.quiet.symm.trans pending
  | ended code attached _ motion => cases (calm attached).1.motion.symm.trans motion

/-- Where a session is at rest the observer has come to a halt. -/
theorem Reached.rests (reached : Reached o d v calm steps t)
    (ready : Ready (o.program.sight config) t none) (rest : t.AtRest) : ∃ how last, t.Concurs o d v how last := by
  cases reached with
  | on leads stage =>
    obtain ⟨how, last, rfl, view, voice⟩ := stage.rests ready rest.1
    exact ⟨how, last, view, _, ⟨_, leads⟩, voice⟩
  | unfinished state => exact absurd state rest.2

/-- When the observer has come to a halt, so has the session, unless it has given up. -/
theorem Reached.arrives (reached : Reached o d v calm steps t)
    (ready : Ready (o.program.sight config) t none) (ends : o.Leads k d told (.done how last))
    (long : k < steps) : t.state = .exited none (some .unfinished) ∧ ¬ calm ∨
      t.state ≠ .running ∧ Stage o t none (.done how last) (v.hearAll told) := by
  cases reached with
  | on leads stage many =>
    obtain ⟨rest, short, rfl, left⟩ := ends.split leads
    have rests : t.state ≠ .running := fun running => by
      have := many running
      omega
    obtain ⟨how', last', rfl, view, voice⟩ := stage.rests ready rests
    obtain ⟨_, rfl, same⟩ := left.of_done
    cases same
    rw [List.append_nil]
    exact .inr ⟨rests, stage⟩
  | unfinished state stuck => exact .inl ⟨state, stuck⟩

theorem Reached.comes (reached : Reached o d v calm steps t)
    (ready : Ready (o.program.sight config) t none) (still : calm ∨ t.AtRest)
    (ends : o.Leads k d told (.done how last)) (long : k < steps) : t.Concurs o d v how last := by
  rcases reached.arrives ready ends long with ⟨state, stuck⟩ | ⟨rests, stage⟩
  · exact absurd state (still.resolve_left stuck).2
  · obtain ⟨_, _, same, view, voice⟩ := stage.rests ready rests
    cases same
    exact ⟨view, told, ⟨k, ends⟩, voice⟩

end Rest

end Pump

end SourceDebugger.Session
