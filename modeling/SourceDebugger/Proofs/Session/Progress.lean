import SourceDebugger.Proofs.Session.Stages
/-!
A session and an observer proceed together. While the machine executes instructions the observer makes
the turns that belong to them; where no trap stands, none of them is a stop, and what the program tells
on the way is what the session will say.
-/
namespace SourceDebugger.Session

open Machine Traps Effect

variable {p : Program} {o : Observer} {rs : List Routine} {config : Config} {s t : Session Machine}
  {m n y : Machine} {now : Moment} {lifted : Option UInt64} {w : Watch} {b : Bool} {allowed : Prop}

section Breakpoints

variable {bs : Breakpoints} {ts : Traps} {target : Option UInt64} {a : UInt64}

/-- Breakpoints that are turned on are where the observer stops. -/
theorem Posted.stops_eq (posted : Posted o bs) (tidy : Tidy bs ts target)
    (low : a.toNat < heapBase.toNat) : o.stops a = bs.anyEnabled (ts.users a) := by
  rw [Bool.eq_iff_iff, posted.stops a low, Breakpoints.anyEnabled, List.any_eq_true]
  constructor
  · rintro ⟨b, member, registered, enabled, bound⟩
    obtain ⟨owners, owned, user⟩ := tidy.bound b member registered a bound
    refine ⟨b, member, ?_⟩
    obtain ⟨t, found, rfl⟩ := Option.map_eq_some_iff.mp owned
    simpa [registered, enabled, users, found] using user
  · rintro ⟨b, member, on⟩
    simp only [Bool.and_eq_true, List.contains_iff_mem] at on
    obtain ⟨⟨registered, enabled⟩, user⟩ := on
    cases found : ts.find? a with
    | none => simp [users, found] at user
    | some t =>
      have user : b.id ∈ t.users := by simpa [users, found] using user
      obtain ⟨c, there, same, _, bound⟩ :=
        tidy.users a (t.users, t.steps) (by simp [owners, found]) b.id user
      cases tidy.unique there member same
      exact ⟨b, member, registered, enabled, bound⟩

/-- No breakpoint lies on a trap of the program's own, so such a trap is only a step's. -/
theorem Posted.target_of_break (posted : Posted o bs) (tidy : Tidy bs ts target)
    (own : o.program.instrAt? a = some .break) (present : ts.contains a = true) :
    target = some a := by
  obtain ⟨t, found⟩ := contains_iff.mp present
  have owned : ts.owners a = some (t.users, t.steps) := by simp [owners, found]
  by_contra other
  rcases tidy.owned a _ owned with users | steps
  · obtain ⟨id, user⟩ := List.exists_mem_of_ne_nil _ users
    obtain ⟨b, member, _, registered, bound⟩ := tidy.users a _ owned id user
    exact posted.apart b member registered a bound own
  · rw [tidy.steps a _ owned, if_neg other] at steps
    exact absurd rfl steps

/-- Counting hits moves no breakpoint. -/
theorem Posted.count (posted : Posted o bs) (ids : List BreakpointId) : Posted o (bs.count ids) := by
  have each (f : Breakpoint → Prop) (same : ∀ b : Breakpoint, ∀ hits, f { b with hits } ↔ f b) :
      (∃ b ∈ (bs.count ids).items, f b) ↔ ∃ b ∈ bs.items, f b := by
    simp only [Breakpoints.count, List.mem_map, exists_exists_and_eq_and]
    refine exists_congr fun b => and_congr_right fun _ => ?_
    split
    · exact same b _
    · rfl
  constructor
  · intro a low
    rw [posted.stops a low]
    exact (each (fun b => b.registered = true ∧ b.enabled = true ∧ b.address? = some a)
      fun b hits => Iff.rfl).symm
  · intro b member registered a bound own
    obtain ⟨c, before, registered, bound⟩ :=
      (each (fun b => b.registered = true ∧ b.address? = some a) fun b hits => Iff.rfl).mp
        ⟨b, member, registered, bound⟩
    exact posted.apart c before registered a bound own

end Breakpoints

section Scenes

/-- Painting traps does not change what is shown. -/
theorem Scene.painted (scene : Scene o s m now) (paint : Repaint ⟨s.traps, m⟩ ⟨t.traps, n⟩)
    (posted : Posted o t.breakpoints) (origin : ∀ q, t.stepper = some q → q.origin = o.origin) :
    Scene o t n now where
  overlaid := scene.overlaid.paint paint
  lived := scene.lived
  free := (driven paint).2.2.1.trans scene.free
  posted := posted
  origin := origin

theorem Scene.congr (scene : Scene o s m now) (traps : t.traps = s.traps)
    (breakpoints : t.breakpoints = s.breakpoints) (stepper : t.stepper = s.stepper) :
    Scene o t m now where
  overlaid := traps ▸ scene.overlaid
  lived := scene.lived
  free := scene.free
  posted := breakpoints ▸ scene.posted
  origin := stepper ▸ scene.origin

/-- Nor does how the machine is driven. -/
theorem Scene.driven (scene : Scene o s m now) (pending : List Event) (motion : Motion) :
    Scene o s { m with pending, motion } now where
  overlaid := by
    have overlaid := scene.overlaid.driven pending motion m.interruptRequested
    rwa [scene.lived.calm_eq] at overlaid
  lived := scene.lived
  free := scene.free
  posted := scene.posted
  origin := scene.origin

end Scenes

section Instruction

/-- What the session's machine has come to by an instruction of the program, and the observer with it. -/
inductive Observed (o : Observer) (s : Session Machine) (m : Machine) (now : Moment) (y n : Machine) :
    Bool → Prop
  | quiet : n.pending = [] → n.motion = m.motion → now.turn = .on [] (now.after y) →
      y.pendingSignal = none → (∀ pending motion, Scene o s { n with pending, motion } (now.after y)) →
      Observed o s m now y n false
  | notice {e : Event} : n.pending = [e] → n.motion = m.motion → Remark o.program e →
      now.turn = .on [e] (now.after y) →
      y.pendingSignal = none → (∀ pending motion, Scene o s { n with pending, motion } (now.after y)) →
      Observed o s m now y n false
  | trap : n.pending = [.trap mainThread n.registers.pc .software] → n.motion = .stopped →
      now.machine.executable.instrAt? now.pc = some .break → n.registers.pc - 1 = now.pc →
      now.turn = .halt (.paused .break) (now.after y) →
      (∀ pending motion, Scene o s { n with pending, motion } (now.after y)) →
      Observed o s m now y n true
  | signal (number : Int) (description : String) :
      n.pending = [.signal mainThread number description] → n.motion = .stopped →
      now.turn = .halt (.paused .exception) (now.after y) →
      (∀ pending motion, Scene o s { n with pending, motion } (now.after y)) →
      Observed o s m now y n true
  | exit (code : Int) : n.pending = [.exited code] → n.motion = .exited →
      now.turn = .halt (.exited code) (now.after y) →
      (∀ pending motion, s.traps.Over (now.after y).machine { n with pending, motion }) →
      Observed o s m now y n true

theorem Scene.after (scene : Scene o s m now) (done : execute now.machine = (.ok b, y))
    (overlaid : s.traps.Over y n) (alive : follow now.machine now.calls ≠ [])
    (free : n.interruptRequested = false) (pending : List Event) (motion : Motion) :
    Scene o s { n with pending, motion } (now.after y) where
  overlaid := overlaid.driven pending motion n.interruptRequested
  lived := scene.lived.step done alive
  free := free
  posted := scene.posted
  origin := scene.origin

variable (asm : Assembled p o.program rs) (typed : p.WellTyped) (compact : p.Compact)

include asm typed compact

theorem Scene.low (scene : Scene o s m now) : now.pc.toNat < heapBase.toNat :=
  (place_located asm compact (scene.framed asm typed compact)).2.1

/-- Where no trap stands, an observer does not stop, and a run has not come to its end. -/
theorem Reaching.passes (scene : Scene o s m now) (held : Held s m none)
    (free : s.traps.contains now.pc = false) (reaching : Reaching now w s.stepper) :
    o.Leads 2 (.come w now) [] (.turn w now) ∧ Running now w s.stepper := by
  have quiet : o.stops now.pc = false := by
    rw [scene.posted.stops_eq held.tidy (scene.low asm typed compact), Breakpoints.anyEnabled,
      List.any_eq_false]
    intro b _
    have nowhere : s.traps.find? now.pc = none := by simpa [contains] using free
    simp [users, nowhere]
  generalize known : s.stepper = stepper at reaching ⊢
  cases reaching with
  | away away =>
    exact ⟨(Observer.leads_look quiet).trans (Observer.leads_go (away.asleep scene.depth)),
      .away away⟩
  | @back q t running pending back =>
    have aim : s.goal = some t := by rw [goal, known]; exact running
    obtain ⟨_, owned⟩ := held.tidy.target now.pc (by rw [aim, back.address]; rfl)
    obtain ⟨trap, found, _⟩ := Option.map_eq_some_iff.mp owned
    rw [contains_iff.mpr ⟨trap, found⟩] at free
    cases free

theorem Scene.observed (scene : Scene o s m now) (signal : now.machine.pendingSignal = none)
    (done : execute now.machine = (.ok b, y)) (overlaid : s.traps.Over y n)
    (pending : n.pending = y.pending)
    (motion : n.motion = if y.motion = .running then m.motion else y.motion)
    (free : n.interruptRequested = false) : Observed o s m now y n b := by
  have framed := scene.framed asm typed compact
  obtain ⟨_, _, i, found⟩ := place_located asm compact framed
  have reports := framed.reports asm found done
  have calm := scene.lived.calm_eq
  have none : now.machine.pending = [] := by rw [← calm]; rfl
  have running : now.machine.motion = .running := by rw [← calm]; rfl
  rw [none, List.nil_append] at reports
  have alive (going : y.motion ≠ .exited) : follow now.machine now.calls ≠ [] := by
    rcases framed.execute asm typed compact done with still | ⟨_, _, _, ended⟩
    · exact still.alive
    · exact absurd ended going
  have next (going : y.motion ≠ .exited) := scene.after done overlaid (alive going) free
  rcases execute_report done with ⟨rfl, trapped⟩ | report
  · have stopped : y.motion = .stopped := by rw [trapped]; rfl
    have one : y.pending = [.trap mainThread y.registers.pc .software] := by
      rw [trapped, Machine.trapped, none]
      rfl
    have own : i = .break := by
      rw [one] at reports
      exact Outline.reports_trap (reports ▸ List.mem_singleton_self _)
    rw [own] at found
    refine .trap (by rw [pending, one, overlaid.registers]) ?_ found ?_
      (Moment.turn_trap signal done one) (next (by rw [stopped]; decide))
    · rw [motion, stopped]
      rfl
    · rw [overlaid.registers, trapped]
      exact UInt64.add_sub_cancel now.pc 1
  · have going (same : y.motion = now.machine.motion) :
        y.motion ≠ .exited ∧ n.motion = m.motion := by
      rw [running] at same
      exact ⟨by rw [same]; decide, by rw [motion, if_pos same]⟩
    cases report with
    | nothing same kept =>
      exact .quiet (by rw [pending, same, none]) (going kept).2
        (Moment.turn_quiet signal done (by rw [same, none])) ((signal_kept done).trans signal)
        (next (going kept).1)
    | notice e known one kept =>
      rw [none, List.nil_append] at one
      obtain ⟨stop, exit⟩ := known.not_stop
      rw [framed.executable] at known
      refine .notice (by rw [pending, one]) (going kept).2 ⟨known, ?_⟩
        (Moment.turn_notice signal done one stop exit) ((signal_kept done).trans signal)
        (next (going kept).1)
      rintro path size rfl
      rw [one] at reports
      obtain ⟨index, l, there, same⟩ := Outline.reports_module (reports ▸ List.mem_singleton_self _)
      exact base_ne asm there same
    | signal number description one _ stopped =>
      rw [none, List.nil_append] at one
      exact .signal number description (by rw [pending, one]) (by rw [motion, stopped]; rfl)
        (Moment.turn_raised signal done one) (next (by rw [stopped]; decide))
    | exit code one ended =>
      rw [none, List.nil_append] at one
      exact .exit code (by rw [pending, one]) (by rw [motion, ended]; rfl)
        (Moment.turn_exit signal done one) fun pending motion =>
          overlaid.driven pending motion n.interruptRequested

/-- What an instruction comes to that the session's machine is to execute. -/
inductive Executes (o : Observer) (s : Session Machine) (m : Machine) (now : Moment) :
    Except Fault Bool × Machine → Prop
  | trap {t : Trap} : s.traps.find? now.pc = some t → t.byte.inserted = true →
      Executes o s m now (.ok true, m.trapped)
  | fault {f : Fault} {y n : Machine} : now.turn = .halt (.fault f) (now.after y) →
      (∀ t, s.traps.find? now.pc = some t → t.byte.inserted = false) →
      s.traps.Over (now.after y).machine n → Executes o s m now (.error f, n)
  | turn {b : Bool} {y n : Machine} : execute now.machine = (.ok b, y) →
      (∀ t, s.traps.find? now.pc = some t → t.byte.inserted = false) →
      Observed o s m now y n b → Executes o s m now (.ok b, n)

theorem Scene.executes (sound : Sound (o.program.sight config) s m lifted) (scene : Scene o s m now)
    (signal : now.machine.pendingSignal = none) (quiet : m.pending = []) :
    Executes o s m now (Machine.execute m) := by
  have executed := scene.executed asm typed compact sound quiet
  generalize Machine.execute m = result at executed
  cases executed with
  | trap found inserted => exact .trap found inserted
  | @bare r y n done overlaid bare pending motion free =>
    cases r with
    | error f =>
      exact .fault (Moment.turn_fault signal done) bare
        (overlaid.driven n.pending n.motion n.interruptRequested)
    | ok b =>
      exact .turn done bare (scene.observed asm typed compact signal done overlaid pending motion free)

end Instruction

section Proceed

/-- Nothing but a step outward is under way, and that only if it is allowed. -/
def Outward (allowed : Prop) (s : Session Machine) : Prop :=
  ∀ q, s.stepper = some q → allowed ∧ q.kind = .out

/-- An arrival has been reported that nobody has looked at yet. -/
def Owes : Option Move → Due → Prop
  | some (.handle (.trap ..)), .come .. => True
  | some (.stepped ..), .come .. => True
  | _, _ => False

/-- A run has come to a trap of the program's own again, where it is not to end. -/
def Loops : Option Move → Due → Prop
  | some (.handle _), .turn .. => True
  | _, _ => False

/-- How many moves are left at most, while nothing but a step outward is under way. -/
def rank : Option Move → Due → Nat
  | some (.handle _), .come .. => 9
  | some (.arrived _), _ => 8
  | some (.stepOut _), _ => 7
  | some (.runTo ..), _ => 6
  | some (.resume ..), _ => 5
  | some (.await ..), .turn .. => 4
  | some (.await ..), _ => 3
  | some _, _ => 2
  | none, _ => 0

/-- A look at the machine, or a move, while the observer goes on from some point. If something is owed,
the observer makes a step or still owes it; in calm there are fewer moves left. -/
inductive Proceeds (allowed : Prop) (o : Observer) (d : Due) (v : Voice) (owed calm : Prop)
    (limit : Nat) :
    Except Fault (Option Move) × Session Machine → Prop
  | on {t : Session Machine} {next : Option Move} {k : Nat} {told : List Event} {d' : Due} :
      o.Leads k d told d' → Stage o t next d' (v.hearAll told) → (owed → 1 ≤ k ∨ Owes next d') →
      (calm → t.Outward allowed ∧ rank next d' < limit) → Proceeds allowed o d v owed calm limit (.ok next, t)
  | fault {t : Session Machine} {n : Machine} {k : Nat} {f : Fault} {told : List Event}
      {now : Moment} : o.Leads k d told (.done (.fault f) now) → t.debuggee = some n →
      t.traps.Covering heapBase.toNat now.machine n → t.voice = v.hearAll told →
      Proceeds allowed o d v owed calm limit (.error f, t)

end Proceed

section Courses

/-- A free run and an observer, who either waits for an instruction or has seen it. -/
inductive Ahead (s : Session Machine) (now : Moment) (w : Watch) : Due → Prop
  | come : Reaching now w s.stepper → Ahead s now w (.come w now)
  | turn : Running now w s.stepper → s.traps.contains now.pc = false → Ahead s now w (.turn w now)

/-- A machine that runs freely. -/
structure Coursing (o : Observer) (config : Config) (s : Session Machine) (m : Machine)
    (now : Moment) (w : Watch) (d : Due) : Prop where
  sound : Sound (o.program.sight config) s m none
  scene : Scene o s m now
  signal : now.machine.pendingSignal = none
  motion : m.motion = .running
  quiet : m.pending = []
  ahead : Ahead s now w d

variable (asm : Assembled p o.program rs) (typed : p.WellTyped) (compact : p.Compact)

include asm typed compact

/-- Where no trap stands, the instruction is due. -/
theorem Coursing.free {d : Due} (course : Coursing o config s m now w d)
    (bare : ∀ t, s.traps.find? now.pc = some t → t.byte.inserted = false) :
    ∃ k, o.Leads k d [] (.turn w now) ∧ Running now w s.stepper := by
  have free : s.traps.contains now.pc = false := by
    by_contra present
    obtain ⟨t, found⟩ := contains_iff.mp (by simpa using present)
    have inserted := course.sound.seated.inserted now.pc t found
    rw [bare t found] at inserted
    cases inserted
  have ahead := course.ahead
  cases ahead with
  | come reaching =>
    obtain ⟨leads, running⟩ :=
      reaching.passes asm typed compact course.scene course.sound.toHeld free
    exact ⟨2, leads, running⟩
  | turn running => exact ⟨0, .refl _, running⟩

/-- While a machine executes instructions that report nothing, the observer turns as often. -/
theorem Coursing.follows {d : Due} {k : Nat} (course : Coursing o config s m now w d)
    (quiet : Quiet k m n) :
    ∃ j d' next, k ≤ j ∧ o.Leads j d [] d' ∧
      Coursing o config { s with debuggee := some n } n next w d' ∧
        (k = 0 ∧ next = now ∧ d' = d ∨ d' = .come w next) := by
  induction quiet generalizing s now d with
  | refl m =>
    refine ⟨0, d, now, Nat.le_refl 0, .refl d, ?_, .inl ⟨rfl, rfl, rfl⟩⟩
    rw [with_debuggee course.sound.attached]
    exact course
  | @step k m n l done silent _ ih =>
    have executes := course.scene.executes asm typed compact course.sound course.signal course.quiet
    rw [done] at executes
    cases executes with
    | @turn _ y _ does bare observed =>
      obtain ⟨i, leads, running⟩ := course.free asm typed compact bare
      have framed := course.scene.framed asm typed compact
      have next := (course.sound.execute (sight_steady asm typed compact config) done
        (by simp [silent]) []).resolve_left (by rintro ⟨rfl, _⟩; simp [trapped] at silent)
      rw [show { n with pending := [] } = n by rw [← silent]] at next
      cases observed with
      | notice one => rw [silent] at one; cases one
      | quiet none motion turned signal scene =>
        have after : Coursing o config { s with debuggee := some n } n (now.after y) w
            (.come w (now.after y)) :=
          ⟨next, (scene n.pending n.motion).congr rfl rfl rfl, signal, motion.trans course.motion,
            silent, .come (running.turn asm framed does)⟩
        obtain ⟨j, d', last, long, more, course, here | there⟩ := ih after
        · obtain ⟨_, rfl, rfl⟩ := here
          exact ⟨i + 1 + j, _, _, by omega, (leads.trans (Observer.leads_on turned)).trans more,
            course, .inr rfl⟩
        · exact ⟨i + 1 + j, d', last, by omega, (leads.trans (Observer.leads_on turned)).trans more,
            course, .inr there⟩

omit asm typed compact in
/-- Traps stand aside of the memory that the program works with. -/
theorem covers {e : Executable} {x : Machine} (sound : Sound (e.sight config) s m lifted)
    (overlaid : s.traps.Over x n) : s.traps.Covering heapBase.toNat x n :=
  overlaid.covering fun _ present => sound.site present

/-- What a free run reports. -/
theorem Coursing.reports (allowed : Prop) {d : Due} {e : Event} {l : Machine}
    (course : Coursing o config s m now w d) (done : Machine.execute m = (.ok b, l))
    (one : l.pending = [e]) :
    Proceeds allowed o d s.voice True (s.Outward allowed) 10
      (.ok (some (.handle e)), { s with debuggee := some { l with pending := [] } }) := by
  have calm {d' : Due} : s.Outward allowed →
      Outward allowed { s with debuggee := some { l with pending := [] } } ∧
        rank (some (.handle e)) d' < 10 := by
    intro outward
    refine ⟨outward, ?_⟩
    cases d' <;> simp [rank]
  have executes := course.scene.executes asm typed compact course.sound course.signal course.quiet
  rw [done] at executes
  cases executes with
  | @trap t found inserted =>
    have present : s.traps.contains now.pc = true := contains_iff.mpr ⟨t, found⟩
    have none : m.pending = [] := course.quiet
    cases (by simpa [trapped, none] using one : Event.trap mainThread _ .software = e)
    have back : m.trapped.registers.pc - 1 = now.pc := by
      rw [← course.scene.pc]
      exact UInt64.add_sub_cancel m.registers.pc 1
    have ahead := course.ahead
    cases ahead with
    | turn _ free => rw [present] at free; cases free
    | come reaching =>
      refine .on (.refl _) (.hit (m := { m.trapped with pending := [] }) rfl back.symm ?_
        course.signal (show s.traps.contains (m.trapped.registers.pc - 1) = true by rwa [back])
        reaching) (fun _ => .inr trivial) calm
      have same : standing { m.trapped with pending := [] } (m.trapped.registers.pc - 1) =
          { m with pending := [], motion := .stopped } := by
        rw [back, ← course.scene.pc]
        rfl
      show Scene o _ (standing { m.trapped with pending := [] } (m.trapped.registers.pc - 1)) now
      rw [same]
      exact (course.scene.driven [] .stopped).congr rfl rfl rfl
  | @turn _ y _ does bare observed =>
    obtain ⟨k, leads, running⟩ := course.free asm typed compact bare
    have framed := course.scene.framed asm typed compact
    have free : s.traps.contains now.pc = false := by
      by_contra present
      obtain ⟨t, found⟩ := contains_iff.mp (by simpa using present)
      have inserted := course.sound.seated.inserted now.pc t found
      rw [bare t found] at inserted
      cases inserted
    cases observed with
    | quiet none => rw [none] at one; cases one
    | notice same motion remark turned signal scene =>
      cases one.symm.trans same
      exact .on (leads.trans (Observer.leads_on turned))
        (.notice .continue rfl ((scene [] l.motion).congr rfl rfl rfl) signal
          (.on (motion.trans course.motion) rfl) (.on (running.turn asm framed does)) remark)
        (fun _ => .inl (Nat.le_add_left 1 k)) calm
    | trap same motion own back turned scene =>
      cases one.symm.trans same
      exact .on (leads.trans (Observer.leads_halt turned))
        (.trapped (m := { l with pending := [] }) rfl ((scene [] l.motion).congr rfl rfl rfl)
          (show s.traps.contains (l.registers.pc - 1) = false by rwa [back]))
        (fun _ => .inl (Nat.le_add_left 1 k)) calm
    | signal number description same motion turned scene =>
      cases one.symm.trans same
      exact .on (leads.trans (Observer.leads_halt turned))
        (.raised number description rfl ((scene [] l.motion).congr rfl rfl rfl))
        (fun _ => .inl (Nat.le_add_left 1 k)) calm
    | exit code same motion turned overlaid =>
      cases one.symm.trans same
      have covering := covers course.sound (overlaid [] l.motion)
      exact .on (leads.trans (Observer.leads_halt turned)) (.exit code rfl covering)
        (fun _ => .inl (Nat.le_add_left 1 k)) calm

theorem Coursing.fails {d : Due} {f : Fault} {l : Machine}
    (course : Coursing o config s m now w d) (failed : Machine.execute m = (.error f, l))
    (allowed owed calm : Prop) (limit : Nat) :
    Proceeds allowed o d s.voice owed calm limit (.error f, { s with debuggee := some l }) := by
  have executes := course.scene.executes asm typed compact course.sound course.signal course.quiet
  rw [failed] at executes
  cases executes with
  | fault turned bare overlaid =>
    obtain ⟨k, leads, _⟩ := course.free asm typed compact bare
    have covering := covers course.sound overlaid
    exact .fault (leads.trans (Observer.leads_halt turned)) rfl covering rfl

end Courses

section Look

/-- What a look at the machine leaves to be done. -/
def sighted : Except Fault (Option Event) → Except Fault (Option Move)
  | .ok event => .ok (event.map .handle)
  | .error f => .error f

variable (asm : Assembled p o.program rs) (typed : p.WellTyped) (compact : p.Compact)

include asm typed compact

/-- A look at a machine that runs freely. -/
theorem Coursing.polls {d : Due} (course : Coursing o config s m now w d) :
    Proceeds allowed o d s.voice True (s.Outward allowed) 10
      (sighted (poll m).1, { s with debuggee := some (poll m).2 }) := by
  have polled := poll_running course.motion course.quiet
  have some : 0 < slice := by decide
  rcases looked : poll m with ⟨r, n⟩
  rw [looked] at polled
  generalize slice = most at polled some
  cases polled with
  | idle quiet =>
    obtain ⟨k, d', next, long, leads, course, here | rfl⟩ :=
      course.follows asm typed compact quiet
    · omega
    · have ahead := course.ahead
      cases ahead with
      | come reaching =>
        exact .on leads (.coming .continue rfl course.scene course.signal
          (.on course.motion course.quiet) (.on reaching)) (fun _ => .inl (by omega))
          fun outward => ⟨outward, Nat.zero_lt_succ 9⟩
  | @interrupt _ k n quiet requested =>
    obtain ⟨_, _, _, _, _, course, _⟩ := course.follows asm typed compact quiet
    rw [course.scene.free] at requested
    cases requested
  | @failure _ k n l f quiet free failed =>
    obtain ⟨_, _, _, _, leads, course, _⟩ := course.follows asm typed compact quiet
    have fails := course.fails asm typed compact failed allowed True (s.Outward allowed) 10
    cases fails with
    | fault more attached covering voice => exact .fault (leads.trans more) attached covering voice
  | @report _ k n l b e quiet free done one =>
    obtain ⟨_, _, _, _, leads, course, _⟩ := course.follows asm typed compact quiet
    have reports := course.reports asm typed compact allowed done one
    cases reports with
    | on more stage owed calm =>
      refine .on (leads.trans more) stage (fun _ => ?_) calm
      exact (owed trivial).imp (fun long => by omega) id

/-- A look at a machine that executes one instruction of a step. -/
theorem Treads.polls {q : Stepper} (treads : Treads now w q) (stepper : s.stepper = some q)
    (aimless : q.runningTo = none) (sound : Sound (o.program.sight config) s m none)
    (scene : Scene o s m now) (signal : now.machine.pendingSignal = none)
    (stepping : m.motion = .stepping) (quiet : m.pending = [])
    (free : s.traps.contains m.registers.pc = false) :
    Proceeds allowed o (.turn w now) s.voice True (s.Outward allowed) 10
      (sighted (poll m).1, { s with debuggee := some (poll m).2 }) := by
  have kind := treads.kind
  rw [scene.pc] at free
  have executes := scene.executes asm typed compact sound signal quiet
  have polled := poll_stepping stepping quiet
  rcases looked : poll m with ⟨r, n⟩
  rw [looked] at polled
  have calm {d' : Due} {e : Event} : s.Outward allowed →
      Outward allowed { s with debuggee := some n } ∧ rank (some (.handle e)) d' < 10 := by
    intro outward
    refine ⟨outward, ?_⟩
    cases d' <;> simp [rank]
  cases polled with
  | @failure l f failed =>
    rw [failed] at executes
    cases executes with
    | fault turned bare overlaid =>
      have covering := covers sound overlaid
      exact .fault (Observer.leads_halt turned) rfl covering rfl
  | @nothing l done silent =>
    rw [done] at executes
    cases executes with
    | turn does bare observed =>
      cases observed with
      | notice one => rw [silent] at one; cases one
      | quiet none motion turned signal scene =>
        exact .on (Observer.leads_on turned)
          (.single (m := l.rested []) rfl ((scene [] .stopped).congr rfl rfl rfl) signal stepper
            aimless kind treads.turn) (fun _ => .inl (Nat.le_refl 1)) calm
  | @notice l e done known one =>
    rw [done] at executes
    cases executes with
    | turn does bare observed =>
      cases observed with
      | quiet none => rw [none] at one; cases one
      | notice same motion remark turned signal scene =>
        cases one.symm.trans same
        exact .on (Observer.leads_on turned)
          (.notice (.step mainThread) rfl ((scene _ .stopped).congr rfl rfl rfl) signal
            (.tread rfl rfl) (.tread stepper aimless kind treads.turn) remark)
          (fun _ => .inl (Nat.le_refl 1)) calm
  | @stop l e done one =>
    rw [done] at executes
    cases executes with
    | trap found => rw [contains_iff.mpr ⟨_, found⟩] at free; cases free
    | turn does bare observed =>
      cases observed with
      | trap same motion own back turned scene =>
        cases one.symm.trans same
        exact .on (Observer.leads_halt turned)
          (.trapped (m := { l with pending := [] }) rfl ((scene [] l.motion).congr rfl rfl rfl)
            (show s.traps.contains (l.registers.pc - 1) = false by rwa [back]))
          (fun _ => .inl (Nat.le_refl 1)) calm
      | signal number description same motion turned scene =>
        cases one.symm.trans same
        exact .on (Observer.leads_halt turned)
          (.raised number description rfl ((scene [] l.motion).congr rfl rfl rfl))
          (fun _ => .inl (Nat.le_refl 1)) calm
      | exit code same motion turned overlaid =>
        cases one.symm.trans same
        have covering := covers sound (overlaid [] l.motion)
        exact .on (Observer.leads_halt turned) (.exit code rfl covering)
          (fun _ => .inl (Nat.le_refl 1)) calm

/-- A look at the machine of a session that runs. -/
theorem Stage.polls {d : Due} {v : Voice} (stage : Stage o s none d v)
    (sound : Sound (o.program.sight config) s m none) (running : s.state = .running) :
    Proceeds allowed o d v (∀ how last, d ≠ .done how last) (s.Outward allowed) 10
      (sighted (poll m).1, { s with debuggee := some (poll m).2 }) := by
  have only {n : Machine} (attached : s.debuggee = some n) : n = m :=
    Option.some.inj (attached.symm.trans sound.attached)
  have whole {d : Due} {v : Voice}
      (proceeds : Proceeds allowed o d v True (s.Outward allowed) 10
        (sighted (poll m).1, { s with debuggee := some (poll m).2 })) :
      Proceeds allowed o d v (∀ how last, d ≠ .done how last) (s.Outward allowed) 10
        (sighted (poll m).1, { s with debuggee := some (poll m).2 }) := by
    cases h : sighted (poll m).1 with
    | ok next =>
      rw [h] at proceeds
      cases proceeds with
      | on leads stage owed calm => exact .on leads stage (fun _ => owed trivial) calm
    | error f =>
      rw [h] at proceeds
      cases proceeds with
      | fault leads attached covering voice => exact .fault leads attached covering voice
  cases stage with
  | paused reason _ _ state => rw [running] at state; cases state
  | exited code state | faulted f state => rw [running] at state; cases state
  | starting mode attached scene signal motion quiet free going =>
    cases only attached
    rcases going.split with ⟨rfl, runs⟩ | ⟨rfl, q, stepper, aimless, treads⟩
    · rw [scene.pc] at free
      exact whole (Coursing.polls asm typed compact
        ⟨sound, scene, signal, motion, quiet, .turn runs free⟩)
    · exact whole (treads.polls asm typed compact stepper aimless sound scene signal motion quiet
        free)
  | coming mode attached scene signal carried coming =>
    cases only attached
    rcases coming.split with ⟨rfl, reaching⟩ | ⟨rfl, q, stepper, aimless, kind, heeds⟩
    · cases carried with
      | on motion quiet =>
        exact whole (Coursing.polls asm typed compact
          ⟨sound, scene, signal, motion, quiet, .come reaching⟩)
    · cases carried with
      | tread motion pending =>
        rw [poll_pending pending]
        exact .on (.refl _) (.single (m := { m with pending := [] }) rfl
          ((scene.driven [] m.motion).congr rfl rfl rfl) signal stepper aimless kind heeds)
          (fun _ => .inr trivial) fun outward => ⟨outward, Nat.lt_succ_self 9⟩
  | ended code attached covering exited pending =>
    cases only attached
    rw [poll_pending pending]
    exact .on (.refl _) (.exit code rfl covering) (fun going => absurd rfl (going _ _))
      fun outward => ⟨outward, by simp [rank]⟩

end Look

end SourceDebugger.Session
