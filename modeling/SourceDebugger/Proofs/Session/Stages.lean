import SourceDebugger.Proofs.Session.Accord
import SourceDebugger.Proofs.Session.Pursuit
/-!
A session and an observer. What a session is about to do and what an observer who sees every
instruction is about to do are two views of one program: the session's machine is the observer's with
traps laid over it, and what the program has told so far the session has said, or is about to say.
-/
namespace SourceDebugger.Session

open Machine Traps

/-- What a session has said: the line that it is at, and the events that nobody has collected. -/
abbrev Voice := LineBuffer × List DebuggerEvent

namespace Voice

/-- Output is said line by line; other notices are not said. -/
def hear (v : Voice) : Event → Voice
  | .output text => ((v.1.push text).2, v.2 ++ (v.1.push text).1.map .log)
  | _ => v

def hearAll (v : Voice) (told : List Event) : Voice := told.foldl hear v

def pause (v : Voice) (reason : PauseReason) : Voice := (v.1, v.2 ++ [.paused reason mainThread])

def exit (v : Voice) (code : Option Int) : Voice :=
  match v.1.flush with
  | some rest => (.empty, v.2 ++ [.log rest, .exited code])
  | none => (v.1, v.2 ++ [.exited code])

@[simp] theorem hearAll_nil (v : Voice) : v.hearAll [] = v := rfl

theorem hearAll_append (v : Voice) (told more : List Event) :
    v.hearAll (told ++ more) = (v.hearAll told).hearAll more := List.foldl_append

end Voice

def voice (s : Session Machine) : Voice := (s.output, s.outbox)

/-- Breakpoints stop the program where the observer stops, and none lies on a trap of the program's
own. -/
structure Posted (o : Observer) (bs : Breakpoints) : Prop where
  stops : ∀ a : UInt64, a.toNat < heapBase.toNat → (o.stops a = true ↔
    ∃ b ∈ bs.items, b.registered = true ∧ b.enabled = true ∧ b.address? = some a)
  apart : ∀ b ∈ bs.items, b.registered = true → ∀ a, b.address? = some a →
    o.program.instrAt? a ≠ some .break

/-- A session with its machine shows the program at a moment. -/
structure Scene (o : Observer) (s : Session Machine) (m : Machine) (now : Moment) : Prop where
  overlaid : s.traps.Over now.machine m
  lived : Lived o.program now.machine now.calls
  free : m.interruptRequested = false
  posted : Posted o s.breakpoints
  origin : ∀ q, s.stepper = some q → q.origin = o.origin

/-- What a running program tells besides its stops. Its own module has been told of before. -/
structure Remark (e : Executable) (event : Event) : Prop where
  notice : Notice e event
  other : ∀ path size, event ≠ .moduleLoaded path codeBase size

/-- A machine is about to execute an instruction, freely or in a step. -/
inductive Going (now : Moment) (w : Watch) (stepper : Option Stepper) : ResumeMode → Prop
  | on : Running now w stepper → Going now w stepper .continue
  | tread {q : Stepper} : stepper = some q → q.runningTo = none → Treads now w q →
      Going now w stepper (.step mainThread)

/-- A machine has executed an instruction, freely or in a step. -/
inductive Coming (now : Moment) (w : Watch) (stepper : Option Stepper) : ResumeMode → Prop
  | on : Reaching now w stepper → Coming now w stepper .continue
  | tread {q : Stepper} : stepper = some q → q.runningTo = none → q.kind ≠ .out → Heeds now w q →
      Coming now w stepper (.step mainThread)

theorem Going.split {now : Moment} {w : Watch} {stepper : Option Stepper} {mode : ResumeMode}
    (going : Going now w stepper mode) :
    mode = .continue ∧ Running now w stepper ∨ mode = .step mainThread ∧
      ∃ q, stepper = some q ∧ q.runningTo = none ∧ Treads now w q := by
  cases going with
  | on running => exact .inl ⟨rfl, running⟩
  | tread stepper aimless treads => exact .inr ⟨rfl, _, stepper, aimless, treads⟩

theorem Coming.split {now : Moment} {w : Watch} {stepper : Option Stepper} {mode : ResumeMode}
    (coming : Coming now w stepper mode) :
    mode = .continue ∧ Reaching now w stepper ∨ mode = .step mainThread ∧
      ∃ q, stepper = some q ∧ q.runningTo = none ∧ q.kind ≠ .out ∧ Heeds now w q := by
  cases coming with
  | on reaching => exact .inl ⟨rfl, reaching⟩
  | tread stepper aimless kind heeds => exact .inr ⟨rfl, _, stepper, aimless, kind, heeds⟩

theorem Treads.kind {now : Moment} {w : Watch} {q : Stepper} (treads : Treads now w q) :
    q.kind ≠ .out := by
  cases treads with
  | across kind | into kind | calling kind => rw [kind]; decide

/-- An instruction takes a machine on in its mode. -/
theorem Going.turn {p : Program} {e : Executable} {rs : List Routine} {now : Moment} {w : Watch}
    {stepper : Option Stepper} {mode : ResumeMode} {b : Bool} {y : Machine} (asm : Assembled p e rs)
    (going : Going now w stepper mode) (framed : Framed e rs heapBase.toNat now.machine now.calls)
    (done : execute now.machine = (.ok b, y)) : Coming (now.after y) w stepper mode := by
  cases going with
  | on running => exact .on (running.turn asm framed done)
  | tread stepper aimless treads => exact .tread stepper aimless treads.kind treads.turn

/-- How a machine that was resumed in a mode is left by an instruction that stops nothing. -/
inductive Carried (m : Machine) : ResumeMode → Prop
  | on : m.motion = .running → m.pending = [] → Carried m .continue
  | tread : m.motion = .stopped → m.pending = [.trap mainThread m.registers.pc .singleStep] →
      Carried m (.step mainThread)

/-- What is left to be done in a session, what is due for the observer, and what has been told. -/
inductive Stage (o : Observer) (s : Session Machine) : Option Move → Due → Voice → Prop
  | paused {m : Machine} {now : Moment} {v : Voice} (reason : PauseReason) :
      s.debuggee = some m → Scene o s m now → s.state = .paused reason mainThread →
      s.stepper = none → s.voice = v.pause reason →
      Stage o s none (.done (.paused reason) now) v
  | exited {m : Machine} {ts : Traps} {now : Moment} {v : Voice} (code : Int) :
      s.state = .exited (some code) none → s.departed.head? = some m →
      ts.Covering heapBase.toNat now.machine m → s.voice = v.exit (some code) →
      Stage o s none (.done (.exited code) now) v
  | faulted {m : Machine} {ts : Traps} {now : Moment} {v : Voice} (f : Fault) :
      s.state = .exited none (some f) → s.departed.head? = some m →
      ts.Covering heapBase.toNat now.machine m → s.voice = v.exit none →
      Stage o s none (.done (.fault f) now) v
  | starting {m : Machine} {now : Moment} {w : Watch} (mode : ResumeMode) :
      s.debuggee = some m → Scene o s m now → now.machine.pendingSignal = none →
      m.motion = modeMotion mode → m.pending = [] → s.traps.contains m.registers.pc = false →
      Going now w s.stepper mode → Stage o s none (.turn w now) s.voice
  | coming {m : Machine} {now : Moment} {w : Watch} (mode : ResumeMode) :
      s.debuggee = some m → Scene o s m now → now.machine.pendingSignal = none →
      Carried m mode → Coming now w s.stepper mode → Stage o s none (.come w now) s.voice
  | ended {m : Machine} {now : Moment} (code : Int) :
      s.debuggee = some m → s.traps.Covering heapBase.toNat now.machine { m with pending := [] } →
      m.motion = .exited → m.pending = [.exited code] → Stage o s none (.done (.exited code) now) s.voice
  | notice {m : Machine} {now : Moment} {w : Watch} {e : Event} (mode : ResumeMode) :
      s.debuggee = some m → Scene o s m now → now.machine.pendingSignal = none →
      Carried m mode → Coming now w s.stepper mode → Remark o.program e →
      Stage o s (some (.handle e)) (.come w now) (s.voice.hear e)
  | trapped {m : Machine} {now : Moment} :
      s.debuggee = some m → Scene o s m now → s.traps.contains (m.registers.pc - 1) = false →
      Stage o s (some (.handle (.trap mainThread m.registers.pc .software)))
        (.done (.paused .break) now) s.voice
  | hit {m : Machine} {now : Moment} {w : Watch} :
      s.debuggee = some m → now.pc = m.registers.pc - 1 →
      Scene o s (standing m (m.registers.pc - 1)) now → now.machine.pendingSignal = none →
      s.traps.contains (m.registers.pc - 1) = true → Reaching now w s.stepper →
      Stage o s (some (.handle (.trap mainThread m.registers.pc .software))) (.come w now) s.voice
  /-- The step runs to a trap of the program's own, deeper down. -/
  | again {m : Machine} {now : Moment} {w : Watch} :
      s.debuggee = some m → now.pc = m.registers.pc - 1 →
      Scene o s (standing m (m.registers.pc - 1)) now → now.machine.pendingSignal = none →
      s.traps.contains (m.registers.pc - 1) = true → Away now.calls w s.stepper →
      now.machine.executable.instrAt? now.pc = some .break →
      Stage o s (some (.handle (.trap mainThread m.registers.pc .software))) (.turn w now) s.voice
  | raised {m : Machine} {now : Moment} (number : Int) (description : String) :
      s.debuggee = some m → Scene o s m now →
      Stage o s (some (.handle (.signal mainThread number description)))
        (.done (.paused .exception) now) s.voice
  | single {m : Machine} {now : Moment} {w : Watch} {q : Stepper} :
      s.debuggee = some m → Scene o s m now → now.machine.pendingSignal = none →
      s.stepper = some q → q.runningTo = none → q.kind ≠ .out → Heeds now w q →
      Stage o s (some (.handle (.trap mainThread m.registers.pc .singleStep))) (.come w now) s.voice
  | exit {m : Machine} {now : Moment} (code : Int) :
      s.debuggee = some m → s.traps.Covering heapBase.toNat now.machine m →
      Stage o s (some (.handle (.exited code))) (.done (.exited code) now) s.voice
  | resume {m : Machine} {now : Moment} {w : Watch} {mode : ResumeMode} :
      s.debuggee = some m → Scene o s m now → Going now w s.stepper mode →
      Stage o s (some (.resume mainThread mode)) (.turn w now) s.voice
  | await {m : Machine} {now : Moment} {w : Watch} {mode : ResumeMode} :
      s.debuggee = some m → Scene o s m now → now.machine.pendingSignal = none →
      m.motion = .stepping → m.pending = [] → Going now w s.stepper mode →
      Stage o s (some (.await mainThread now.pc mode [])) (.turn w now) s.voice
  | awaited {m : Machine} {now : Moment} {w : Watch} {pc : UInt64} {mode : ResumeMode}
      {notices : List Event} :
      s.debuggee = some m → Scene o s m now → now.machine.pendingSignal = none →
      m.motion = .stopped → m.pending = [.trap mainThread m.registers.pc .singleStep] →
      Coming now w s.stepper mode → (∀ e ∈ notices, Remark o.program e) →
      Stage o s (some (.await mainThread pc mode notices)) (.come w now) (s.voice.hearAll notices)
  | awaitEnded {m : Machine} {now : Moment} {pc : UInt64} {mode : ResumeMode} (code : Int) :
      s.debuggee = some m → s.traps.Covering heapBase.toNat now.machine { m with pending := [] } →
      m.motion = .exited → m.pending = [.exited code] →
      Stage o s (some (.await mainThread pc mode [])) (.done (.exited code) now) s.voice
  | stepped {m : Machine} {now : Moment} {w : Watch} {q : Stepper} :
      s.debuggee = some m → Scene o s m now → now.machine.pendingSignal = none →
      s.stepper = some q → q.runningTo = none → q.kind ≠ .out → Heeds now w q →
      Stage o s (some (.stepped mainThread m.registers.pc)) (.come w now) s.voice
  | arrived {m : Machine} {now : Moment} {w : Watch} {q : Stepper} :
      s.debuggee = some m → Scene o s m now → s.stepper = some q → q.runningTo = none →
      Heeds now w q → Stage o s (some (.arrived mainThread)) (.look w now) s.voice
  | act {m : Machine} {now : Moment} {w : Watch} {q : Stepper} :
      s.debuggee = some m → Scene o s m now → s.stepper = some q → q.runningTo = none →
      Decides now w q → Stage o s (some (.act mainThread)) (.turn w now) s.voice
  | stepOut {m : Machine} {now : Moment} {q : Stepper} :
      s.debuggee = some m → Scene o s m now → s.stepper = some q → q.runningTo = none →
      q.kind = .out → q.pendingCall = none →
      Stage o s (some (.stepOut mainThread)) (.turn (.out now.depth) now) s.voice
  | runTo {m : Machine} {now : Moment} {w : Watch} {q : Stepper} {t : Target} :
      s.debuggee = some m → Scene o s m now → s.stepper = some q → q.runningTo = none →
      q.pendingCall = none → Inside now.calls w q t ∨ Leaving now w q t →
      Stage o s (some (.runTo mainThread t)) (.turn w now) s.voice

section Scene

variable {p : Program} {o : Observer} {rs : List Routine} {config : Config} {s : Session Machine}
  {m n : Machine} {now : Moment} {lifted : Option UInt64}

theorem Scene.framed (asm : Assembled p o.program rs) (typed : p.WellTyped) (compact : p.Compact)
    (scene : Scene o s m now) : Framed o.program rs heapBase.toNat now.machine now.calls :=
  scene.lived.framed asm typed compact

/-- A running program stands in its code. -/
theorem place_located (asm : Assembled p o.program rs) (compact : p.Compact) {x : Machine}
    {calls : List Activation} (framed : Framed o.program rs heapBase.toNat x calls) :
    x.locate x.registers.pc 1 = .ok x.place ∧ x.registers.pc.toNat < heapBase.toNat ∧
      ∃ i, x.executable.instrAt? x.registers.pc = some i := by
  obtain ⟨c, rest, r, k, high, f, rfl, seat⟩ := framed.seated
  obtain ⟨i, there, found, _⟩ := seat.instr asm framed.executable framed.code
  have inside := asm.offset_inside seat.known there
  have bounds := asm.bounds seat.known
  have long := (length_bounds i).1
  have below := code_below asm compact
  have base : codeBase.toNat = 0x400000 := rfl
  rw [Machine.place, seat.pc]
  refine ⟨locate_code inside.2.2 (by rw [framed.code]; omega) (by omega), by omega, ?_⟩
  rw [← seat.pc]
  exact ⟨i, found⟩

theorem Scene.pc (scene : Scene o s m now) : m.registers.pc = now.pc :=
  congrArg Registers.pc scene.overlaid.registers

theorem Scene.depth (scene : Scene o s m now) : 0 < now.depth :=
  List.length_pos_iff.mpr scene.lived.alive

/-- What the machine does is what the program does, unless a trap is in the way. -/
inductive Executed (s : Session Machine) (m : Machine) (now : Moment) :
    Except Fault Bool × Machine → Prop
  | trap {t : Trap} : s.traps.find? now.pc = some t → t.byte.inserted = true →
      Executed s m now (.ok true, m.trapped)
  | bare {r : Except Fault Bool} {y n : Machine} : execute now.machine = (r, y) →
      s.traps.Over y n → (∀ t, s.traps.find? now.pc = some t → t.byte.inserted = false) →
      n.pending = y.pending → n.motion = (if y.motion = .running then m.motion else y.motion) →
      n.interruptRequested = false → Executed s m now (r, n)

theorem Scene.executed (asm : Assembled p o.program rs) (typed : p.WellTyped) (compact : p.Compact)
    (sound : Sound (o.program.sight config) s m lifted) (scene : Scene o s m now)
    (quiet : m.pending = []) : Executed s m now (execute m) := by
  have framed := scene.framed asm typed compact
  have seated (a : UInt64) (present : s.traps.contains a = true) :
      Aside a ∧ ∃ s, m.locate a 1 = .ok s := by
    obtain ⟨t, found⟩ := contains_iff.mp present
    exact ⟨sound.site present, sound.seated.located a t found⟩
  rcases scene.overlaid.execute asm typed compact framed seated with
    ⟨t, found, inserted, stop⟩ | ⟨d, rfl, laid, free, same⟩
  · rw [stop]
    rw [scene.pc] at found
    exact .trap found inserted
  · have earlier : d.earlier = [] := (List.append_eq_nil_iff.mp quiet).1
    rw [same]
    rcases done : execute now.machine with ⟨r, y⟩
    rw [done] at laid
    refine .bare done ⟨d, rfl, laid⟩ ?_ ?_ ?_ scene.free
    · intro t found
      obtain ⟨located, _, i, there⟩ := place_located asm compact framed
      by_contra inserted
      rw [free t found (by simpa using inserted) located] at there
      cases there
    · show d.earlier ++ y.pending = y.pending
      rw [earlier, List.nil_append]
    · have calm : now.machine.motion = .running := by rw [← scene.lived.calm_eq]; rfl
      show (if y.motion = .running then d.motion else y.motion) =
        if y.motion = .running then (if now.machine.motion = .running then d.motion else _) else _
      rw [if_pos calm]

end Scene

end SourceDebugger.Session
