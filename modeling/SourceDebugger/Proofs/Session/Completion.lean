import SourceDebugger.Proofs.Session.Pursuit
import SourceDebugger.Proofs.Session.Watched
/-!
Where an observer finds a step complete. A property of the program between two instructions that each
instruction keeps holds wherever the step is complete; in this way it is found out which functions are
active there.
-/
namespace SourceDebugger.Machine

open Session

variable {p : Program} {o : Observer} {rs : List Routine} {m n now last : Moment} {w w' : Watch}
  {told : List Event} {d d' : Due} {k : Nat}

namespace Moment

/-- After most instructions the program goes on. -/
theorem turn_on (turned : m.turn = .on told n) : m.machine.pendingSignal = none ∧
    ∃ b y, execute m.machine = (.ok b, y) ∧ n = m.after y ∧ ∀ code, y.pending ≠ [.exited code] := by
  rw [turn] at turned
  cases signal : m.machine.pendingSignal with
  | some signal =>
    rw [signal] at turned
    cases turned
  | none =>
    rw [signal] at turned
    rcases done : execute m.machine with ⟨f | b, y⟩ <;> rw [done] at turned <;> dsimp only at turned
    · cases turned
    · refine ⟨rfl, b, y, rfl, ?_⟩
      rcases pending : y.pending with _ | ⟨e, rest⟩ <;> rw [pending] at turned
      · cases turned
        exact ⟨rfl, fun code same => by cases same⟩
      · cases e with
        | trap | signal | exited => cases turned
        | _ =>
          cases turned
          exact ⟨rfl, fun code same => by cases same⟩

/-- An instruction by itself stops a program only with a trap or a signal of its own. -/
theorem turn_paused {reason : PauseReason} (turned : m.turn = .halt (.paused reason) n) :
    reason = .break ∨ reason = .exception := by
  rw [turn] at turned
  split at turned
  · cases turned
  · generalize execute m.machine = done at turned
    obtain ⟨result, y⟩ := done
    dsimp only at turned
    split at turned <;> cases turned <;> simp

section Lived

variable (asm : Assembled p o.program rs) (typed : p.WellTyped) (compact : p.Compact)

include asm typed compact

/-- While the program goes on, a function of it is active. -/
theorem turn_lived (lived : Lived o.program m.machine m.calls) (turned : m.turn = .on told n) :
    Lived o.program n.machine n.calls := by
  obtain ⟨_, b, y, done, rfl, goes⟩ := turn_on turned
  refine lived.step done ?_
  rcases (lived.framed asm typed compact).execute asm typed compact done with
    framed | ⟨_, _, _, ended⟩
  · exact framed.alive
  · obtain ⟨code, exits⟩ := exited_report (lived.calm_eq ▸ rfl) done ended
    rw [← lived.calm_eq] at exits
    exact absurd exits (goes code)

/-- What becomes of the activations: a call leads to the beginning of its function, a return behind the
call. -/
inductive Follows (m n : Moment) : Prop
  | call (c : Activation) : n.calls = c :: m.calls → n.pc = c.entry → Follows m n
  | back (c : Activation) (rest : List Activation) (a : UInt64) : m.calls = c :: rest →
      n.calls = rest → c.site = some a → n.pc = a + 5 → n.machine.registers.sp = c.top → Follows m n
  | same : n.calls = m.calls → Follows m n

theorem turn_follows (lived : Lived o.program m.machine m.calls) (turned : m.turn = .on told n) :
    Follows m n := by
  have framed := lived.framed asm typed compact
  obtain ⟨_, b, y, done, rfl, goes⟩ := turn_on turned
  obtain ⟨c, rest, r, k, high, f, split, seat⟩ := framed.seated
  obtain ⟨i, _, found, own⟩ := seat.instr asm framed.executable framed.code
  have executed := execute_turned found own done
  rcases follow_cases m.machine m.calls with ⟨target, call, pushed⟩ | ⟨ret, popped⟩ | ⟨_, same⟩
  · refine .call _ pushed ?_
    cases call.symm.trans found
    cases executed with
    | call _ registers => exact congrArg Registers.pc registers
    | straight _ _ straight => cases straight
  · rw [split] at framed
    obtain ⟨pc, sp⟩ := landing asm framed ret done
    cases site : c.site with
    | some a =>
      rw [site] at pc
      exact .back c rest a split (by rw [after, popped, split]; rfl) site pc sp
    | none =>
      -- The first function returns nowhere: the program ends.
      rw [site] at pc
      cases ret.symm.trans found
      cases executed with
      | ret w _ registers last =>
        have zero : w = 0 := (congrArg Registers.pc registers).symm.trans pc
        obtain ⟨code, exits⟩ := exited_report (lived.calm_eq ▸ rfl) done (last zero)
        rw [← lived.calm_eq] at exits
        exact absurd exits (goes code)
      | straight _ _ straight => cases straight
  · exact .same same

end Lived

end Moment

namespace Observer

/-- What is known at a point of the course, if a property holds whenever an instruction is due. -/
def Holds (o : Observer) (P : Watch → Moment → Prop) : Due → Prop
  | .turn w m => P w m
  | .come w n | .look w n => ∃ m told, P w m ∧ m.turn = .on told n
  | .done (.paused .stepComplete) n =>
    ∃ w m told, P w m ∧ m.turn = .on told n ∧ o.watch w n = none
  | .done .. => True

/-- Kept by every instruction after which the step is not complete. -/
def Kept (o : Observer) (P : Watch → Moment → Prop) : Prop :=
  ∀ {w m told n w'}, P w m → m.turn = .on told n → o.watch w n = some w' → P w' n

variable {P : Watch → Moment → Prop}

theorem Holds.next (kept : o.Kept P) (holds : o.Holds P d) : o.Holds P (o.next d).2 := by
  cases d with
  | turn w m =>
    rw [Observer.next]
    rcases turned : m.turn with ⟨told, n⟩ | ⟨how, n⟩
    · exact ⟨m, told, holds, turned⟩
    · dsimp only
      unfold Holds
      split
      · rename_i same
        cases same
      · rename_i same
        cases same
      · rename_i same
        cases same
      · rename_i same
        cases same
        exact absurd (Moment.turn_paused turned) (by simp)
      · trivial
  | come w m =>
    rw [Observer.next]
    dsimp only
    split
    · trivial
    · exact holds
  | look w m =>
    obtain ⟨l, told, before, turned⟩ := holds
    rw [Observer.next]
    dsimp only
    split
    · exact ⟨w, l, told, before, turned, ‹_›⟩
    · exact kept before turned ‹_›
  | done how m => exact holds

/-- A property that every instruction keeps is kept on the whole course. -/
theorem Leads.holds (kept : o.Kept P) (leads : o.Leads k d told d') (holds : o.Holds P d) :
    o.Holds P d' := by
  induction leads with
  | refl => exact holds
  | next _ _ ih => exact ih (holds.next kept)

section Over

/-- A step over calls is complete at the start of another statement, and in no deeper function. -/
theorem over_complete
    (leads : o.Leads k (.turn (.over now.depth) now) told (.done (.paused .stepComplete) last)) :
    last.depth ≤ now.depth ∧ o.begins last.pc = true := by
  have kept : o.Kept fun w _ => ∃ least, w = .over least ∧ least ≤ now.depth := by
    rintro w m told n w' ⟨least, rfl, low⟩ _ goes
    rw [watch, judge] at goes
    split at goes
    · cases goes
      exact ⟨least, rfl, low⟩
    · split at goes <;> cases goes
      exact ⟨n.depth, rfl, by omega⟩
  obtain ⟨w, m, told, ⟨least, rfl, low⟩, _, stopped⟩ :=
    leads.holds kept ⟨now.depth, rfl, Nat.le_refl _⟩
  rw [watch, judge] at stopped
  split at stopped
  · cases stopped
  · split at stopped <;> cases stopped
    exact ⟨by omega, ‹_›⟩

end Over

section Into

variable {old calls rest : List Activation} {c : Activation}

/-- Apart from some of the old activations only functions with lines are active. -/
def Lined (o : Observer) (old calls : List Activation) : Prop :=
  ∃ inner base, calls = inner ++ base ∧ base <:+ old ∧ ∀ d ∈ inner, o.hasLines d.entry = true

theorem Lined.cons (lined : o.Lined old calls) (lines : o.hasLines c.entry = true) :
    o.Lined old (c :: calls) := by
  obtain ⟨inner, base, rfl, suffix, each⟩ := lined
  exact ⟨c :: inner, base, rfl, suffix, by simpa [lines] using each⟩

theorem Lined.tail (lined : o.Lined old (c :: rest)) : o.Lined old rest := by
  obtain ⟨inner, base, split, suffix, each⟩ := lined
  cases inner with
  | nil => exact ⟨[], rest, rfl, (List.suffix_cons c rest).trans (split ▸ suffix), by simp⟩
  | cons d inner =>
    obtain ⟨rfl, rfl⟩ := List.cons.inj split
    exact ⟨inner, base, rfl, suffix, fun d member => each d (List.mem_cons_of_mem _ member)⟩

/-- What a step into calls waits for, and what is active meanwhile. -/
inductive Into (o : Observer) (old : List Activation) (m : Moment) : Watch → Prop
  | into : o.Lined old m.calls → Into o old m (.into m.depth)
  | skipping (skipped rest : List Activation) : m.calls = skipped ++ rest → skipped ≠ [] →
      o.Lined old rest → Into o old m (.skipping rest.length)

/-- What a step into calls has come to. -/
def Entered (o : Observer) (old : List Activation) (n : Moment) : Option Watch → Prop
  | none => o.Lined old n.calls ∧ o.begins n.pc = true
  | some w => Into o old n w

theorem entered_of_lined (lined : o.Lined old n.calls) :
    Entered o old n (if o.begins n.pc then none else some (.into n.depth)) := by
  split
  · exact ⟨lined, ‹_›⟩
  · exact .into lined

theorem Into.turn (into : Into o old m w) (follows : m.Follows n) :
    Entered o old n (o.watch w n) := by
  cases into with
  | into lined =>
    have judged (lined : o.Lined old n.calls)
        (known : ¬ (m.depth < n.depth ∧ o.hasLines n.pc = false)) :
        Entered o old n (o.watch (.into m.depth) n) := by
      rw [watch, judge, if_neg known]
      exact entered_of_lined lined
    cases follows with
    | call c pushed entry =>
      by_cases lines : o.hasLines n.pc = true
      · exact judged (pushed ▸ lined.cons (entry ▸ lines)) (by simp [lines])
      · have deeper : m.depth < n.depth := by
          rw [Moment.depth, Moment.depth, pushed, List.length_cons]
          omega
        rw [watch, judge, if_pos ⟨deeper, by simpa using lines⟩]
        exact .skipping [c] m.calls pushed (by simp) lined
    | back c rest a split left =>
      rw [split] at lined
      refine judged (left ▸ lined.tail) fun deeper => ?_
      rw [Moment.depth, Moment.depth, split, left, List.length_cons] at deeper
      omega
    | same same =>
      refine judged (same ▸ lined) fun deeper => ?_
      rw [Moment.depth, Moment.depth, same] at deeper
      omega
  | skipping skipped rest split some lined =>
    have asleep (others : List Activation) (more : n.calls = others ++ rest) (some : others ≠ []) :
        Entered o old n (o.watch (.skipping rest.length) n) := by
      have := List.length_pos_iff.mpr some
      rw [watch, judge, if_pos (by rw [Moment.depth, more, List.length_append]; omega)]
      exact .skipping others rest more some lined
    cases follows with
    | call c pushed => exact asleep (c :: skipped) (by rw [pushed, split]; rfl) (by simp)
    | back c others a same left =>
      obtain ⟨d, skipped, rfl⟩ := List.exists_cons_of_ne_nil some
      obtain ⟨rfl, rfl⟩ := List.cons.inj (same.symm.trans split)
      by_cases last : skipped = []
      · replace left : n.calls = rest := by rw [left, last]; rfl
        rw [watch, judge, if_neg (by rw [Moment.depth, left]; omega)]
        exact entered_of_lined (left ▸ lined)
      · exact asleep skipped left last
    | same same => exact asleep skipped (same.trans split) some

end Into

section Out

variable {old : List Activation} {c : Activation}

/-- There is no line to the code behind the call of an activation. -/
def Rowless (o : Observer) (c : Activation) : Prop :=
  ∀ a, c.site = some a → o.lineAt? (a + 5) = none

/-- A step outward waits for one of the old activations to return, to which only calls without lines
lead back. -/
inductive Out (o : Observer) (old : List Activation) (m : Moment) : Watch → Prop
  | out (inner : List Activation) (c : Activation) (rest more : List Activation) :
      old = inner ++ c :: rest → m.calls = more ++ c :: rest → (∀ d ∈ inner, o.Rowless d) →
      Out o old m (.out (rest.length + 1))

/-- One of the old activations has just returned to code with lines; those that it had begun, to code
without. -/
structure Leaves (o : Observer) (old : List Activation) (n : Moment) (c : Activation) : Prop where
  split : ∃ inner, old = inner ++ c :: n.calls ∧ ∀ d ∈ inner, o.Rowless d
  back : c.site.map (· + 5) = some n.pc
  sp : n.machine.registers.sp = c.top
  row : (o.lineAt? n.pc).isSome = true

/-- What a step outward has come to. -/
def Left (o : Observer) (old : List Activation) (n : Moment) : Option Watch → Prop
  | none => ∃ c, Leaves o old n c
  | some w => Out o old n w

theorem Out.turn (out : Out o old m w) (follows : m.Follows n) (alive : n.calls ≠ []) :
    Left o old n (o.watch w n) := by
  obtain ⟨inner, c, rest, more, base, split, rowless⟩ := out
  have asleep (others : List Activation) (still : n.calls = others ++ c :: rest) :
      Left o old n (o.watch (.out (rest.length + 1)) n) := by
    rw [watch, judge, if_pos (by rw [Moment.depth, still, List.length_append, List.length_cons]; omega)]
    exact .out inner c rest others base still rowless
  cases follows with
  | call d pushed => exact asleep (d :: more) (by rw [pushed, split]; rfl)
  | same same => exact asleep more (same.trans split)
  | back d others a same left site pc sp =>
    cases more with
    | cons _ more =>
      obtain ⟨rfl, rfl⟩ := List.cons.inj (same.symm.trans split)
      exact asleep more left
    | nil =>
      obtain ⟨rfl, rfl⟩ := List.cons.inj (same.symm.trans split)
      rw [watch, judge, if_neg (by rw [Moment.depth, left]; omega)]
      split
      · exact ⟨d, ⟨inner, left ▸ base, rowless⟩, by rw [site, pc]; rfl, sp, ‹_›⟩
      · rename_i row
        obtain ⟨c', outer, next⟩ := List.exists_cons_of_ne_nil alive
        have same : Watch.out n.depth = .out (outer.length + 1) := by
          rw [Moment.depth, next, List.length_cons]
        rw [same]
        refine .out (inner ++ [d]) c' outer [] ?_ next fun f member => ?_
        · rw [base, ← left, next, List.append_assoc]
          rfl
        · rcases List.mem_append.mp member with inside | last
          · exact rowless f inside
          · cases List.mem_singleton.mp last
            intro b there
            cases site.symm.trans there
            rw [← pc]
            simpa using row

end Out

section Complete

variable (asm : Assembled p o.program rs) (typed : p.WellTyped) (compact : p.Compact)

include asm typed compact

theorem kept_into (old : List Activation) :
    o.Kept fun w m => Lived o.program m.machine m.calls ∧ Into o old m w := by
  rintro w m told n w' ⟨lived, into⟩ turned goes
  have entered := into.turn (Moment.turn_follows asm typed compact lived turned)
  rw [goes] at entered
  exact ⟨Moment.turn_lived asm typed compact lived turned, entered⟩

/-- A step into calls is complete at the start of another statement, and while no function without
lines is active that was called meanwhile. -/
theorem into_complete (lived : Lived o.program now.machine now.calls)
    (leads : o.Leads k (.turn (.into now.depth) now) told (.done (.paused .stepComplete) last)) :
    o.Lined now.calls last.calls ∧ o.begins last.pc = true := by
  have start : Into o now.calls now (.into now.depth) :=
    .into ⟨[], now.calls, rfl, List.suffix_rfl, by simp⟩
  obtain ⟨w, m, told, ⟨lived, into⟩, turned, stopped⟩ :=
    leads.holds (kept_into asm typed compact now.calls) ⟨lived, start⟩
  have entered := into.turn (Moment.turn_follows asm typed compact lived turned)
  rwa [stopped] at entered

theorem kept_out (old : List Activation) :
    o.Kept fun w m => Lived o.program m.machine m.calls ∧ Out o old m w := by
  rintro w m told n w' ⟨lived, out⟩ turned goes
  have after := Moment.turn_lived asm typed compact lived turned
  have left := out.turn (Moment.turn_follows asm typed compact lived turned) after.alive
  rw [goes] at left
  exact ⟨after, left⟩

/-- A step outward is complete when one of the activations has just returned. -/
theorem Out.leaves {old : List Activation} (lived : Lived o.program m.machine m.calls)
    (out : Out o old m w)
    (leads : o.Leads k (.turn w m) told (.done (.paused .stepComplete) last)) :
    ∃ c, Leaves o old last c := by
  obtain ⟨w, l, told, ⟨lived, out⟩, turned, stopped⟩ :=
    leads.holds (kept_out asm typed compact old) ⟨lived, out⟩
  have after := Moment.turn_lived asm typed compact lived turned
  have left := out.turn (Moment.turn_follows asm typed compact lived turned) after.alive
  rwa [stopped] at left

omit asm typed compact in
theorem out_start (lived : Lived o.program now.machine now.calls) :
    Out o now.calls now (.out now.depth) := by
  obtain ⟨c, rest, split⟩ := List.exists_cons_of_ne_nil lived.alive
  have same : Watch.out now.depth = .out (rest.length + 1) := by
    rw [Moment.depth, split, List.length_cons]
  rw [same]
  exact .out [] c rest [] split split (by simp)

/-- A step outward is complete at the first return of an activation to code with lines: it has been
active at every instruction before. -/
theorem out_complete (lived : Lived o.program now.machine now.calls)
    (leads : o.Leads k (.turn (.out now.depth) now) told (.done (.paused .stepComplete) last)) :
    ∃ c, Leaves o now.calls last c ∧ ∀ {j told' w m},
      o.Leads j (.turn (.out now.depth) now) told' (.turn w m) → c :: last.calls <:+ m.calls := by
  obtain ⟨c, leaves⟩ := Out.leaves asm typed compact lived (out_start lived) leads
  refine ⟨c, leaves, fun {j told' w m} first => ?_⟩
  obtain ⟨rest, _, _, second⟩ := leads.split first
  obtain ⟨lived, inner, d, outer, more, base, split, _⟩ :=
    first.holds (kept_out asm typed compact now.calls) ⟨lived, out_start lived⟩
  -- Seen from here, only the activations that are left count as old.
  have onward : Out o (d :: outer) _ (.out (outer.length + 1)) :=
    .out [] d outer more rfl split (by simp)
  obtain ⟨c', leaves'⟩ := onward.leaves asm typed compact lived second
  obtain ⟨inside, same, _⟩ := leaves'.split
  obtain ⟨passed, whole, _⟩ := leaves.split
  have joined : inner ++ inside ++ c' :: last.calls = passed ++ c :: last.calls := by
    rw [List.append_assoc, ← same, ← base, whole]
  have alike : c' = c :=
    (List.cons.inj (List.append_inj_right' joined rfl)).1
  exact ⟨more ++ inside, by rw [List.append_assoc, ← alike, ← same, split]⟩

end Complete

section Idle

/-- The same point for an observer who waits for nothing. -/
def idle : Due → Due
  | .turn _ m => .turn .nothing m
  | .come _ m => .come .nothing m
  | .look _ m => .look .nothing m
  | .done how m => .done how m

/-- While a watch is not over it makes no difference. -/
theorem next_idle (asleep : ∀ w m, d = .look w m → o.watch w m ≠ none) :
    o.next (idle d) = ((o.next d).1, idle (o.next d).2) := by
  cases d with
  | turn w m =>
    rw [idle, next, next]
    cases m.turn <;> rfl
  | come w m =>
    rw [idle, next, next]
    dsimp only
    split <;> rfl
  | look w m =>
    obtain ⟨w', goes⟩ := Option.ne_none_iff_exists'.mp (asleep w m rfl)
    rw [idle, next, next, goes]
    rfl
  | done how m => rfl

theorem leads_idle (kept : o.Kept P) (asleep : ∀ {w m told n}, P w m → m.turn = .on told n →
    o.watch w n ≠ none) (holds : o.Holds P d) {how : Halt} :
    o.Leads k d told (.done how last) ↔ o.Leads k (idle d) told (.done how last) := by
  induction k generalizing d told with
  | zero =>
    constructor
    · intro leads
      cases leads
      exact .refl _
    · intro leads
      generalize same : idle d = i at leads
      cases leads
      cases d with
      | done how m =>
        cases same
        exact .refl _
      | turn | come | look => cases same
  | succ k ih =>
    have step : o.next (idle d) = ((o.next d).1, idle (o.next d).2) := by
      refine next_idle fun w m same => ?_
      rw [same] at holds
      obtain ⟨l, told, before, turned⟩ := holds
      exact asleep before turned
    have going : (∀ how m, d ≠ .done how m) ↔ ∀ how m, idle d ≠ .done how m := by
      cases d <;> simp [idle]
    constructor
    · intro leads
      cases leads with
      | next goes rest =>
        have after := (ih (holds.next kept)).mp rest
        have next : (o.next (idle d)).2 = idle (o.next d).2 := by rw [step]
        have one := Leads.next (going.mp goes) (next ▸ after)
        rwa [step] at one
    · intro leads
      generalize same : idle d = i at leads
      cases leads with
      | next goes rest =>
        rw [← same, step] at rest
        rw [← same, step]
        rw [← same] at goes
        exact .next (going.mpr goes) ((ih (holds.next kept)).mpr rest)

variable (asm : Assembled p o.program rs) (typed : p.WellTyped) (compact : p.Compact)

include asm typed compact

/-- Where no activation returns to code with lines, a step outward is a run. -/
theorem out_iff_nothing (lived : Lived o.program now.machine now.calls)
    (rowless : ∀ c ∈ now.calls, o.Rowless c) {how : Halt} :
    o.Leads k (.turn (.out now.depth) now) told (.done how last) ↔
      o.Leads k (.turn .nothing now) told (.done how last) := by
  have start : o.Holds (fun w m => Lived o.program m.machine m.calls ∧ Out o now.calls m w)
      (.turn (.out now.depth) now) := ⟨lived, out_start lived⟩
  refine leads_idle (kept_out asm typed compact now.calls) ?_ start
  rintro w m told n ⟨lived, out⟩ turned stopped
  have after := Moment.turn_lived asm typed compact lived turned
  have left := out.turn (Moment.turn_follows asm typed compact lived turned) after.alive
  rw [stopped] at left
  obtain ⟨c, ⟨inner, split, _⟩, back, _, row⟩ := left
  obtain ⟨a, site, pc⟩ := Option.map_eq_some_iff.mp back
  rw [← pc, rowless c (by rw [split]; simp) a site] at row
  cases row

end Idle

end Observer

end SourceDebugger.Machine
