import SourceDebugger.Proofs.Program.Filled
/-!
What the activations of a program hold. As long as heap and stack stay apart, the frames of all
activations, however far out, are filled as the record says.
-/
namespace SourceDebugger.Machine

/-- How many arguments have been spilled where an instruction stands. -/
def Routine.spilled (r : Routine) (k : Nat) : Nat := min (k - 3) r.layout.function.arguments.length

theorem Routine.spilled_body {r : Routine} {k : Nat}
    (body : r.layout.function.opening.length ≤ k) :
    r.spilled k = r.layout.function.arguments.length := by
  have length := length_opening r.layout.function
  rw [spilled]
  by_cases none : r.layout.function.arguments = []
  · rw [none, List.length_nil, Nat.min_zero]
  · have storage : r.layout.function.hasStorage = true := by
      simp [Function.hasStorage, List.isEmpty_eq_false_iff.mpr none]
    rw [storage, if_pos rfl] at length
    omega

/-- An activation that waits for its call to return holds what the record says. -/
def Waits (rs : List Routine) (x : Machine) (c : Activation) (h : Holding) : Prop :=
  ∃ r ∈ rs, r.layout.low = c.entry ∧
    Filled r.layout.function x c.base r.layout.function.arguments.length h

/-- The innermost activation holds what the record says, as far as its frame is set up. -/
structure Works (rs : List Routine) (x : Machine) (set : Nat → Option Datum) (c : Activation)
    (r : Routine) (k : Nat) (h : Holding) : Prop where
  known : r ∈ rs
  entry : r.layout.low = c.entry
  pc : x.registers.pc = r.address k
  there : k < r.code.length
  opening : k < r.layout.function.opening.length → h = .fresh set
  filled : Filled r.layout.function x c.base (r.spilled k) h

/-- A machine holds what the record says. -/
structure Stocked (rs : List Routine) (x : Machine) (calls : List Activation) (q : Stock) : Prop where
  passed : ∀ index d, q.set index = some d → Passed x index d
  works : ∃ c rest h hs r k, calls = c :: rest ∧ q.holdings = h :: hs ∧ Works rs x q.set c r k h ∧
    List.Forall₂ (Waits rs x) rest hs

/-- The heap and any one frame fit together below the stack. -/
def Program.Roomy (p : Program) (x : Machine) : Prop :=
  ∀ f ∈ p.functions, heapBase.toNat + x.heap.size + f.frame.toNat + 8 ≤ Region.stack.base

instance (p : Program) (x : Machine) : Decidable (p.Roomy x) :=
  inferInstanceAs (Decidable (∀ f ∈ p.functions, _ ≤ _))

/-- No instruction puts anything on the heap. -/
def Executable.Heapless (e : Executable) : Prop := ∀ found ∈ e.instrs.toList, ∀ i ∈ found, i.payload = []

instance (e : Executable) : Decidable e.Heapless :=
  inferInstanceAs (Decidable (∀ found ∈ e.instrs.toList, ∀ i ∈ found, i.payload = []))

section Steps

variable {p : Program} {e : Executable} {rs : List Routine} {r : Routine} {x y : Machine} {k : Nat}
  {c : Activation} {calls : List Activation} {set : Nat → Option Datum} {h : Holding}
  {hs : List Holding} {floor low high : Nat} {f fp : UInt64} {site : Option UInt64} {i : Instr}
  {b : Bool} {q : Stock}

/-- What reaches nowhere above the innermost frame leaves alone what lies in those outside it. -/
theorem Linked.waits (asm : Assembled p e rs) (linked : Linked rs floor x low fp site calls)
    (waits : List.Forall₂ (Waits rs x) calls hs) (heap : HeapKept x (Machine.execute x).2)
    (avoids : ∀ n, low ≤ n → ∀ top, Avoids x n top) :
    List.Forall₂ (Waits rs (Machine.execute x).2) calls hs := by
  induction linked generalizing hs with
  | outermost =>
    cases waits
    exact .nil
  | cons known entry there sum above top saved back outer ih =>
    cases waits with
    | cons first others =>
      obtain ⟨r, member, start, filled⟩ := first
      cases entry_injective asm member known (start.trans entry.symm)
      rw [Activation.base_eq top] at filled
      refine .cons ⟨_, known, entry, ?_⟩ (ih others fun n above => avoids n (by omega))
      rw [Activation.base_eq top]
      exact filled.execute asm known (by omega) heap (avoids _ (by omega) _)

theorem Seat.base (seat : Seat rs floor x c calls r k high f) (first : 2 ≤ k)
    (last : k + 1 < r.code.length) : c.base = x.registers.fp :=
  Activation.base_eq (seat.top.trans (seat.poised.body first last).1.symm)

theorem avoids_nothing (found : x.executable.instrAt? x.registers.pc = some i)
    (none : i.accessed x.registers = none) (low high : Nat) : Avoids x low high := by
  intro j a n there reads
  cases found.symm.trans there
  rw [none] at reads
  cases reads

/-- Instructions that are followed by the next one. -/
def Instr.forth : Instr → Bool
  | .ret | .call _ | .jump _ => false
  | _ => true

theorem Turned.next (turned : Turned x y i) (forth : i.forth = true) :
    y.registers.pc = x.registers.pc + i.length := by
  cases turned with
  | pushFrame turned | setFrame turned | reserve _ turned | leave _ _ turned
  | straight _ turned => rw [turned]; try rfl
  | ret | call | jump => cases forth

/-- Before the first argument is spilled, nothing is held yet. -/
theorem Works.open (works : Works rs x set c r k h)
    (opening : k < r.layout.function.opening.length) (early : k ≤ 2)
    (pc : y.registers.pc = r.address (k + 1)) (there : k + 1 < r.code.length) :
    Works rs y set c r (k + 1) h := by
  have fresh := works.opening opening
  have none : r.spilled (k + 1) = 0 := by
    rw [Routine.spilled]
    omega
  refine ⟨works.known, works.entry, pc, there, fun _ => fresh, ?_⟩
  rw [fresh, none]
  exact filled_fresh _ _ _ _

/-- In the body, as long as nothing reaches into the frame, it stays filled. -/
theorem Works.body (asm : Assembled p e rs) (works : Works rs x set c r k h)
    (body : r.layout.function.opening.length ≤ k)
    (room : r.layout.function.frame.toNat ≤ c.base.toNat)
    (heap : HeapKept x (Machine.execute x).2)
    (avoids : Avoids x (c.base.toNat - r.layout.function.frame.toNat) c.base.toNat) :
    Filled r.layout.function (Machine.execute x).2 c.base r.layout.function.arguments.length h := by
  have filled := works.filled
  rw [Routine.spilled_body body] at filled
  exact filled.execute asm works.known room heap avoids

/-- A call writes below the frame that it is made from. -/
theorem Seat.avoids_call (asm : Assembled p e rs) (seat : Seat rs floor x c calls r k high f)
    {target : UInt64} (there : r.code[k]? = some (.call target))
    (found : x.executable.instrAt? x.registers.pc = some (.call target))
    (room : r.layout.function.frame.toNat + 8 ≤ floor) :
    Avoids x (x.registers.fp.toNat - r.layout.function.frame.toNat) x.registers.fp.toNat := by
  obtain ⟨body, last, _⟩ := asm.call_stands seat.known there
  have start := Routine.length_opening r.layout.function
  obtain ⟨_, above, _, _, sp⟩ := seat.poised.body (by omega) (by omega)
  rw [Routine.sunk_body body] at sp
  have eight : (8 : UInt64).toNat = 8 := rfl
  have depth := toNat_sub_small (a := x.registers.fp) (d := r.layout.function.frame) (by omega)
  rw [← sp] at depth
  have below := toNat_sub_small (a := x.registers.sp) (d := 8) (by omega)
  intro i a n known reads
  cases found.symm.trans known
  cases reads
  exact .inl (by omega)

/-- Behind an instruction that does not lead elsewhere comes the next one. -/
theorem Seat.followed (seat : Seat rs floor x c calls r k high f) (there : r.code[k]? = some i)
    (turned : Turned x y i) (forth : i.forth = true) : y.registers.pc = r.address (k + 1) := by
  rw [Assembled.address_succ there, ← seat.pc, turned.next forth]

/-- What has been passed stays, unless an argument is set. -/
theorem passed_quiet (found : x.executable.instrAt? x.registers.pc = some i)
    (other : i.setsArgument = false) (heap : HeapKept x (Machine.execute x).2)
    (passed : ∀ index d, set index = some d → Passed x index d) (index : Nat) (d : Datum)
    (given : set index = some d) : Passed (Machine.execute x).2 index d :=
  (passed index d given).kept heap (by rw [arguments_execute found other])

/-- Setting an argument passes it beside the others. -/
theorem passed_setArg {index : Nat} {datum : Datum}
    (found : x.executable.instrAt? x.registers.pc = some (.setArg index datum))
    (free : ¬ Blocked x (.setArg index datum))
    (passed : ∀ index d, set index = some d → Passed x index d) (j : Nat) (d : Datum)
    (given : Function.update set index (some datum) j = some d) :
    Passed (Machine.execute x).2 j d := by
  obtain ⟨here, others⟩ := passed_execute found free
  simp only [Function.update_apply] at given
  by_cases same : j = index
  · rw [if_pos same] at given
    cases given
    exact same ▸ here
  · rw [if_neg same] at given
    exact others j d same (passed j d given)

/-- An activation works on in its body. -/
theorem Works.onto (works : Works rs x set c r k h) {j : Nat} {more : Nat → Option Datum}
    {g : Holding} (pc : y.registers.pc = r.address j)
    (low : r.layout.function.opening.length ≤ j) (inside : j < r.code.length)
    (filled : Filled r.layout.function y c.base r.layout.function.arguments.length g) :
    Works rs y more c r j g :=
  ⟨works.known, works.entry, pc, inside, fun early => absurd early (Nat.not_lt.mpr low),
    by rw [Routine.spilled_body low]; exact filled⟩

/-- A call begins an activation that holds nothing yet; the one that called waits. -/
theorem Works.call (asm : Assembled p e rs) (works : Works rs x set c r k h) {target : UInt64}
    (there : r.code[k]? = some (.call target))
    (turned : Turned x (Machine.execute x).2 (.call target))
    (found : x.executable.instrAt? x.registers.pc = some (.call target))
    (passed : ∀ index d, set index = some d → Passed (Machine.execute x).2 index d)
    (filled : Filled r.layout.function (Machine.execute x).2 c.base
      r.layout.function.arguments.length h)
    (waits : List.Forall₂ (Waits rs (Machine.execute x).2) calls hs) :
    Stocked rs (Machine.execute x).2 (follow x (c :: calls))
      (Stock.note ⟨set, h :: hs⟩ (.call target)) := by
  obtain ⟨_, _, q, known, rfl⟩ := asm.call_stands works.known there
  have none : q.spilled 0 = 0 := Nat.zero_min _
  have long := asm.four_le known
  have start : (Machine.execute x).2.registers.pc = q.address 0 := by
    cases turned with
    | call _ turned => rw [turned, address_entry]
    | straight _ _ plain => cases plain
  rw [follow, found]
  refine ⟨passed, _, c :: calls, .fresh set, h :: hs, q, 0, rfl, rfl,
    ⟨known, rfl, start, by omega, fun _ => rfl, ?_⟩,
    .cons ⟨r, works.known, works.entry, filled⟩ waits⟩
  rw [none]
  exact filled_fresh _ _ _ _

/-- An operation stores into a slot of its own frame, sets an argument, begins a new activation or
leaves everything as it is. -/
theorem Works.op (asm : Assembled p e rs) (typed : p.WellTyped) (works : Works rs x set c r k h)
    (seat : Seat rs Region.stack.base x c calls r k high f) (there : r.code[k]? = some i)
    (found : x.executable.instrAt? x.registers.pc = some i) (own : Blocked x i → i = .break)
    (done : Machine.execute x = (.ok b, y)) (heap : HeapKept x y)
    (roomy : heapBase.toNat + y.heap.size + r.layout.function.frame.toNat + 8 ≤ Region.stack.base)
    (passed : ∀ index d, set index = some d → Passed x index d)
    (waits : List.Forall₂ (Waits rs y) calls hs) {s : Statement} {op : Op}
    (statement : s ∈ r.layout.function.body) (member : op ∈ s.ops)
    (assembled : op.assemble (p.scope r.layout) = .ok i)
    (first : r.layout.function.opening.length ≤ k) (last : k + 2 < r.code.length) :
    Stocked rs y (follow x (c :: calls)) (Stock.note ⟨set, h :: hs⟩ i) := by
  have start := Routine.length_opening r.layout.function
  have turned := execute_turned found own done
  obtain ⟨_, above, _⟩ := seat.poised.body (by omega) (by omega)
  have base := seat.base (by omega) (by omega)
  have same : (Machine.execute x).2 = y := by rw [done]
  subst same
  have next := seat.followed there turned
  have full (avoids : Avoids x (x.registers.fp.toNat - r.layout.function.frame.toNat)
      x.registers.fp.toNat) : Filled r.layout.function (Machine.execute x).2 c.base
        r.layout.function.arguments.length h :=
    works.body asm first (by rw [base]; omega) heap (by rw [base]; exact avoids)
  have onward (forth : i.forth = true) (none : i.accessed x.registers = none)
      (other : i.setsArgument = false) :
      Stocked rs (Machine.execute x).2 (c :: calls) ⟨set, h :: hs⟩ :=
    ⟨passed_quiet found other heap passed, c, calls, h, hs, r, k + 1, rfl, rfl,
      works.onto (next forth) (by omega) (by omega) (full (avoids_nothing found none _ _)), waits⟩
  rw [Op.assemble.eq_def] at assembled
  cases op with
  | call name =>
    dsimp only at assembled
    split at assembled
    · cases assembled
      exact works.call asm there turned found (passed_quiet found rfl heap passed)
        (full (seat.avoids_call asm there found (by omega))) waits
    · cases assembled
  | store name datum =>
    dsimp only at assembled
    split at assembled
    · rename_i offset slot
      cases assembled
      obtain ⟨v, known, place, declared⟩ := slotOf_declared (f := r.layout.function) rfl slot
      obtain ⟨type, typeOf, same⟩ := Option.map_eq_some_iff.mp declared
      have fits : datum.Fits v.type := ⟨type, same,
        typed.store (asm.mem_functions seat.known).2 statement member typeOf⟩
      have filled := works.filled
      rw [base, Routine.spilled_body first] at filled
      have stored := filled.store asm seat.known found (fun blocked => by cases own blocked) done heap
        (by omega) known place fits
      rw [← base] at stored
      rw [follow, found]
      exact ⟨passed_quiet found rfl heap passed, c, calls, _, hs, r, k + 1, rfl, rfl,
        works.onto (next rfl) (by omega) (by omega) stored, waits⟩
    · cases assembled
  | setArg index datum =>
    cases assembled
    rw [follow, found]
    exact ⟨passed_setArg found (fun blocked => by cases own blocked) passed,
      c, calls, h, hs, r, k + 1, rfl, rfl,
      works.onto (next rfl) (by omega) (by omega) (full (avoids_nothing found rfl _ _)), waits⟩
  | jump index =>
    dsimp only at assembled
    split at assembled
    · rename_i target starts
      cases assembled
      obtain ⟨j, rfl, low, top⟩ := Routine.statement_address (asm.compiled r seat.known)
        (layout_planned (asm.mem_functions seat.known).1).2.1 starts
      have landed : (Machine.execute x).2.registers.pc = r.address j := by
        cases turned with
        | jump _ turned => rw [turned]
        | straight _ _ plain => cases plain
      rw [follow, found]
      exact ⟨passed_quiet found rfl heap passed, c, calls, h, hs, r, j, rfl, rfl,
        works.onto landed low (by omega) (full (avoids_nothing found rfl _ _)), waits⟩
    · cases assembled
  | load index =>
    dsimp only at assembled
    split at assembled
    · cases assembled
      rw [follow, found]
      exact onward rfl rfl rfl
    · cases assembled
  | nop | print | «break» | spawn | endThread | fault | exit =>
    cases assembled
    rw [follow, found]
    exact onward rfl rfl rfl

/-- Behind its call, an activation that has waited works on. -/
theorem Linked.resumed (asm : Assembled p e rs)
    (linked : Linked rs floor x low fp site (c :: calls)) (waits : Waits rs y c h)
    (pc : y.registers.pc = backOf site) (set : Nat → Option Datum) :
    ∃ r k, Works rs y set c r k h := by
  cases linked with
  | cons known entry there =>
    obtain ⟨r, member, start, filled⟩ := waits
    cases entry_injective asm member known (start.trans entry.symm)
    obtain ⟨body, short, _⟩ := asm.call_stands known there
    refine ⟨_, _, known, entry, pc.trans (Assembled.address_succ there).symm, by omega,
      fun early => absurd body (by omega), ?_⟩
    rw [Routine.spilled_body (by omega)]
    exact filled

/-- Spilling an argument fills its slot. -/
theorem Works.spill (asm : Assembled p e rs) (works : Works rs x set c r k h)
    (seat : Seat rs Region.stack.base x c calls r k high f) {index : Nat} {offset : Int64}
    {v : VariableInfo}
    (found : x.executable.instrAt? x.registers.pc = some (.spill index offset v.type.byteSize))
    (free : ¬ Blocked x (.spill index offset v.type.byteSize))
    (done : Machine.execute x = (.ok b, y)) (heap : HeapKept x y)
    (room : heapBase.toNat + x.heap.size + r.layout.function.frame.toNat ≤ Region.stack.base)
    (passed : ∀ j d, set j = some d → Passed x j d)
    (parameter : r.layout.function.parameters[index]? = some v) (place : v.place = .frame offset)
    (order : k = index + 3) (pc : y.registers.pc = r.address (k + 1))
    (there : k + 1 < r.code.length) : Works rs y set c r (k + 1) h := by
  have start := Routine.length_opening r.layout.function
  have inside : index < r.layout.function.arguments.length := by
    have inside := (List.getElem?_eq_some_iff.mp parameter).1
    rwa [Function.parameters, Function.length_slots] at inside
  have storage : r.layout.function.hasStorage = true := by
    have some : r.layout.function.arguments ≠ [] := List.ne_nil_of_length_pos (by omega)
    simp [Function.hasStorage, List.isEmpty_eq_false_iff.mpr some]
  rw [storage, if_pos rfl] at start
  obtain ⟨_, above, _⟩ := seat.poised.body (by omega) (by omega)
  have base := seat.base (by omega) (by omega)
  have fresh := works.opening (by omega)
  have before : r.spilled k = index := by
    rw [Routine.spilled]
    omega
  have after : r.spilled (k + 1) = index + 1 := by
    rw [Routine.spilled]
    omega
  have filled := works.filled
  rw [before, base, fresh] at filled
  refine ⟨works.known, works.entry, pc, there, fun _ => fresh, ?_⟩
  rw [after, base, fresh]
  exact filled.spill asm works.known found free done heap (by omega) parameter place passed

/-- What is read or written above the heap leaves the heap alone. -/
theorem Within.heapKept (within : Within low high x) (apart : heapBase.toNat + x.heap.size ≤ low) :
    HeapKept x (Machine.execute x).2 := by
  refine heapKept_execute fun j inside accesses => ?_
  obtain ⟨i, a, n, found, reads, first, _⟩ := accesses
  have bounds := within i a n found reads
  omega

/-- One instruction changes what is held as it changes the record. -/
theorem Stocked.step (asm : Assembled p e rs) (typed : p.WellTyped)
    (framed : Framed e rs Region.stack.base x calls) (roomy : p.Roomy y)
    (within : Within Region.stack.base stackTop.toNat x) (stocked : Stocked rs x calls q)
    (done : Machine.execute x = (.ok b, y)) (alive : follow x calls ≠ []) :
    Stocked rs y (follow x calls) (q.after (x.executable.instrAt? x.registers.pc)) := by
  obtain ⟨c, rest, r, k, high, f, rfl, seat⟩ := framed.seated
  obtain ⟨i, there, found, own⟩ := seat.instr asm framed.executable framed.code
  obtain ⟨passed, _, _, h, hs, s, j, same, holdings, works, waits⟩ := stocked
  cases same
  cases entry_injective asm works.known seat.known (works.entry.trans seat.entry.symm)
  cases (place_unique asm seat.known seat.known works.there seat.there
    (works.pc.symm.trans seat.pc)).2
  obtain ⟨set, _⟩ := q
  cases holdings
  have turned := execute_turned found own done
  have same : (Machine.execute x).2 = y := by rw [done]
  subst same
  have grown := (onward_execute x).heap
  have room := roomy _ (asm.mem_functions seat.known).2
  have heap := within.heapKept (by omega)
  have tight : Within Region.stack.base high x := fun i a n found' reads => by
    cases found.symm.trans found'
    exact ⟨(within i a n found reads).1, (seat.reach asm typed (by omega) there reads).2.2⟩
  have outside := seat.linked.waits asm waits heap fun n above top => tight.avoids above top
  have long := asm.four_le seat.known
  have opening := Routine.length_opening r.layout.function
  have quiet (other : i.setsArgument = false) := passed_quiet found other heap passed
  have next := seat.followed there turned
  have start := works.open (y := (Machine.execute x).2)
  rw [found, Stock.after]
  cases asm.stands seat.known there with
  | pushFrame | setFrame =>
    rw [follow, found]
    exact ⟨quiet rfl, c, rest, h, hs, r, _, rfl, rfl,
      start (by omega) (by omega) (next rfl) (by omega), outside⟩
  | reserve storage =>
    rw [storage, if_pos rfl] at opening
    have total := r.length_code (asm.compiled r seat.known)
    rw [follow, found]
    exact ⟨quiet rfl, c, rest, h, hs, r, _, rfl, rfl,
      start (by omega) (by omega) (next rfl) (by omega), outside⟩
  | spill index v known place first last parameter order =>
    rw [follow, found]
    refine ⟨quiet rfl, c, rest, h, hs, r, k + 1, rfl, rfl, ?_, outside⟩
    exact works.spill asm seat found (fun blocked => by cases own blocked) done heap (by omega) passed
      parameter place order (next rfl) (by omega)
  | op s op statement member assembled first last =>
    exact works.op asm typed seat there found own done heap (by omega) passed outside statement member
      assembled first last
  | leave last =>
    have total := r.length_code (asm.compiled r seat.known)
    obtain ⟨_, above, _⟩ := seat.poised.body (by omega) (by omega)
    have base := seat.base (by omega) (by omega)
    have full := works.body asm (by omega) (by rw [base]; omega) heap fun j a n other reads => by
      cases found.symm.trans other
      cases reads
      exact .inr (Nat.le_of_eq (congrArg UInt64.toNat base))
    rw [follow, found]
    exact ⟨quiet rfl, c, rest, h, hs, r, k + 1, rfl, rfl,
      works.onto (next rfl) (by omega) (by omega) full, outside⟩
  | ret last =>
    have landing := seat.landing asm last turned
    have linked := seat.linked
    rw [follow, found] at alive
    rw [follow, found]
    cases outside with
    | nil => exact absurd rfl alive
    | @cons d g rest hs first others =>
      obtain ⟨r, k, works⟩ := linked.resumed asm first (by rw [landing]) set
      exact ⟨quiet rfl, d, rest, g, hs, r, k, rfl, rfl, works, others⟩

end Steps

section Runs

variable {p : Program} {e : Executable} {rs : List Routine} {x y : Machine} {b : Bool}
  {calls : List Activation} {q : Stock}

/-- As long as heap and stack stay apart, what is read or written successfully is stack. -/
theorem Framed.onStack (asm : Assembled p e rs) (typed : p.WellTyped) (compact : p.Compact)
    (framed : Framed e rs Region.stack.base x calls) (roomy : p.Roomy y)
    (done : Machine.execute x = (.ok b, y)) : Within Region.stack.base stackTop.toNat x := by
  intro i a n found reads
  obtain ⟨c, rest, r, k, high, f, rfl, seat⟩ := framed.seated
  obtain ⟨j, there, here, own⟩ := seat.instr asm framed.executable framed.code
  cases found.symm.trans here
  have room := roomy _ (asm.mem_functions seat.known).2
  have top := seat.linked.low_le
  obtain ⟨some, low, below⟩ := seat.reach asm typed (by omega) there reads
  obtain ⟨⟨region, offset⟩, located⟩ := located_of_execute found own done reads
  have facts := locate_ok located
  have onward := onward_execute x
  rw [done] at onward
  cases region with
  | code =>
    have size : y.code.size = e.code.size := onward.code.trans (by rw [framed.code])
    have inside : offset + n ≤ y.code.size := facts.2.1
    have base : Region.code.base = codeBase.toNat := rfl
    have limit := code_below asm compact
    omega
  | stack => exact ⟨by omega, by omega⟩
  | heap =>
    have inside : offset + n ≤ y.heap.size := facts.2.1
    have base : Region.heap.base = heapBase.toNat := rfl
    omega

theorem Program.Roomy.before (roomy : p.Roomy y) (grown : x.heap.size ≤ y.heap.size) : p.Roomy x :=
  fun f member => Nat.le_trans (by omega) (roomy f member)

theorem Executable.Heapless.payload (heapless : e.Heapless) {a : UInt64}
    (found : e.instrAt? a = some i) : i.payload = [] := by
  rw [Executable.instrAt?] at found
  split at found
  · cases found
  · have there := Option.join_eq_some_iff.mp found
    exact heapless _ (Array.mem_toList_iff.mpr (Array.mem_of_getElem? there)) i rfl

/-- A program that puts nothing on the heap always has room. -/
theorem Lived.roomy (asm : Assembled p e rs) (typed : p.WellTyped) (compact : p.Compact)
    (heapless : e.Heapless) (lived : Lived e x calls) : p.Roomy x := by
  have empty : x.heap.size = 0 := by
    induction lived with
    | launch => rfl
    | @step x y calls b lived done _ ih =>
      have same := heap_execute (x := x) fun i found =>
        heapless.payload ((lived.framed asm typed compact).executable ▸ found)
      rw [done, ih] at same
      exact same
    | driven _ _ _ ih => exact ih
  intro f member
  have small := compact f member
  have base : Region.stack.base = 0x7ffe0000 := rfl
  have heap : heapBase.toNat = 0x10000000 := rfl
  omega

/-- Nothing but memory, registers and arguments matters. -/
theorem Stocked.alike (stocked : Stocked rs x calls q) (regions : ∀ s, y.region s = x.region s)
    (registers : y.registers = x.registers) (arguments : y.arguments = x.arguments) :
    Stocked rs y calls q := by
  have heap : y.heap = x.heap := regions .heap
  have kept : HeapKept x y := fun j _ => by rw [heap]
  have lies {d : Datum} {a : UInt64} (lies : d.Lies x a) : d.Lies y a :=
    lies.kept kept fun bytes loaded => by
      rw [← loaded]
      simp only [load, locate, regions]
  obtain ⟨passed, c, rest, h, hs, r, k, split, holdings, works, waits⟩ := stocked
  refine ⟨fun index d given => (passed index d given).kept kept (by rw [arguments]), c, rest, h, hs,
    r, k, split, holdings, ⟨works.known, works.entry, by rw [registers, works.pc], works.there,
      works.opening, works.filled.keep fun _ _ _ _ _ _ there => lies there⟩, waits.imp ?_⟩
  rintro d g ⟨s, member, entry, filled⟩
  exact ⟨s, member, entry, filled.keep fun _ _ _ _ _ _ there => lies there⟩

theorem stocked_boot (asm : Assembled p e rs) : Stocked rs (boot e) [e.outermost] .empty := by
  obtain ⟨r, known, entry⟩ := asm.called asm.entry
  have long := asm.four_le known
  have none : r.spilled 0 = 0 := Nat.zero_min _
  refine ⟨fun index d given => (by cases given), e.outermost, [], _, [], r, 0, rfl, rfl,
    ⟨known, entry, ?_, by omega, fun _ => rfl, ?_⟩, .nil⟩
  · rw [address_entry, entry]
    rfl
  · rw [none]
    exact filled_fresh _ _ _ _

/-- As long as heap and stack stay apart, a program holds what the record says. -/
theorem Recorded.stocked (asm : Assembled p e rs) (typed : p.WellTyped) (compact : p.Compact)
    (recorded : Recorded e x calls q) (roomy : p.Roomy x) :
    Framed e rs Region.stack.base x calls ∧ Stocked rs x calls q := by
  have below : codeBase.toNat + e.code.size ≤ Region.stack.base :=
    Nat.le_trans (code_below asm compact) (by decide)
  induction recorded with
  | launch =>
    exact ⟨(framed_boot asm (by decide) below).calm,
      (stocked_boot asm).alike (fun s => by cases s <;> rfl) rfl rfl⟩
  | @step x y calls q b _ done alive ih =>
    have onward := onward_execute x
    rw [done] at onward
    have roomy : p.Roomy y := roomy
    obtain ⟨framed, stocked⟩ := ih (roomy.before onward.heap)
    have within := framed.onStack asm typed compact roomy done
    have holds := stocked.step asm typed framed roomy within done alive
    refine ⟨?_, holds.alike (fun s => by cases s <;> rfl) rfl rfl⟩
    rcases framed.step asm typed below within done with next | ⟨none, _⟩
    · exact next.calm
    · exact absurd none alive
  | driven signal threads _ ih =>
    obtain ⟨framed, stocked⟩ := ih roomy
    exact ⟨framed.alike rfl (fun s => by cases s <;> rfl) rfl,
      stocked.alike (fun s => by cases s <;> rfl) rfl rfl⟩

/-- Behind the instructions that set up the frame the body begins. -/
theorem opening_passed (asm : Assembled p e rs) {r : Routine} (member : r ∈ rs) {k : Nat}
    (passed : r.layout.low.toNat + r.layout.function.prologueLength.toNat ≤ (r.address k).toNat) :
    r.layout.function.opening.length ≤ k := by
  have compiled := asm.compiled r member
  have total := r.length_code compiled
  have bounds := asm.bounds member
  have opening : r.code.take r.layout.function.opening.length = r.layout.function.opening := by
    rw [Routine.code_eq compiled, List.take_left]
  have place := asm.toNat_address member r.layout.function.opening.length
  have inside := congrArg span (List.take_append_drop r.layout.function.opening.length r.code)
  rw [span_append, opening] at inside
  rw [opening] at place
  have small : span r.layout.function.opening < 2 ^ 64 := by omega
  rw [Function.prologueLength_eq, UInt64.toNat_ofNat_of_lt' small] at passed
  by_contra early
  have before := address_lt asm member (j := k) (k := r.layout.function.opening.length) (by omega)
    (by omega)
  omega

theorem Linked.bases {floor low : Nat} {fp : UInt64} {site : Option UInt64}
    (linked : Linked rs floor x low fp site calls) :
    ∀ c ∈ calls, floor ≤ c.base.toNat ∧ c.base.toNat + 16 ≤ stackTop.toNat := by
  induction linked with
  | outermost => intro c member; cases member
  | cons known entry there sum above top saved back outer ih =>
    intro c member
    rcases List.mem_cons.mp member with rfl | outside
    · rw [Activation.base_eq top]
      exact ⟨above, outer.low_le⟩
    · exact ih c outside

/-- The frames lie on the stack. -/
theorem Framed.bases {floor : Nat} (room : 16 ≤ floor)
    (framed : Framed e rs floor x calls) :
    ∀ c ∈ calls, floor ≤ c.base.toNat + 8 ∧ c.base.toNat + 16 ≤ stackTop.toNat := by
  obtain ⟨c, rest, r, k, high, f, rfl, seat⟩ := framed.seated
  have limit := seat.linked.low_le
  have top := seat.top
  intro d member
  rcases List.mem_cons.mp member with rfl | outside
  · have least : floor + 8 ≤ high := by
      cases seat.poised <;> omega
    have sixteen : (16 : UInt64).toNat = 16 := rfl
    have base := toNat_sub_small (a := d.top) (d := 16) (by omega)
    rw [← Activation.base] at base
    omega
  · have := seat.linked.bases d outside
    omega

theorem Stocked.length (stocked : Stocked rs x calls q) : q.holdings.length = calls.length := by
  obtain ⟨_, c, rest, h, hs, r, k, rfl, holdings, _, waits⟩ := stocked
  rw [holdings, List.length_cons, List.length_cons, waits.length_eq]

/-- Every activation whose frame is set up holds what the record says. -/
theorem Stocked.waits (asm : Assembled p e rs) (stocked : Stocked rs x calls q)
    {i : Nat} {c : Activation} {h : Holding} (called : calls[i]? = some c)
    (held : q.holdings[i]? = some h)
    (passed : i = 0 → ∀ r ∈ rs, r.layout.low = c.entry →
      r.layout.low.toNat + r.layout.function.prologueLength.toNat ≤ x.registers.pc.toNat) :
    Waits rs x c h := by
  obtain ⟨_, d, rest, g, hs, r, k, rfl, holdings, works, waits⟩ := stocked
  rw [holdings] at held
  cases i with
  | zero =>
    cases called
    cases held
    have passed := passed rfl r works.known works.entry
    rw [works.pc] at passed
    have filled := works.filled
    rw [Routine.spilled_body (opening_passed asm works.known passed)] at filled
    exact ⟨r, works.known, works.entry, filled⟩
  | succ i =>
    obtain ⟨inside, rfl⟩ := List.getElem?_eq_some_iff.mp called
    obtain ⟨within, rfl⟩ := List.getElem?_eq_some_iff.mp held
    exact List.Forall₂.get waits (by simpa using inside) (by simpa using within)

end Runs

end SourceDebugger.Machine
