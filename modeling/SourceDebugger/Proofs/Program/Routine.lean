import Mathlib.Data.List.Forall2
import SourceDebugger.Machine.Assembly
/-!
What assembling a program yields, function by function. An assembled function is one list of
instructions, placed without gaps from where the plan says to where it says; the second pass finds
every statement where the first one put it.
-/
namespace SourceDebugger.Machine

section Span

/-- The bytes that instructions take up. -/
def span (code : List Instr) : Nat := (code.map fun i => i.length.toNat).sum

@[simp] theorem span_nil : span [] = 0 := rfl

@[simp] theorem span_cons (i : Instr) (code : List Instr) :
    span (i :: code) = i.length.toNat + span code := rfl

@[simp] theorem span_append (code more : List Instr) : span (code ++ more) = span code + span more := by
  simp [span]

theorem length_bounds (i : Instr) : 1 ≤ i.length.toNat ∧ i.length.toNat ≤ 5 := by
  have lengths : i.length = 1 ∨ i.length = 4 ∨ i.length = 5 := by
    cases i <;> first | exact .inl rfl | exact .inr (.inl rfl) | exact .inr (.inr rfl)
  rcases lengths with same | same | same <;> rw [same] <;> decide

theorem endOf_eq (a : UInt64) (code : List Instr) : endOf a code = a + UInt64.ofNat (span code) := by
  induction code generalizing a with
  | nil => simp [endOf]
  | cons i rest ih =>
    have step : endOf a (i :: rest) = endOf (a + i.length) rest := rfl
    rw [step, ih, span_cons, UInt64.ofNat_add, UInt64.ofNat_toNat, UInt64.add_assoc]

theorem placeFrom_append (a : UInt64) (code more : List Instr) :
    placeFrom a (code ++ more) = placeFrom a code ++ placeFrom (endOf a code) more := by
  induction code generalizing a with
  | nil => rfl
  | cons i rest ih =>
    rw [List.cons_append, placeFrom, placeFrom, ih]
    rfl

/-- Each instruction stands behind those before it. -/
theorem mem_placeFrom {a b : UInt64} {i : Instr} {code : List Instr} :
    (b, i) ∈ placeFrom a code ↔
      ∃ k, code[k]? = some i ∧ b = a + UInt64.ofNat (span (code.take k)) := by
  induction code generalizing a with
  | nil => simp [placeFrom]
  | cons j rest ih =>
    rw [placeFrom, List.mem_cons, ih]
    have shift (n : Nat) : a + j.length + UInt64.ofNat n = a + UInt64.ofNat (j.length.toNat + n) := by
      rw [UInt64.ofNat_add, UInt64.ofNat_toNat, UInt64.add_assoc]
    constructor
    · rintro (same | ⟨k, there, rfl⟩)
      · obtain ⟨rfl, rfl⟩ := Prod.mk.inj same
        exact ⟨0, rfl, by simp⟩
      · exact ⟨k + 1, there, by rw [List.take_succ_cons, span_cons, shift]⟩
    · rintro ⟨k, there, rfl⟩
      cases k with
      | zero =>
        cases Option.some.inj there
        exact .inl (by simp)
      | succ k => exact .inr ⟨k, there, by rw [List.take_succ_cons, span_cons, shift]⟩

end Span

section Sequences

variable {ε α β : Type}

/-- A list that is worked off without an error has each of its elements worked off. -/
theorem mapM_ok {f : α → Except ε β} {xs : List α} {ys : List β} (done : xs.mapM f = .ok ys) :
    List.Forall₂ (fun x y => f x = .ok y) xs ys := by
  induction xs generalizing ys with
  | nil =>
    cases done
    exact .nil
  | cons x xs ih =>
    rw [List.mapM_cons] at done
    cases first : f x with
    | error e => simp [first, bind, Except.bind] at done
    | ok y =>
      cases others : xs.mapM f with
      | error e => simp [first, others, bind, Except.bind] at done
      | ok zs =>
        rw [first, others] at done
        cases done
        exact .cons first (ih others)

theorem exists_of_forall₂ {R : α → β → Prop} {xs : List α} {ys : List β}
    (each : List.Forall₂ R xs ys) {y : β} (member : y ∈ ys) : ∃ x ∈ xs, R x y := by
  induction each with
  | nil => cases member
  | cons first _ ih =>
    rcases List.mem_cons.mp member with rfl | later
    · exact ⟨_, List.mem_cons_self, first⟩
    · obtain ⟨x, known, related⟩ := ih later
      exact ⟨x, List.mem_cons_of_mem _ known, related⟩

end Sequences

section Functions

namespace Function

/-- The slots of the arguments. -/
def parameters (f : Function) : List VariableInfo := (slots 0 f.arguments).1

/-- The slots of arguments and locals. -/
def known (f : Function) : List VariableInfo :=
  f.parameters ++ (slots (slots 0 f.arguments).2 f.locals).1

/-- The room a function makes below its frame pointer. -/
def frame (f : Function) : UInt64 := alignUp (slots (slots 0 f.arguments).2 f.locals).2 16

/-- The instructions that set up the frame. -/
def opening (f : Function) : List Instr := prologue f f.parameters f.frame

theorem length_slots (used : UInt64) (vars : List (String × VarType)) :
    (slots used vars).1.length = vars.length := by
  induction vars generalizing used with
  | nil => rfl
  | cons v rest ih => rw [slots]; exact congrArg (· + 1) (ih _)

theorem span_mapIdx {α : Type} (xs : List α) (f : Nat → α → Instr)
    (four : ∀ i x, (f i x).length = 4) : span (xs.mapIdx f) = 4 * xs.length := by
  induction xs generalizing f with
  | nil => rfl
  | cons x xs ih =>
    rw [List.mapIdx_cons, span_cons, four, ih _ fun i x => four (i + 1) x, List.length_cons]
    show 4 + 4 * xs.length = _
    omega

theorem span_opening (f : Function) :
    span f.opening = 5 + (if f.hasStorage then 4 else 0) + 4 * f.arguments.length := by
  rw [opening, prologue, span_append, span_append, span_mapIdx, parameters, length_slots]
  · split <;> rfl
  · intro i v
    cases v.place <;> rfl

theorem prologueLength_eq (f : Function) : f.prologueLength = UInt64.ofNat (span f.opening) := by
  rw [span_opening, prologueLength]
  simp only [UInt64.ofNat_add, UInt64.ofNat_mul]
  split <;> rfl

end Function

/-- What the operations of a function may refer to. -/
def Program.scope (p : Program) (l : Layout) : Scope :=
  ⟨p.layouts, l, l.function.known, p.libraries.length⟩

/-- A function with the instructions of each of its statements. -/
structure Routine where
  layout : Layout
  body : List (List Instr)

namespace Routine

/-- Taking the frame down. -/
def closing : List Instr := [.leave, .ret]

/-- The code of a function, cut where its lines change. -/
def stretches (r : Routine) : List (Option UInt32 × List Instr) :=
  (r.layout.function.openLine, r.layout.function.opening) ::
    ((r.layout.function.body.map (·.line)).zip r.body ++ [(r.layout.function.closeLine, closing)])

def code (r : Routine) : List Instr := (r.stretches.map (·.2)).flatten

def info (r : Routine) : FunctionInfo :=
  { name := r.layout.function.name
    low := r.layout.low - codeBase, high := r.layout.high - codeBase
    frameBase := .framePointer, hasLines := false
    arguments := r.layout.function.parameters
    locals := (slots (slots 0 r.layout.function.arguments).2 r.layout.function.locals).1 }

end Routine

/-- The rows of stretches placed one after the other. -/
def rowsFrom (sourceFile : String) (a : UInt64) : List (Option UInt32 × List Instr) → List CodeRange
  | [] => []
  | (line, code) :: rest =>
    rowOf sourceFile a (endOf a code) line ++ rowsFrom sourceFile (endOf a code) rest

theorem rowsFrom_append (sourceFile : String) (a : UInt64)
    (some more : List (Option UInt32 × List Instr)) :
    rowsFrom sourceFile a (some ++ more) =
      rowsFrom sourceFile a some ++ rowsFrom sourceFile (endOf a (some.map (·.2)).flatten) more := by
  induction some generalizing a with
  | nil => rfl
  | cons s rest ih =>
    obtain ⟨line, code⟩ := s
    have behind : endOf a (code ++ (rest.map (·.2)).flatten) =
        endOf (endOf a code) (rest.map (·.2)).flatten := List.foldl_append
    rw [List.cons_append, rowsFrom, rowsFrom, ih, List.append_assoc, List.map_cons,
      List.flatten_cons, behind]

def Routine.piece (p : Program) (r : Routine) : Piece :=
  { placed := placeFrom r.layout.low r.code
    rows := rowsFrom p.sourceFile r.layout.low r.stretches
    info := r.info }

/-- Every operation of a function has been assembled. -/
def Routine.Compiled (p : Program) (r : Routine) : Prop :=
  List.Forall₂ (fun s code => List.Forall₂ (fun op i => Op.assemble (p.scope r.layout) op = .ok i)
    s.ops code) r.layout.function.body r.body

end Functions

section Bodies

theorem length_assemble {s : Scope} {op : Op} {i : Instr} (done : op.assemble s = .ok i) :
    i.length = op.length := by
  rw [Op.assemble.eq_def] at done
  cases op with
  | call | store | jump | load =>
    dsimp only at done
    split at done <;> cases done
    rfl
  | nop | setArg | print | «break» | spawn | endThread | fault | exit =>
    cases done
    rfl

theorem length_statement {s : Scope} {ops : List Op} {code : List Instr}
    (done : List.Forall₂ (fun op i => Op.assemble s op = .ok i) ops code) (total : UInt64) :
    (ops.map Op.length).foldl (· + ·) total = total + UInt64.ofNat (span code) := by
  induction done generalizing total with
  | nil => simp
  | cons first _ ih =>
    rw [List.map_cons, List.foldl_cons, ih, ← length_assemble first, span_cons, UInt64.ofNat_add,
      UInt64.ofNat_toNat, UInt64.add_assoc]

/-- The second pass finds each statement where the first pass put it. -/
theorem emitBody_ok {s : Scope} {sourceFile : String} {a : UInt64} {body : List Statement}
    {r : List (UInt64 × Instr) × List CodeRange × UInt64}
    (done : emitBody s sourceFile a (body.zip (Function.statementStarts a body).1) = .ok r) :
    ∃ codes, List.Forall₂ (fun st code => List.Forall₂ (fun op i => Op.assemble s op = .ok i)
        st.ops code) body codes ∧
      r = (placeFrom a codes.flatten, rowsFrom sourceFile a ((body.map (·.line)).zip codes),
        endOf a codes.flatten) := by
  induction body generalizing a r with
  | nil =>
    cases done
    exact ⟨[], .nil, rfl⟩
  | cons st rest ih =>
    have starts : (Function.statementStarts a (st :: rest)).1 =
        a :: (Function.statementStarts (a + st.length) rest).1 := rfl
    rw [starts, List.zip_cons_cons, emitBody] at done
    cases assembled : st.ops.mapM (Op.assemble s) with
    | error e =>
      rw [assembled] at done
      cases done
    | ok code =>
      have first := mapM_ok assembled
      have behind : a + st.length = endOf a code := by
        rw [endOf_eq, Statement.length, length_statement first]
        simp
      rw [assembled, behind] at done
      cases others : emitBody s sourceFile (endOf a code)
          (rest.zip (Function.statementStarts (endOf a code) rest).1) with
      | error e =>
        simp [bind, Except.bind, others] at done
      | ok q =>
        obtain ⟨codes, more, rfl⟩ := ih others
        simp only [bind, Except.bind, others] at done
        cases done
        refine ⟨code :: codes, .cons first more, ?_⟩
        have joined : endOf a (code ++ codes.flatten) = endOf (endOf a code) codes.flatten :=
          List.foldl_append
        rw [List.flatten_cons, placeFrom_append, List.map_cons, List.zip_cons_cons, rowsFrom, joined]

end Bodies

section Assembled

variable {p : Program}

theorem layout_assemble {l : Layout} {piece : Piece}
    (planned : l.statements =
      (Function.statementStarts (l.low + l.function.prologueLength) l.function.body).1)
    (done : Layout.assemble p p.layouts l = .ok piece) :
    ∃ r : Routine, r.layout = l ∧ r.Compiled p ∧ piece = r.piece p := by
  have start : l.low + l.function.prologueLength = endOf l.low l.function.opening := by
    rw [endOf_eq, Function.prologueLength_eq]
  rw [start] at planned
  have done : ((emitBody (p.scope l) p.sourceFile (endOf l.low l.function.opening)
      (l.function.body.zip l.statements)).bind fun q =>
      .ok
        { placed := placeFrom l.low l.function.opening ++ q.1 ++ placeFrom q.2.2 Routine.closing
          rows := rowOf p.sourceFile l.low (endOf l.low l.function.opening) l.function.openLine ++
            q.2.1 ++ rowOf p.sourceFile q.2.2 (endOf q.2.2 Routine.closing) l.function.closeLine
          info := Routine.info ⟨l, []⟩ } : Except BuildFault Piece) = .ok piece := done
  rw [planned] at done
  cases emitted : emitBody (p.scope l) p.sourceFile (endOf l.low l.function.opening)
      (l.function.body.zip
        (Function.statementStarts (endOf l.low l.function.opening) l.function.body).1) with
  | error e =>
    rw [emitted] at done
    cases done
  | ok q =>
    obtain ⟨codes, each, rfl⟩ := emitBody_ok emitted
    rw [emitted] at done
    cases done
    refine ⟨⟨l, codes⟩, rfl, each, ?_⟩
    have lengths : codes.length ≤ (l.function.body.map (·.line)).length := by
      exact Nat.le_of_eq (by rw [List.length_map, each.length_eq])
    simp only [Routine.piece, Routine.code, Routine.stretches, List.map_cons, List.map_append,
      List.map_snd_zip lengths, List.map_nil, List.flatten_cons, List.flatten_append,
      List.flatten_nil, List.append_nil, rowsFrom, rowsFrom_append, placeFrom_append,
      Piece.mk.injEq, List.append_assoc, true_and]
    rfl

end Assembled

end SourceDebugger.Machine
