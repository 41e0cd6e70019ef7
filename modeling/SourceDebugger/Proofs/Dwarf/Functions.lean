import Mathlib.Data.List.Forall2
import SourceDebugger.Dwarf.Functions
import SourceDebugger.Proofs.Dwarf.Positions
/-!
Which functions are collected from a tree of entries, and whose its variables are. A function is
collected for each entry with code and a name, wherever it stands, except below parameters and
variables; its variables are those that it reaches through blocks only.
-/
namespace SourceDebugger.Dwarf

section Headers

variable {s : Sections} {u : DebugUnit} {e : Entry}

/-- An entry has code from one address up to another, the second of which may be given as a size. -/
structure Spans (s : Sections) (u : DebugUnit) (e : Entry) (low high : UInt64) : Prop where
  proper : low < high
  first : ∃ v, e.find? .lowPc = some v ∧ u.address? s v = some (some low)
  last : ∃ v, e.find? .highPc = some v ∧
    ((∃ size, v.natural? = some size ∧ high = low + UInt64.ofNat size) ∨
      v.natural? = none ∧ u.address? s v = some (some high))

/-- An attribute of an entry refers to an entry of the unit with a name. -/
def NamedBy (s : Sections) (u : DebugUnit) (e : Entry) (link : AttributeName) (name : String) : Prop :=
  ∃ offset d c, e.reference? link = some offset ∧ u.reader.entryAt? offset = some (d, c) ∧
    u.name? s d = some (some name)

/-- An attribute of an entry refers to no entry of the unit, or to one without a name. -/
def NotNamedBy (s : Sections) (u : DebugUnit) (e : Entry) (link : AttributeName) : Prop :=
  ∀ offset, e.reference? link = some offset →
    ∃ d c, u.reader.entryAt? offset = some (d, c) ∧ u.name? s d = some none

/-- The name of a function is its own, or else that of its specification, or else that of its
origin. -/
inductive Called (s : Sections) (u : DebugUnit) (e : Entry) (name : String) : Prop
  | own : u.name? s e = some (some name) → Called s u e name
  | specification : u.name? s e = some none → NamedBy s u e .specification name → Called s u e name
  | origin : u.name? s e = some none → NotNamedBy s u e .specification →
      NamedBy s u e .abstractOrigin name → Called s u e name

theorem codeOf_iff {low high : UInt64} :
    codeOf? s u e = some (some (low, high)) ↔ Spans s u e low high := by
  constructor
  · intro read
    rw [codeOf?] at read
    split at read
    · rename_i v w first last
      simp only [Option.bind_eq_bind, Option.bind_eq_some_iff] at read
      obtain ⟨a, from_, read⟩ := read
      cases a with
      | none => cases read
      | some a =>
        cases natural : w.natural? with
        | some size =>
          simp only [natural, Option.bind_some, Option.some.injEq] at read
          split at read
          · cases read
          · rename_i order
            cases read
            exact ⟨UInt64.not_le.mp order, ⟨v, first, from_⟩, w, last, .inl ⟨size, natural, rfl⟩⟩
        | none =>
          simp only [natural, Option.bind_eq_some_iff, Option.some.injEq] at read
          obtain ⟨_, to_, b, rfl, read⟩ := read
          split at read
          · cases read
          · rename_i order
            cases read
            exact ⟨UInt64.not_le.mp order, ⟨v, first, from_⟩, w, last, .inr ⟨natural, to_⟩⟩
    · simp only [Option.bind_eq_bind, Option.bind_eq_some_iff] at read
      obtain ⟨_, _, read⟩ := read
      cases read
    · cases read
  · rintro ⟨proper, ⟨v, first, from_⟩, ⟨w, last, to_⟩⟩
    have order : ¬ high ≤ low := UInt64.not_le.mpr proper
    rcases to_ with ⟨size, natural, rfl⟩ | ⟨natural, to_⟩
    · simp [codeOf?, first, last, from_, natural, order]
    · simp [codeOf?, first, last, from_, natural, to_, order]

theorem nameOfFirst_cons {link : AttributeName} {rest : List AttributeName} {name : String} :
    functionName?.nameOfFirst s u e (link :: rest) = some (some name) ↔ NamedBy s u e link name ∨
      NotNamedBy s u e link ∧ functionName?.nameOfFirst s u e rest = some (some name) := by
  rw [functionName?.nameOfFirst]
  cases refers : e.reference? link with
  | none => simp [NamedBy, NotNamedBy, refers]
  | some offset =>
    cases read : u.reader.entryAt? offset with
    | none => simp [NamedBy, NotNamedBy, refers, read]
    | some found =>
      obtain ⟨d, c⟩ := found
      rcases named : u.name? s d with _ | _ | other <;>
        simp [NamedBy, NotNamedBy, refers, read, named]

theorem functionName_iff {name : String} :
    functionName? s u e = some (some name) ↔ Called s u e name := by
  have linked : functionName?.nameOfFirst s u e [.specification, .abstractOrigin] =
      some (some name) ↔ NamedBy s u e .specification name ∨
        NotNamedBy s u e .specification ∧ NamedBy s u e .abstractOrigin name := by
    rw [nameOfFirst_cons, nameOfFirst_cons]
    simp [functionName?.nameOfFirst]
  rw [functionName?]
  constructor
  · intro read
    rcases named : u.name? s e with _ | _ | own
    · simp [named] at read
    · simp only [named, Option.bind_eq_bind, Option.bind_some] at read
      rcases linked.mp read with link | ⟨unnamed, link⟩
      · exact .specification named link
      · exact .origin named unnamed link
    · simp only [named, Option.bind_eq_bind, Option.bind_some] at read
      cases read
      exact .own named
  · rintro (named | ⟨named, link⟩ | ⟨named, unnamed, link⟩)
    · simp [named]
    · simpa [named] using linked.mpr (.inl link)
    · simpa [named] using linked.mpr (.inr ⟨unnamed, link⟩)

/-- What is read of a function's entry itself. -/
def headerOf (e : Entry) (name : String) (low high : UInt64) : FunctionInfo :=
  { name, low, high, frameBase := frameBaseOf e, hasLines := false, arguments := [], locals := [] }

theorem functionHeader_iff {h : FunctionInfo} :
    functionHeader? s u e = some (some h) ↔ Spans s u e h.low h.high ∧ Called s u e h.name ∧
      h = headerOf e h.name h.low h.high := by
  rw [functionHeader?]
  constructor
  · intro read
    rcases code : codeOf? s u e with _ | _ | ⟨low, high⟩
    · simp [code] at read
    · simp [code] at read
    · simp only [code, Option.bind_eq_bind, Option.bind_some, Option.bind_eq_some_iff,
        Option.some.injEq, Option.map_eq_some_iff] at read
      obtain ⟨_, named, name, rfl, rfl⟩ := read
      exact ⟨codeOf_iff.mp code, functionName_iff.mp named, rfl⟩
  · rintro ⟨spans, called, same⟩
    rw [codeOf_iff.mpr spans, functionName_iff.mpr called]
    exact congrArg (fun x => some (some x)) same.symm

end Headers

/-- Scopes within a function. -/
def isBlock (tag : Tag) : Bool := tag == .lexicalBlock

def isVariable (tag : Tag) : Bool := tag == .formalParameter || tag == .variable

/-- The variable that an entry describes, if it is of a kind. -/
def variableOfKind? (s : Sections) (u : DebugUnit) (kind : Tag) (t : Tree) : Option VariableInfo :=
  if t.tag = kind then (variableOf? s u t.entry).join else none

/-- The function that an entry describes, with the variables that it reaches through blocks. -/
def function? (s : Sections) (u : DebugUnit) (t : Tree) : Option FunctionInfo :=
  if t.tag = .subprogram then
    (functionHeader? s u t.entry).join.map fun h =>
      { h with
        arguments := (met isBlock t.children).filterMap (variableOfKind? s u .formalParameter)
        locals := (met isBlock t.children).filterMap (variableOfKind? s u .variable) }
  else none

section Collecting

variable {s : Sections} {u : DebugUnit}

/-- The variables among some entries can be read. -/
def ReadableVariables (s : Sections) (u : DebugUnit) (ts : List Tree) : Prop :=
  ∀ t ∈ ts, isVariable t.tag = true → (variableOf? s u t.entry).isSome = true

/-- If an entry is of a function, then it can be read, and if the function is collected, then its
variables can be read as well. -/
def ReadableFunction (s : Sections) (u : DebugUnit) (t : Tree) : Prop :=
  t.tag = .subprogram → ∃ header, functionHeader? s u t.entry = some header ∧
    (header.isSome = true → ReadableVariables s u (met isBlock t.children))

theorem readable_other {t : Tree} (other : t.tag ≠ .subprogram) : ReadableFunction s u t :=
  fun same => absurd same other

/-- What is found, inside a function or outside, is what the walks through blocks and through all
entries meet; nothing is found only if something cannot be read. -/
structure Gathers (s : Sections) (u : DebugUnit) (inside : Bool) (blocks all : List Tree)
    (result : Option Found) : Prop where
  readable : result.isSome = true ↔
    (inside = true → ReadableVariables s u blocks) ∧ ∀ t ∈ all, ReadableFunction s u t
  arguments : ∀ f, result = some f →
    f.arguments = if inside then blocks.filterMap (variableOfKind? s u .formalParameter) else []
  locals : ∀ f, result = some f →
    f.locals = if inside then blocks.filterMap (variableOfKind? s u .variable) else []
  functions : ∀ f, result = some f → (all.filterMap (function? s u)).Perm f.functions

theorem Gathers.append {inside : Bool} {blocks all blocks' all' : List Tree}
    {r r' : Option Found} (first : Gathers s u inside blocks all r)
    (second : Gathers s u inside blocks' all' r') :
    Gathers s u inside (blocks ++ blocks') (all ++ all')
      (do some ((← r).append (← r'))) := by
  have inner {f : Found} (both : (do some ((← r).append (← r'))) = some f) :
      ∃ a b, r = some a ∧ r' = some b ∧ f = a.append b := by
    simp only [Option.bind_eq_bind, Option.bind_eq_some_iff, Option.some.injEq] at both
    obtain ⟨a, found, b, found', same⟩ := both
    exact ⟨a, b, found, found', same.symm⟩
  constructor
  · have parts : (do some ((← r).append (← r'))).isSome = (r.isSome && r'.isSome) := by
      cases r <;> cases r' <;> rfl
    rw [parts, Bool.and_eq_true, first.readable, second.readable]
    simp only [ReadableVariables, List.forall_mem_append]
    grind
  · intro f both
    obtain ⟨a, b, found, found', rfl⟩ := inner both
    rw [Found.append, first.arguments a found, second.arguments b found']
    cases inside <;> simp
  · intro f both
    obtain ⟨a, b, found, found', rfl⟩ := inner both
    rw [Found.append, first.locals a found, second.locals b found']
    cases inside <;> simp
  · intro f both
    obtain ⟨a, b, found, found', rfl⟩ := inner both
    rw [List.filterMap_append]
    exact (first.functions a found).append (second.functions b found')

theorem variable_other {t : Tree} (other : isVariable t.tag = false) {kind : Tag}
    (known : isVariable kind = true) : variableOfKind? s u kind t = none := by
  refine if_neg fun same => ?_
  rw [same, known] at other
  cases other

theorem variables_other {t : Tree} (other : isVariable t.tag = false) {kind : Tag}
    (known : isVariable kind = true) : [t].filterMap (variableOfKind? s u kind) = [] := by
  simp [variable_other other known]

/-- An entry that keeps the variables below it to itself: only functions come out of it. -/
theorem Gathers.closed {inside : Bool} {all : List Tree} {r : Option Found} {t : Tree}
    {close : Found → Found} (other : isVariable t.tag = false)
    (noArguments : ∀ f, (close f).arguments = []) (noLocals : ∀ f, (close f).locals = [])
    (readable : r.isSome = true ↔ ∀ t' ∈ t :: all, ReadableFunction s u t')
    (functions : ∀ f, r = some f →
      ((t :: all).filterMap (function? s u)).Perm (close f).functions) :
    Gathers s u inside [t] (t :: all) (r.bind fun f => some (close f)) where
  readable := by
    have same : (r.bind fun f => some (close f)).isSome = r.isSome := by cases r <;> rfl
    rw [same, readable]
    simp [ReadableVariables, other]
  arguments f found := by
    obtain ⟨g, _, same⟩ := Option.bind_eq_some_iff.mp found
    cases same
    rw [variables_other other rfl, ite_self, noArguments]
  locals f found := by
    obtain ⟨g, _, same⟩ := Option.bind_eq_some_iff.mp found
    cases same
    rw [variables_other other rfl, ite_self, noLocals]
  functions f found := by
    obtain ⟨g, met, same⟩ := Option.bind_eq_some_iff.mp found
    cases same
    exact functions g met

/-- An entry that is neither a function nor a variable nor a block hides the variables below it. -/
theorem Gathers.hidden {inside : Bool} {blocks all : List Tree} {r : Option Found}
    (gathers : Gathers s u false blocks all r) {t : Tree}
    (other : isVariable t.tag = false) (readable : ReadableFunction s u t)
    (none : function? s u t = none) :
    Gathers s u inside [t] (t :: all) (do some (← r).functionsOnly) := by
  refine Gathers.closed other (fun _ => rfl) (fun _ => rfl) ?_ fun g met => ?_
  · rw [gathers.readable]
    simp [readable]
  · rw [List.filterMap_cons_none none]
    exact gathers.functions g met

/-- A block hides nothing. -/
theorem Gathers.block {inside : Bool} {blocks all : List Tree} {r : Option Found}
    (gathers : Gathers s u inside blocks all r) {t : Tree} (block : t.tag = .lexicalBlock) :
    Gathers s u inside (t :: blocks) (t :: all) r where
  readable := by
    rw [gathers.readable]
    simp [ReadableVariables, ReadableFunction, block, isVariable]
  arguments f found := by
    simpa [variableOfKind?, block] using gathers.arguments f found
  locals f found := by
    simpa [variableOfKind?, block] using gathers.locals f found
  functions f found := by
    simpa [function?, block] using gathers.functions f found

/-- A function has what is found inside it. -/
theorem Gathers.function {inside : Bool} {all : List Tree} {r : Option Found} {t : Tree}
    (gathers : Gathers s u true (met isBlock t.children) all r) {h : FunctionInfo}
    (tag : t.tag = .subprogram) (header : functionHeader? s u t.entry = some (some h)) :
    Gathers s u inside [t] (t :: all) (do
      let below ← r
      let function := { h with arguments := below.arguments, locals := below.locals }
      some { Found.nothing with functions := below.functions ++ [function] }) := by
  refine Gathers.closed (by rw [tag]; rfl) (fun _ => rfl) (fun _ => rfl) ?_ fun g met => ?_
  · rw [gathers.readable]
    simp [ReadableFunction, tag, header]
  · have arguments := gathers.arguments g met
    have locals := gathers.locals g met
    have own : function? s u t = some { h with arguments := g.arguments, locals := g.locals } := by
      simp [function?, tag, header, arguments, locals]
    rw [List.filterMap_cons_some own]
    exact ((gathers.functions g met).cons _).trans (List.perm_append_singleton _ _).symm

/-- Inside a function a parameter or variable adds itself. -/
theorem Gathers.leaf {inside : Bool} {t : Tree}
    {arguments locals : Option VariableInfo → List VariableInfo} (leaf : isVariable t.tag = true)
    (asArgument : ∀ v, arguments v = if t.tag = .formalParameter then v.toList else [])
    (asLocal : ∀ v, locals v = if t.tag = .variable then v.toList else []) :
    Gathers s u inside [t] [t] (
      if inside then do
        let v ← variableOf? s u t.entry
        some ⟨arguments v, locals v, []⟩
      else some .nothing) := by
  have other : t.tag ≠ .subprogram := by rintro tag; simp [tag, isVariable] at leaf
  cases inside with
  | false => constructor <;> simp [ReadableFunction, function?, other, Found.nothing]
  | true =>
    cases described : variableOf? s u t.entry with
    | none => constructor <;> simp [ReadableVariables, leaf, described]
    | some v =>
      have told (kind : Tag) : [t].filterMap (variableOfKind? s u kind) =
          if t.tag = kind then v.toList else [] := by
        simp only [List.filterMap_cons, List.filterMap_nil, variableOfKind?, described,
          Option.join_some]
        split <;> cases v <;> simp_all
      constructor
      · simp [ReadableVariables, ReadableFunction, other, described]
      · simp [told, asArgument]
      · simp [told, asLocal]
      · simp [function?, other]

theorem collectAll_gathers {ts : List Tree}
    (each : ∀ t ∈ ts, ∀ inside, Gathers s u inside (met isBlock [t]) (met isEntered [t])
      (collect? s u inside t)) (inside : Bool) :
    Gathers s u inside (met isBlock ts) (met isEntered ts) (collectAll? s u inside ts) := by
  induction ts with
  | nil =>
    rw [collectAll?]
    constructor <;> simp [met, ReadableVariables, Found.nothing]
  | cons t rest ih =>
    obtain ⟨first, others⟩ := List.forall_mem_cons.mp each
    rw [collectAll?, met_cons t rest, met_cons t rest]
    exact (first inside).append (ih others)

theorem collect_gathers (t : Tree) (inside : Bool) :
    Gathers s u inside (met isBlock [t]) (met isEntered [t]) (collect? s u inside t) := by
  induction t generalizing inside with
  | node e ts ih =>
    have inner := collectAll_gathers ih
    obtain ⟨offset, tag, hasChildren, attributes⟩ := e
    rw [collect?, met_one, met_one]
    cases tag with
    | subprogram =>
      dsimp only
      cases header : functionHeader? s u ⟨offset, .subprogram, hasChildren, attributes⟩ with
      | none => constructor <;> simp [ReadableFunction, Tree.tag, Tree.entry, header]
      | some h =>
        cases h with
        | none =>
          have none : function? s u (.node ⟨offset, .subprogram, hasChildren, attributes⟩ ts) = none := by
            simp [function?, Tree.entry, header]
          exact (inner false).hidden rfl (fun _ => ⟨_, header, by simp⟩) none
        | some h => exact (inner true).function rfl header
    | formalParameter => exact .leaf rfl (fun _ => rfl) (fun _ => rfl)
    | «variable» => exact .leaf rfl (fun _ => rfl) (fun _ => rfl)
    | lexicalBlock => exact (inner inside).block rfl
    | _ => exact (inner false).hidden rfl (readable_other (by simp [Tree.tag, Tree.entry])) rfl

end Collecting

/-- The functions collected from the entries below a root. -/
def functionsIn? (s : Sections) (u : DebugUnit) (root : Tree) : Option (List FunctionInfo) :=
  (collectAll? s u false root.children).map (·.functions)

/-- An entry of a function with code and a name. -/
def IsFunction (s : Sections) (u : DebugUnit) (t : Tree) : Prop :=
  t.tag = .subprogram ∧ ∃ low high name, Spans s u t.entry low high ∧ Called s u t.entry name

/-- The variables are those of the named entries of a kind that are reached through blocks only, in
the order in which these stand in the file. -/
def Lists (s : Sections) (u : DebugUnit) (kind : Tag) (t : Tree) (vs : List VariableInfo) : Prop :=
  ∃ named : List (Position × Tree), named.Pairwise (fun a b => a.1 < b.1) ∧
    (∀ p x, (p, x) ∈ named ↔
      Leads isBlock t p x ∧ x.tag = kind ∧ ∃ name, u.name? s x.entry = some (some name)) ∧
    List.Forall₂ (fun m v => variableOf? s u m.2.entry = some (some v)) named vs

/-- An entry describes a function, with its variables. -/
structure Describes (s : Sections) (u : DebugUnit) (t : Tree) (f : FunctionInfo) : Prop where
  code : Spans s u t.entry f.low f.high
  name : Called s u t.entry f.name
  frameBase : f.frameBase = frameBaseOf t.entry
  hasLines : f.hasLines = false
  arguments : Lists s u .formalParameter t f.arguments
  locals : Lists s u .variable t f.locals

/-- What is needed of a tree can be read. -/
structure Readable (s : Sections) (u : DebugUnit) (root : Tree) : Prop where
  functions : ∀ p t, Leads isEntered root p t → t.tag = .subprogram →
    (functionHeader? s u t.entry).isSome = true
  inScope : ∀ p t q x, Leads isEntered root p t → IsFunction s u t → Leads isBlock t q x →
    isVariable x.tag = true → (variableOf? s u x.entry).isSome = true

/-- The second position is that of a variable's entry in the scope of the function collected at the
first one. -/
def Owns (s : Sections) (u : DebugUnit) (root : Tree) (p r : Position) : Prop :=
  ∃ t q x, Leads isEntered root p t ∧ IsFunction s u t ∧ Leads isBlock t q x ∧
    isVariable x.tag = true ∧ r = p ++ q

section Owners

variable {enter other : Tag → Bool} {root t t' x x' : Tree} {p p' q q' m : Position}

/-- Between an entry and one in its scope there are blocks only. -/
theorem between_block (first : Leads enter root p t) (scope : Leads isBlock t (m ++ q) x)
    (below : m ≠ []) (above : q ≠ []) (between : Leads other root (p ++ m) t') :
    t'.tag = .lexicalBlock := by
  obtain ⟨y, way, block, _⟩ := scope.split below above
  have through : Leads (fun _ => true) root (p ++ m) y :=
    (first.mono fun _ _ => rfl).trans rfl (way.mono fun _ _ => rfl)
  rw [← through.unique between]
  exact eq_of_beq block

/-- The innermost entry around another one that is no block is one entry only. -/
theorem nearest_unique (first : Leads enter root p t) (here : t.tag ≠ .lexicalBlock)
    (scope : Leads isBlock t q x) (second : Leads other root p' t') (there : t'.tag ≠ .lexicalBlock)
    (scope' : Leads isBlock t' q' x') (same : p ++ q = p' ++ q') : p = p' := by
  rcases List.append_eq_append_iff.mp same with ⟨m, rfl, rfl⟩ | ⟨m, rfl, rfl⟩
  · by_cases none : m = []
    · rw [none, List.append_nil]
    · exact absurd (between_block first scope none scope'.ne_nil second) there
  · by_cases none : m = []
    · rw [none, List.append_nil]
    · exact absurd (between_block second scope' none scope.ne_nil first) here

end Owners

section Variables

variable {s : Sections} {u : DebugUnit}

theorem variableOf_named {e : Entry} {r : Option VariableInfo} (read : variableOf? s u e = some r) :
    r.isSome = true ↔ ∃ name, u.name? s e = some (some name) := by
  rw [variableOf?] at read
  rcases named : u.name? s e with _ | _ | name
  · simp [named] at read
  · simp only [named, Option.bind_eq_bind, Option.bind_some] at read
    cases read
    simp
  · simp only [named, Option.bind_eq_bind, Option.bind_some] at read
    have told : r.isSome = true := by
      split at read
      · obtain ⟨_, _, read⟩ := Option.bind_eq_some_iff.mp read
        obtain ⟨_, _, read⟩ := Option.bind_eq_some_iff.mp read
        cases read
        rfl
      · obtain ⟨_, _, read⟩ := Option.bind_eq_some_iff.mp read
        cases read
        rfl
    simp [told]

theorem forall₂_filterMap {α β : Type} (g : α → Option β) (as : List α) :
    List.Forall₂ (fun a b => g a = some b) (as.filter fun a => (g a).isSome) (as.filterMap g) := by
  induction as with
  | nil => exact .nil
  | cons a rest ih =>
    cases found : g a with
    | none => simpa [found] using ih
    | some b => simpa [found] using ih

theorem variableOfKind_iff {kind : Tag} {t : Tree} {v : VariableInfo} :
    variableOfKind? s u kind t = some v ↔ t.tag = kind ∧ variableOf? s u t.entry = some (some v) := by
  simp [variableOfKind?, Option.join_eq_some_iff]

/-- The variables that a function reaches are listed, if they can be read. -/
theorem lists_met {t : Tree} (readable : ReadableVariables s u (met isBlock t.children)) {kind : Tag}
    (known : isVariable kind = true) :
    Lists s u kind t ((met isBlock t.children).filterMap (variableOfKind? s u kind)) := by
  have inScope {p : Position} {x : Tree} (leads : Leads isBlock t p x) (same : x.tag = kind) :
      (variableOf? s u x.entry).isSome = true := by
    exact readable x (mem_met.mpr ⟨p, leads⟩) (by rw [same, known])
  have told := forall₂_filterMap (fun m => variableOfKind? s u kind m.2) (below isBlock t)
  rw [← below_met, List.filterMap_map]
  refine ⟨_, (below_ordered t).filter _, fun p x => ?_, told.imp fun m v found => ?_⟩
  · rw [List.mem_filter, mem_below, Option.isSome_iff_exists]
    simp only [variableOfKind_iff]
    constructor
    · rintro ⟨leads, v, same, described⟩
      exact ⟨leads, same, (variableOf_named described).mp rfl⟩
    · rintro ⟨leads, same, named⟩
      obtain ⟨r, read⟩ := Option.isSome_iff_exists.mp (inScope leads same)
      obtain ⟨v, rfl⟩ := Option.isSome_iff_exists.mp ((variableOf_named read).mpr named)
      exact ⟨leads, v, same, read⟩
  · exact (variableOfKind_iff.mp found).2

theorem function_iff {t : Tree} : (function? s u t).isSome = true ↔ IsFunction s u t := by
  rw [function?]
  split
  · rename_i tag
    rw [Option.isSome_map]
    constructor
    · intro some
      obtain ⟨h, joined⟩ := Option.isSome_iff_exists.mp some
      obtain ⟨spans, called, _⟩ := functionHeader_iff.mp (Option.join_eq_some_iff.mp joined)
      exact ⟨tag, h.low, h.high, h.name, spans, called⟩
    · rintro ⟨_, low, high, name, spans, called⟩
      have header : functionHeader? s u t.entry = some (some (headerOf t.entry name low high)) :=
        functionHeader_iff.mpr ⟨spans, called, rfl⟩
      simp [header]
  · rename_i other
    simp [IsFunction, other]

theorem header_isSome {t : Tree} {header : Option FunctionInfo} (tag : t.tag = .subprogram)
    (read : functionHeader? s u t.entry = some header) : header.isSome = true ↔ IsFunction s u t := by
  rw [← function_iff, function?, if_pos tag, read, Option.isSome_map]
  rfl

theorem describes_function {t : Tree} {f : FunctionInfo} (readable : ReadableFunction s u t)
    (found : function? s u t = some f) : Describes s u t f := by
  have isFunction : IsFunction s u t := function_iff.mp (by simp [found])
  obtain ⟨header, read, scope⟩ := readable isFunction.1
  rw [function?, if_pos isFunction.1, read] at found
  obtain ⟨h, joined, rfl⟩ := Option.map_eq_some_iff.mp found
  cases joined
  obtain ⟨spans, called, same⟩ := functionHeader_iff.mp read
  have inScope := scope rfl
  exact ⟨spans, called, same ▸ rfl, same ▸ rfl, lists_met inScope rfl, lists_met inScope rfl⟩

theorem readable_iff {root : Tree} :
    (∀ t ∈ met isEntered root.children, ReadableFunction s u t) ↔ Readable s u root := by
  constructor
  · intro readable
    constructor
    · intro p t leads tag
      obtain ⟨header, read, _⟩ := readable t (mem_met.mpr ⟨p, leads⟩) tag
      rw [read]
      rfl
    · intro p t q x leads isFunction way known
      obtain ⟨header, read, scope⟩ := readable t (mem_met.mpr ⟨p, leads⟩) isFunction.1
      exact scope ((header_isSome isFunction.1 read).mpr isFunction) x (mem_met.mpr ⟨q, way⟩) known
  · intro readable t member tag
    obtain ⟨p, leads⟩ := mem_met.mp member
    obtain ⟨header, read⟩ := Option.isSome_iff_exists.mp (readable.functions p t leads tag)
    refine ⟨header, read, fun some x member known => ?_⟩
    obtain ⟨q, way⟩ := mem_met.mp member
    exact readable.inScope p t q x leads ((header_isSome tag read).mp some) way known

/-- The functions that are collected, each with the position of its entry. -/
def functionsAt (s : Sections) (u : DebugUnit) (root : Tree) : List (Position × FunctionInfo) :=
  (below isEntered root).filterMap fun m => (function? s u m.2).map (m.1, ·)

theorem mem_functionsAt {root : Tree} {p : Position} {f : FunctionInfo} :
    (p, f) ∈ functionsAt s u root ↔ ∃ t, Leads isEntered root p t ∧ function? s u t = some f := by
  simp only [functionsAt, List.mem_filterMap, Prod.exists, mem_below, Option.map_eq_some_iff,
    Prod.mk.injEq]
  constructor
  · rintro ⟨_, t, leads, _, found, rfl, rfl⟩
    exact ⟨t, leads, found⟩
  · rintro ⟨t, leads, found⟩
    exact ⟨p, t, leads, f, found, rfl, rfl⟩

theorem functionsAt_ordered (root : Tree) :
    (functionsAt s u root).Pairwise fun a b => a.1 < b.1 := by
  refine (below_ordered root).filterMap _ fun a b before a' first b' second => ?_
  obtain ⟨_, _, rfl⟩ := Option.map_eq_some_iff.mp first
  obtain ⟨_, _, rfl⟩ := Option.map_eq_some_iff.mp second
  exact before

theorem functionsAt_functions (root : Tree) :
    (functionsAt s u root).map (·.2) = (met isEntered root.children).filterMap (function? s u) := by
  rw [functionsAt, List.map_filterMap, ← below_met, List.filterMap_map]
  refine List.filterMap_congr fun m _ => ?_
  simp [Function.comp_def]

theorem found_functions {root : Tree} {fs : List FunctionInfo}
    (gathers : Gathers s u false (met isBlock root.children) (met isEntered root.children)
      (collectAll? s u false root.children))
    (collected : functionsIn? s u root = some fs) : ∃ found : List (Position × FunctionInfo),
      (found.map (·.2)).Perm fs ∧ found.Pairwise (fun a b => a.1 < b.1) ∧
      (∀ p, (∃ f, (p, f) ∈ found) ↔ ∃ t, Leads isEntered root p t ∧ IsFunction s u t) ∧
      ∀ p f, (p, f) ∈ found → ∃ t, Leads isEntered root p t ∧ Describes s u t f := by
  obtain ⟨f, all, rfl⟩ := Option.map_eq_some_iff.mp collected
  have readable := (gathers.readable.mp (Option.isSome_iff_exists.mpr ⟨f, all⟩)).2
  refine ⟨functionsAt s u root, ?_, functionsAt_ordered root, fun p => ?_, fun p f found => ?_⟩
  · rw [functionsAt_functions]
    exact gathers.functions f all
  · simp only [mem_functionsAt, ← function_iff, Option.isSome_iff_exists]
    constructor
    · rintro ⟨f, t, leads, found⟩
      exact ⟨t, leads, f, found⟩
    · rintro ⟨t, leads, f, found⟩
      exact ⟨f, t, leads, found⟩
  · obtain ⟨t, leads, own⟩ := mem_functionsAt.mp found
    exact ⟨t, leads, describes_function (readable t (mem_met.mpr ⟨p, leads⟩)) own⟩

end Variables

/-- The functions collected from a tree are those of its entries with code and a name, in whatever
nesting, except that nothing below a parameter or a variable is looked at and that the root is none;
each has as arguments and locals the named entries that it reaches through blocks. No variable is of
two functions, and one whose innermost entry around it that is no block is not that of a collected
function is of none. -/
theorem collected_functions (s : Sections) (u : DebugUnit) (root : Tree) :
    (u.reader.treeAt? u.reader.header.entriesOffset isEntered = some root →
      functionsOf? s u = functionsIn? s u root) ∧
    ((functionsIn? s u root).isSome = true ↔ Readable s u root) ∧
    (∀ fs, functionsIn? s u root = some fs → ∃ found : List (Position × FunctionInfo),
      (found.map (·.2)).Perm fs ∧ found.Pairwise (fun a b => a.1 < b.1) ∧
      (∀ p, (∃ f, (p, f) ∈ found) ↔ ∃ t, Leads isEntered root p t ∧ IsFunction s u t) ∧
      ∀ p f, (p, f) ∈ found → ∃ t, Leads isEntered root p t ∧ Describes s u t f) ∧
    (∀ p p' r, Owns s u root p r → Owns s u root p' r → p = p') ∧
    (∀ p t q x, Leads (fun _ => true) root p t → t.tag ≠ .lexicalBlock →
      ¬ (Leads isEntered root p t ∧ IsFunction s u t) → Leads isBlock t q x →
      ∀ p', ¬ Owns s u root p' (p ++ q)) ∧
    ∀ q x, Leads isBlock root q x → ∀ p', ¬ Owns s u root p' q := by
  have gathers : Gathers s u false _ _ (collectAll? s u false root.children) :=
    collectAll_gathers (fun t _ => collect_gathers t) false
  have nested {t : Tree} (isFunction : IsFunction s u t) : t.tag ≠ .lexicalBlock := by
    rw [isFunction.1]
    decide
  refine ⟨fun read => ?_, ?_, fun fs collected => found_functions gathers collected, ?_, ?_, ?_⟩
  · obtain ⟨e, ts⟩ := root
    rw [functionsOf?, read]
    show (collectAll? s u false ts).bind _ = (collectAll? s u false ts).map _
    cases collectAll? s u false ts <;> rfl
  · rw [functionsIn?, Option.isSome_map, gathers.readable, readable_iff]
    simp
  · rintro p p' r ⟨t, q, x, leads, isFunction, way, _, rfl⟩
      ⟨t', q', x', leads', isFunction', way', _, same⟩
    exact nearest_unique leads (nested isFunction) way leads' (nested isFunction') way' same
  · rintro p t q x leads here none way p' ⟨t', q', x', leads', isFunction, way', _, same⟩
    cases nearest_unique leads here way leads' (nested isFunction) way' same
    cases leads.unique leads'
    exact none ⟨leads', isFunction⟩
  · rintro q x way p ⟨t, q', x', leads, isFunction, way', _, rfl⟩
    obtain ⟨y, first, block, _⟩ := way.split leads.ne_nil way'.ne_nil
    cases first.unique leads
    exact nested isFunction (eq_of_beq block)

/-- A unit with a function, a parameter and a block in it, a variable in the block, and a function below
the variable. -/
def quay : Sections :=
  { (default : Sections) with
    abbreviations := [
      1, 0x11, 1, 0, 0,
      2, 0x2e, 1, 3, 8, 0x11, 1, 0x12, 6, 0, 0,
      3, 0x2e, 0, 3, 8, 0x11, 1, 0x12, 6, 0, 0,
      4, 0x05, 0, 3, 8, 0, 0,
      5, 0x0b, 1, 0, 0,
      6, 0x34, 1, 3, 8, 0, 0,
      0]
    info := [
      63, 0, 0, 0, 4, 0, 0, 0, 0, 0, 8,
      1,
      2, 112, 105, 101, 114, 0, 0, 0x10, 0, 0, 0, 0, 0, 0, 0x10, 0, 0, 0,
      4, 119, 105, 100, 116, 104, 0,
      5,
      6, 108, 111, 97, 100, 0,
      3, 99, 114, 97, 110, 101, 0, 0x20, 0x10, 0, 0, 0, 0, 0, 0, 0x10, 0, 0, 0,
      0, 0, 0, 0] }

def quayUnit? : Option DebugUnit := do
  let headers ← Reading.from? quay.info (unitHeaders (quay.info.length + 1))
  DebugUnit.ofReader? (← readerFor? quay (← headers.head?))

/-- The function of the unit that is collected. -/
def pier : FunctionInfo where
  name := "pier"
  low := 0x1000
  high := 0x1010
  frameBase := .framePointer
  hasLines := false
  arguments := [⟨"width", unknownType none 0, .optimizedOut⟩]
  locals := [⟨"load", unknownType none 0, .optimizedOut⟩]

theorem quay_collected {u : DebugUnit} (read : quayUnit? = some u) :
    functionsOf? quay u = some [pier] := by
  have computed : (quayUnit?.bind fun u => functionsOf? quay u) = some [pier] := by decide +kernel
  rwa [read] at computed

/-- A function below a variable has code and a name, and is not collected. -/
theorem nested_function_left_out : ∃ u tree p t, quayUnit? = some u ∧
    u.reader.treeAt? u.reader.header.entriesOffset (fun _ => true) = some tree ∧
    Leads (fun _ => true) tree p t ∧ IsFunction quay u t ∧
    functionsOf? quay u = some [pier] ∧ ¬ Called quay u t.entry pier.name := by
  have computed : (quayUnit?.bind fun u =>
      (u.reader.treeAt? u.reader.header.entriesOffset fun _ => true).map fun tree =>
        (below (fun _ => true) tree).any fun m => m.2.tag == .subprogram &&
          (functionHeader? quay u m.2.entry).join.any (·.name == "crane")) = some true := by
    decide +kernel
  obtain ⟨u, unit, computed⟩ := Option.bind_eq_some_iff.mp computed
  obtain ⟨tree, read, computed⟩ := Option.map_eq_some_iff.mp computed
  obtain ⟨⟨p, t⟩, member, found⟩ := List.any_eq_true.mp computed
  rw [Bool.and_eq_true, beq_iff_eq] at found
  obtain ⟨tag, header⟩ := found
  cases joined : (functionHeader? quay u t.entry).join with
  | none => simp [joined] at header
  | some h =>
    have described := Option.join_eq_some_iff.mp joined
    have name : h.name = "crane" := by simpa [joined] using header
    obtain ⟨_, called, _⟩ := functionHeader_iff.mp described
    have isFunction : IsFunction quay u t := (header_isSome tag described).mp rfl
    refine ⟨u, tree, p, t, unit, read, mem_below.mp member, isFunction, quay_collected unit, ?_⟩
    intro other
    have same := (functionName_iff.mpr called).symm.trans (functionName_iff.mpr other)
    rw [name] at same
    exact absurd same (by decide)

/-- In that unit the function around the variable is collected, with its parameter and the variable. -/
theorem collected_functions_quay : ∃ u root, quayUnit? = some u ∧
    u.reader.treeAt? u.reader.header.entriesOffset isEntered = some root ∧
    functionsIn? quay u root = some [pier] ∧ Readable quay u root ∧
    ∃ found : List (Position × FunctionInfo), (found.map (·.2)).Perm [pier] ∧
      found.Pairwise (fun a b => a.1 < b.1) ∧
      (∀ p, (∃ f, (p, f) ∈ found) ↔ ∃ t, Leads isEntered root p t ∧ IsFunction quay u t) ∧
      ∀ p f, (p, f) ∈ found → ∃ t, Leads isEntered root p t ∧ Describes quay u t f := by
  have computed : (quayUnit?.bind fun u =>
      (u.reader.treeAt? u.reader.header.entriesOffset isEntered).map fun _ => ()) = some () := by
    decide +kernel
  obtain ⟨u, unit, computed⟩ := Option.bind_eq_some_iff.mp computed
  obtain ⟨root, read, -⟩ := Option.map_eq_some_iff.mp computed
  obtain ⟨same, readable, collected, _⟩ := collected_functions quay u root
  have found : functionsIn? quay u root = some [pier] := by rw [← same read, quay_collected unit]
  exact ⟨u, root, unit, read, found, readable.mp (by rw [found]; rfl), collected [pier] found⟩

end SourceDebugger.Dwarf
