import SourceDebugger.Dwarf.Tree
/-!
Where an entry stands in a tree. A walk down a tree enters only entries of some tags; the entries that
it meets are listed in the order in which they stand in the file.
-/
namespace SourceDebugger.Dwarf

namespace Tree

def entry : Tree → Entry
  | .node e _ => e

def children : Tree → List Tree
  | .node _ ts => ts

def tag (t : Tree) : Tag := t.entry.tag

/-- What holds of a tree if it holds of its children holds of all trees. -/
@[induction_eliminator]
theorem byChildren {motive : Tree → Prop}
    (node : ∀ e ts, (∀ t ∈ ts, motive t) → motive (.node e ts)) (t : Tree) : motive t :=
  match t with
  | .node e ts => node e ts fun u member =>
    have : sizeOf u < sizeOf (Tree.node e ts) :=
      Nat.lt_of_lt_of_le (List.sizeOf_lt_of_mem member) (by simp)
    byChildren node u
termination_by sizeOf t

end Tree

/-- The way down to an entry: at each level, which child it goes through. Entries stand in the file in
the lexicographic order of their positions. -/
abbrev Position := List Nat

/-- An entry stands below another one, and what lies between the two is entered. -/
inductive Leads (enter : Tag → Bool) : Tree → Position → Tree → Prop
  | child {t x : Tree} {i : Nat} : t.children[i]? = some x → Leads enter t [i] x
  | through {t c x : Tree} {i : Nat} {p : Position} : t.children[i]? = some c → enter c.tag = true →
      Leads enter c p x → Leads enter t (i :: p) x

section Leads

variable {enter other : Tag → Bool} {t x y : Tree} {p q : Position}

theorem Leads.ne_nil (leads : Leads enter t p x) : p ≠ [] := by cases leads <;> simp

theorem Leads.mono (wider : ∀ tag, enter tag = true → other tag = true) (leads : Leads enter t p x) :
    Leads other t p x := by
  induction leads with
  | child there => exact .child there
  | through there enters _ ih => exact .through there (wider _ enters) ih

/-- A position is that of one entry. -/
theorem Leads.unique (first : Leads enter t p x) (second : Leads other t p y) : x = y := by
  induction first with
  | child there =>
    cases second with
    | child here => exact Option.some.inj (there.symm.trans here)
    | through _ _ empty => exact absurd rfl empty.ne_nil
  | through there _ rest ih =>
    cases second with
    | child _ => exact absurd rfl rest.ne_nil
    | through here _ more =>
      cases Option.some.inj (there.symm.trans here)
      exact ih more

theorem Leads.trans (first : Leads enter t p x) (enters : enter x.tag = true)
    (second : Leads enter x q y) : Leads enter t (p ++ q) y := by
  induction first with
  | child there => exact .through there enters second
  | through there enters' _ ih => exact .through there enters' (ih enters second)

/-- What lies on the way to an entry is entered. -/
theorem Leads.split (leads : Leads enter t (p ++ q) y) (first : p ≠ []) (second : q ≠ []) :
    ∃ x, Leads enter t p x ∧ enter x.tag = true ∧ Leads enter x q y := by
  induction p generalizing t with
  | nil => exact absurd rfl first
  | cons i p ih =>
    cases p with
    | nil =>
      cases leads with
      | child _ => exact absurd rfl second
      | through there enters rest => exact ⟨_, .child there, enters, rest⟩
    | cons j p =>
      cases leads with
      | through there enters rest =>
        obtain ⟨x, before, entered, after⟩ := ih rest (List.cons_ne_nil j p)
        exact ⟨x, .through there enters before, entered, after⟩

end Leads

mutual

/-- The entries that a walk meets below an entry. -/
def below (enter : Tag → Bool) : Tree → List (Position × Tree)
  | .node _ children => belowFrom enter 0 children

/-- The same for siblings, the first of which has a number. -/
def belowFrom (enter : Tag → Bool) (i : Nat) : List Tree → List (Position × Tree)
  | [] => []
  | t :: rest => ([i], t) ::
      ((if enter t.tag then (below enter t).map fun x => (i :: x.1, x.2) else []) ++
        belowFrom enter (i + 1) rest)

end

section Below

variable {enter : Tag → Bool}

theorem mem_belowFrom {ts : List Tree} {i : Nat} {p : Position} {x : Tree} :
    (p, x) ∈ belowFrom enter i ts ↔ ∃ k t, ts[k]? = some t ∧
      (p = [i + k] ∧ x = t ∨
        enter t.tag = true ∧ ∃ q, p = (i + k) :: q ∧ (q, x) ∈ below enter t) := by
  induction ts generalizing i with
  | nil => simp [belowFrom]
  | cons t rest ih =>
    rw [belowFrom, List.mem_cons, List.mem_append, ih]
    constructor
    · rintro (here | inner | ⟨k, u, there, found⟩)
      · obtain ⟨rfl, rfl⟩ := Prod.mk.inj here
        exact ⟨0, x, rfl, .inl ⟨rfl, rfl⟩⟩
      · split at inner
        · rename_i enters
          obtain ⟨⟨q, y⟩, met, same⟩ := List.mem_map.mp inner
          cases same
          exact ⟨0, t, rfl, .inr ⟨enters, q, rfl, met⟩⟩
        · exact absurd inner List.not_mem_nil
      · refine ⟨k + 1, u, there, ?_⟩
        rwa [Nat.add_right_comm, Nat.add_assoc] at found
    · rintro ⟨k, u, there, found⟩
      cases k with
      | zero =>
        cases there
        rcases found with ⟨rfl, rfl⟩ | ⟨enters, q, rfl, met⟩
        · exact .inl rfl
        · refine .inr (.inl ?_)
          rw [if_pos enters]
          exact List.mem_map.mpr ⟨(q, x), met, rfl⟩
      | succ k =>
        refine .inr (.inr ⟨k, u, there, ?_⟩)
        rwa [Nat.add_right_comm, Nat.add_assoc]

theorem leads_of_mem {t x : Tree} {p : Position} (met : (p, x) ∈ below enter t) :
    Leads enter t p x := by
  induction t generalizing p with
  | node e ts ih =>
    rw [below, mem_belowFrom] at met
    obtain ⟨k, c, there, found⟩ := met
    rw [Nat.zero_add] at found
    rcases found with ⟨rfl, rfl⟩ | ⟨enters, q, rfl, met⟩
    · exact .child there
    · exact .through there enters (ih c (List.mem_of_getElem? there) met)

theorem mem_below {t x : Tree} {p : Position} : (p, x) ∈ below enter t ↔ Leads enter t p x := by
  constructor
  · exact leads_of_mem
  · intro leads
    induction leads with
    | @child t x i there =>
      obtain ⟨e, ts⟩ := t
      rw [below, mem_belowFrom]
      exact ⟨i, x, there, .inl ⟨by rw [Nat.zero_add], rfl⟩⟩
    | @through t c x i p there enters _ ih =>
      obtain ⟨e, ts⟩ := t
      rw [below, mem_belowFrom]
      exact ⟨i, c, there, .inr ⟨enters, p, by rw [Nat.zero_add], ih⟩⟩

theorem belowFrom_ordered {ts : List Tree} (i : Nat)
    (inner : ∀ t ∈ ts, (below enter t).Pairwise fun a b => a.1 < b.1) :
    (belowFrom enter i ts).Pairwise fun a b => a.1 < b.1 := by
  induction ts generalizing i with
  | nil => exact .nil
  | cons t rest ih =>
    obtain ⟨first, others⟩ := List.forall_mem_cons.mp inner
    have shifted : ((below enter t).map fun x => (i :: x.1, x.2)).Pairwise fun a b => a.1 < b.1 := by
      refine List.pairwise_map.mpr (first.imp fun before => ?_)
      exact List.cons_lt_cons_iff.mpr (.inr ⟨rfl, before⟩)
    have behind {p q : Position} {x : Tree} (met : (q, x) ∈ belowFrom enter (i + 1) rest) :
        i :: p < q := by
      obtain ⟨k, u, _, ⟨rfl, _⟩ | ⟨_, r, rfl, _⟩⟩ := mem_belowFrom.mp met <;>
        exact List.cons_lt_cons_iff.mpr (.inl (by omega))
    rw [belowFrom]
    split
    · refine List.pairwise_cons.mpr ⟨fun y met => ?_, List.pairwise_append.mpr
        ⟨shifted, ih (i + 1) others, fun y met z later => ?_⟩⟩
      · rcases List.mem_append.mp met with met | met
        · obtain ⟨z, inside, rfl⟩ := List.mem_map.mp met
          have proper := (leads_of_mem inside).ne_nil
          obtain ⟨j, p, same⟩ := List.exists_cons_of_ne_nil proper
          simp [same]
        · exact behind met
      · obtain ⟨y, _, rfl⟩ := List.mem_map.mp met
        exact behind later
    · exact List.pairwise_cons.mpr ⟨fun y met => behind met, ih (i + 1) others⟩

/-- A walk meets entries in the order in which they stand in the file. -/
theorem below_ordered (t : Tree) : (below enter t).Pairwise fun a b => a.1 < b.1 := by
  induction t with
  | node e ts ih => exact belowFrom_ordered 0 ih

/-- The entries that a walk through siblings meets, without their positions. -/
def met (enter : Tag → Bool) (ts : List Tree) : List Tree :=
  ts.flatMap fun t => t :: if enter t.tag then (below enter t).map (·.2) else []

theorem belowFrom_met (i : Nat) (ts : List Tree) : (belowFrom enter i ts).map (·.2) = met enter ts := by
  induction ts generalizing i with
  | nil => rfl
  | cons t rest ih =>
    rw [belowFrom, List.map_cons, List.map_append, ih, met, met, List.flatMap_cons, List.cons_append]
    split <;> simp [Function.comp_def]

theorem below_met (t : Tree) : (below enter t).map (·.2) = met enter t.children := by
  obtain ⟨e, ts⟩ := t
  rw [below]
  exact belowFrom_met 0 ts

theorem met_cons (t : Tree) (rest : List Tree) :
    met enter (t :: rest) = met enter [t] ++ met enter rest := by
  simp [met]

theorem met_one (t : Tree) :
    met enter [t] = t :: if enter t.tag then met enter t.children else [] := by
  rw [← below_met]
  simp [met]

theorem mem_met {t x : Tree} : x ∈ met enter t.children ↔ ∃ p, Leads enter t p x := by
  simp only [← below_met, List.mem_map, Prod.exists, mem_below, exists_eq_right]

end Below

end SourceDebugger.Dwarf
