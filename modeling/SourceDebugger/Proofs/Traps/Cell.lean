import SourceDebugger.Proofs.Traps.Table
/-!
One address and what is done to its trap. What is there, a trap or none and a byte, follows from what
was done there so far: who came and did not leave, and whether the trap was lifted since. Histories
have the latest deed first.
-/
namespace SourceDebugger

/-- What can be done to the trap at an address. -/
inductive TrapDeed where
  | addUser (id : BreakpointId)
  | removeUser (id : BreakpointId)
  | addStep
  | removeStep
  | lift
  | restore
  deriving DecidableEq, Repr

namespace TrapDeed

/-- A breakpoint came and did not leave. That it came twice makes no difference. -/
def Uses (id : BreakpointId) : List TrapDeed → Prop
  | [] => False
  | deed :: past => deed = .addUser id ∨ deed ≠ .removeUser id ∧ Uses id past

/-- How many steps came and did not leave. -/
def steps (past : List TrapDeed) : Nat := past.count .addStep - past.count .removeStep

def Owned (past : List TrapDeed) : Prop := (∃ id, Uses id past) ∨ 0 < steps past

/-- No step leaves that did not come. -/
def Solvent : List TrapDeed → Prop
  | [] => True
  | deed :: past => Solvent past ∧ (deed = .removeStep → 0 < steps past)

/-- The trap was lifted and not restored. A trap without owners goes, and is lifted no longer. -/
def Lifted : List TrapDeed → Prop
  | [] => False
  | deed :: past => (deed = .lift ∨ deed ≠ .restore ∧ Lifted past) ∧ Owned (deed :: past)

section History

variable {past : List TrapDeed} {deed : TrapDeed} {id : BreakpointId}

theorem Lifted.owned (lifted : Lifted past) : Owned past := by
  cases past with
  | nil => exact lifted.elim
  | cons deed past => exact lifted.2

theorem Solvent.count_le (solvent : Solvent past) :
    past.count .removeStep ≤ past.count .addStep := by
  induction past with
  | nil => exact Nat.le_refl 0
  | cons deed past ih =>
    have before := ih solvent.1
    have left := solvent.2
    rw [steps] at left
    rw [List.count_cons, List.count_cons]
    cases deed <;> simp at left ⊢ <;> omega

theorem steps_addStep (solvent : Solvent past) : steps (.addStep :: past) = steps past + 1 := by
  have behind := solvent.count_le
  simp [steps]
  omega

theorem steps_removeStep : steps (.removeStep :: past) = steps past - 1 := by
  simp [steps]
  omega

theorem steps_other (came : deed ≠ .addStep) (left : deed ≠ .removeStep) :
    steps (deed :: past) = steps past := by
  simp [steps, came, left]

theorem uses_other (came : deed ≠ .addUser id) (left : deed ≠ .removeUser id) :
    Uses id (deed :: past) ↔ Uses id past := by
  simp [Uses, came, left]

/-- Whether a trap stays lifted is a matter of its owners. -/
theorem lifted_other (lifts : deed ≠ .lift) (restores : deed ≠ .restore) :
    Lifted (deed :: past) ↔ Lifted past ∧ Owned (deed :: past) := by
  simp [Lifted, lifts, restores]

end History

end TrapDeed

namespace Traps

/-- What is at an address: what the table has there, and what memory has. -/
structure Cell where
  trap : Option Trap
  byte : UInt8

namespace Cell

def acquire (a : UInt64) (c : Cell) : Cell :=
  match c.trap with
  | none => ⟨some ⟨⟨a, c.byte, true⟩, [], 0⟩, trapByte⟩
  | some _ => c

def own (f : Trap → Trap) (c : Cell) : Cell := { c with trap := c.trap.map f }

def release (c : Cell) : Cell :=
  match c.trap with
  | none => c
  | some t =>
    if t.isUnused then ⟨none, if t.byte.inserted then t.byte.covered else c.byte⟩ else c

def lift (c : Cell) : Cell :=
  match c.trap with
  | none => c
  | some t =>
    if t.byte.inserted then
      ⟨some { t with byte := { t.byte with inserted := false } }, t.byte.covered⟩
    else c

def restore (c : Cell) : Cell :=
  match c.trap with
  | none => c
  | some t =>
    if t.byte.inserted then c
    else ⟨some { t with byte := { t.byte with covered := c.byte, inserted := true } }, trapByte⟩

/-- What a deed at an address makes of what is there. -/
def after (a : UInt64) (c : Cell) : TrapDeed → Cell
  | .addUser id => (c.acquire a).own (.addUser id)
  | .removeUser id => (c.own (.removeUser id)).release
  | .addStep => (c.acquire a).own fun t => { t with steps := t.steps + 1 }
  | .removeStep => (c.own fun t => { t with steps := t.steps - 1 }).release
  | .lift => c.lift
  | .restore => c.restore

/-- The byte that the trap covers if it is inserted, and else the byte in memory. -/
def seen (c : Cell) : UInt8 :=
  match c.trap with
  | some t => if t.byte.inserted then t.byte.covered else c.byte
  | none => c.byte

end Cell

open TrapDeed

/-- A trap knows its owners. -/
structure Knows (past : List TrapDeed) (t : Trap) : Prop where
  users : ∀ id, id ∈ t.users ↔ Uses id past
  steps : t.steps = steps past

/-- What is at an address where this was done and this byte was first. -/
inductive Settled (past : List TrapDeed) (initial : UInt8) : Cell → Prop
  | free (unowned : ¬ Owned past) : Settled past initial ⟨none, initial⟩
  | inserted {t : Trap} (knows : Knows past t) (owned : Owned past) (down : ¬ Lifted past)
      (there : t.byte.inserted = true) (covers : t.byte.covered = initial) :
      Settled past initial ⟨some t, trapByte⟩
  | lifted {t : Trap} (knows : Knows past t) (up : Lifted past) (away : t.byte.inserted = false) :
      Settled past initial ⟨some t, initial⟩

section Settled

variable {past : List TrapDeed} {deed : TrapDeed} {a : UInt64} {initial : UInt8} {c : Cell}
  {t : Trap}

theorem Knows.isUnused (knows : Knows past t) : t.isUnused = true ↔ ¬ Owned past := by
  have nobody : t.users = [] ↔ ¬ ∃ id, Uses id past := by
    rw [List.eq_nil_iff_forall_not_mem, not_exists]
    exact forall_congr' fun id => not_congr (knows.users id)
  rw [Trap.isUnused, Bool.and_eq_true, List.isEmpty_iff, beq_iff_eq, knows.steps, nobody, Owned,
    not_or, Nat.not_lt, Nat.le_zero]

/-- Where nobody is, a new trap has nobody. -/
theorem knows_nobody (unowned : ¬ Owned past) (byte : TrapByte) : Knows past ⟨byte, [], 0⟩ where
  users id := by
    have unused : ¬ Uses id past := fun uses => unowned (.inl ⟨id, uses⟩)
    simp [unused]
  steps := by
    have none : ¬ 0 < steps past := fun some => unowned (.inr some)
    show 0 = steps past
    omega

theorem Knows.addUser (knows : Knows past t) (id : BreakpointId) :
    Knows (.addUser id :: past) (t.addUser id) where
  users other := by
    have member : other ∈ (t.addUser id).users ↔ other = id ∨ other ∈ t.users := by
      rw [Trap.addUser]
      dsimp only
      split
      · rename_i contained
        have here : id ∈ t.users := by simpa using contained
        exact ⟨.inr, fun h => h.elim (fun same => same ▸ here) fun h => h⟩
      · exact List.mem_cons
    rw [member, knows.users other]
    simp [Uses, eq_comm]
  steps := by
    rw [steps_other (by simp) (by simp)]
    exact knows.steps

theorem Knows.removeUser (knows : Knows past t) (id : BreakpointId) :
    Knows (.removeUser id :: past) (t.removeUser id) where
  users other := by
    rw [Trap.removeUser, List.mem_filter, knows.users other]
    by_cases same : other = id
    · simp [Uses, same]
    · simp [Uses, same, Ne.symm same]
  steps := by
    rw [steps_other (by simp) (by simp)]
    exact knows.steps

theorem Knows.addStep (knows : Knows past t) (solvent : Solvent past) :
    Knows (.addStep :: past) { t with steps := t.steps + 1 } where
  users id := by rw [uses_other (by simp) (by simp), ← knows.users id]
  steps := by rw [steps_addStep solvent, ← knows.steps]

theorem Knows.removeStep (knows : Knows past t) :
    Knows (.removeStep :: past) { t with steps := t.steps - 1 } where
  users id := by rw [uses_other (by simp) (by simp), ← knows.users id]
  steps := by rw [steps_removeStep, ← knows.steps]

/-- A trap keeps its owners when its byte changes. -/
theorem Knows.turn (knows : Knows past t) (byte : TrapByte)
    (turns : deed = .lift ∨ deed = .restore) : Knows (deed :: past) { t with byte } := by
  constructor
  · intro id
    rw [uses_other (by rcases turns with rfl | rfl <;> simp)
      (by rcases turns with rfl | rfl <;> simp), ← knows.users id]
  · rw [steps_other (by rcases turns with rfl | rfl <;> simp)
      (by rcases turns with rfl | rfl <;> simp), ← knows.steps]

theorem owned_turn (turns : deed = .lift ∨ deed = .restore) :
    Owned (deed :: past) ↔ Owned past := by
  rcases turns with rfl | rfl <;> simp [Owned, Uses, steps]

/-- Who comes finds a trap or makes one. -/
theorem Settled.come {f : Trap → Trap} (settled : Settled past initial c)
    (keeps : ∀ t, (f t).byte = t.byte)
    (knows : ∀ {t}, Knows past t → Knows (deed :: past) (f t)) (owned : Owned (deed :: past))
    (lifts : deed ≠ .lift) (restores : deed ≠ .restore) :
    Settled (deed :: past) initial ((c.acquire a).own f) := by
  have up : Lifted (deed :: past) ↔ Lifted past ∧ Owned (deed :: past) := lifted_other lifts restores
  cases settled with
  | free unowned =>
    exact .inserted (knows (knows_nobody unowned _)) owned
      (fun h => unowned (up.mp h).1.owned) (by rw [keeps]) (by rw [keeps])
  | inserted known _ down there covers =>
    exact .inserted (knows known) owned (fun h => down (up.mp h).1) (by rw [keeps, there])
      (by rw [keeps, covers])
  | lifted known before away =>
    exact .lifted (knows known) (up.mpr ⟨before, owned⟩) (by rw [keeps, away])

/-- Who leaves last leaves the byte that was there first. -/
theorem Settled.leave {f : Trap → Trap} (settled : Settled past initial c)
    (keeps : ∀ t, (f t).byte = t.byte)
    (knows : ∀ {t}, Knows past t → Knows (deed :: past) (f t))
    (before : Owned (deed :: past) → Owned past)
    (lifts : deed ≠ .lift) (restores : deed ≠ .restore) :
    Settled (deed :: past) initial (c.own f).release := by
  have up : Lifted (deed :: past) ↔ Lifted past ∧ Owned (deed :: past) := lifted_other lifts restores
  cases settled with
  | free unowned => exact .free (mt before unowned)
  | @inserted t known _ down there covers =>
    have knows := knows known
    by_cases owned : Owned (deed :: past)
    · have used : ¬ (f t).isUnused = true := fun unused => knows.isUnused.mp unused owned
      simp only [Cell.release, Cell.own, Option.map_some, if_neg used]
      exact .inserted knows owned (fun h => down (up.mp h).1) (by rw [keeps, there])
        (by rw [keeps, covers])
    · simp only [Cell.release, Cell.own, Option.map_some, if_pos (knows.isUnused.mpr owned), keeps,
        there, if_true, covers]
      exact .free owned
  | @lifted t known lifted away =>
    have knows := knows known
    by_cases owned : Owned (deed :: past)
    · have used : ¬ (f t).isUnused = true := fun unused => knows.isUnused.mp unused owned
      simp only [Cell.release, Cell.own, Option.map_some, if_neg used]
      exact .lifted knows (up.mpr ⟨lifted, owned⟩) (by rw [keeps, away])
    · simp only [Cell.release, Cell.own, Option.map_some, if_pos (knows.isUnused.mpr owned), keeps,
        away, Bool.false_eq_true, if_false]
      exact .free owned

theorem Settled.lift (settled : Settled past initial c) :
    Settled (.lift :: past) initial c.lift := by
  have same : Owned (.lift :: past) ↔ Owned past := owned_turn (.inl rfl)
  cases settled with
  | free unowned => exact .free (mt same.mp unowned)
  | inserted known owned down there covers =>
    simp only [Cell.lift, there, if_true, covers]
    exact .lifted (known.turn _ (.inl rfl)) ⟨.inl rfl, same.mpr owned⟩ rfl
  | @lifted t known up away =>
    simp only [Cell.lift, away, Bool.false_eq_true, if_false]
    exact .lifted (known.turn t.byte (.inl rfl)) ⟨.inl rfl, same.mpr up.owned⟩ away

/-- The byte that is covered anew is the one that was there first. -/
theorem Settled.restore (settled : Settled past initial c) :
    Settled (.restore :: past) initial c.restore := by
  have same : Owned (.restore :: past) ↔ Owned past := owned_turn (.inr rfl)
  have down : ¬ Lifted (.restore :: past) := by simp [Lifted]
  cases settled with
  | free unowned => exact .free (mt same.mp unowned)
  | @inserted t known owned _ there covers =>
    simp only [Cell.restore, there, if_true]
    exact .inserted (known.turn t.byte (.inr rfl)) (same.mpr owned) down there covers
  | lifted known up away =>
    simp only [Cell.restore, away, Bool.false_eq_true, if_false]
    exact .inserted (known.turn _ (.inr rfl)) (same.mpr up.owned) down rfl rfl

/-- One more deed at the address. -/
theorem Settled.after (settled : Settled past initial c) (solvent : Solvent (deed :: past)) :
    Settled (deed :: past) initial (c.after a deed) := by
  cases deed with
  | addUser id =>
    exact settled.come (fun _ => rfl) (·.addUser id) (.inl ⟨id, .inl rfl⟩) (by simp) (by simp)
  | removeUser id =>
    refine settled.leave (fun _ => rfl) (·.removeUser id) (fun owned => ?_) (by simp) (by simp)
    rcases owned with ⟨other, uses⟩ | left
    · exact .inl ⟨other, (uses.resolve_left (by simp)).2⟩
    · rw [steps_other (by simp) (by simp)] at left
      exact .inr left
  | addStep =>
    refine settled.come (fun _ => rfl) (·.addStep solvent.1) (.inr ?_) (by simp) (by simp)
    rw [steps_addStep solvent.1]
    exact Nat.succ_pos _
  | removeStep =>
    refine settled.leave (fun _ => rfl) (·.removeStep) (fun owned => ?_) (by simp) (by simp)
    rcases owned with ⟨other, uses⟩ | left
    · exact .inl ⟨other, (uses_other (by simp) (by simp)).mp uses⟩
    · rw [steps_removeStep] at left
      exact .inr (by omega)
  | lift => exact settled.lift
  | restore => exact settled.restore

/-- All that was done at the address. -/
theorem settled_foldr (a : UInt64) (initial : UInt8) (solvent : Solvent past) :
    Settled past initial (past.foldr (fun deed c => c.after a deed) ⟨none, initial⟩) := by
  induction past with
  | nil => exact .free (by simp [Owned, Uses, steps])
  | cons deed past ih => exact (ih solvent.1).after solvent

theorem Settled.trap_isSome (settled : Settled past initial c) :
    c.trap.isSome = true ↔ Owned past := by
  cases settled with
  | free unowned => simp [unowned]
  | inserted _ owned => simp [owned]
  | lifted _ up => simp [up.owned]

theorem Settled.trapped (settled : Settled past initial c) (owned : Owned past)
    (down : ¬ Lifted past) : c.byte = trapByte := by
  cases settled with
  | free unowned => exact absurd owned unowned
  | inserted => rfl
  | lifted _ up => exact absurd up down

theorem Settled.clear (settled : Settled past initial c) (clear : ¬ Owned past ∨ Lifted past) :
    c.byte = initial := by
  cases settled with
  | free => rfl
  | inserted _ owned down => exact absurd clear (by simp [owned, down])
  | lifted => rfl

theorem Settled.seen_eq (settled : Settled past initial c) : c.seen = initial := by
  cases settled with
  | free => rfl
  | inserted _ _ _ there covers => simp [Cell.seen, there, covers]
  | lifted _ _ away => simp [Cell.seen, away]

end Settled

end Traps

end SourceDebugger
