import Mathlib.Data.List.Nodup
import SourceDebugger.Proofs.Program.Body
/-!
The slots of a function's variables. No two overlap, so a slot tells whose it is; where names are
told apart, a name has the slot of its variable. Arguments are spilled in the order in which they
are declared.
-/
namespace SourceDebugger.Machine

/-- The slot of a variable ends where that of an earlier one begins, or further below. -/
def Deeper (v w : VariableInfo) : Prop :=
  ∃ c d, v.place = slotAt c ∧ w.place = slotAt d ∧ c.toNat + w.type.byteSize.toNat ≤ d.toNat

theorem slots_deeper (used : UInt64) (vars : List (String × VarType))
    (room : used.toNat + 16 * vars.length < 2 ^ 64) : (slots used vars).1.Pairwise Deeper := by
  induction vars generalizing used with
  | nil => exact .nil
  | cons first rest ih =>
    obtain ⟨name, type⟩ := first
    rw [List.length_cons] at room
    have slot := (byteSize_slot type).1
    have sum : (used + alignUp type.valueType.byteSize 8).toNat =
        used.toNat + (alignUp type.valueType.byteSize 8).toNat := by
      rw [UInt64.toNat_add]
      exact Nat.mod_eq_of_lt (by omega)
    refine .cons (fun w later => ?_) (ih _ (by omega))
    obtain ⟨depth, place, fits, _⟩ := mem_slots (by omega) later
    exact ⟨_, depth, rfl, place, fits⟩

namespace Function

variable {f : Function} {v w : VariableInfo}

theorem known_deeper (small : f.footprint < 2 ^ 62) : f.known.Pairwise Deeper := by
  rw [footprint] at small
  have zero : (0 : UInt64).toNat = 0 := rfl
  have first := slots_room 0 f.arguments (by omega)
  refine List.pairwise_append.mpr ⟨slots_deeper _ _ (by omega), slots_deeper _ _ (by omega),
    fun v argument w local_ => ?_⟩
  obtain ⟨c, above, _, upper⟩ := mem_slots (by omega) argument
  obtain ⟨d, below, lower, _⟩ := mem_slots (by omega) local_
  exact ⟨c, d, above, below, by omega⟩

/-- Of two variables, one lies deeper. -/
theorem known_cases (small : f.footprint < 2 ^ 62) (one : v ∈ f.known) (other : w ∈ f.known) :
    v = w ∨ Deeper v w ∨ Deeper w v := by
  obtain ⟨i, here, rfl⟩ := List.getElem_of_mem one
  obtain ⟨j, there, rfl⟩ := List.getElem_of_mem other
  have order := List.pairwise_iff_getElem.mp (f.known_deeper small)
  rcases Nat.lt_trichotomy i j with before | rfl | behind
  · exact .inr (.inl (order i j here there before))
  · exact .inl rfl
  · exact .inr (.inr (order j i there here behind))

end Function

theorem slotAt_injective {c d : UInt64} (same : slotAt c = slotAt d) : c = d := by
  have offsets := Place.frame.inj same
  have words : (-c.toInt64).toUInt64 = (-d.toInt64).toUInt64 := by rw [offsets]
  rw [Int64.toUInt64_neg, Int64.toUInt64_neg, UInt64.toUInt64_toInt64, UInt64.toUInt64_toInt64] at words
  exact UInt64.neg_inj.mp words

namespace Function

variable {f : Function} {v w : VariableInfo}

/-- No variable lies deeper than another in the same slot. -/
theorem not_deeper (known : w ∈ f.known) (same : v.place = w.place) : ¬ Deeper v w := by
  rintro ⟨c, d, above, below, room⟩
  have equal := slotAt_injective (above.symm.trans (same.trans below))
  have real := size_positive known
  subst equal
  omega

/-- A slot tells whose it is. -/
theorem known_injective (small : f.footprint < 2 ^ 62) (one : v ∈ f.known) (other : w ∈ f.known)
    (same : v.place = w.place) : v = w := by
  rcases f.known_cases small one other with equal | deeper | deeper
  · exact equal
  · exact absurd deeper (not_deeper other same)
  · exact absurd deeper (not_deeper one same.symm)

theorem known_nodup (small : f.footprint < 2 ^ 62) : f.known.Nodup := by
  refine (List.Pairwise.and_mem.mp (f.known_deeper small)).imp fun ordered same => ?_
  obtain ⟨_, known, deeper⟩ := ordered
  exact not_deeper known (congrArg VariableInfo.place same) deeper

/-- No two variables of the function have one name. -/
def Distinct (f : Function) : Prop := ((f.arguments ++ f.locals).map (·.1)).Nodup

instance (f : Function) : Decidable f.Distinct := inferInstanceAs (Decidable (List.Nodup _))

/-- The slot of a name is that of the variable with the name. -/
theorem slotOf_known (distinct : f.Distinct) (small : f.footprint < 2 ^ 62) {s : Scope}
    (scope : s.known = f.known) (member : v ∈ f.known) :
    (s.slotOf? v.name).map Place.frame = some v.place := by
  have names : f.known.map (·.name) = (f.arguments ++ f.locals).map (·.1) := by
    have both := congrArg (List.map Prod.fst) f.names_known
    rwa [List.map_map, List.map_map] at both
  have nodup : (f.known.map (·.name)).Nodup := names ▸ distinct
  obtain ⟨w, found⟩ : ∃ w, f.known.reverse.find? (·.name = v.name) = some w := by
    refine Option.isSome_iff_exists.mp (List.find?_isSome.mpr ⟨v, List.mem_reverse.mpr member, ?_⟩)
    exact decide_eq_true rfl
  have known : w ∈ f.known := List.mem_reverse.mp (List.mem_of_find?_eq_some found)
  have same : w = v :=
    List.inj_on_of_nodup_map nodup known member (by simpa using List.find?_some found)
  obtain ⟨depth, place, _⟩ := f.slot_known small member
  rw [Scope.slotOf?, scope, found, same]
  obtain ⟨name, type, _⟩ := v
  cases place
  rfl

end Function

end SourceDebugger.Machine
