import SourceDebugger.Breakpoint.Traps
/-!
The table of traps as a function of addresses. Entries that share an address with an earlier one are
never seen, so nothing is claimed about them.
-/
namespace SourceDebugger

namespace Traps

variable {ts : Traps} {a b : UInt64}

theorem find?_address {t : Trap} (found : ts.find? a = some t) : t.address = a := by
  simpa using List.find?_some found

theorem contains_iff : ts.contains a = true ↔ ∃ t, ts.find? a = some t := Option.isSome_iff_exists

theorem contains_empty (empty : ts.entries = []) (a : UInt64) : ts.contains a = false := by
  rw [contains, find?, empty]
  rfl

theorem find?_insert (t : Trap) :
    (ts.insert t).find? a = if t.address = a then some t else ts.find? a := by
  simp only [insert, find?, List.find?_cons]
  by_cases here : t.address = a
  · simp [here]
  · simp [here]

theorem find?_update {f : Trap → Trap} (keeps : ∀ t, t.address = b → (f t).address = b) :
    (ts.update b f).find? a = if a = b then (ts.find? a).map f else ts.find? a := by
  obtain ⟨entries⟩ := ts
  simp only [update, find?]
  induction entries with
  | nil => simp
  | cons t rest ih =>
    rw [List.map_cons, List.find?_cons, List.find?_cons, ih]
    by_cases here : t.address = b
    · have kept := keeps t here
      by_cases same : a = b
      · subst same
        simp [here, kept]
      · simp [here, kept, same, Ne.symm same]
    · by_cases same : t.address = a
      · have other : a ≠ b := fun h => here (same.trans h)
        simp [same, other]
      · simp [here, same]

/-- A trap is exchanged for another. -/
theorem find?_replace {t u : Trap} (found : ts.find? b = some t) (address : u.address = b) :
    (ts.update b fun _ => u).find? a = if a = b then some u else ts.find? a := by
  rw [find?_update fun _ _ => address]
  by_cases same : a = b
  · simp [same, found]
  · simp [same]

theorem find?_erase : (ts.erase b).find? a = if a = b then none else ts.find? a := by
  obtain ⟨entries⟩ := ts
  simp only [erase, find?]
  induction entries with
  | nil => simp
  | cons t rest ih =>
    by_cases here : t.address = b
    · by_cases same : a = b
      · simp [same]
      · simpa [here, same, Ne.symm same] using ih
    · by_cases same : t.address = a
      · have other : a ≠ b := fun h => here (same.trans h)
        simp [same, other]
      · simpa [here, same] using ih

theorem find?_forget {low high : UInt64} :
    (ts.forget low high).find? a = if a < low ∨ high ≤ a then ts.find? a else none := by
  obtain ⟨entries⟩ := ts
  simp only [forget, find?]
  induction entries with
  | nil => simp
  | cons t rest ih =>
    by_cases same : t.address = a
    · subst same
      by_cases kept : t.address < low ∨ high ≤ t.address
      · simp [kept]
      · simpa [kept] using ih
    · by_cases kept : t.address < low ∨ high ≤ t.address
      · simpa [kept, same] using ih
      · simpa [kept, same] using ih

theorem update_absent {f : Trap → Trap} (absent : ts.contains b = false) : ts.update b f = ts := by
  have other : ∀ t ∈ ts.entries, t.address ≠ b := by simpa [contains, find?] using absent
  have kept : ts.entries.map (fun t => if t.address = b then f t else t) = ts.entries :=
    (List.map_congr_left fun t entry => if_neg (other t entry)).trans (List.map_id' _)
  simp only [update, kept]

theorem length_mask (ts : Traps) (a : UInt64) (bytes : Bytes) :
    (ts.mask a bytes).length = bytes.length := by
  induction bytes generalizing a with
  | nil => rfl
  | cons b rest ih => simp [mask, ih]

/-- Below the end of the address space every byte is looked up in the table. -/
theorem mask_getElem? {bytes : Bytes} (room : a.toNat + bytes.length < 2 ^ 64) (i : Nat) :
    (ts.mask a bytes)[i]? = bytes[i]?.map (ts.covered (a + UInt64.ofNat i)) := by
  induction bytes generalizing a i with
  | nil => rfl
  | cons b rest ih =>
    rw [List.length_cons] at room
    have next : (a + 1).toNat = a.toNat + 1 := by
      rw [UInt64.toNat_add]
      exact Nat.mod_eq_of_lt (by simp; omega)
    have inner : a + 1 ≠ 0 := fun zero => by
      rw [zero] at next
      cases next
    rw [mask, if_neg inner]
    cases i with
    | zero => simp
    | succ i =>
      have place : a + 1 + UInt64.ofNat i = a + UInt64.ofNat (i + 1) := by
        rw [UInt64.add_assoc, UInt64.add_comm 1, UInt64.ofNat_add]
        rfl
      rw [List.getElem?_cons_succ, List.getElem?_cons_succ, ih (by omega), place]

/-- Breakpoints, and so many steps. -/
abbrev Owners := List BreakpointId × Nat

namespace Owners

def withUser (o : Owners) (id : BreakpointId) : Owners :=
  (if o.1.contains id then o.1 else id :: o.1, o.2)

def withoutUser (o : Owners) (id : BreakpointId) : Owners := (o.1.filter (· ≠ id), o.2)

def withStep (o : Owners) : Owners := (o.1, o.2 + 1)

def withoutStep (o : Owners) : Owners := (o.1, o.2 - 1)

/-- What is left of a trap that is released. Without owners it is gone. -/
def remaining (o : Owners) : Option Owners := if o.1.isEmpty && o.2 == 0 then none else some o

end Owners

/-- Who owns the trap at an address. -/
def owners (ts : Traps) (a : UInt64) : Option Owners :=
  (ts.find? a).map fun t => (t.users, t.steps)

theorem owners_update {ts : Traps} {a b : UInt64} {f : Trap → Trap}
    (keeps : ∀ t, (f t).byte = t.byte) {g : Owners → Owners}
    (does : ∀ t, ((f t).users, (f t).steps) = g (t.users, t.steps)) :
    (ts.update a f).owners b = if b = a then (ts.owners a).map g else ts.owners b := by
  have address (t : Trap) (here : t.address = a) : (f t).address = a :=
    (congrArg TrapByte.address (keeps t)).trans here
  rw [owners, find?_update address]
  split
  · rename_i same
    subst same
    simp [owners, Function.comp_def, does]
  · rfl

/-- A change of the trap byte alone changes no owners. -/
theorem owners_replace {ts : Traps} {a b : UInt64} {t u : Trap} (found : ts.find? a = some t)
    (address : u.address = a) (users : u.users = t.users) (steps : u.steps = t.steps) :
    (ts.update a fun _ => u).owners b = ts.owners b := by
  rw [owners, find?_replace found address]
  by_cases same : b = a
  · simp [same, owners, found, users, steps]
  · rw [if_neg same, owners]

theorem owners_eq_some {ts : Traps} {a : UInt64} {o : Owners} :
    ts.owners a = some o ↔ ∃ t, ts.find? a = some t ∧ (t.users, t.steps) = o := by
  rw [owners, Option.map_eq_some_iff]

theorem mem_users {ts : Traps} {a : UInt64} {id : BreakpointId} :
    id ∈ ts.users a ↔ ∃ o, ts.owners a = some o ∧ id ∈ o.1 := by
  rw [users, owners]
  cases ts.find? a with
  | none => simp
  | some t => simp

end Traps

end SourceDebugger
