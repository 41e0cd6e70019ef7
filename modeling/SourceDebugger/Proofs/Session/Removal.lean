import SourceDebugger.Proofs.Session.Held
import SourceDebugger.Proofs.Session.Lifecycle
/-!
Removing a breakpoint. It is one no longer whether or not its trap can be taken out of memory, and a trap
that nobody owns any more is out of the table even while its byte is still there. Whether a stop is a hit
of the debugger's is decided by the table when the stop is told; so a program that has met the trap before
the removal, or meets what is left of it, has stopped at a trap of its own.
-/
namespace SourceDebugger

open Effect Traps

section Table

variable {δ : Type} [Debuggee δ] {i : Instrumented δ} {a b : UInt64}

theorem Traps.owners_erase {ts : Traps} : (ts.erase a).owners b = if b = a then none else ts.owners b := by
  rw [owners, find?_erase]
  split <;> rfl

omit [Debuggee δ] in
/-- What is kept of a byte is kept for nobody if there is no trap in the table. -/
theorem Instrumented.onByte_absent {t : Trap} (absent : i.traps.contains t.address = false)
    (f : TrapByte → StateM δ (TrapByte × Except Fault Unit)) : (onByte t f i).2.traps = i.traps := by
  rw [onByte]
  rcases f t.byte i.debuggee with ⟨⟨byte, e | _⟩, d⟩
  · exact update_absent absent
  · rfl

/-- A trap that nobody owns leaves the table, even if its byte cannot be put back. -/
theorem Instrumented.owners_release : (release a i).2.traps.owners b =
    if b = a then (i.traps.owners a).bind Owners.remaining else i.traps.owners b := by
  rw [release, bind_ok (get_run i)]
  cases found : i.traps.find? a with
  | none =>
    have nobody : i.traps.owners a = none := by rw [owners, found]; rfl
    by_cases same : b = a
    · simp [same, nobody]
    · simp [same]
  | some t =>
    have held : i.traps.owners a = some (t.users, t.steps) := by rw [owners, found]; rfl
    dsimp only
    rw [ite_run, held, Option.bind_some, Owners.remaining, ← Trap.isUnused]
    split
    · have erased : (i.traps.erase a).contains t.address = false := by
        rw [find?_address found, contains, find?_erase, if_pos rfl]
        rfl
      have kept := onByte_absent (i := ⟨i.traps.erase a, i.debuggee⟩) erased TrapByte.remove
      have run : (setTraps (·.erase a) : Access (Instrumented δ) Unit) i =
        (.ok (), ⟨i.traps.erase a, i.debuggee⟩) := rfl
      rw [bind_ok run, bind_run]
      rcases done : onByte t TrapByte.remove ⟨i.traps.erase a, i.debuggee⟩ with ⟨_ | _, j⟩ <;>
      · rw [done] at kept
        show j.traps.owners b = _
        rw [kept, owners_erase]
    · by_cases same : b = a
      · rw [if_pos same, same, pure_run, held]
      · rw [if_neg same, pure_run]

theorem Instrumented.owners_removeUser (id : BreakpointId) : (removeUser a id i).2.traps.owners b =
    if b = a then (i.traps.owners a).bind fun o => (o.withoutUser id).remaining
    else i.traps.owners b := by
  have run : (setTraps (·.update a (.removeUser id)) : Access (Instrumented δ) Unit) i =
    (.ok (), ⟨i.traps.update a (.removeUser id), i.debuggee⟩) := rfl
  have disowned {b : UInt64} : (i.traps.update a (.removeUser id)).owners b =
      if b = a then (i.traps.owners a).map (·.withoutUser id) else i.traps.owners b :=
    owners_update (f := .removeUser id) (g := (·.withoutUser id)) (fun _ => rfl) fun _ => rfl
  rw [removeUser, bind_ok run, owners_release, disowned, disowned, if_pos rfl]
  by_cases same : b = a
  · simp only [same, if_true, Option.bind_map]
    rfl
  · simp only [same, if_false]

end Table

namespace Session

/-- No breakpoint with this number takes part in anything. -/
def Unlisted (bs : Breakpoints) (id : BreakpointId) : Prop :=
  ∀ b ∈ bs.items, b.id = id → b.registered = false

section Unlisted

variable {bs : Breakpoints} {id : BreakpointId}

theorem Unlisted.registered? (unlisted : Unlisted bs id) : bs.registered? id = none := by
  rw [Breakpoints.registered?, Option.filter_eq_none_iff]
  intro b found
  have same : b.id = id := by simpa using List.find?_some found
  simp [unlisted b (List.mem_of_find?_eq_some found) same]

theorem unlisted_update {f : Breakpoint → Breakpoint}
    (off : ∀ b ∈ bs.items, b.id = id → (f b).registered = false) : Unlisted (bs.update id f) id := by
  intro c member same
  obtain ⟨b, before, rfl⟩ := List.mem_map.mp member
  by_cases here : b.id = id
  · rw [if_pos here]
    exact off b before here
  · rw [if_neg here] at same
    exact absurd same here

end Unlisted

variable {δ : Type} [Debuggee δ] {s : Session δ} {d : δ} {id : BreakpointId} {b : Breakpoint} {a : UInt64}

/-- A breakpoint with a place gives up its trap. Only the breakpoints, the traps and the debuggee's memory
have to do with it. -/
theorem remove_bound_run (found : s.breakpoints.registered? id = some b) (bound : b.address? = some a)
    (attached : s.debuggee = some d) :
    ∃ breakpoints, Unlisted breakpoints id ∧ (removeBreakpoint id s).2 =
      { s with
        breakpoints, traps := (Instrumented.removeUser a id ⟨s.traps, d⟩).2.traps
        debuggee := some (Instrumented.removeUser a id ⟨s.traps, d⟩).2.debuggee } := by
  have off : Unlisted (s.unlisted id).breakpoints id := unlisted_update fun _ _ _ => rfl
  have still : Unlisted (dropped s.breakpoints id) id := unlisted_update off
  have run := instrumented_run (s := s.unlisted id) attached
    (Instrumented.removeUser a id : Access (Instrumented δ) Unit)
  rw [show (s.unlisted id).traps = s.traps from rfl] at run
  rw [remove_bound found bound (by rw [attached]; rfl), removeBreakpoint.releaseTrap, run]
  rcases (Instrumented.removeUser a id : Access (Instrumented δ) Unit) ⟨s.traps, d⟩ with ⟨_ | _, i⟩
  · exact ⟨_, off, rfl⟩
  · exact ⟨_, still, rfl⟩

/-- A breakpoint that is removed is one no longer, even if its trap cannot be taken out. -/
theorem remove_unlists (id : BreakpointId) (s : Session δ) :
    (removeBreakpoint id s).2.breakpoints.registered? id = none := by
  cases found : s.breakpoints.registered? id with
  | none =>
    rw [removeBreakpoint, bind_ok (get_run s), found]
    exact found
  | some b =>
    have off : Unlisted (s.unlisted id).breakpoints id := unlisted_update fun _ _ _ => rfl
    by_cases placed : b.address? = none ∨ s.debuggee = none
    · rw [remove_unplaced found placed]
      exact Unlisted.registered? (unlisted_update (f := (·.unbound)) off)
    · obtain ⟨bound, attached⟩ := not_or.mp placed
      obtain ⟨a, bound⟩ := Option.ne_none_iff_exists'.mp bound
      obtain ⟨d, attached⟩ := Option.ne_none_iff_exists'.mp attached
      obtain ⟨_, unlisted, same⟩ := remove_bound_run found bound attached
      rw [same]
      exact unlisted.registered?

/-- Whether a stop is a hit is decided when it is told. Once its breakpoint is removed, a trap that has been
met counts as the program's own, and the program is left behind it, unless it has another owner. -/
theorem hit_of_removed {o : Owners} (found : s.breakpoints.registered? id = some b)
    (bound : b.address? = some a) (attached : s.debuggee = some d) (owned : s.traps.owners a = some o)
    (thread : ThreadId) :
    let t := (removeBreakpoint id s).2
    advance (.handle (.trap thread (a + 1) .software)) t =
      if (o.withoutUser id).remaining = none then pauseAt .break thread t
      else (registers thread >>= fun regs =>
        access (Debuggee.setRegisters thread { regs with pc := a }) >>= fun _ => hitTrap thread a) t := by
  intro t
  obtain ⟨breakpoints, _, same⟩ := remove_bound_run found bound attached
  have table : t.traps.owners a = (o.withoutUser id).remaining := by
    rw [show t = _ from same]
    show (Instrumented.removeUser a id ⟨s.traps, d⟩).2.traps.owners a = _
    rw [Instrumented.owners_removeUser, if_pos rfl, owned, Option.bind_some]
  have laid : t.traps.contains a = ((o.withoutUser id).remaining).isSome := by
    rw [← table, contains, owners, Option.isSome_map]
  rw [advance, handleEvent, handleTrap, bind_ok (get_run t), show a + 1 - 1 = a by simp, laid, ite_run]
  cases (o.withoutUser id).remaining with
  | none => rfl
  | some => rfl

end Session

end SourceDebugger
