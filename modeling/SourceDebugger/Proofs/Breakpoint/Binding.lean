import SourceDebugger.Proofs.Keeping
import SourceDebugger.Proofs.Traps.Table
/-!
Where breakpoints come to be bound. On a debuggee that at each address either always or never lets a
trap be set, the place of a breakpoint is a matter of its location and of the modules alone. What the
debuggee has been through, which traps there are already and whose they are plays no part.
-/
namespace SourceDebugger

open Effect

/-- What is so stays so. -/
def Stays {σ : Type} (I : σ → Prop) (s t : σ) : Prop := I s → I t

theorem stays_onwards {σ : Type} (I : σ → Prop) : Onwards (Stays I) where
  refl _ := id
  trans first second := second ∘ first

namespace Breakpoint

/-- Where a location can be trapped in a module. -/
def placeIn? (can : UInt64 → Bool) (m : LoadedModule) (l : Location) : Option Binding :=
  (bindingIn m l).filter (can ·.address)

/-- Where a location can be trapped in the first of some modules that has a place for it. -/
def place? (can : UInt64 → Bool) (ms : List LoadedModule) (l : Location) : Option Binding :=
  ms.findSome? (placeIn? can · l)

/-- The breakpoint once the modules have been looked at in turn. What is bound stays where it is. -/
def seek (can : UInt64 → Bool) (ms : List LoadedModule) (b : Breakpoint) : Breakpoint :=
  if b.registered then { b with binding := b.binding.or (place? can ms b.location) } else b

section Seek

variable {can : UInt64 → Bool} {m : LoadedModule} {ms : List LoadedModule} {b : Breakpoint}

theorem place?_isSome {l : Location} : (place? can ms l).isSome = true ↔
    ∃ m ∈ ms, ∃ binding, bindingIn m l = some binding ∧ can binding.address = true := by
  simp only [place?, placeIn?, List.isSome_findSome?, List.any_eq_true, Option.isSome_iff_exists,
    Option.filter_eq_some_iff]

theorem seek_registered : (b.seek can ms).registered = b.registered := by
  rw [seek]
  split <;> rfl

theorem seek_location : (b.seek can ms).location = b.location := by
  rw [seek]
  split <;> rfl

theorem seek_binding (registered : b.registered = true) :
    (b.seek can ms).binding = b.binding.or (place? can ms b.location) := by
  rw [seek, if_pos registered]

theorem seek_nil : b.seek can [] = b := by
  simp [seek, place?]

/-- To look at one module after the other is to look at all. -/
theorem seek_cons : (b.seek can [m]).seek can ms = b.seek can (m :: ms) := by
  have first : place? can (m :: ms) b.location =
      (place? can [m] b.location).or (place? can ms b.location) :=
    @List.findSome?_append _ _ _ [m] ms
  cases registered : b.registered with
  | false => simp [seek, registered]
  | true => simp [seek, registered, first, Option.or_assoc]

end Seek

end Breakpoint

namespace Traps

variable {ts : Traps} {a b : UInt64}

theorem contains_insert {t : Trap} :
    (ts.insert t).contains a = true ↔ t.address = a ∨ ts.contains a = true := by
  rw [contains, find?_insert]
  by_cases here : t.address = a
  · simp [here]
  · simp [here, contains]

theorem contains_update {f : Trap → Trap} (keeps : ∀ t, t.address = b → (f t).address = b) :
    (ts.update b f).contains a = ts.contains a := by
  rw [contains, find?_update keeps]
  split
  · rw [Option.isSome_map]
    rfl
  · rfl

theorem contains_of_erase (there : (ts.erase b).contains a = true) : ts.contains a = true := by
  rw [contains, find?_erase] at there
  split at there
  · cases there
  · exact there

theorem contains_of_forget {low high : UInt64} (there : (ts.forget low high).contains a = true) :
    ts.contains a = true := by
  rw [contains, find?_forget] at there
  split at there
  · exact there
  · cases there

end Traps

variable {δ : Type} [Debuggee δ]

/-- A debuggee that, as long as it is fit, lets a trap be set at an address or does not, and that
stays fit whatever is done to it. -/
structure Dependable (can : UInt64 → Bool) (fit : δ → Prop) : Prop where
  insert (d : δ) (address : UInt64) : fit d →
    (((TrapByte.new address).insert d).1.2 = .ok () ↔ can address = true)
  poll (millis : Nat) : Keeps (Stays fit) (Debuggee.poll millis : Access δ (Option Event))
  resume (mode : ResumeMode) : Keeps (Stays fit) (Debuggee.resume mode : Access δ Unit)
  write (address : UInt64) (bytes : Bytes) :
    Keeps (Stays fit) (Debuggee.write address bytes : Access δ Unit)
  setRegisters (thread : ThreadId) (regs : Registers) :
    Keeps (Stays fit) (Debuggee.setRegisters thread regs : Access δ Unit)
  interrupt : Keeps (Stays fit) (Debuggee.interrupt : Access δ Unit)
  terminate : Keeps (Stays fit) (Debuggee.terminate : Access δ Unit)

namespace TrapByte

theorem insert_address (t : TrapByte) (d : δ) : (t.insert d).1.1.address = t.address := by
  cases inserted : t.inserted with
  | true =>
    simp only [insert, inserted, if_true]
    rfl
  | false =>
    simp only [insert, inserted, Bool.false_eq_true, if_false]
    rw [certain_bind, certain_get]
    dsimp only
    rcases Debuggee.read d t.address 1 with e | _ | ⟨byte, rest⟩
    · rfl
    · rfl
    · dsimp only
      rw [certain_bind]
      rcases (Debuggee.write t.address [trapByte] : Access δ Unit) d with ⟨_ | _, _⟩ <;> rfl

/-- A trap can be set where a byte can be read and the trap written. -/
theorem insert_new_ok (d : δ) (a : UInt64) : ((new a).insert d).1.2 = .ok () ↔
    (∃ byte rest, Debuggee.read d a 1 = .ok (byte :: rest)) ∧
      ((Debuggee.write a [trapByte] : Access δ Unit) d).1 = .ok () := by
  have free : (new a).inserted = false := rfl
  have here : (new a).address = a := rfl
  simp only [insert, free, here, Bool.false_eq_true, if_false]
  rw [certain_bind, certain_get]
  dsimp only
  rcases Debuggee.read d a 1 with e | _ | ⟨byte, rest⟩
  · simp [certain_pure]
  · simp [certain_pure]
  · dsimp only
    rw [certain_bind]
    rcases (Debuggee.write a [trapByte] : Access δ Unit) d with ⟨_ | _, _⟩ <;> simp [certain_pure]

theorem remove_address (t : TrapByte) (d : δ) : (t.remove d).1.1.address = t.address := by
  cases inserted : t.inserted with
  | false =>
    simp only [remove, inserted, Bool.not_false, if_true]
    rfl
  | true =>
    simp only [remove, inserted, Bool.not_true, Bool.false_eq_true, if_false]
    rw [certain_bind]
    rcases (Debuggee.write t.address [t.covered] : Access δ Unit) d with ⟨_ | _, _⟩ <;> rfl

end TrapByte

namespace Instrumented

variable {can : UInt64 → Bool} {fit : δ → Prop} {i : Instrumented δ} {a : UInt64} {t : Trap}

/-- The debuggee is fit, and traps are only where they can be. -/
structure Sure (can : UInt64 → Bool) (fit : δ → Prop) (i : Instrumented δ) : Prop where
  fit : fit i.debuggee
  can : ∀ a, i.traps.contains a = true → can a = true

omit [Debuggee δ] in
theorem setTraps_sure {f : Traps → Traps}
    (fewer : ∀ ts a, (f ts).contains a = true → ts.contains a = true) :
    Keeps (Stays (Sure can fit)) (setTraps f) :=
  .change fun i sure => ⟨sure.fit, fun a there => sure.can a (fewer i.traps a there)⟩

omit [Debuggee δ] in
/-- An operation on one trap byte leaves the trap where it is, and all others. -/
theorem onByte_sure {f : TrapByte → StateM δ (TrapByte × Except Fault Unit)}
    (address : ∀ byte d, (f byte d).1.1.address = byte.address)
    (keeps : ∀ byte d, Stays fit d (f byte d).2) (sure : i.Sure can fit) (t : Trap) :
    (onByte t f i).2.Sure can fit ∧
      ∀ u, (onByte t f i).1 = .ok u → u.address = t.address ∧ (f t.byte i.debuggee).1.2 = .ok () := by
  have moved := address t.byte i.debuggee
  have kept := keeps t.byte i.debuggee sure.fit
  rw [onByte]
  rcases run : f t.byte i.debuggee with ⟨⟨byte, e | _⟩, d⟩ <;> rw [run] at moved kept
  · refine ⟨⟨kept, fun a there => sure.can a ?_⟩, fun u done => by cases done⟩
    have same : (i.traps.update t.address fun u => { u with byte }).contains a = i.traps.contains a :=
      Traps.contains_update fun _ _ => moved
    exact same.symm.trans there
  · refine ⟨⟨kept, sure.can⟩, ?_⟩
    rintro u ⟨⟩
    exact ⟨moved, rfl⟩

section Dependable

variable (dependable : Dependable can fit)

include dependable

theorem insert_sure (sure : i.Sure can fit) (t : Trap) :
    (onByte t TrapByte.insert i).2.Sure can fit ∧ ∀ u, (onByte t TrapByte.insert i).1 = .ok u →
      u.address = t.address ∧ (t.byte.insert i.debuggee).1.2 = .ok () :=
  onByte_sure TrapByte.insert_address (insert_keeps (stays_onwards fit) dependable.write) sure t

theorem remove_sure (sure : i.Sure can fit) (t : Trap) :
    (onByte t TrapByte.remove i).2.Sure can fit ∧ ∀ u, (onByte t TrapByte.remove i).1 = .ok u →
      u.address = t.address ∧ (t.byte.remove i.debuggee).1.2 = .ok () :=
  onByte_sure TrapByte.remove_address (remove_keeps (stays_onwards fit) dependable.write) sure t

/-- A trap is there in the end if and only if it can be. -/
theorem acquire_sure (sure : i.Sure can fit) (a : UInt64) :
    (acquire a i).2.Sure can fit ∧ ((acquire a i).1 = .ok () ↔ can a = true) := by
  rw [acquire, bind_ok (get_run i), ite_run]
  by_cases there : i.traps.contains a = true
  · rw [if_pos there]
    exact ⟨sure, fun _ => sure.can a there, fun _ => rfl⟩
  · rw [if_neg there, bind_run]
    obtain ⟨after, placed⟩ := insert_sure dependable sure ⟨.new a, [], 0⟩
    have able := dependable.insert i.debuggee a sure.fit
    rcases run : onByte ⟨.new a, [], 0⟩ TrapByte.insert i with ⟨e | u, j⟩ <;> rw [run] at after placed
    · have unable : ¬ can a = true := by
        intro possible
        have done := able.mpr possible
        rw [onByte] at run
        rcases inserted : (TrapByte.new a).insert i.debuggee with ⟨⟨byte, _ | _⟩, d⟩ <;>
          rw [inserted] at done run
        · cases done
        · cases run
      exact ⟨after, iff_of_false (fun done => by cases done) unable⟩
    · obtain ⟨here, done⟩ := placed u rfl
      have possible := able.mp done
      refine ⟨⟨after.fit, fun b member => ?_⟩, fun _ => possible, fun _ => rfl⟩
      rcases Traps.contains_insert.mp member with same | before
      · have moved : a = b := here.symm.trans same
        exact moved ▸ possible
      · exact after.can b before

theorem acquire_stays (a : UInt64) :
    Keeps (Stays (Sure can fit)) (acquire a : Access (Instrumented δ) Unit) :=
  fun _ sure => (acquire_sure dependable sure a).1

omit [Debuggee δ] dependable in
theorem owners_stays {f : Trap → Trap} (keeps : ∀ t, (f t).address = t.address) (a : UInt64) :
    Keeps (Stays (Sure can fit)) (setTraps (·.update a f) : Access (Instrumented δ) Unit) :=
  setTraps_sure fun _ _ there => by
    rwa [Traps.contains_update fun t here => (keeps t).trans here] at there

theorem addUser_stays (a : UInt64) (id : BreakpointId) :
    Keeps (Stays (Sure can fit)) (addUser a id : Access (Instrumented δ) Unit) :=
  .seq (stays_onwards _) (acquire_stays dependable a) fun _ =>
    owners_stays (f := .addUser id) (fun _ => rfl) a

theorem addStep_stays (a : UInt64) :
    Keeps (Stays (Sure can fit)) (addStep a : Access (Instrumented δ) Unit) :=
  .seq (stays_onwards _) (acquire_stays dependable a) fun _ =>
    owners_stays (f := fun t => { t with steps := t.steps + 1 }) (fun _ => rfl) a

theorem release_stays (a : UInt64) :
    Keeps (Stays (Sure can fit)) (release a : Access (Instrumented δ) Unit) := by
  have onwards : Onwards (Stays (Sure can fit)) := stays_onwards _
  refine .look fun i => ?_
  cases i.traps.find? a with
  | none => exact .answer onwards _
  | some t =>
    exact .branch (.seq onwards (setTraps_sure fun _ _ => Traps.contains_of_erase) fun _ =>
      .seq onwards (fun _ sure => (remove_sure dependable sure t).1) fun _ => .answer onwards _)
      (.answer onwards _)

theorem removeUser_stays (a : UInt64) (id : BreakpointId) :
    Keeps (Stays (Sure can fit)) (removeUser a id : Access (Instrumented δ) Unit) :=
  .seq (stays_onwards _) (owners_stays (f := .removeUser id) (fun _ => rfl) a) fun _ =>
    release_stays dependable a

theorem removeStep_stays (a : UInt64) :
    Keeps (Stays (Sure can fit)) (removeStep a : Access (Instrumented δ) Unit) :=
  .seq (stays_onwards _)
    (owners_stays (f := fun t => { t with steps := t.steps - 1 }) (fun _ => rfl) a) fun _ =>
      release_stays dependable a

omit [Debuggee δ] dependable in
/-- The trap byte in the table is replaced by what an operation has made of it. -/
theorem replace_stays {f : TrapByte → StateM δ (TrapByte × Except Fault Unit)} (a : UInt64)
    (sound : ∀ i t, Sure can fit i → (onByte t f i).2.Sure can fit ∧
      ∀ u, (onByte t f i).1 = .ok u → u.address = t.address ∧ (f t.byte i.debuggee).1.2 = .ok ()) :
    Keeps (Stays (Sure can fit)) (do
      match (← get).traps.find? a with
      | none => pure ()
      | some t =>
        let t ← onByte t f
        setTraps (·.update a fun _ => t) : Access (Instrumented δ) Unit) := by
  refine .look fun i => ?_
  cases found : i.traps.find? a with
  | none => exact .answer (stays_onwards _) _
  | some t =>
    intro j sure
    obtain ⟨after, moved⟩ := sound j t sure
    dsimp only
    rw [bind_run]
    rcases run : onByte t f j with ⟨e | u, k⟩ <;> rw [run] at after moved
    · exact after
    · have here : u.address = a := (moved u rfl).1.trans (Traps.find?_address found)
      refine ⟨after.fit, fun b there => after.can b ?_⟩
      have same : (k.traps.update a fun _ => u).contains b = k.traps.contains b :=
        Traps.contains_update fun _ _ => here
      exact same.symm.trans there

theorem lift_stays (a : UInt64) : Keeps (Stays (Sure can fit)) (lift a : Access (Instrumented δ) Unit) :=
  replace_stays a fun _ t sure => remove_sure dependable sure t

theorem restore_stays (a : UInt64) :
    Keeps (Stays (Sure can fit)) (restore a : Access (Instrumented δ) Unit) :=
  replace_stays a fun _ t sure => insert_sure dependable sure t

/-- The owner of a trap comes after the trap. -/
theorem addUser_sure (sure : i.Sure can fit) (a : UInt64) (id : BreakpointId) :
    (addUser a id i).1 = .ok () ↔ can a = true := by
  have acquired := (acquire_sure dependable sure a).2
  rw [addUser, bind_run]
  rcases run : acquire a i with ⟨e | _, j⟩ <;> rw [run] at acquired
  · simpa using acquired
  · exact ⟨fun _ => acquired.mp rfl, fun _ => rfl⟩

theorem bindOne_sure (sure : i.Sure can fit) (m : LoadedModule) (b : Breakpoint) :
    (bindIn.bindOne m b i).1 = b.seek can [m] ∧ (bindIn.bindOne m b i).2.Sure can fit := by
  rw [bindIn.bindOne]
  by_cases skip : (!b.registered || b.binding.isSome) = true
  · rw [if_pos skip]
    refine ⟨?_, sure⟩
    cases registered : b.registered with
    | false => simp [Breakpoint.seek, registered, certain_pure]
    | true =>
      obtain ⟨binding, bound⟩ := Option.isSome_iff_exists.mp (by simpa [registered] using skip)
      obtain ⟨id, location, enabled, _, hits, known⟩ := b
      cases bound
      cases registered
      rfl
  · have registered : b.registered = true := by simp at skip; exact skip.1
    have unbound : b.binding = none := by simp at skip; exact skip.2
    rw [if_neg skip]
    cases found : Breakpoint.bindingIn m b.location with
    | none =>
      refine ⟨?_, sure⟩
      simp [Breakpoint.seek, Breakpoint.place?, Breakpoint.placeIn?, found, certain_pure]
    | some binding =>
      have after := addUser_stays dependable binding.address b.id i sure
      have able := addUser_sure dependable sure binding.address b.id
      dsimp only
      rw [certain_bind]
      rcases run : addUser binding.address b.id i with ⟨e | _, j⟩ <;> rw [run] at after able
      · refine ⟨?_, after⟩
        have unable : can binding.address = false := by simpa using able
        simp [Breakpoint.seek, Breakpoint.place?, Breakpoint.placeIn?, found, unable, certain_pure,
          Option.filter]
      · refine ⟨?_, after⟩
        have able : can binding.address = true := by simpa using able
        simp [Breakpoint.seek, Breakpoint.place?, Breakpoint.placeIn?, found, able, certain_pure,
          registered, unbound, Option.filter]

/-- Each breakpoint for itself looks for a place in the module. -/
theorem bindIn_sure (sure : i.Sure can fit) (m : LoadedModule) (bs : List Breakpoint) :
    (bindIn m bs i).1 = bs.map (·.seek can [m]) ∧ (bindIn m bs i).2.Sure can fit := by
  induction bs generalizing i with
  | nil => exact ⟨rfl, sure⟩
  | cons b rest ih =>
    obtain ⟨first, after⟩ := bindOne_sure dependable sure m b
    obtain ⟨others, done⟩ := ih after
    rw [bindIn, certain_bind, certain_bind]
    refine ⟨?_, done⟩
    rw [List.map_cons, ← first, ← others]
    rfl

/-- Looking through the modules one by one, each for all breakpoints, is looking through all of them
for each breakpoint. -/
theorem bindings_sure (sure : i.Sure can fit) (ms : List LoadedModule) (bs : List Breakpoint) :
    let r := ms.foldl (fun r m => bindIn m r.1 r.2) (bs, i)
    r.1 = bs.map (·.seek can ms) ∧ r.2.Sure can fit := by
  induction ms generalizing bs i with
  | nil =>
    refine ⟨?_, sure⟩
    simp [Breakpoint.seek_nil]
  | cons m ms ih =>
    obtain ⟨first, after⟩ := bindIn_sure dependable sure m bs
    obtain ⟨others, done⟩ := ih after (bindIn m bs i).1
    refine ⟨others.trans ?_, done⟩
    rw [first, List.map_map]
    exact List.map_congr_left fun b _ => Breakpoint.seek_cons

end Dependable

end Instrumented

end SourceDebugger
