import SourceDebugger.Proofs.Effects
/-!
What computations keep. Whether or not it fails, a computation leaves a state that is related to the one
before it, as each of its parts does; a debuggee whose memory may be written keeps what writing keeps.
-/
namespace SourceDebugger

open Effect

/-- A relation that holds from each state to itself and from one change to the next. -/
structure Onwards {σ : Type} (P : σ → σ → Prop) : Prop where
  refl : ∀ s, P s s
  trans : ∀ {s t u}, P s t → P t u → P s u

/-- However the computation ends, the state after it is related to the one before. -/
def Keeps {ε σ α : Type} (P : σ → σ → Prop) (a : ExceptT ε (StateM σ) α) : Prop :=
  ∀ s, P s (a s).2

namespace Keeps

variable {ε σ α β : Type} {P : σ → σ → Prop}

theorem answer (onwards : Onwards P) (x : α) : Keeps (ε := ε) P (pure x) := fun s => onwards.refl s

theorem fault (onwards : Onwards P) (e : ε) : Keeps P (throw e : ExceptT ε (StateM σ) α) := fun s => onwards.refl s

theorem seq (onwards : Onwards P) {a : ExceptT ε (StateM σ) α} {f : α → ExceptT ε (StateM σ) β}
    (first : Keeps P a) (next : ∀ x, Keeps P (f x)) : Keeps P (a >>= f) := by
  intro s
  have before := first s
  rw [bind_run]
  rcases run : a s with ⟨e | x, t⟩ <;> rw [run] at before
  · exact before
  · exact onwards.trans before (next x t)

theorem look {f : σ → ExceptT ε (StateM σ) α} (next : ∀ s, Keeps P (f s)) : Keeps P (get >>= f) := by
  intro s
  rw [bind_ok (get_run s)]
  exact next s s

theorem change {f : σ → σ} (keeps : ∀ s, P s (f s)) : Keeps (ε := ε) P (modify f) := keeps

theorem branch {p : Prop} [Decidable p] {a b : ExceptT ε (StateM σ) α} (yes : Keeps P a)
    (no : Keeps P b) : Keeps P (if p then a else b) := by
  split
  · exact yes
  · exact no

end Keeps

/-- Whenever the computation answers, the answer has the property. -/
def Yields {ε σ α : Type} (A : α → Prop) (a : ExceptT ε (StateM σ) α) : Prop :=
  ∀ s x t, a s = (.ok x, t) → A x

namespace Yields

variable {ε σ α β : Type} {A : β → Prop}

theorem answer {x : β} (holds : A x) : Yields (ε := ε) (σ := σ) A (pure x) := by
  rintro s _ _ ⟨⟩
  exact holds

/-- It is the last part that answers. -/
theorem seq {a : ExceptT ε (StateM σ) α} {f : α → ExceptT ε (StateM σ) β}
    (next : ∀ x, Yields A (f x)) : Yields A (a >>= f) := by
  intro s y t done
  rw [bind_run] at done
  rcases run : a s with ⟨e | x, u⟩ <;> rw [run] at done
  · cases done
  · exact next x u y t done

theorem branch {p : Prop} [Decidable p] {a b : ExceptT ε (StateM σ) β} (yes : Yields A a)
    (no : Yields A b) : Yields A (if p then a else b) := by
  split
  · exact yes
  · exact no

end Yields

namespace Instrumented

variable {δ : Type} [Debuggee δ] {Q : δ → δ → Prop}

/-- What is kept of a debuggee, whatever becomes of its traps. -/
def Kept (Q : δ → δ → Prop) (i j : Instrumented δ) : Prop := Q i.debuggee j.debuggee

omit [Debuggee δ] in
theorem kept_onwards (onwards : Onwards Q) : Onwards (Kept Q) :=
  ⟨fun i => onwards.refl i.debuggee, fun first second => onwards.trans first second⟩

section Parts

variable (onwards : Onwards Q)
  (write : ∀ address bytes, Keeps Q (Debuggee.write address bytes : Access δ Unit))

include onwards write

theorem insert_keeps (t : TrapByte) (d : δ) : Q d (t.insert d).2 := by
  cases inserted : t.inserted with
  | true =>
    simp only [TrapByte.insert, inserted, if_true]
    exact onwards.refl d
  | false =>
    simp only [TrapByte.insert, inserted, Bool.false_eq_true, if_false]
    rw [certain_bind, certain_get]
    dsimp only
    rcases Debuggee.read d t.address 1 with e | _ | ⟨byte, rest⟩
    · exact onwards.refl d
    · exact onwards.refl d
    · have written := write t.address [trapByte] d
      dsimp only
      rw [certain_bind]
      rcases run : (Debuggee.write t.address [trapByte] : Access δ Unit) d with ⟨_ | _, _⟩ <;>
        rw [run] at written <;> exact written

theorem remove_keeps (t : TrapByte) (d : δ) : Q d (t.remove d).2 := by
  cases inserted : t.inserted with
  | false =>
    simp only [TrapByte.remove, inserted, Bool.not_false, if_true]
    exact onwards.refl d
  | true =>
    have written := write t.address [t.covered] d
    simp only [TrapByte.remove, inserted, Bool.not_true, Bool.false_eq_true, if_false]
    rw [certain_bind]
    rcases run : (Debuggee.write t.address [t.covered] : Access δ Unit) d with ⟨_ | _, _⟩ <;>
      rw [run] at written <;> exact written

omit [Debuggee δ] onwards write in
theorem onByte_keeps (t : Trap) {f : TrapByte → StateM δ (TrapByte × Except Fault Unit)}
    (keeps : ∀ b d, Q d (f b d).2) : Keeps (Kept Q) (onByte t f) := by
  intro i
  have kept := keeps t.byte i.debuggee
  simp only [onByte]
  rcases run : f t.byte i.debuggee with ⟨⟨byte, _ | _⟩, d⟩ <;> rw [run] at kept <;> exact kept

omit [Debuggee δ] write in
theorem setTraps_keeps (f : Traps → Traps) : Keeps (Kept Q) (setTraps f) :=
  .change fun i => onwards.refl i.debuggee

theorem acquire_keeps (address : UInt64) : Keeps (Kept Q) (acquire address : Access (Instrumented δ) Unit) :=
  .look fun _ => .branch (.answer (kept_onwards onwards) _) (.seq (kept_onwards onwards)
    (onByte_keeps _ (insert_keeps onwards write)) fun _ => setTraps_keeps onwards _)

theorem release_keeps (address : UInt64) : Keeps (Kept Q) (release address : Access (Instrumented δ) Unit) := by
  refine .look fun i => ?_
  cases i.traps.find? address with
  | none => exact .answer (kept_onwards onwards) _
  | some t =>
    exact .branch (.seq (kept_onwards onwards) (setTraps_keeps onwards _) fun _ =>
      .seq (kept_onwards onwards) (onByte_keeps _ (remove_keeps onwards write)) fun _ =>
        .answer (kept_onwards onwards) _) (.answer (kept_onwards onwards) _)

theorem addUser_keeps (address : UInt64) (id : BreakpointId) :
    Keeps (Kept Q) (addUser address id : Access (Instrumented δ) Unit) :=
  .seq (kept_onwards onwards) (acquire_keeps onwards write _) fun _ => setTraps_keeps onwards _

theorem removeUser_keeps (address : UInt64) (id : BreakpointId) :
    Keeps (Kept Q) (removeUser address id : Access (Instrumented δ) Unit) :=
  .seq (kept_onwards onwards) (setTraps_keeps onwards _) fun _ => release_keeps onwards write _

theorem addStep_keeps (address : UInt64) :
    Keeps (Kept Q) (addStep address : Access (Instrumented δ) Unit) :=
  .seq (kept_onwards onwards) (acquire_keeps onwards write _) fun _ => setTraps_keeps onwards _

theorem removeStep_keeps (address : UInt64) :
    Keeps (Kept Q) (removeStep address : Access (Instrumented δ) Unit) :=
  .seq (kept_onwards onwards) (setTraps_keeps onwards _) fun _ => release_keeps onwards write _

theorem lift_keeps (address : UInt64) : Keeps (Kept Q) (lift address : Access (Instrumented δ) Unit) := by
  refine .look fun i => ?_
  cases i.traps.find? address with
  | none => exact .answer (kept_onwards onwards) _
  | some t =>
    exact .seq (kept_onwards onwards) (onByte_keeps _ (remove_keeps onwards write)) fun _ =>
      setTraps_keeps onwards _

theorem restore_keeps (address : UInt64) :
    Keeps (Kept Q) (restore address : Access (Instrumented δ) Unit) := by
  refine .look fun i => ?_
  cases i.traps.find? address with
  | none => exact .answer (kept_onwards onwards) _
  | some t =>
    exact .seq (kept_onwards onwards) (onByte_keeps _ (insert_keeps onwards write)) fun _ =>
      setTraps_keeps onwards _

theorem bindOne_keeps (l : LoadedModule) (b : Breakpoint) (i : Instrumented δ) :
    Kept Q i (bindIn.bindOne l b i).2 := by
  rw [bindIn.bindOne]
  split
  · exact onwards.refl _
  · cases Breakpoint.bindingIn l b.location with
    | none => exact onwards.refl _
    | some binding =>
      have added := addUser_keeps onwards write binding.address b.id i
      dsimp only
      rw [certain_bind]
      rcases run : addUser binding.address b.id i with ⟨_ | _, _⟩ <;> rw [run] at added <;> exact added

theorem bindIn_keeps (l : LoadedModule) (bs : List Breakpoint) (i : Instrumented δ) :
    Kept Q i (bindIn l bs i).2 := by
  induction bs generalizing i with
  | nil => exact onwards.refl _
  | cons b rest ih =>
    have one := bindOne_keeps onwards write l b i
    have others := ih (bindIn.bindOne l b i).2
    rw [bindIn]
    exact onwards.trans one others

end Parts

end Instrumented

end SourceDebugger
