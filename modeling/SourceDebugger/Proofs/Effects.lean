import SourceDebugger.Session.Control
/-!
What computations on a state come to when they are run. A computation that can fail keeps its
changes; a sequence stops at the first failure. These are the equations by which all later proofs
execute the debugger.
-/
namespace SourceDebugger.Effect

section Failing

variable {ε σ α β : Type}

@[simp] theorem pure_run (x : α) (s : σ) : (pure x : ExceptT ε (StateM σ) α) s = (.ok x, s) := rfl

@[simp] theorem throw_run (e : ε) (s : σ) :
    (throw e : ExceptT ε (StateM σ) α) s = (.error e, s) := rfl

@[simp] theorem get_run (s : σ) : (get : ExceptT ε (StateM σ) σ) s = (.ok s, s) := rfl

@[simp] theorem set_run (s t : σ) : (set t : ExceptT ε (StateM σ) PUnit) s = (.ok ⟨⟩, t) := rfl

@[simp] theorem modify_run (f : σ → σ) (s : σ) :
    (modify f : ExceptT ε (StateM σ) PUnit) s = (.ok ⟨⟩, f s) := rfl

theorem bind_run (a : ExceptT ε (StateM σ) α) (f : α → ExceptT ε (StateM σ) β) (s : σ) :
    (a >>= f) s = match a s with
      | (.ok x, t) => f x t
      | (.error e, t) => (.error e, t) := by
  show (ExceptT.bindCont f (a s).1 : StateM σ (Except ε β)) (a s).2 = _
  rcases a s with ⟨_ | _, _⟩ <;> rfl

theorem bind_ok {a : ExceptT ε (StateM σ) α} {f : α → ExceptT ε (StateM σ) β} {s t : σ} {x : α}
    (done : a s = (.ok x, t)) : (a >>= f) s = f x t := by rw [bind_run, done]

theorem bind_error {a : ExceptT ε (StateM σ) α} {f : α → ExceptT ε (StateM σ) β} {s t : σ} {e : ε}
    (failed : a s = (.error e, t)) : (a >>= f) s = (.error e, t) := by rw [bind_run, failed]

@[simp] theorem map_run (f : α → β) (a : ExceptT ε (StateM σ) α) (s : σ) :
    (f <$> a) s = match a s with
      | (.ok x, t) => (.ok (f x), t)
      | (.error e, t) => (.error e, t) := by
  show (a >>= fun x => pure (f x)) s = _
  rw [bind_run]
  rcases a s with ⟨_ | _, _⟩ <;> rfl

@[simp] theorem ite_run (c : Prop) [Decidable c] (a b : ExceptT ε (StateM σ) α) (s : σ) :
    (if c then a else b) s = if c then a s else b s := by
  split <;> rfl

end Failing

section Certain

variable {σ α β : Type}

theorem certain_pure (x : α) (s : σ) : (pure x : StateM σ α) s = (x, s) := rfl

theorem certain_get (s : σ) : (get : StateM σ σ) s = (s, s) := rfl

theorem certain_bind (a : StateM σ α) (f : α → StateM σ β) (s : σ) :
    (a >>= f) s = f (a s).1 (a s).2 := rfl

end Certain

theorem look_run {σ α : Type} (f : σ → Except Fault α) (s : σ) :
    Access.look f s = match f s with
      | .ok a => (.ok a, s)
      | .error e => (.error e, s) := by
  rw [Access.look, bind_run, get_run]
  show (match f s with | .ok a => pure a | .error e => throw e : Access σ α) s = _
  cases f s <;> rfl

end SourceDebugger.Effect
