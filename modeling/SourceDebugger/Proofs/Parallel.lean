import SourceDebugger.Proofs.Effects
/-!
Two computations side by side. On states that correspond they give the same answer, or the same fault,
and leave states that correspond. It is shown piece by piece, as the computations are written.
-/
namespace SourceDebugger

open Effect

variable {ε σ τ α β : Type} {R : σ → τ → Prop}

/-- The same answer on corresponding states, and corresponding states after it. -/
def Parallel (R : σ → τ → Prop) (a : ExceptT ε (StateM σ) α) (b : ExceptT ε (StateM τ) α) : Prop :=
  ∀ s t, R s t → (b t).1 = (a s).1 ∧ R (a s).2 (b t).2

namespace Parallel

theorem refl {a : ExceptT ε (StateM σ) α} : Parallel (fun s t => t = s) a a := by
  rintro s _ rfl
  exact ⟨rfl, rfl⟩

theorem answer (x : α) : Parallel (ε := ε) R (pure x) (pure x) := fun _ _ same => ⟨rfl, same⟩

theorem fault (e : ε) : Parallel R (throw e : ExceptT ε (StateM σ) α) (throw e : ExceptT ε (StateM τ) α) :=
  fun _ _ same => ⟨rfl, same⟩

theorem seq {a : ExceptT ε (StateM σ) α} {b : ExceptT ε (StateM τ) α}
    {f : α → ExceptT ε (StateM σ) β} {g : α → ExceptT ε (StateM τ) β} (first : Parallel R a b)
    (next : ∀ x, Parallel R (f x) (g x)) : Parallel R (a >>= f) (b >>= g) := by
  intro s t same
  obtain ⟨answer, after⟩ := first s t same
  rw [bind_run, bind_run]
  rcases left : a s with ⟨e | x, u⟩ <;> rcases right : b t with ⟨e' | x', v⟩ <;>
    rw [left, right] at answer after <;> cases answer
  · exact ⟨rfl, after⟩
  · exact next x u v after

theorem look {f : σ → ExceptT ε (StateM σ) α} {g : τ → ExceptT ε (StateM τ) α}
    (next : ∀ s t, R s t → Parallel R (f s) (g t)) : Parallel R (get >>= f) (get >>= g) := by
  intro s t same
  rw [bind_ok (get_run s), bind_ok (get_run t)]
  exact next s t same s t same

theorem change {f : σ → σ} {g : τ → τ} (keeps : ∀ s t, R s t → R (f s) (g t)) :
    Parallel (ε := ε) R (modify f) (modify g) :=
  fun s t same => ⟨rfl, keeps s t same⟩

theorem put {s : σ} {t : τ} (same : R s t) : Parallel (ε := ε) R (set s) (set t) := fun _ _ _ => ⟨rfl, same⟩

theorem branch {p q : Prop} [Decidable p] [Decidable q] {a a' : ExceptT ε (StateM σ) α}
    {b b' : ExceptT ε (StateM τ) α} (agree : p ↔ q) (yes : p → Parallel R a b)
    (no : ¬ p → Parallel R a' b') : Parallel R (if p then a else a') (if q then b else b') := by
  by_cases h : p
  · rw [if_pos h, if_pos (agree.mp h)]
    exact yes h
  · rw [if_neg h, if_neg fun k => h (agree.mpr k)]
    exact no h

end Parallel

end SourceDebugger
