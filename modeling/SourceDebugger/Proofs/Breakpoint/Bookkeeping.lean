import Mathlib.Data.List.Forall2
import Mathlib.Data.List.Nodup
import SourceDebugger.Proofs.Traps.Laid
/-!
Breakpoints and traps agree. A registered breakpoint is bound where it owns a trap, every owner is
such a breakpoint or the one step that is on its way, and no trap is without an owner. Each
operation on breakpoints or traps keeps this.
-/
namespace SourceDebugger

open Instrumented Traps

/-- The breakpoints, the traps, and the address a step is running to, if any. -/
structure Tidy (bs : Breakpoints) (ts : Traps) (target : Option UInt64) : Prop where
  distinct : (bs.items.map (·.id)).Nodup
  fresh : ∀ b ∈ bs.items, b.id < bs.nextId
  idle : ∀ b ∈ bs.items, b.registered = false → b.binding = none
  users : ∀ a o, ts.owners a = some o → ∀ id ∈ o.1,
    ∃ b ∈ bs.items, b.id = id ∧ b.registered = true ∧ b.address? = some a
  bound : ∀ b ∈ bs.items, b.registered = true → ∀ a, b.address? = some a →
    ∃ o, ts.owners a = some o ∧ b.id ∈ o.1
  steps : ∀ a o, ts.owners a = some o → o.2 = if target = some a then 1 else 0
  target : ∀ a, target = some a → ∃ o, ts.owners a = some o
  owned : ∀ a o, ts.owners a = some o → o.1 ≠ [] ∨ o.2 ≠ 0

theorem Breakpoints.mem_registered {bs : Breakpoints} {b : Breakpoint} :
    b ∈ bs.registered ↔ b ∈ bs.items ∧ b.registered = true := by
  rw [registered, List.mem_filter]

namespace Tidy

variable {bs : Breakpoints} {ts us : Traps} {target : Option UInt64} {a : UInt64}

theorem congr (tidy : Tidy bs ts target) (same : ∀ b, us.owners b = ts.owners b) :
    Tidy bs us target where
  distinct := tidy.distinct
  fresh := tidy.fresh
  idle := tidy.idle
  users a o := same a ▸ tidy.users a o
  bound b member registered a := same a ▸ tidy.bound b member registered a
  steps a o := same a ▸ tidy.steps a o
  target a := same a ▸ tidy.target a
  owned a o := same a ▸ tidy.owned a o

/-- Whatever of a breakpoint is neither its number nor its binding may change. -/
theorem alike (tidy : Tidy bs ts target) {f : Breakpoint → Breakpoint} (id : ∀ b, (f b).id = b.id)
    (registered : ∀ b, (f b).registered = b.registered) (binding : ∀ b, (f b).binding = b.binding) :
    Tidy { bs with items := bs.items.map f } ts target where
  distinct := by simpa [Function.comp_def, id] using tidy.distinct
  fresh b member := by
    obtain ⟨c, before, rfl⟩ := List.mem_map.mp member
    exact id c ▸ tidy.fresh c before
  idle b member gone := by
    obtain ⟨c, before, rfl⟩ := List.mem_map.mp member
    exact (binding c).trans (tidy.idle c before (registered c ▸ gone))
  users a o owned n user := by
    obtain ⟨b, member, h₁, h₂, h₃⟩ := tidy.users a o owned n user
    refine ⟨f b, List.mem_map_of_mem member, (id b).trans h₁, (registered b).trans h₂, ?_⟩
    simpa [Breakpoint.address?, binding] using h₃
  bound b member known a at_ := by
    obtain ⟨c, before, rfl⟩ := List.mem_map.mp member
    rw [id]
    refine tidy.bound c before (registered c ▸ known) a ?_
    simpa [Breakpoint.address?, binding] using at_
  steps := tidy.steps
  target := tidy.target
  owned := tidy.owned

/-- A step begins to run to an address. -/
theorem addStep (tidy : Tidy bs ts none)
    (owners : ∀ b, us.owners b =
      if b = a then some ((ts.owners a).getD ([], 0)).withStep else ts.owners b) :
    Tidy bs us (some a) := by
  have here : us.owners a = some ((ts.owners a).getD ([], 0)).withStep := by rw [owners, if_pos rfl]
  have away {b : UInt64} (other : b ≠ a) : us.owners b = ts.owners b := by
    rw [owners, if_neg other]
  refine ⟨tidy.distinct, tidy.fresh, tidy.idle, fun b o owned id user => ?_,
    fun b member known c bound => ?_, fun b o owned => ?_, fun b same => ?_, fun b o owned => ?_⟩
  · by_cases same : b = a
    · subst same
      rw [here] at owned
      cases owned
      cases before : ts.owners b with
      | none => simp [before, Owners.withStep] at user
      | some o => exact tidy.users b o before id (by simpa [before, Owners.withStep] using user)
    · exact tidy.users b o (away same ▸ owned) id user
  · obtain ⟨o, owned, user⟩ := tidy.bound b member known c bound
    by_cases same : c = a
    · subst same
      exact ⟨_, here, by simpa [owned, Owners.withStep] using user⟩
    · exact ⟨o, (away same).trans owned, user⟩
  · by_cases same : b = a
    · subst same
      rw [here] at owned
      cases owned
      cases before : ts.owners b with
      | none => simp [Owners.withStep]
      | some o => simpa [Owners.withStep] using tidy.steps b o before
    · simpa [Ne.symm same] using tidy.steps b o (away same ▸ owned)
  · cases same
    exact ⟨_, here⟩
  · by_cases same : b = a
    · subst same
      rw [here] at owned
      cases owned
      exact .inr (by simp [Owners.withStep])
    · exact tidy.owned b o (away same ▸ owned)

theorem remaining_eq_some {o p : Owners} : o.remaining = some p ↔ o = p ∧ (o.1 ≠ [] ∨ o.2 ≠ 0) := by
  simp only [Owners.remaining]
  split
  · rename_i none
    simp at none
    simp [none]
  · rename_i some
    have kept : o.1 ≠ [] ∨ o.2 ≠ 0 := by
      simp at some
      by_cases empty : o.1 = []
      · exact .inr (some empty)
      · exact .inl empty
    simp [kept]

/-- The step that was on its way has arrived, or is given up. -/
theorem removeStep (tidy : Tidy bs ts (some a))
    (owners : ∀ b, us.owners b =
      if b = a then (ts.owners a).bind fun o => o.withoutStep.remaining else ts.owners b) :
    Tidy bs us none := by
  have here {p : Owners} (owned : us.owners a = some p) :
      ∃ o, ts.owners a = some o ∧ p = (o.1, 0) ∧ o.1 ≠ [] := by
    rw [owners, if_pos rfl] at owned
    obtain ⟨o, before, left⟩ := Option.bind_eq_some_iff.mp owned
    obtain ⟨rfl, used⟩ := remaining_eq_some.mp left
    have one : o.2 = 1 := by simpa using tidy.steps a o before
    simp only [Owners.withoutStep, one] at used ⊢
    exact ⟨o, before, rfl, used.resolve_right (by simp)⟩
  have away {b : UInt64} (other : b ≠ a) : us.owners b = ts.owners b := by
    rw [owners, if_neg other]
  refine ⟨tidy.distinct, tidy.fresh, tidy.idle, fun b o owned id user => ?_,
    fun b member known c bound => ?_, fun b o owned => ?_, fun b same => ?_, fun b o owned => ?_⟩
  · by_cases same : b = a
    · subst same
      obtain ⟨o, before, rfl, _⟩ := here owned
      exact tidy.users b o before id user
    · exact tidy.users b o (away same ▸ owned) id user
  · obtain ⟨o, owned, user⟩ := tidy.bound b member known c bound
    by_cases same : c = a
    · subst same
      refine ⟨o.withoutStep, ?_, user⟩
      rw [owners, if_pos rfl, owned, Option.bind_some]
      exact remaining_eq_some.mpr ⟨rfl, .inl (List.ne_nil_of_mem user)⟩
    · exact ⟨o, (away same).trans owned, user⟩
  · by_cases same : b = a
    · subst same
      obtain ⟨o, _, rfl, _⟩ := here owned
      simp
    · simpa [Ne.symm same] using tidy.steps b o (away same ▸ owned)
  · cases same
  · by_cases same : b = a
    · subst same
      obtain ⟨o, _, rfl, users⟩ := here owned
      exact .inl users
    · exact tidy.owned b o (away same ▸ owned)

theorem mem_withUser {o : Owners} {id n : BreakpointId} :
    n ∈ (o.withUser id).1 ↔ n = id ∨ n ∈ o.1 := by
  simp only [Owners.withUser]
  split
  · rename_i already
    have member : id ∈ o.1 := by simpa using already
    exact ⟨.inr, fun h => h.elim (fun same => same ▸ member) fun h => h⟩
  · exact List.mem_cons

/-- A breakpoint in a list becomes bound and an owner. -/
theorem bind {before after : List Breakpoint} {b : Breakpoint} {n : BreakpointId}
    (tidy : Tidy ⟨before ++ b :: after, n⟩ ts target) (registered : b.registered = true)
    (unbound : b.binding = none) (binding : Binding)
    (owners : ∀ c, us.owners c = if c = binding.address
      then some (((ts.owners binding.address).getD ([], 0)).withUser b.id) else ts.owners c) :
    Tidy ⟨before ++ { b with binding := some binding } :: after, n⟩ us target := by
  have here := owners binding.address
  rw [if_pos rfl] at here
  have away {c : UInt64} (other : c ≠ binding.address) : us.owners c = ts.owners c := by
    rw [owners, if_neg other]
  have mem {c : Breakpoint} (member : c ∈ before ++ { b with binding := some binding } :: after) :
      c = { b with binding := some binding } ∨ c ∈ before ++ b :: after := by
    simp only [List.mem_append, List.mem_cons] at member ⊢
    rcases member with h | h | h <;> simp [h]
  have old {c : UInt64} {o : Owners} (owned : ts.owners c = some o) {id : BreakpointId}
      (user : id ∈ o.1) : ∃ d ∈ before ++ { b with binding := some binding } :: after,
        d.id = id ∧ d.registered = true ∧ d.address? = some c := by
    obtain ⟨d, member, h₁, h₂, h₃⟩ := tidy.users c o owned id user
    have other : d ≠ b := by
      rintro rfl
      simp [Breakpoint.address?, unbound] at h₃
    refine ⟨d, ?_, h₁, h₂, h₃⟩
    simp only [List.mem_append, List.mem_cons] at member ⊢
    exact member.imp_right fun h => .inr (h.resolve_left other)
  refine ⟨by simpa using tidy.distinct, fun c member => ?_, fun c member gone => ?_,
    fun c o owned id user => ?_, fun c member known d bound => ?_, fun c o owned => ?_,
    fun c same => ?_, fun c o owned => ?_⟩
  · rcases mem member with rfl | h
    · exact tidy.fresh b (by simp)
    · exact tidy.fresh c h
  · rcases mem member with rfl | h
    · simp [registered] at gone
    · exact tidy.idle c h gone
  · by_cases same : c = binding.address
    · subst same
      rw [here] at owned
      cases owned
      rcases mem_withUser.mp user with rfl | earlier
      · exact ⟨{ b with binding := some binding }, by simp, rfl, registered, rfl⟩
      · cases h : ts.owners binding.address with
        | none => simp [h] at earlier
        | some o => exact old h (by simpa [h] using earlier)
    · exact old (away same ▸ owned) user
  · rcases mem member with rfl | h
    · cases Option.some.inj bound
      exact ⟨_, here, mem_withUser.mpr (.inl rfl)⟩
    · obtain ⟨o, owned, user⟩ := tidy.bound c h known d bound
      by_cases same : d = binding.address
      · subst same
        exact ⟨_, here, mem_withUser.mpr (.inr (by rw [owned]; exact user))⟩
      · exact ⟨o, (away same).trans owned, user⟩
  · by_cases same : c = binding.address
    · subst same
      rw [here] at owned
      cases owned
      cases h : ts.owners binding.address with
      | none =>
        have idle : target ≠ some binding.address := by
          rintro rfl
          obtain ⟨o, owned⟩ := tidy.target _ rfl
          simp [h] at owned
        simp [Owners.withUser, idle]
      | some o => simpa [Owners.withUser] using tidy.steps _ o h
    · exact tidy.steps c o (away same ▸ owned)
  · by_cases there : c = binding.address
    · subst there
      exact ⟨_, here⟩
    · exact (tidy.target c same).imp fun o owned => (away there).trans owned
  · by_cases same : c = binding.address
    · subst same
      rw [here] at owned
      cases owned
      exact .inl (List.ne_nil_of_mem (mem_withUser.mpr (.inl rfl)))
    · exact tidy.owned c o (away same ▸ owned)

theorem unique (tidy : Tidy bs ts target) {b c : Breakpoint} (hb : b ∈ bs.items)
    (hc : c ∈ bs.items) (same : b.id = c.id) : b = c :=
  List.inj_on_of_nodup_map tidy.distinct hb hc same

/-- A breakpoint is no longer registered and owns nothing. -/
theorem remove (tidy : Tidy bs ts target) {id : BreakpointId} {g : Breakpoint → Breakpoint}
    (number : ∀ b, (g b).id = b.id) (others : ∀ b, b.id ≠ id → g b = b)
    (gone : ∀ b, b.id = id → (g b).registered = false ∧ (g b).binding = none)
    (owners : ∀ c, us.owners c = (ts.owners c).bind fun o => (o.withoutUser id).remaining) :
    Tidy { bs with items := bs.items.map g } us target := by
  have before {c : UInt64} {p : Owners} (owned : us.owners c = some p) :
      ∃ o, ts.owners c = some o ∧ p = o.withoutUser id ∧ (p.1 ≠ [] ∨ p.2 ≠ 0) := by
    rw [owners] at owned
    obtain ⟨o, h, left⟩ := Option.bind_eq_some_iff.mp owned
    obtain ⟨rfl, used⟩ := remaining_eq_some.mp left
    exact ⟨o, h, rfl, used⟩
  have after {c : UInt64} {o : Owners} (owned : ts.owners c = some o)
      (used : (o.withoutUser id).1 ≠ [] ∨ (o.withoutUser id).2 ≠ 0) :
      us.owners c = some (o.withoutUser id) := by
    rw [owners, owned, Option.bind_some]
    exact remaining_eq_some.mpr ⟨rfl, used⟩
  have kept {b : Breakpoint} (known : (g b).registered = true) : b.id ≠ id ∧ g b = b := by
    have other : b.id ≠ id := fun same => by simp [(gone b same).1] at known
    exact ⟨other, others b other⟩
  refine ⟨by simpa [Function.comp_def, number] using tidy.distinct, fun b member => ?_,
    fun b member unlisted => ?_, fun c o owned n user => ?_, fun b member known c bound => ?_,
    fun c o owned => ?_, fun c same => ?_, fun c o owned => ?_⟩
  · obtain ⟨c, h, rfl⟩ := List.mem_map.mp member
    exact number c ▸ tidy.fresh c h
  · obtain ⟨c, h, rfl⟩ := List.mem_map.mp member
    by_cases same : c.id = id
    · exact (gone c same).2
    · rw [others c same] at unlisted ⊢
      exact tidy.idle c h unlisted
  · obtain ⟨o, h, rfl, _⟩ := before owned
    simp only [Owners.withoutUser, List.mem_filter, decide_eq_true_eq] at user
    obtain ⟨b, member, rfl, h₂, h₃⟩ := tidy.users c o h n user.1
    have same : g b = b := others b user.2
    exact ⟨b, List.mem_map.mpr ⟨b, member, same⟩, rfl, h₂, h₃⟩
  · obtain ⟨d, h, rfl⟩ := List.mem_map.mp member
    obtain ⟨other, same⟩ := kept known
    rw [same] at known bound ⊢
    obtain ⟨o, owned, user⟩ := tidy.bound d h known c bound
    have left : d.id ∈ (o.withoutUser id).1 := by simp [Owners.withoutUser, user, other]
    exact ⟨_, after owned (.inl (List.ne_nil_of_mem left)), left⟩
  · obtain ⟨o, h, rfl, _⟩ := before owned
    exact tidy.steps c o h
  · obtain ⟨o, owned⟩ := tidy.target c same
    have one : o.2 = 1 := by rw [tidy.steps c o owned, if_pos same]
    exact ⟨_, after owned (.inr (by simp [Owners.withoutUser, one]))⟩
  · obtain ⟨_, _, _, used⟩ := before owned
    exact used

/-- Where a breakpoint is no owner, nothing is left to release. -/
theorem withoutUser_other (tidy : Tidy bs ts target) {id : BreakpointId} {o : Owners}
    (owned : ts.owners a = some o) (other : id ∉ o.1) : (o.withoutUser id).remaining = some o := by
  have same : o.withoutUser id = o := by
    have kept : o.1.filter (· ≠ id) = o.1 :=
      List.filter_eq_self.mpr fun n member => by
        simpa using fun h : n = id => other (h ▸ member)
    simp only [Owners.withoutUser, kept]
  rw [same]
  exact remaining_eq_some.mpr ⟨rfl, tidy.owned a o owned⟩

/-- A new breakpoint owns nothing yet. -/
theorem add (tidy : Tidy bs ts target) (location : Location) :
    Tidy (bs.add location).2 ts target := by
  have old {b : Breakpoint} (member : b ∈ bs.items) : b ∈ (bs.add location).2.items := by
    simp [Breakpoints.add, member]
  refine ⟨?_, fun b member => ?_, fun b member gone => ?_, fun c o owned id user => ?_,
    fun b member known c bound => ?_, tidy.steps, tidy.target, tidy.owned⟩
  · simp only [Breakpoints.add, List.map_append, List.map_cons, List.map_nil]
    refine List.nodup_append.mpr ⟨tidy.distinct, by simp, fun n before m new => ?_⟩
    obtain ⟨b, member, rfl⟩ := List.mem_map.mp before
    have below := tidy.fresh b member
    exact List.mem_singleton.mp new ▸ Nat.ne_of_lt below
  · simp only [Breakpoints.add, List.mem_append, List.mem_singleton] at member ⊢
    rcases member with h | rfl
    · exact Nat.lt_succ_of_lt (tidy.fresh b h)
    · exact Nat.lt_succ_self _
  · simp only [Breakpoints.add, List.mem_append, List.mem_singleton] at member
    rcases member with h | rfl
    · exact tidy.idle b h gone
    · rfl
  · obtain ⟨b, member, h⟩ := tidy.users c o owned id user
    exact ⟨b, old member, h⟩
  · simp only [Breakpoints.add, List.mem_append, List.mem_singleton] at member
    rcases member with h | rfl
    · exact tidy.bound b h known c bound
    · simp [Breakpoint.address?] at bound

/-- Without traps no breakpoint is bound. -/
theorem unbind (tidy : Tidy bs ts target) (empty : ∀ a, us.owners a = none) :
    Tidy (bs.unbindWhere fun _ => true) us none := by
  have number (b : Breakpoint) :
      (if b.registered && (b.address?.map fun _ => true).getD false then b.unbound else b).id =
        b.id := by split <;> rfl
  have numbers : (bs.unbindWhere fun _ => true).items.map (·.id) = bs.items.map (·.id) := by
    simp only [Breakpoints.unbindWhere, List.map_map]
    exact List.map_congr_left fun b _ => number b
  refine ⟨numbers ▸ tidy.distinct, fun b member => ?_, fun b member gone => ?_,
    fun a o owned => ?_, fun b member known a bound => ?_, fun a o owned => ?_,
    fun a same => (by cases same), fun a o owned => ?_⟩
  · obtain ⟨c, h, rfl⟩ := List.mem_map.mp member
    exact number c ▸ tidy.fresh c h
  · obtain ⟨c, h, rfl⟩ := List.mem_map.mp member
    split at gone
    · rename_i test
      rw [if_pos test]
      rfl
    · rename_i test
      rw [if_neg test]
      exact tidy.idle c h gone
  · simp [empty] at owned
  · obtain ⟨c, h, rfl⟩ := List.mem_map.mp member
    split at bound
    · simp [Breakpoint.unbound, Breakpoint.address?] at bound
    · rename_i kept
      rw [if_neg kept] at known
      simp [known, bound] at kept
  · simp [empty] at owned
  · simp [empty] at owned

end Tidy

/-- What a look at a module does to one breakpoint. One that has a place there stays unbound only where
no memory is. -/
inductive BoundIn (l : LoadedModule) (m : Machine) (b : Breakpoint) : Breakpoint → Prop
  | same : (∀ binding, b.registered = true → b.binding = none →
      Breakpoint.bindingIn l b.location = some binding →
        ∃ e, m.locate binding.address 1 = .error e) → BoundIn l m b b
  | now (binding : Binding) : b.registered = true → b.binding = none →
      Breakpoint.bindingIn l b.location = some binding →
      BoundIn l m b { b with binding := some binding }

theorem BoundIn.repaint {l : LoadedModule} {i j : Instrumented Machine} {b c : Breakpoint}
    (bound : BoundIn l j.debuggee b c) (paint : Repaint i j) : BoundIn l i.debuggee b c := by
  cases bound with
  | same nowhere =>
    exact .same fun binding registered unbound found => by
      rw [← paint.locate]
      exact nowhere binding registered unbound found
  | now binding registered unbound found => exact .now binding registered unbound found

theorem bindOne_spec {l : LoadedModule} {before after : List Breakpoint} {b : Breakpoint}
    {n : BreakpointId} {i : Instrumented Machine} {lifted target : Option UInt64}
    (seated : Seated i lifted) (tidy : Tidy ⟨before ++ b :: after, n⟩ i.traps target) :
    ∃ c j, bindIn.bindOne l b i = (c, j) ∧ Repaint i j ∧ Seated j lifted ∧
      Tidy ⟨before ++ c :: after, n⟩ j.traps target ∧ BoundIn l i.debuggee b c := by
  have stays (run : bindIn.bindOne l b i = (b, i)) (same : BoundIn l i.debuggee b b) :
      ∃ c j, bindIn.bindOne l b i = (c, j) ∧ Repaint i j ∧ Seated j lifted ∧
        Tidy ⟨before ++ c :: after, n⟩ j.traps target ∧ BoundIn l i.debuggee b c :=
    ⟨b, i, run, .refl i, seated, tidy, same⟩
  by_cases skip : (!b.registered || b.binding.isSome) = true
  · refine stays (by rw [bindIn.bindOne, if_pos skip]; rfl) (.same fun _ registered unbound => ?_)
    simp [registered, unbound] at skip
  · have registered : b.registered = true := by simp at skip; exact skip.1
    have unbound : b.binding = none := by simp at skip; exact skip.2
    cases found : Breakpoint.bindingIn l b.location with
    | none =>
      refine stays (by rw [bindIn.bindOne, if_neg skip, found]; rfl) (.same fun _ _ _ place => ?_)
      cases found.symm.trans place
    | some binding =>
      rcases addUser_spec (a := binding.address) b.id seated with
        ⟨e, failed⟩ | ⟨j, done, paint, seated, owners⟩
      · refine stays ?_ (.same fun _ _ _ place => ?_)
        · rw [bindIn.bindOne, if_neg skip, found]
          dsimp only
          rw [Effect.certain_bind, failed]
          rfl
        · cases found.symm.trans place
          exact addUser_nowhere failed
      · refine ⟨{ b with binding := some binding }, j, ?_, paint, seated,
          tidy.bind registered unbound binding owners, .now binding registered unbound found⟩
        rw [bindIn.bindOne, if_neg skip, found]
        dsimp only
        rw [Effect.certain_bind, done]
        rfl

/-- All breakpoints of a list are looked at in turn. -/
theorem bindIn_spec {l : LoadedModule} {n : BreakpointId} {lifted target : Option UInt64}
    (todo before : List Breakpoint) {i : Instrumented Machine} (seated : Seated i lifted)
    (tidy : Tidy ⟨before ++ todo, n⟩ i.traps target) :
    ∃ items j, bindIn l todo i = (items, j) ∧ Repaint i j ∧ Seated j lifted ∧
      Tidy ⟨before ++ items, n⟩ j.traps target ∧
      List.Forall₂ (BoundIn l i.debuggee) todo items := by
  induction todo generalizing before i with
  | nil => exact ⟨[], i, rfl, .refl i, seated, tidy, .nil⟩
  | cons b rest ih =>
    obtain ⟨c, j, first, paint, seated, tidy, now⟩ := bindOne_spec (l := l) seated tidy
    have shifted : before ++ c :: rest = (before ++ [c]) ++ rest := by simp
    rw [shifted] at tidy
    obtain ⟨items, k, others, more, seated, tidy, each⟩ := ih (before ++ [c]) seated tidy
    refine ⟨c :: items, k, ?_, paint.trans more, seated, by simpa using tidy,
      .cons now (each.imp fun _ _ bound => bound.repaint paint)⟩
    rw [bindIn, Effect.certain_bind, first]
    dsimp only
    rw [Effect.certain_bind, others]
    rfl

section Origins

variable {α : Type} {r : α → α → Prop} {before after : List α}

/-- Whatever is there afterwards comes from something before. -/
theorem origin_of_forall₂ (each : List.Forall₂ r before after) :
    ∀ c ∈ after, ∃ b ∈ before, r b c := by
  induction each with
  | nil => simp
  | cons first _ ih =>
    intro c member
    rcases List.mem_cons.mp member with rfl | member
    · exact ⟨_, List.mem_cons_self, first⟩
    · obtain ⟨b, there, related⟩ := ih c member
      exact ⟨b, List.mem_cons_of_mem _ there, related⟩

/-- Whatever was there before has become something. -/
theorem outcome_of_forall₂ (each : List.Forall₂ r before after) :
    ∀ b ∈ before, ∃ c ∈ after, r b c :=
  origin_of_forall₂ (r := flip r) each.flip

end Origins

end SourceDebugger
