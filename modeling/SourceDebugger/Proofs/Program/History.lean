import SourceDebugger.Proofs.Program.Contained
import SourceDebugger.Proofs.Program.Running
/-!
What a program has lived through. Its states are those of a machine that nobody drives: it executes one
instruction after the other, a call adds an activation and a return takes the innermost one away.
The stack pointer tells activations apart, however often the same function is called from the same
place.
-/
namespace SourceDebugger.Machine

/-- The machine with nothing to report and nobody to drive it. -/
def calm (m : Machine) : Machine :=
  { m with pending := [], motion := .running, interruptRequested := false }

/-- The states that a program comes to before its first function has returned, with the activations of
its functions, innermost first. That a signal waits for it and what threads it has made is of no
concern here. -/
inductive Lived (e : Executable) : Machine → List Activation → Prop
  | launch : Lived e (boot e).calm [e.outermost]
  | step {x y : Machine} {calls : List Activation} {b : Bool} :
      Lived e x calls → execute x = (.ok b, y) → follow x calls ≠ [] →
        Lived e y.calm (follow x calls)
  | driven {x : Machine} {calls : List Activation} (signal : Option Int)
      (threads : List ThreadId) :
      Lived e x calls → Lived e { x with pendingSignal := signal, threads } calls

variable {p : Program} {e : Executable} {rs : List Routine} {x y : Machine}
  {calls : List Activation}

theorem Framed.calm {floor : Nat} (framed : Framed e rs floor x calls) :
    Framed e rs floor x.calm calls :=
  framed.alike rfl (fun q => by cases q <;> rfl) rfl

theorem Lived.calm_eq (lived : Lived e x calls) : x.calm = x := by
  induction lived with
  | launch => rfl
  | step => rfl
  | driven signal threads _ ih =>
    rw [Machine.calm] at ih ⊢
    rw [Machine.mk.injEq] at ih ⊢
    simp_all

theorem Lived.alive (lived : Lived e x calls) : calls ≠ [] := by
  induction lived with
  | launch => exact List.cons_ne_nil _ _
  | step _ _ alive => exact alive
  | driven _ _ _ ih => exact ih

theorem Lived.stack (lived : Lived e x calls) : x.stack.size = stackSize.toNat := by
  induction lived with
  | launch => exact Array.size_replicate
  | @step x y _ _ _ done _ ih =>
    have onward := onward_execute x
    rw [done] at onward
    exact onward.stack.trans ih
  | driven _ _ _ ih => exact ih

theorem Lived.framed (asm : Assembled p e rs) (typed : p.WellTyped) (compact : p.Compact)
    (lived : Lived e x calls) : Framed e rs heapBase.toNat x calls := by
  induction lived with
  | launch => exact (framed_boot asm (by decide) (code_below asm compact)).calm
  | step _ done alive ih =>
    rcases ih.execute asm typed compact done with next | ⟨none, _⟩
    · exact next.calm
    · exact absurd none alive
  | driven signal threads _ ih => exact ih.alike rfl (fun q => by cases q <;> rfl) rfl

section Tops

variable {c : Activation} {r : Routine} {floor low k high : Nat} {f fp : UInt64}
  {site : Option UInt64}

/-- The further out an activation is, the higher the stack pointer stood before it. -/
theorem Linked.tops (linked : Linked rs floor x low fp site calls) :
    ∀ d ∈ calls, low < d.top.toNat := by
  induction linked with
  | outermost => intro d member; cases member
  | cons known entry there sum above top saved back outer ih =>
    intro d member
    rcases List.mem_cons.mp member with rfl | outside
    · omega
    · have := ih d outside
      omega

/-- Activations were begun by calls. -/
theorem Linked.sites (asm : Assembled p e rs) (linked : Linked rs floor x low fp site calls) :
    (∀ a, site = some a → ∃ target, e.instrAt? a = some (.call target)) ∧
      ∀ d ∈ calls, ∀ a, d.site = some a → ∃ target, e.instrAt? a = some (.call target) := by
  induction linked with
  | outermost => simp
  | cons known _ there _ _ _ _ _ _ ih =>
    constructor
    · rintro a ⟨⟩
      exact ⟨_, asm.instrAt_address known there⟩
    · intro d member a same
      rcases List.mem_cons.mp member with rfl | outside
      · exact ih.1 a same
      · exact ih.2 d outside a same

/-- The stack pointer stands below where it stood before the innermost call. -/
theorem Seat.below (asm : Assembled p e rs) (compact : p.Compact)
    (seat : Seat rs heapBase.toNat x c calls r k high f) : x.registers.sp.toNat < c.top.toNat := by
  rw [seat.top]
  cases seat.poised with
  | entered sum => omega
  | pushed sum => omega
  | leaving _ sum => omega
  | inside first last sum above saved word sp =>
    have room := compact_frame asm compact seat.known
    have sunk : (r.sunk k).toNat ≤ r.layout.function.frame.toNat := by
      rw [Routine.sunk]
      split
      · exact Nat.zero_le _
      · exact Nat.le_refl _
    rw [sp, UInt64.toNat_sub_of_le _ _ (UInt64.le_iff_toNat_le.mpr (by omega))]
    omega

/-- While an activation lasts, the stack pointer stands below its top. -/
theorem Framed.below (asm : Assembled p e rs) (compact : p.Compact)
    (framed : Framed e rs heapBase.toNat x calls) :
    ∀ d ∈ calls, x.registers.sp.toNat < d.top.toNat := by
  obtain ⟨c, rest, r, k, high, f, rfl, seat⟩ := framed.seated
  have here := seat.below asm compact
  intro d member
  rcases List.mem_cons.mp member with rfl | outside
  · exact here
  · have := seat.linked.tops d outside
    rw [seat.top] at here
    omega

theorem Framed.sites (asm : Assembled p e rs) (framed : Framed e rs floor x calls) :
    ∀ d ∈ calls, ∀ a, d.site = some a → ∃ target, e.instrAt? a = some (.call target) := by
  obtain ⟨c, rest, r, k, high, f, rfl, seat⟩ := framed.seated
  have sites := seat.linked.sites asm
  intro d member a same
  rcases List.mem_cons.mp member with rfl | outside
  · exact sites.1 a same
  · exact sites.2 d outside a same

/-- Behind a call there is still code. -/
theorem call_located (asm : Assembled p e rs) {a target : UInt64}
    (found : e.instrAt? a = some (.call target)) (code : x.code = e.code) :
    ∃ s, x.locate (a + 5) 1 = .ok s := by
  obtain ⟨r, member, k, there, rfl⟩ := asm.instrAt_iff.mp found
  have inside := asm.offset_inside member there
  have bounds := asm.bounds member
  have long : (Instr.call target).length.toNat = 5 := rfl
  have base : codeBase.toNat = 0x400000 := rfl
  have next : (r.address k + 5).toNat = (r.address k).toNat + 5 := by
    rw [UInt64.toNat_add]
    exact Nat.mod_eq_of_lt (by have : (5 : UInt64).toNat = 5 := rfl; omega)
  exact ⟨_, locate_code (by omega) (by rw [code]; omega) (by omega)⟩

/-- A return leads behind the call and leaves the stack pointer where it stood before it. -/
theorem Seat.landing (asm : Assembled p e rs) (seat : Seat rs floor x c calls r k high f)
    (last : k + 1 = r.code.length) (turned : Turned x y .ret) :
    y.registers = ⟨backOf c.site, c.top, f⟩ := by
  have long := asm.four_le seat.known
  cases seat.poised with
  | entered | pushed => omega
  | inside first short => omega
  | leaving _ sum above word same =>
    have top := seat.linked.low_le
    have limit : stackTop.toNat = 0x7fff0000 := rfl
    have risen : x.registers.sp + 8 = c.top := by
      refine UInt64.toNat.inj ?_
      rw [seat.top, UInt64.toNat_add]
      exact (Nat.mod_eq_of_lt (by simp; omega)).trans sum
    cases turned with
    | ret w popped turned =>
      cases popped.unique word
      rw [turned, risen, same]
    | straight _ _ plain => cases plain

end Tops

end SourceDebugger.Machine
