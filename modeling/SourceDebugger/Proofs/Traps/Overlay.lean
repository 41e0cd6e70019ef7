import SourceDebugger.Proofs.Traps.Cell
import SourceDebugger.Proofs.Traps.Remembers
import Mathlib.Data.List.Induction
/-!
Traps over a debuggee's memory. On a debuggee that keeps what is written to it, every operation on the
table works at its one address, so what is at an address after many operations is a matter of those
on this address alone. Memory is the first memory with trap bytes over it; through the table it reads
as it was.
-/
namespace SourceDebugger

open Effect Traps

variable {δ : Type} [Debuggee δ] {fit : δ → Prop} {memory : δ → UInt64 → UInt8}
  {refused : UInt64 → Nat → Option Fault} {d : δ} {a : UInt64}

namespace Instrumented

/-- What is at an address. -/
def cell (memory : δ → UInt64 → UInt8) (s : Instrumented δ) (a : UInt64) : Cell :=
  ⟨s.traps.find? a, memory s.debuggee a⟩

/-- Only what is at one address changes. -/
structure Changed (fit : δ → Prop) (memory : δ → UInt64 → UInt8) (a : UInt64) (f : Cell → Cell)
    (s t : Instrumented δ) : Prop where
  fit : fit t.debuggee
  cell : ∀ b, t.cell memory b = if b = a then f (s.cell memory b) else s.cell memory b
  decode : ∀ b code, Debuggee.decode t.debuggee b code = Debuggee.decode s.debuggee b code

/-- An operation that does not fail and works at one address. -/
def Acts (fit : δ → Prop) (memory : δ → UInt64 → UInt8) (a : UInt64) (f : Cell → Cell)
    (op : Access (Instrumented δ) Unit) : Prop :=
  ∀ s, fit s.debuggee → ∃ t, op s = (.ok (), t) ∧ Changed fit memory a f s t

theorem Acts.seq {f g : Cell → Cell} {op next : Access (Instrumented δ) Unit}
    (first : Acts fit memory a f op) (second : Acts fit memory a g next) :
    Acts fit memory a (fun c => g (f c)) (op >>= fun _ => next) := by
  intro s ready
  obtain ⟨t, done, changed⟩ := first s ready
  obtain ⟨u, more, further⟩ := second t changed.fit
  refine ⟨u, by rw [bind_ok done, more], further.fit, fun b => ?_, fun b code => ?_⟩
  · rw [further.cell, changed.cell]
    split <;> rfl
  · rw [further.decode, changed.decode]

/-- What changes the table at an address and writes a byte there. -/
theorem changed_of_wrote {s : Instrumented δ} {e : δ} {ts : Traps} {byte : UInt8} {f : Cell → Cell}
    (wrote : Wrote fit memory a byte s.debuggee e)
    (elsewhere : ∀ b, b ≠ a → ts.find? b = s.traps.find? b)
    (here : f (s.cell memory a) = ⟨ts.find? a, byte⟩) :
    Changed fit memory a f s ⟨ts, e⟩ where
  fit := wrote.fit
  cell b := by
    split
    · rename_i same
      rw [same, here, cell, wrote.memory, Function.update_self]
    · rename_i other
      rw [cell, elsewhere b other, wrote.memory, Function.update_of_ne other]
      rfl
  decode := wrote.decode

theorem changed_nothing {s : Instrumented δ} {f : Cell → Cell} (ready : fit s.debuggee)
    (here : f (s.cell memory a) = s.cell memory a) : Changed fit memory a f s s :=
  changed_of_wrote (.nothing ready a) (fun _ _ => rfl) here

/-- The trap at an address is exchanged for one with another byte. -/
theorem turned {f : TrapByte → StateM δ (TrapByte × Except Fault Unit)} {g : Cell → Cell}
    {s : Instrumented δ} {t : Trap} {byte : TrapByte} {e : δ} {now : UInt8}
    (found : s.traps.find? a = some t) (done : f t.byte s.debuggee = ((byte, .ok ()), e))
    (address : byte.address = a) (wrote : Wrote fit memory a now s.debuggee e)
    (here : g ⟨some t, memory s.debuggee a⟩ = ⟨some { t with byte }, now⟩) :
    ∃ u, (onByte t f >>= fun t => setTraps (·.update a fun _ => t) :
        Access (Instrumented δ) Unit) s = (.ok (), u) ∧ Changed fit memory a g s u := by
  have kept : onByte t f s = (.ok { t with byte }, ⟨s.traps, e⟩) := by simp only [onByte, done]
  have exchanged (b : UInt64) : (s.traps.update a fun _ => { t with byte }).find? b =
      if b = a then some { t with byte } else s.traps.find? b := find?_replace found address
  rw [bind_ok kept]
  refine ⟨_, rfl, changed_of_wrote wrote (fun b other => ?_) ?_⟩
  · rw [exchanged, if_neg other]
  · rw [exchanged, if_pos rfl, cell, found, here]

section Operations

variable (remembers : Remembers fit memory refused) (allowed : refused a 1 = none)

include remembers allowed

theorem acquire_acts : Acts fit memory a (·.acquire a) (acquire a : Access (Instrumented δ) Unit) := by
  intro s ready
  rw [acquire, bind_ok (get_run s), ite_run]
  cases found : s.traps.find? a with
  | some t =>
    have present : s.traps.contains a = true := contains_iff.mpr ⟨t, found⟩
    rw [if_pos present]
    exact ⟨s, rfl, changed_nothing ready (by simp [Cell.acquire, cell, found])⟩
  | none =>
    have absent : s.traps.contains a = false := by simp [contains, found]
    obtain ⟨e, inserted, wrote⟩ := (TrapByte.new a).insert_fresh remembers ready allowed rfl
    let t : Trap := ⟨⟨a, memory s.debuggee a, true⟩, [], 0⟩
    have address : t.address = a := rfl
    have done : onByte ⟨.new a, [], 0⟩ TrapByte.insert s = (.ok t, ⟨s.traps, e⟩) := by
      simp only [onByte, inserted]
      rfl
    rw [absent, if_neg Bool.false_ne_true, bind_ok done]
    refine ⟨⟨s.traps.insert t, e⟩, rfl, changed_of_wrote wrote (fun b other => ?_) ?_⟩
    · rw [find?_insert, address, if_neg (Ne.symm other)]
    · rw [find?_insert, address, if_pos rfl]
      simp [Cell.acquire, cell, found, t]

omit remembers allowed in
theorem own_acts {f : Trap → Trap} (keeps : ∀ t, (f t).byte = t.byte) :
    Acts fit memory a (·.own f) (setTraps (·.update a f) : Access (Instrumented δ) Unit) := by
  intro s ready
  have address (t : Trap) (here : t.address = a) : (f t).address = a :=
    (congrArg TrapByte.address (keeps t)).trans here
  refine ⟨⟨s.traps.update a f, s.debuggee⟩, rfl, changed_of_wrote (.nothing ready a) (fun b other => ?_) ?_⟩
  · rw [find?_update address, if_neg other]
  · rw [find?_update address, if_pos rfl]
    rfl

theorem release_acts : Acts fit memory a (·.release) (release a : Access (Instrumented δ) Unit) := by
  intro s ready
  rw [release, bind_ok (get_run s)]
  cases found : s.traps.find? a with
  | none => exact ⟨s, rfl, changed_nothing ready (by simp [Cell.release, cell, found])⟩
  | some t =>
    have address : t.byte.address = a := find?_address found
    dsimp only
    rw [ite_run]
    by_cases unused : t.isUnused = true
    · have erased : (setTraps (·.erase a) : Access (Instrumented δ) Unit) s =
          (.ok (), ⟨s.traps.erase a, s.debuggee⟩) := rfl
      have elsewhere (b : UInt64) (other : b ≠ a) : (s.traps.erase a).find? b = s.traps.find? b := by
        rw [find?_erase, if_neg other]
      have gone : (s.traps.erase a).find? a = none := by rw [find?_erase, if_pos rfl]
      rw [if_pos unused, bind_ok erased]
      cases there : t.byte.inserted with
      | true =>
        obtain ⟨e, removed, wrote⟩ :=
          t.byte.remove_present remembers ready (by rw [address, allowed]) there
        have done : onByte t TrapByte.remove ⟨s.traps.erase a, s.debuggee⟩ =
            (.ok { t with byte := { t.byte with inserted := false } }, ⟨s.traps.erase a, e⟩) := by
          simp only [onByte, removed]
        rw [bind_ok done]
        rw [address] at wrote
        refine ⟨⟨s.traps.erase a, e⟩, rfl, changed_of_wrote wrote elsewhere ?_⟩
        simp [Cell.release, cell, found, unused, there, gone]
      | false =>
        have done : onByte t TrapByte.remove ⟨s.traps.erase a, s.debuggee⟩ =
            (.ok t, ⟨s.traps.erase a, s.debuggee⟩) := by
          simp only [onByte, TrapByte.remove_fresh there]
        rw [bind_ok done]
        refine ⟨⟨s.traps.erase a, s.debuggee⟩, rfl, changed_of_wrote (.nothing ready a) elsewhere ?_⟩
        simp [Cell.release, cell, found, unused, there, gone]
    · rw [if_neg unused]
      exact ⟨s, rfl, changed_nothing ready (by simp [Cell.release, cell, found, unused])⟩

theorem lift_acts : Acts fit memory a (·.lift) (lift a : Access (Instrumented δ) Unit) := by
  intro s ready
  rw [lift, bind_ok (get_run s)]
  cases found : s.traps.find? a with
  | none => exact ⟨s, rfl, changed_nothing ready (by simp [Cell.lift, cell, found])⟩
  | some t =>
    have address : t.byte.address = a := find?_address found
    cases there : t.byte.inserted with
    | true =>
      obtain ⟨e, removed, wrote⟩ :=
        t.byte.remove_present remembers ready (by rw [address, allowed]) there
      rw [address] at wrote
      exact turned found removed address wrote (by simp [Cell.lift, there])
    | false =>
      exact turned found (TrapByte.remove_fresh there) address (.nothing ready a)
        (by simp [Cell.lift, there])

theorem restore_acts : Acts fit memory a (·.restore) (restore a : Access (Instrumented δ) Unit) := by
  intro s ready
  rw [restore, bind_ok (get_run s)]
  cases found : s.traps.find? a with
  | none => exact ⟨s, rfl, changed_nothing ready (by simp [Cell.restore, cell, found])⟩
  | some t =>
    have address : t.byte.address = a := find?_address found
    cases there : t.byte.inserted with
    | true =>
      exact turned found (TrapByte.insert_present there) address (.nothing ready a)
        (by simp [Cell.restore, there])
    | false =>
      obtain ⟨e, inserted, wrote⟩ :=
        t.byte.insert_fresh remembers ready (by rw [address, allowed]) there
      rw [address] at wrote
      exact turned found inserted address wrote (by simp [Cell.restore, there, address])

/-- Does a deed at an address. -/
def perform (a : UInt64) : TrapDeed → Access (Instrumented δ) Unit
  | .addUser id => addUser a id
  | .removeUser id => removeUser a id
  | .addStep => addStep a
  | .removeStep => removeStep a
  | .lift => lift a
  | .restore => restore a

theorem perform_acts (deed : TrapDeed) :
    Acts fit memory a (·.after a deed) (perform a deed : Access (Instrumented δ) Unit) := by
  have acquires := acquire_acts remembers allowed
  have releases := release_acts remembers allowed
  cases deed with
  | addUser id => exact acquires.seq (own_acts (f := .addUser id) fun _ => rfl)
  | removeUser id => exact Acts.seq (own_acts (f := .removeUser id) fun _ => rfl) releases
  | addStep =>
    exact acquires.seq (own_acts (f := fun t => { t with steps := t.steps + 1 }) fun _ => rfl)
  | removeStep =>
    exact Acts.seq (own_acts (f := fun t => { t with steps := t.steps - 1 }) fun _ => rfl) releases
  | lift => exact lift_acts remembers allowed
  | restore => exact restore_acts remembers allowed

end Operations

/-- A deed and where it is done. -/
abbrev Action := UInt64 × TrapDeed

/-- Carries actions out in order. -/
def performAll (actions : List Action) : Access (Instrumented δ) Unit :=
  forM actions fun action => perform action.1 action.2

/-- What is done at an address, the latest deed first. -/
def deedsAt (a : UInt64) (actions : List Action) : List TrapDeed :=
  ((actions.filter (·.1 = a)).map (·.2)).reverse

/-- What is at an address comes from what was done there. -/
theorem performAll_run (remembers : Remembers fit memory refused) (ready : fit d)
    (actions : List Action) (allowed : ∀ action ∈ actions, refused action.1 1 = none) :
    ∃ s : Instrumented δ, performAll actions ⟨⟨[]⟩, d⟩ = (.ok (), s) ∧ fit s.debuggee ∧
      (∀ a, s.cell memory a =
        (deedsAt a actions).foldr (fun deed c => c.after a deed) ⟨none, memory d a⟩) ∧
      ∀ b code, Debuggee.decode s.debuggee b code = Debuggee.decode d b code := by
  induction actions using List.reverseRecOn with
  | nil => exact ⟨⟨⟨[]⟩, d⟩, rfl, ready, fun _ => rfl, fun _ _ => rfl⟩
  | append_singleton before action ih =>
    obtain ⟨s, done, fits, cells, decodes⟩ := ih fun other member =>
      allowed other (List.mem_append_left _ member)
    obtain ⟨t, last, changed⟩ :=
      perform_acts remembers (allowed action (by simp)) action.2 s fits
    refine ⟨t, ?_, changed.fit, fun a => ?_, fun b code => ?_⟩
    · rw [performAll] at done ⊢
      rw [List.forM_append, bind_ok done, List.forM_cons, bind_ok last]
      rfl
    · rw [changed.cell, cells a, deedsAt, deedsAt, List.filter_append, List.map_append,
        List.reverse_append]
      by_cases here : action.1 = a
      · simp [here]
      · simp [here, Ne.symm here]
    · rw [changed.decode, decodes]

/-- The table undoes what it did to the bytes. -/
theorem mask_stretch {ts : Traps} {now before : UInt64 → UInt8}
    (covers : ∀ b, ts.covered b (now b) = before b) {n : Nat} (room : a.toNat + n < 2 ^ 64) :
    ts.mask a (stretch now a n) = stretch before a n := by
  apply List.ext_getElem?
  intro i
  rw [mask_getElem? (by rwa [length_stretch])]
  by_cases within : i < n
  · simp [stretch, within, covers]
  · simp [stretch, within]

/-- Which stretch of code can be read does not depend on what is in it. -/
theorem attempt_stretch (remembers : Remembers fit memory refused) {e : δ} (ready : fit d)
    (later : fit e) (sizes : List Nat) {failure : Fault} {code : Bytes}
    (found : readCode.attempt d a sizes failure = .ok code) :
    code = stretch (memory d) a code.length ∧
      readCode.attempt e a sizes failure = .ok (stretch (memory e) a code.length) := by
  induction sizes generalizing failure with
  | nil => cases found
  | cons n rest ih =>
    rw [readCode.attempt, remembers.read d a n ready] at found
    rw [readCode.attempt, remembers.read e a n later]
    cases allowed : refused a n with
    | none =>
      rw [allowed] at found
      cases found
      simp
    | some fault =>
      rw [allowed] at found
      exact ih found

open TrapDeed

/-- What many actions leave: memory is as it was, with trap bytes over it where somebody owns a trap
that is not lifted, and the table knows what is below. -/
structure Overlaid (memory : δ → UInt64 → UInt8) (d : δ) (actions : List Action)
    (s : Instrumented δ) : Prop where
  present : ∀ a, s.traps.contains a = true ↔ Owned (deedsAt a actions)
  trapped : ∀ a, Owned (deedsAt a actions) → ¬ Lifted (deedsAt a actions) →
    memory s.debuggee a = trapByte
  clear : ∀ a, ¬ Owned (deedsAt a actions) ∨ Lifted (deedsAt a actions) →
    memory s.debuggee a = memory d a
  masked : ∀ a n bytes, a.toNat + n < 2 ^ 64 → Debuggee.read d a n = .ok bytes →
    ∃ now, Debuggee.read s.debuggee a n = .ok now ∧ s.traps.mask a now = bytes
  decoded : ∀ a code, readCode d a = .ok code → a.toNat + code.length < 2 ^ 64 →
    decode s.traps s.debuggee a = Debuggee.decode d a code
  undone : (∀ a, ¬ Owned (deedsAt a actions)) → memory s.debuggee = memory d

/-- Whatever is done to the traps, in whatever order, never fails and leaves an overlay. -/
theorem performAll_overlaid (remembers : Remembers fit memory refused) (ready : fit d)
    (actions : List Action) (allowed : ∀ action ∈ actions, refused action.1 1 = none)
    (solvent : ∀ a, Solvent (deedsAt a actions)) :
    ∃ s : Instrumented δ, performAll actions ⟨⟨[]⟩, d⟩ = (.ok (), s) ∧
      Overlaid memory d actions s := by
  obtain ⟨s, done, fits, cells, decodes⟩ := performAll_run remembers ready actions allowed
  have settled (a : UInt64) : Settled (deedsAt a actions) (memory d a) (s.cell memory a) :=
    cells a ▸ settled_foldr a (memory d a) (solvent a)
  have covers (b : UInt64) : s.traps.covered b (memory s.debuggee b) = memory d b :=
    (settled b).seen_eq
  refine ⟨s, done, fun a => (settled a).trap_isSome, fun a => (settled a).trapped,
    fun a => (settled a).clear, ?_, ?_, fun unowned => funext fun a => ?_⟩
  · intro a n bytes room found
    rw [remembers.read d a n ready] at found
    rw [remembers.read s.debuggee a n fits]
    cases allowed : refused a n with
    | none =>
      rw [allowed] at found
      cases found
      exact ⟨_, rfl, mask_stretch covers room⟩
    | some fault =>
      rw [allowed] at found
      cases found
  · intro a code found room
    obtain ⟨bytes, again⟩ := attempt_stretch remembers ready fits _ found
    have window : readCode s.debuggee a = .ok (stretch (memory s.debuggee) a code.length) := again
    rw [decode, window]
    show Debuggee.decode s.debuggee a (s.traps.mask a _) = _
    rw [mask_stretch covers room, ← bytes, decodes]
  · exact (settled a).clear (.inl (unowned a))

/-- A script with four bytes of memory, of which one is a trap byte from the start. -/
def patch : Scripted := ⟨0, [], [⟨0x1000, [trapByte, 0x55, 0xC3, 0x90]⟩], [], [], []⟩

/-- A breakpoint goes while its trap is lifted; a step stays at a trap byte. -/
def patching : List Action :=
  [(0x1000, .addStep), (0x1001, .addUser 1), (0x1000, .addStep), (0x1001, .addUser 1),
    (0x1001, .lift), (0x1001, .removeUser 1), (0x1001, .restore), (0x1002, .addUser 2),
    (0x1000, .lift), (0x1000, .removeStep), (0x1000, .restore), (0x1002, .lift)]

theorem performAll_overlaid_patch :
    (∀ action ∈ patching, Scripted.refusal 0x1000 4 action.1 1 = none) ∧
      (∀ a, Solvent (deedsAt a patching)) ∧
      ∃ s : Instrumented Scripted, performAll patching ⟨⟨[]⟩, patch⟩ = (.ok (), s) ∧
        Overlaid Scripted.byteAt patch patching s := by
  have allowed : ∀ action ∈ patching, Scripted.refusal 0x1000 4 action.1 1 = none := by
    simp [patching, Scripted.refusal, Scripted.inAddressSpace]
  have solvent (a : UInt64) : Solvent (deedsAt a patching) := by
    by_cases first : 0x1000 = a
    · subst first
      simp [deedsAt, patching, Solvent, steps]
    · by_cases second : 0x1001 = a
      · subst second
        simp [deedsAt, patching, Solvent, steps]
      · by_cases third : 0x1002 = a
        · subst third
          simp [deedsAt, patching, Solvent, steps]
        · simp [deedsAt, patching, first, second, third, Solvent]
  have ready : patch.Willing [(0x1000, 4)] := ⟨rfl, rfl, by simp [patch]⟩
  exact ⟨allowed, solvent,
    performAll_overlaid Scripted.remembers ready patching allowed solvent⟩

end Instrumented

end SourceDebugger
