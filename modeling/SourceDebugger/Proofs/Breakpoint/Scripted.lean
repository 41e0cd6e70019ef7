import SourceDebugger.Proofs.Breakpoint.Binding
import SourceDebugger.Script
/-!
Where a scripted debuggee can be trapped. If its script lets nothing fail and leaves the memory to the
debugger, it is wherever there is memory.
-/

namespace SourceDebugger

open Effect

namespace Scripted

/-- Where the regions of memory lie. -/
def extents (s : Scripted) : List (UInt64 × Nat) := s.memory.map fun r => (r.base, r.bytes.length)

/-- Whether there is a byte at an address. -/
def holds (extents : List (UInt64 × Nat)) (address : UInt64) : Bool :=
  (extents.any fun e => e.1 ≤ address && address.toNat + 1 ≤ e.1.toNat + e.2) &&
    inAddressSpace address 1

/-- A script in which nothing fails, and that leaves the memory to the debugger. -/
structure Willing (regions : List (UInt64 × Nat)) (s : Scripted) : Prop where
  extents : s.extents = regions
  failures : s.failures = []
  moments : ∀ m ∈ s.moments, m.memory = []

variable {regions : List (UInt64 × Nat)} {s : Scripted}

theorem act_willing (action : ScriptedAction) (willing : s.Willing regions) :
    ∃ log, act action s = (.ok (), { s with log }) := by
  refine ⟨(action, false) :: s.log, ?_⟩
  rw [act, bind_ok (get_run s)]
  simp only [willing.failures, List.any_nil, Bool.false_eq_true, if_false]
  rw [bind_ok (set_run s _)]
  rfl

theorem Willing.logged (willing : s.Willing regions) (log : List (ScriptedAction × Bool)) :
    Willing regions { s with log } := ⟨willing.extents, willing.failures, willing.moments⟩

theorem overwriteIn_extents {address : UInt64} {new : Bytes} {before after : List Region}
    (done : overwriteIn address new before = some after) :
    (after.map fun r => (r.base, r.bytes.length)) = before.map fun r => (r.base, r.bytes.length) := by
  induction before generalizing after with
  | nil => cases done
  | cons region rest ih =>
    rw [overwriteIn] at done
    split at done
    · rename_i covers
      cases done
      simp only [Region.covers, Bool.and_eq_true, decide_eq_true_eq] at covers
      have low : region.base.toNat ≤ address.toNat := UInt64.le_iff_toNat_le.mp covers.1
      have fits : (overwrite region.bytes (region.offset address) new).length = region.bytes.length := by
        simp only [overwrite, Region.offset, List.length_append, List.length_take, List.length_drop]
        omega
      rw [List.map_cons, List.map_cons, fits]
    · obtain ⟨others, found, rfl⟩ := Option.map_eq_some_iff.mp done
      rw [List.map_cons, List.map_cons, ih found]

theorem overwriteIn_one (address : UInt64) (byte : UInt8) (regions : List Region) :
    (overwriteIn address [byte] regions).isSome = regions.any (Region.covers · address 1) := by
  induction regions with
  | nil => rfl
  | cons region rest ih =>
    rw [overwriteIn, List.any_cons]
    cases covered : region.covers address [byte].length with
    | true => simp
    | false => simp [ih]

theorem covered_iff (willing : s.Willing regions) (address : UInt64) :
    (s.memory.any (Region.covers · address 1) && inAddressSpace address 1) = holds regions address := by
  rw [holds, ← willing.extents, extents, List.any_map]
  rfl

/-- A byte can be read where there is one. -/
theorem load_willing (willing : s.Willing regions) (address : UInt64) :
    (∃ byte, s.load address 1 = .ok [byte]) ∧ holds regions address = true ∨
      (∃ e, s.load address 1 = .error e) ∧ holds regions address = false := by
  rw [← covered_iff willing, load, if_neg (by decide)]
  cases found : s.memory.find? (Region.covers · address 1) with
  | none =>
    have nowhere : s.memory.any (Region.covers · address 1) = false := by
      rw [← List.isSome_find?, found]
      rfl
    exact .inr ⟨⟨_, rfl⟩, by rw [nowhere]; rfl⟩
  | some region =>
    have somewhere : s.memory.any (Region.covers · address 1) = true := by
      rw [← List.isSome_find?, found]
      rfl
    rw [somewhere, Bool.true_and]
    cases space : inAddressSpace address 1 with
    | false => exact .inr ⟨⟨_, rfl⟩, rfl⟩
    | true =>
      refine .inl ⟨?_, rfl⟩
      have covers := List.find?_some found
      simp only [Region.covers, Bool.and_eq_true, decide_eq_true_eq] at covers
      have low : region.base.toNat ≤ address.toNat := UInt64.le_iff_toNat_le.mp covers.1
      have inside : region.offset address < region.bytes.length := by
        rw [Region.offset]
        omega
      exact ⟨region.bytes[region.offset address], by simp [List.take_one, inside]⟩

theorem write_willing (willing : s.Willing regions) (address : UInt64) (bytes : Bytes) :
    (write address bytes s).2.Willing regions := by
  obtain ⟨log, acted⟩ := act_willing (.write address bytes) willing
  rw [write, bind_ok acted, bind_ok (get_run _), storeRaw]
  cases done : overwriteIn address bytes s.memory with
  | none => exact willing.logged log
  | some memory =>
    dsimp only
    cases inAddressSpace address bytes.length with
    | true => exact ⟨(overwriteIn_extents done).trans willing.extents, willing.failures, willing.moments⟩
    | false => exact willing.logged log

theorem insert_willing (willing : s.Willing regions) (address : UInt64) :
    ((TrapByte.new address).insert s).1.2 = .ok () ↔ holds regions address = true := by
  rw [TrapByte.insert_new_ok]
  rcases load_willing willing address with ⟨⟨byte, read⟩, here⟩ | ⟨⟨e, read⟩, nowhere⟩
  · refine iff_of_true ⟨⟨byte, [], read⟩, ?_⟩ here
    obtain ⟨log, acted⟩ := act_willing (.write address [trapByte]) willing
    rw [← covered_iff willing, Bool.and_eq_true] at here
    have somewhere := (overwriteIn_one address trapByte s.memory).trans here.1
    obtain ⟨memory, done⟩ := Option.isSome_iff_exists.mp somewhere
    have stored : storeRaw { s with log } address [trapByte] = .ok { s with memory, log } := by
      rw [storeRaw]
      dsimp only
      rw [done]
      exact if_pos here.2
    show (write address [trapByte] s).1 = _
    rw [write, bind_ok acted, bind_ok (get_run _), stored]
    rfl
  · refine iff_of_false ?_ (by simp [nowhere])
    rintro ⟨⟨byte, rest, found⟩, _⟩
    cases read.symm.trans found

theorem prepare_willing {moment : ScriptedMoment} (quiet : moment.memory = [])
    (willing : s.Willing regions) : (s.prepare moment).Willing regions := by
  have registers (rs : List (ThreadId × Registers)) (s : Scripted) (willing : s.Willing regions) :
      (rs.foldl (fun s r => s.putRegisters r.1 r.2) s).Willing regions := by
    induction rs generalizing s with
    | nil => exact willing
    | cons r rest ih => exact ih _ ⟨willing.extents, willing.failures, willing.moments⟩
  rw [prepare, quiet]
  exact registers moment.registers s willing

theorem poll_willing (millis : Nat) :
    Keeps (Stays (Willing regions)) (Debuggee.poll millis : Access Scripted (Option Event)) := by
  intro s willing
  show Willing regions (poll s).2
  rw [poll, bind_ok (get_run s)]
  cases moments : s.moments with
  | nil => exact willing
  | cons moment rest =>
    have quiet := willing.moments moment (by simp [moments])
    have after : Willing regions ({ s with moments := rest }.prepare moment) :=
      prepare_willing quiet ⟨willing.extents, willing.failures, fun m member =>
        willing.moments m (by simp [moments, member])⟩
    dsimp only
    rw [bind_ok (modify_run _ s)]
    cases moment.finding <;> exact after

theorem dependable : Dependable (holds regions) (Willing regions) where
  insert _ address willing := insert_willing willing address
  poll := poll_willing
  resume mode s willing := by
    obtain ⟨log, acted⟩ := act_willing (.resume mode) willing
    show Willing regions (act (.resume mode) s).2
    rw [acted]
    exact willing.logged log
  write address bytes s willing := write_willing willing address bytes
  setRegisters thread regs s willing := by
    obtain ⟨log, acted⟩ := act_willing (.setRegisters thread regs) willing
    show Willing regions ((act (.setRegisters thread regs) >>= fun _ =>
      modify (·.putRegisters thread regs)) s).2
    rw [bind_ok acted]
    exact ⟨willing.extents, willing.failures, willing.moments⟩
  interrupt s willing := by
    obtain ⟨log, acted⟩ := act_willing .interrupt willing
    show Willing regions (act .interrupt s).2
    rw [acted]
    exact willing.logged log
  terminate s willing := by
    obtain ⟨log, acted⟩ := act_willing .terminate willing
    show Willing regions (act .terminate s).2
    rw [acted]
    exact willing.logged log

end Scripted

end SourceDebugger
