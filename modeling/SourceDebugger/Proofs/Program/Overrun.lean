import Mathlib
import SourceDebugger.Proofs.Machine.Polling
import SourceDebugger.Proofs.Machine.Words
import SourceDebugger.Proofs.Program.Decoding
/-!
A program that does not leave its code alone. It stores a text where there is room for a truth value,
and the length of the text becomes the frame pointer of the caller, whose next store is then anywhere,
in the code, too.
-/
namespace SourceDebugger

namespace Machine

open Effect

theorem toNat_length (n : Nat) : UInt64.ofNat (Bytes.toNat (Bytes.ofNat 8 n)) = UInt64.ofNat n := by
  rw [Bytes.toNat_ofNat]
  exact UInt64.toNat_inj.mp (by simp)

section Stack

variable {x : Machine} (code : x.code.size ≤ 0x1000) (stack : x.stack.size = stackSize.toNat)
  {a : UInt64} {k n : Nat}

include code stack

/-- Where a stretch of the stack lies, if there is little code. -/
theorem locate_above (place : a.toNat = 0x7ffe0000 + k) (room : k + n ≤ 0x10000) :
    x.locate a n = .ok (.stack, k) := by
  have away : ¬ Holds x a n .code := by
    have base : Region.code.base = 0x400000 := rfl
    simp only [Holds, region, base]
    omega
  have base : Region.stack.base = 0x7ffe0000 := rfl
  have here : Holds x a n .stack := by
    have size : stackSize.toNat = 0x10000 := rfl
    simp only [Holds, region, base]
    omega
  rw [locate_run, if_neg (by omega), if_neg away, if_pos here, base, place, Nat.add_sub_cancel_left]

theorem push_above (w : UInt64) (down : x.registers.sp - 8 = a)
    (place : a.toNat = 0x7ffe0000 + k) (room : k + 8 ≤ 0x10000) :
    push w x = (.ok (), { x with
      registers := ⟨x.registers.pc, a, x.registers.fp⟩
      stack := writeAt x.stack k (Bytes.ofWord w) }) := by
  have length : (Bytes.ofWord w).length = 8 := Bytes.length_ofNat 8 _
  rw [push_run, down, store_run, length, locate_above (by exact code) (by exact stack) place room]
  rfl

theorem load_above (place : a.toNat = 0x7ffe0000 + k) (room : k + 8 ≤ 0x10000) :
    x.load a 8 = .ok (x.stack.extract k (k + 8)).toList := by
  rw [load_located (by decide) (locate_above code stack place room)]
  rfl

end Stack

/-- A program in which a function stores a text where there is room for a truth value. -/
def overrun (t : String) : Program where
  path := "/bin/overrun"
  sourceFile := "overrun.src"
  entry := "main"
  functions :=
    [⟨"main", [], [("n", .int)], some 1, some 3,
        [.of (some 2) [.call "f", .store "n" (.int 204), .exit 0]]⟩,
      ⟨"f", [], [("s", .bool)], some 4, some 6,
        [.of (some 5) [.store "s" (.text (some t))]]⟩]
  libraries := []

def overrunCode (t : String) : Executable := (overrun t).assemble.toOption.getD default

theorem overrun_built (t : String) : (overrun t).assemble = .ok (overrunCode t) := by rfl

/-- A text so long that the store of the caller meets its last instruction. -/
def longText : String := String.ofList (List.replicate 0x40002a 'a')

theorem length_replicate_utf8 (n : Nat) :
    (String.ofList (List.replicate n 'a')).toUTF8.data.toList.length = n := by
  rw [String.toUTF8, String.toByteArray_ofList]
  induction n with
  | zero => rfl
  | succ n ih =>
    rw [List.replicate_succ, List.utf8Encode_cons, ByteArray.data_append, Array.toList_append,
      List.length_append, ih]
    exact Nat.add_comm 1 n

theorem length_longText : longText.toUTF8.data.toList.length = 0x40002a := by
  unfold longText
  exact length_replicate_utf8 _

def overrunInstrs (t : String) : List (UInt64 × Instr) :=
  [(0x400010, .pushFrame), (0x400011, .setFrame), (0x400015, .reserve 16), (0x400019, .call 0x400030),
    (0x40001e, .store (-8) (.int 204)), (0x400022, .exit 0), (0x400030, .pushFrame),
    (0x400031, .setFrame), (0x400035, .reserve 16), (0x400039, .store (-8) (.text (some t))),
    (0x40003d, .leave), (0x400041, .ret)]

theorem overrun_instrAt (t : String) :
    ∀ place ∈ overrunInstrs t, (overrunCode t).instrAt? place.1 = some place.2 := by
  have same : (overrunInstrs t).map (fun place => (overrunCode t).instrAt? place.1) =
      (overrunInstrs t).map fun place => some place.2 := by cbv
  exact List.map_inj_left.mp same

theorem overrun_instrAt_behind (t : String) : (overrunCode t).instrAt? 0x400023 = none := by cbv

theorem size_overrun (t : String) : (overrunCode t).code.size = 0x52 := by cbv

/-- A machine that runs the program, with no trap but on the last instruction. -/
structure Overruns (t : String) (x : Machine) : Prop where
  executable : x.executable = overrunCode t
  pending : x.pending = []
  code : x.code.size = (overrunCode t).code.size
  free : ∀ place ∈ overrunInstrs t, place.1 ≠ 0x400022 →
    x.code[(place.1 - codeBase).toNat]? ≠ some trapByte

/-- The machine with other registers, another stack and another heap. -/
def shifted (x : Machine) (r : Registers) (stack heap : Array UInt8) : Machine :=
  { x with registers := r, stack, heap }

/-- The machine behind the trap that it has written over its last instruction. -/
def overwritten (x : Machine) (stack heap : Array UInt8) : Machine :=
  { x.shifted ⟨0x400023, 0x7ffeffe0, 0x40002a⟩ stack heap with
    code := writeAt x.code 0x22 [0xCC, 0, 0, 0], motion := .stopped }

theorem overwritten_code (x : Machine) (stack heap : Array UInt8) :
    (x.overwritten stack heap).code = writeAt x.code 0x22 [0xCC, 0, 0, 0] := by
  unfold overwritten
  rfl

/-- What the program has not touched. -/
theorem overwritten_kept (x : Machine) (stack heap : Array UInt8) :
    (x.overwritten stack heap).executable = x.executable ∧
      (x.overwritten stack heap).pending = x.pending ∧
        (x.overwritten stack heap).interruptRequested = x.interruptRequested ∧
          (x.overwritten stack heap).pendingSignal = x.pendingSignal := by
  unfold overwritten shifted
  exact ⟨rfl, rfl, rfl, rfl⟩

section Overruns

variable {t : String} {x : Machine} (overruns : Overruns t x) {S H : Array UInt8}
  (size : S.size = stackSize.toNat) {pc sp fp next a : UInt64}

include overruns

theorem Overruns.small : (x.shifted ⟨pc, sp, fp⟩ S H).code.size ≤ 0x1000 := by
  have := overruns.code
  have := size_overrun t
  simp only [shifted]
  omega

theorem Overruns.goes {i : Instr} (found : (pc, i) ∈ overrunInstrs t) (early : pc ≠ 0x400022)
    (other : i ≠ .break) (onward : pc + i.length = next) :
    execute (x.shifted ⟨pc, sp, fp⟩ S H) = effect next i (x.shifted ⟨next, sp, fp⟩ S H) := by
  rw [← onward]
  have there : (x.shifted ⟨pc, sp, fp⟩ S H).executable.instrAt? pc = some i := by
    rw [show (x.shifted ⟨pc, sp, fp⟩ S H).executable = overrunCode t from overruns.executable]
    exact overrun_instrAt t _ found
  exact execute_free there fun blocked => blocked.elim (overruns.free _ found early) other

omit overruns in
theorem effect_pushFrame (next : UInt64) (x : Machine) :
    effect next .pushFrame x = outcome false (push x.registers.fp x) := effect_run next .pushFrame x

omit overruns in
theorem effect_call {target : UInt64} {S' : Array UInt8}
    (pushed : push next (x.shifted ⟨next, sp, fp⟩ S H) = (.ok (), x.shifted ⟨next, a, fp⟩ S' H)) :
    effect next (.call target) (x.shifted ⟨next, sp, fp⟩ S H) =
      (.ok false, x.shifted ⟨target, a, fp⟩ S' H) := by
  rw [effect_run]
  dsimp only
  rw [pushed]
  rfl

omit overruns in
theorem effect_leave {bytes : Bytes} (loaded : (x.shifted ⟨next, sp, fp⟩ S H).load fp 8 = .ok bytes) :
    effect next .leave (x.shifted ⟨next, sp, fp⟩ S H) =
      (.ok false, x.shifted ⟨next, fp + 8, UInt64.ofNat (Bytes.toNat bytes)⟩ S H) := by
  rw [effect_run]
  dsimp only
  rw [show (x.shifted ⟨next, sp, fp⟩ S H).registers.fp = fp from rfl, loaded]
  rfl

omit overruns in
theorem effect_ret {bytes : Bytes} (loaded : (x.shifted ⟨next, sp, fp⟩ S H).load sp 8 = .ok bytes)
    (word : UInt64.ofNat (Bytes.toNat bytes) = a) (goes : a ≠ 0) :
    effect next .ret (x.shifted ⟨next, sp, fp⟩ S H) = (.ok false, x.shifted ⟨a, sp + 8, fp⟩ S H) := by
  rw [effect_run]
  dsimp only
  rw [show (x.shifted ⟨next, sp, fp⟩ S H).registers.sp = sp from rfl, loaded]
  dsimp only
  rw [word, if_neg goes]
  rfl

/-- From its start to the return from the function the program runs through, and the length of the text
becomes the frame pointer of `main`. -/
theorem Overruns.runs (registers : x.registers = ⟨0x400010, 0x7ffefff8, 0⟩)
    (stack : x.stack.size = stackSize.toNat) : ∃ S H, Quiet 10 x
      (x.shifted ⟨0x40001e, 0x7ffeffe0, UInt64.ofNat t.toUTF8.data.toList.length⟩ S H) := by
  have go {pc sp fp : UInt64} {S H : Array UInt8} {i : Instr} (next : UInt64)
      (found : (pc, i) ∈ overrunInstrs t) (early : pc ≠ 0x400022) (other : i ≠ .break)
      (onward : pc + i.length = next) {y : Machine}
      (done : effect next i (x.shifted ⟨next, sp, fp⟩ S H) = (.ok false, y)) :
      execute (x.shifted ⟨pc, sp, fp⟩ S H) = (.ok false, y) :=
    (overruns.goes found early other onward).trans done
  have s1 (S H) (size : S.size = stackSize.toNat) :
      execute (x.shifted ⟨0x400010, 0x7ffefff8, 0⟩ S H) =
        (.ok false, x.shifted ⟨0x400011, 0x7ffefff0, 0⟩ (writeAt S 0xfff0 (Bytes.ofWord 0)) H) := by
    refine go (i := .pushFrame) 0x400011 (by simp [overrunInstrs]) (by decide) (by decide) (by decide) ?_
    rw [effect_pushFrame, push_above (a := 0x7ffefff0) (k := 0xfff0) overruns.small size _
      (by exact (by decide : (0x7ffefff8 - 8 : UInt64) = 0x7ffefff0)) (by decide) (by decide)]
    rfl
  have s2 (S H) : execute (x.shifted ⟨0x400011, 0x7ffefff0, 0⟩ S H) =
      (.ok false, x.shifted ⟨0x400015, 0x7ffefff0, 0x7ffefff0⟩ S H) :=
    go (i := .setFrame) 0x400015 (by simp [overrunInstrs]) (by decide) (by decide) (by decide)
      (effect_run _ _ _)
  have s3 (S H) : execute (x.shifted ⟨0x400015, 0x7ffefff0, 0x7ffefff0⟩ S H) =
      (.ok false, x.shifted ⟨0x400019, 0x7ffeffe0, 0x7ffefff0⟩ S H) := by
    refine go (i := .reserve 16) 0x400019 (by simp [overrunInstrs]) (by decide) (by decide) (by decide)
      ((effect_run _ _ _).trans ?_)
    exact congrArg (fun sp => (Except.ok false, x.shifted ⟨0x400019, sp, 0x7ffefff0⟩ S H))
      (by decide : (0x7ffefff0 - 16 : UInt64) = 0x7ffeffe0)
  have s4 (S H) (size : S.size = stackSize.toNat) :
      execute (x.shifted ⟨0x400019, 0x7ffeffe0, 0x7ffefff0⟩ S H) =
        (.ok false,
          x.shifted ⟨0x400030, 0x7ffeffd8, 0x7ffefff0⟩ (writeAt S 0xffd8 (Bytes.ofWord 0x40001e)) H) := by
    refine go (i := .call 0x400030) 0x40001e (by simp [overrunInstrs]) (by decide) (by decide) (by decide)
      (effect_call ?_)
    exact push_above (a := 0x7ffeffd8) (k := 0xffd8) overruns.small size _
      (by exact (by decide : (0x7ffeffe0 - 8 : UInt64) = 0x7ffeffd8)) (by decide) (by decide)
  have s5 (S H) (size : S.size = stackSize.toNat) :
      execute (x.shifted ⟨0x400030, 0x7ffeffd8, 0x7ffefff0⟩ S H) =
        (.ok false,
          x.shifted ⟨0x400031, 0x7ffeffd0, 0x7ffefff0⟩ (writeAt S 0xffd0 (Bytes.ofWord 0x7ffefff0)) H) := by
    refine go (i := .pushFrame) 0x400031 (by simp [overrunInstrs]) (by decide) (by decide) (by decide) ?_
    rw [effect_pushFrame, push_above (a := 0x7ffeffd0) (k := 0xffd0) overruns.small size _
      (by exact (by decide : (0x7ffeffd8 - 8 : UInt64) = 0x7ffeffd0)) (by decide) (by decide)]
    rfl
  have s6 (S H) : execute (x.shifted ⟨0x400031, 0x7ffeffd0, 0x7ffefff0⟩ S H) =
      (.ok false, x.shifted ⟨0x400035, 0x7ffeffd0, 0x7ffeffd0⟩ S H) :=
    go (i := .setFrame) 0x400035 (by simp [overrunInstrs]) (by decide) (by decide) (by decide)
      (effect_run _ _ _)
  have s7 (S H) : execute (x.shifted ⟨0x400035, 0x7ffeffd0, 0x7ffeffd0⟩ S H) =
      (.ok false, x.shifted ⟨0x400039, 0x7ffeffc0, 0x7ffeffd0⟩ S H) := by
    refine go (i := .reserve 16) 0x400039 (by simp [overrunInstrs]) (by decide) (by decide) (by decide)
      ((effect_run _ _ _).trans ?_)
    exact congrArg (fun sp => (Except.ok false, x.shifted ⟨0x400039, sp, 0x7ffeffd0⟩ S H))
      (by decide : (0x7ffeffd0 - 16 : UInt64) = 0x7ffeffc0)
  have s8 (S H) (size : S.size = stackSize.toNat) :
      execute (x.shifted ⟨0x400039, 0x7ffeffc0, 0x7ffeffd0⟩ S H) =
        (.ok false, x.shifted ⟨0x40003d, 0x7ffeffc0, 0x7ffeffd0⟩
          (writeAt S 0xffc8 ((Datum.text (some t)).slot H.size))
          (H.appendList (Datum.text (some t)).payload)) := by
    refine go (i := .store (-8) (.text (some t))) 0x40003d (by simp [overrunInstrs]) (by decide)
      (by simp) (show (0x400039 + 4 : UInt64) = 0x40003d by decide) ((effect_run _ _ _).trans ?_)
    dsimp only
    rw [store_run, length_slot, show (x.shifted ⟨0x40003d, 0x7ffeffc0, 0x7ffeffd0⟩ S H).registers.fp +
      (-8 : Int64).toUInt64 = 0x7ffeffc8 from (by decide : (0x7ffeffd0 + (-8 : Int64).toUInt64) = 0x7ffeffc8),
      show (Datum.text (some t)).size = 16 from rfl,
      locate_above (k := 0xffc8) (by exact overruns.small) (by exact size) (by decide)
        (show 0xffc8 + 16 ≤ 0x10000 by decide)]
    rfl
  have s9 (S H) (size : S.size = stackSize.toNat) {bytes : Bytes}
      (word : (S.extract 0xffd0 (0xffd0 + 8)).toList = bytes) :
      execute (x.shifted ⟨0x40003d, 0x7ffeffc0, 0x7ffeffd0⟩ S H) =
        (.ok false, x.shifted ⟨0x400041, 0x7ffeffd8, UInt64.ofNat (Bytes.toNat bytes)⟩ S H) := by
    refine go (i := .leave) 0x400041 (by simp [overrunInstrs]) (by decide) (by decide) (by decide)
      ((effect_leave (load_above (k := 0xffd0) overruns.small size (by decide) (by decide))).trans ?_)
    rw [show (x.shifted ⟨0x400041, 0x7ffeffc0, 0x7ffeffd0⟩ S H).stack = S from rfl, word]
    exact congrArg (fun sp => (Except.ok false, x.shifted ⟨0x400041, sp, _⟩ S H))
      (by decide : (0x7ffeffd0 + 8 : UInt64) = 0x7ffeffd8)
  have s10 (fp S H) (size : S.size = stackSize.toNat)
      (word : (S.extract 0xffd8 (0xffd8 + 8)).toList = Bytes.ofWord 0x40001e) :
      execute (x.shifted ⟨0x400041, 0x7ffeffd8, fp⟩ S H) =
        (.ok false, x.shifted ⟨0x40001e, 0x7ffeffe0, fp⟩ S H) := by
    refine go (i := .ret) 0x400042 (by simp [overrunInstrs]) (by decide) (by decide) (by decide)
      ((effect_ret (a := 0x40001e) (load_above (k := 0xffd8) overruns.small size (by decide) (by decide))
        ?_ (by decide)).trans ?_)
    · rw [show (x.shifted ⟨0x400042, 0x7ffeffd8, fp⟩ S H).stack = S from rfl, word]
      exact toNat_ofWord _
    · exact congrArg (fun sp => (Except.ok false, x.shifted ⟨0x40001e, sp, _⟩ S H))
        (by decide : (0x7ffeffd8 + 8 : UInt64) = 0x7ffeffe0)
  have eight (w : UInt64) : (Bytes.ofWord w).length = 8 := Bytes.length_ofNat 8 w.toNat
  have total : stackSize.toNat = 0x10000 := rfl
  obtain ⟨S1, first⟩ : ∃ S1, writeAt x.stack 0xfff0 (Bytes.ofWord 0) = S1 := ⟨_, rfl⟩
  obtain ⟨S4, fourth⟩ : ∃ S4, writeAt S1 0xffd8 (Bytes.ofWord 0x40001e) = S4 := ⟨_, rfl⟩
  obtain ⟨S5, fifth⟩ : ∃ S5, writeAt S4 0xffd0 (Bytes.ofWord 0x7ffefff0) = S5 := ⟨_, rfl⟩
  obtain ⟨S8, eighth⟩ :
    ∃ S8, writeAt S5 0xffc8 ((Datum.text (some t)).slot x.heap.size) = S8 := ⟨_, rfl⟩
  have size1 : S1.size = stackSize.toNat := by rw [← first, size_writeAt, stack]
  have size4 : S4.size = stackSize.toNat := by rw [← fourth, size_writeAt, size1]
  have size5 : S5.size = stackSize.toNat := by rw [← fifth, size_writeAt, size4]
  have size8 : S8.size = stackSize.toNat := by rw [← eighth, size_writeAt, size5]
  have back : (S8.extract 0xffd8 (0xffd8 + 8)).toList = Bytes.ofWord 0x40001e := by
    rw [← eighth, extract_writeAt_apart (.inr (by rw [length_slot]; exact Nat.le_refl 0xffd8)), ← fifth,
      extract_writeAt_apart (.inr (Nat.le_of_eq (by rw [eight]))), ← fourth]
    exact extract_writeAt (by rw [eight]; omega)
  have saved : (S8.extract 0xffd0 (0xffd0 + 8)).toList = Bytes.ofNat 8 t.toUTF8.data.toList.length := by
    rw [← eighth]
    exact extract_fatPointer (by omega) _ _
  have quiet {k : Nat} {r r' : Registers} {S S' H H' : Array UInt8} {l : Machine}
      (done : execute (x.shifted r S H) = (.ok false, x.shifted r' S' H'))
      (rest : Quiet k (x.shifted r' S' H') l) : Quiet (k + 1) (x.shifted r S H) l :=
    .step done overruns.pending rest
  have run : Quiet 10 (x.shifted ⟨0x400010, 0x7ffefff8, 0⟩ x.stack x.heap) _ :=
    quiet (first ▸ s1 x.stack x.heap stack) <| quiet (s2 S1 x.heap) <| quiet (s3 S1 x.heap) <|
    quiet (fourth ▸ s4 S1 x.heap size1) <| quiet (fifth ▸ s5 S4 x.heap size4) <|
    quiet (s6 S5 x.heap) <| quiet (s7 S5 x.heap) <| quiet (eighth ▸ s8 S5 x.heap size5) <|
    quiet (s9 S8 _ size8 saved) <| quiet (s10 _ S8 _ size8 back) (.refl _)
  have start : x.shifted ⟨0x400010, 0x7ffefff8, 0⟩ x.stack x.heap = x := by
    rw [← registers]
    rfl
  rw [start, toNat_length] at run
  exact ⟨S8, _, run⟩

/-- With a text as long as the address of the last instruction of `main` is large, its store lies over
that instruction. -/
theorem Overruns.writes :
    execute (x.shifted ⟨0x40001e, 0x7ffeffe0, 0x40002a⟩ S H) =
      (.ok false, { x.shifted ⟨0x400022, 0x7ffeffe0, 0x40002a⟩ S H with
        code := writeAt x.code 0x22 [0xCC, 0, 0, 0] }) := by
  have size : x.code.size = 0x52 := overruns.code.trans (size_overrun t)
  have place (H) : (x.shifted ⟨0x400022, 0x7ffeffe0, 0x40002a⟩ S H).locate 0x400022 4 =
      .ok (.code, 0x22) :=
    locate_code (by decide) (show 0x400022 + 4 ≤ 0x400000 + x.code.size by omega) (by decide)
  refine (overruns.goes (i := .store (-8) (.int 204)) (by simp [overrunInstrs]) (by decide) (by decide)
    (by decide)).trans ((effect_run 0x400022 _ _).trans ?_)
  dsimp only
  rw [store_run, length_slot, show (Datum.int 204).size = 4 from rfl,
    show (x.shifted ⟨0x400022, 0x7ffeffe0, 0x40002a⟩ S H).registers.fp + (-8 : Int64).toUInt64 =
      0x400022 from (by decide : (0x40002a + (-8 : Int64).toUInt64) = 0x400022)]
  rw [show Machine.locate { x.shifted ⟨0x400022, 0x7ffeffe0, 0x40002a⟩ S H with
    heap := (x.shifted ⟨0x400022, 0x7ffeffe0, 0x40002a⟩ S H).heap.appendList (Datum.int 204).payload }
    0x400022 4 = .ok (.code, 0x22) from place _]
  rfl

omit overruns in
theorem stops_overwritten {m : Machine} (pc : m.registers.pc = 0x400022)
    (executable : m.executable = overrunCode t) (byte : m.code[0x22]? = some trapByte) :
    execute m = (.ok true, m.trapped) := by
  have there : m.executable.instrAt? m.registers.pc = some (.exit 0) := by
    rw [executable, pc]
    exact overrun_instrAt t (0x400022, .exit 0) (by simp [overrunInstrs])
  have blocked : Blocked m (.exit 0) := .inl (by rw [pc]; exact byte)
  rw [execute_run, there]
  exact if_pos blocked

omit overruns in
/-- Without the trap the last instruction ends the program. -/
theorem stops_uncovered {m : Machine} (pc : m.registers.pc = 0x400022)
    (executable : m.executable = overrunCode t) (byte : m.code[0x22]? ≠ some trapByte)
    (stepping : m.motion = .stepping) (quiet : m.pending = []) :
    ∃ n, poll m = (.ok (some (.exited 0)), n) := by
  have there : m.executable.instrAt? m.registers.pc = some (.exit 0) := by
    rw [executable, pc]
    exact overrun_instrAt t (0x400022, .exit 0) (by simp [overrunInstrs])
  have free : ¬ Blocked m (.exit 0) := fun blocked =>
    blocked.elim (fun same => byte (by rw [pc] at same; exact same)) nofun
  have done := (execute_free there free).trans (effect_run _ _ _)
  dsimp only [stepped] at done
  rw [poll_run, quiet, advance_run, stepping]
  dsimp only
  rw [done]
  dsimp only
  rw [takeEvent_run, quiet]
  exact ⟨_, rfl⟩

/-- The machine runs from its start into a trap that nobody has put there. -/
theorem Overruns.traps (registers : x.registers = ⟨0x400010, 0x7ffefff8, 0⟩)
    (stack : x.stack.size = stackSize.toNat) (running : x.motion = .running)
    (free : x.interruptRequested = false) (length : t.toUTF8.data.toList.length = 0x40002a) :
    ∃ S H, poll x = (.ok (some (.trap mainThread 0x400023 .software)), x.overwritten S H) := by
  obtain ⟨S, H, runs⟩ := overruns.runs registers stack
  rw [length] at runs
  have byte : (writeAt x.code 0x22 [0xCC, 0, 0, 0])[0x22]? = some trapByte := by
    have size : x.code.size = 0x52 := overruns.code.trans (size_overrun t)
    rw [writeAt_getElem?, if_pos ⟨Nat.le_refl 0x22, show 0x22 < 0x22 + 4 by decide, by omega⟩]
    rfl
  have quiet : Quiet 11 x _ := runs.trans (.step overruns.writes overruns.pending (.refl _))
  unfold overwritten
  obtain ⟨C, patched⟩ : ∃ C, writeAt x.code 0x22 [0xCC, 0, 0, 0] = C := ⟨_, rfl⟩
  rw [patched] at byte quiet ⊢
  have none : x.pending = [] := overruns.pending
  refine ⟨S, H, (poll_report running none free quiet (by decide)
    (stops_overwritten rfl overruns.executable byte) (e := .trap mainThread 0x400023 .software) ?_).trans ?_⟩
  · show x.pending ++ _ = _
    rw [none]
    rfl
  · exact congrArg (fun pending => (_, { x.shifted ⟨0x400023, 0x7ffeffe0, 0x40002a⟩ S H with
      code := C, motion := .stopped, pending })) none.symm

end Overruns

end Machine

end SourceDebugger
