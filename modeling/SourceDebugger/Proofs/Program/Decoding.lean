import SourceDebugger.Proofs.Program.Frames
import SourceDebugger.Proofs.Program.Symbols
import SourceDebugger.Proofs.Traps.Laid
/-!
What a debugger sees of a program's code. Under the traps that it has laid it decodes the
instructions that the program consists of.
-/
namespace SourceDebugger

open Machine Traps

/-- A machine is a plain one with traps in it, and driven in some way. From an address on to the top of
the stack there is no trap. -/
def Traps.Covering (ts : Traps) (low : Nat) (x m : Machine) : Prop :=
  ∃ d : Dress, m = d.on x ∧ Laid ts x d.spots ∧
    ∀ s ∈ d.spots, s.address < low ∨ stackTop.toNat ≤ s.address

theorem Traps.Covering.mono {ts : Traps} {low high : Nat} {x m : Machine}
    (covering : ts.Covering low x m) (above : low ≤ high) : ts.Covering high x m := by
  obtain ⟨d, dressed, laid, aside⟩ := covering
  refine ⟨d, dressed, laid, fun s member => ?_⟩
  have := aside s member
  omega

namespace Machine

variable {p : Program} {e : Executable} {rs : List Routine} {r : Routine} {ts : Traps}
  {x m : Machine} {low : Nat}

/-- What an instruction is to a debugger. -/
def Instr.kind : Instr → InstructionKind
  | .call _ => .call
  | .ret => .return
  | .pushFrame => .pushFramePointer
  | _ => .other

theorem classify_mark (a : UInt64) (i : Instr) (rest : Bytes) :
    classify a (mark (a, i) :: rest) = .ok ⟨a, i.length, i.kind⟩ := by
  cases i <;> rfl

/-- A byte of code read through the table is the byte that the program has there. -/
theorem covered_eq {spots : List Spot} (laid : Laid ts x spots) {a : UInt64} {offset : Nat} {b : UInt8}
    (located : x.locate a 1 = .ok (.code, offset)) (there : x.code[offset]? = some b) :
    ts.covered a (if (.code, offset) ∈ spots then trapByte else b) = b := by
  have spot := laid.mem_iff located
  have peek : x.peek (.code, offset) = b := by
    show (x.code[offset]?).getD 0 = b
    rw [there]
    rfl
  rw [covered]
  cases found : ts.find? a with
  | none =>
    rw [found] at spot
    have free : (Region.code, offset) ∉ spots := fun member => by
      obtain ⟨t, h, _⟩ := spot.mp member
      cases h
    exact if_neg free
  | some t =>
    cases inserted : t.byte.inserted with
    | true =>
      dsimp only
      rw [inserted, if_pos rfl, laid.covered a t _ found inserted located, peek]
    | false =>
      have free : (Region.code, offset) ∉ spots := fun member => by
        obtain ⟨u, h, present⟩ := spot.mp member
        cases found.symm.trans h
        rw [inserted] at present
        cases present
      dsimp only
      rw [inserted, if_neg free]
      rfl

theorem locate_code {a : UInt64} {n : Nat} (above : codeBase.toNat ≤ a.toNat)
    (high : a.toNat + n ≤ codeBase.toNat + x.code.size) (room : a.toNat + n < 2 ^ 64) :
    x.locate a n = .ok (.code, (a - codeBase).toNat) := by
  have base : Region.code.base = codeBase.toNat := rfl
  rw [locate_run, if_neg (by omega), if_pos ⟨by rw [base]; exact above, high⟩,
    UInt64.toNat_sub_of_le _ _ (UInt64.le_iff_toNat_le.mpr above), base]

/-- The instructions of a program are decoded as what they are. -/
theorem decode_address (asm : Assembled p e rs) (covering : ts.Covering low x m) (code : x.code = e.code)
    (member : r ∈ rs) {k : Nat} {i : Instr} (there : r.code[k]? = some i) :
    Instrumented.decode ts m (r.address k) = .ok ⟨r.address k, i.length, i.kind⟩ := by
  obtain ⟨d, rfl, laid, _⟩ := covering
  have bounds := asm.bounds member
  have place := asm.offset_inside member there
  have byte := asm.code_mark member there
  have offset := toNat_offset place.2.2
  have long := (length_bounds i).1
  have located (n : Nat) (short : n ≤ 16) : x.locate (r.address k) n =
      .ok (.code, (r.address k - codeBase).toNat) :=
    locate_code place.2.2 (by rw [code]; omega) (by omega)
  rw [← code] at byte
  have read : Instrumented.readCode (d.on x) (r.address k) =
      .ok ((overlay d.spots .code x.code).extract (r.address k - codeBase).toNat
        ((r.address k - codeBase).toNat + 16)).toList := by
    have loaded := load_located (x := d.on x) (n := 16) (by decide)
      ((locate_on _ _).trans (located 16 (Nat.le_refl _)))
    rw [region_on] at loaded
    have first : Debuggee.read (d.on x) (r.address k) 16 = _ := loaded
    rw [Instrumented.readCode, Instrumented.readCode.attempt, first]
    rfl
  have head : ((overlay d.spots .code x.code).extract (r.address k - codeBase).toNat
      ((r.address k - codeBase).toNat + 16)).toList[0]? =
        some (if (.code, (r.address k - codeBase).toNat) ∈ d.spots then trapByte
          else mark (r.address k, i)) := by
    rw [Array.getElem?_toList, Array.getElem?_extract, if_pos (by rw [size_overlay, code]; omega),
      Nat.add_zero, overlay_getElem?, byte]
    rfl
  rw [Instrumented.decode, read]
  generalize ((overlay d.spots .code x.code).extract (r.address k - codeBase).toNat
    ((r.address k - codeBase).toNat + 16)).toList = bytes at head
  cases bytes with
  | nil => cases head
  | cons b rest =>
    cases Option.some.inj head
    have inner : r.address k + 1 ≠ 0 := by
      intro zero
      have sum := congrArg UInt64.toNat zero
      rw [UInt64.toNat_add] at sum
      have one : (1 : UInt64).toNat = 1 := rfl
      have none : (0 : UInt64).toNat = 0 := rfl
      omega
    show classify _ (ts.mask _ (_ :: rest)) = _
    rw [mask, if_neg inner, covered_eq laid (located 1 (by omega)) byte, classify_mark]

end Machine

end SourceDebugger
